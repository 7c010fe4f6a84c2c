import DnsGateway.Bpf.Query
import DnsGateway.Ebpf.Reconcile

/-!
# Rules resolve queries

The controller writes the keys of the rules, the datapath looks up the tails of a query name.  The
two meet in the wire format: a probe hits exactly when the label lists agree, so the datapath
resolves a query by the longest rule that is a suffix of its name.
-/

namespace DnsGateway

open Reasoning Bpf Dnsenc Ebpf

/-! ## The abstract rule table -/

/-- Rules as label lists with actions. -/
abbrev RuleTable := List (List (List UInt8) × UInt32)

/-- The action of the longest rule that is a suffix of the name, or the default. -/
def resolvedAction (table : RuleTable) (defaultAction : UInt32) (name : List (List UInt8)) :
    UInt32 :=
  (longestMatch table name).getD defaultAction

/-- The table of a rule list, with the labels as `EncodeSuffix` sees them. -/
def ruleTable (unicodeToLower : GoString → GoString) (rules : List SuffixRule) : RuleTable :=
  rules.map fun r => (r.labels unicodeToLower, r.action)

/-! ## Refinement -/

/-- The content a successful `PopulateSuffixRules` leaves for the rules. -/
def Installed (unicodeToLower : GoString → GoString) (rules : List SuffixRule) (t : SuffixRules) :
    Prop :=
  ValidRules unicodeToLower rules ∧
    ∀ k a, (t.lookup k).map SuffixValue.action = some a ↔ Ebpf.Lists unicodeToLower rules k a

theorem installed_of_populate {unicodeToLower : GoString → GoString} {ops : MapOps}
    {orders : Orders} {rules : List SuffixRule} {t : SuffixRules}
    (h : (populateSuffixRules unicodeToLower ops orders rules t).err = none) :
    Installed unicodeToLower rules
      ((populateSuffixRules unicodeToLower ops orders rules t).final t) := by
  rcases populateSuffixRules_final h with ⟨desired, hdesired, -⟩
  exact ⟨(buildDesired_ok hdesired).1, populateSuffixRules_lists h⟩

section Installed

variable {unicodeToLower : GoString → GoString} {rules : List SuffixRule} {t : SuffixRules}

-- A probe for an encodable label list finds the rules with these labels.
theorem Installed.probe (h : Installed unicodeToLower rules t) {key : List (List UInt8)}
    (hkey : Dnsenc.Encodable key) (a : UInt32) :
    probeTable t 0 key = some a ↔ (key, a) ∈ ruleTable unicodeToLower rules := by
  change (t.lookup ⟨keyOf key⟩).map SuffixValue.action = some a ↔ _
  rw [h.2, Ebpf.Lists, ruleTable, List.mem_map]
  refine exists_congr fun r => and_congr_right fun hr => ?_
  rw [key?_eq_some_iff, Prod.mk.injEq]
  refine and_congr_left fun _ => ?_
  constructor
  · rintro ⟨henc, hk⟩
    exact ((suffixKey_inj hkey henc).mp hk).symm
  · intro hk
    rw [hk]
    exact ⟨hkey, rfl⟩

theorem Installed.table_ne_nil (r : List (List UInt8) × UInt32)
    (hr : r ∈ ruleTable unicodeToLower rules) : r.1 ≠ [] := by
  rcases List.mem_map.mp hr with ⟨rule, -, rfl⟩
  exact domainLabels_ne_nil _ _

-- The probes of the datapath compute the resolved action.
theorem Installed.resolve (h : Installed unicodeToLower rules t) {m : Maps}
    (hm : m.suffixRules = t) {ls : List (List UInt8)} (hls : Dnsenc.Encodable ls) :
    Bpf.resolve m ls 0 =
      resolvedAction (ruleTable unicodeToLower rules) m.configMap.defaultAction ls := by
  rw [Bpf.resolve, hm, resolvedAction, firstTail_eq_longestMatch table_ne_nil]
  exact fun key hk _ v => h.probe (hls.suffix hk) v

end Installed

theorem encodable_of_walkable {skb : SkBuff} {ls : List (List UInt8)} (h : Walkable skb ls 0) :
    Dnsenc.Encodable ls := by
  refine ⟨h.labels, ?_⟩
  rw [wireName_length]
  exact h.fits

/-! ## ASCII patterns -/

/-- The labels behind `*.`, lowercased; one trailing dot is dropped. -/
def suffixLabels (pattern : GoString) : List (List UInt8) :=
  ((trimSuffix (pattern.drop 2) [dot]).splitOn dot).map (List.map asciiToLower)

theorem asciiToLower_eq_dot (b : UInt8) : asciiToLower b = dot ↔ b = dot := by
  rw [← UInt8.toNat_inj, ← UInt8.toNat_inj, asciiToLower_toNat]
  change (if 65 ≤ b.toNat ∧ b.toNat ≤ 90 then b.toNat + 32 else b.toNat) = 46 ↔ b.toNat = 46
  split <;> omega

-- Splitting commutes with a byte map that neither makes nor removes separators.
theorem splitOn_map {f : UInt8 → UInt8} {d : UInt8} (hf : ∀ b, f b = d ↔ b = d)
    (s : List UInt8) : (s.map f).splitOn d = (s.splitOn d).map (List.map f) := by
  induction s with
  | nil => rfl
  | cons b s ih =>
      rw [List.map_cons, List.splitOn_cons_eq_if_modifyHead, List.splitOn_cons_eq_if_modifyHead, ih]
      by_cases hb : b = d
      · simp [hb, (hf d).mpr rfl]
      · have hfb : f b ≠ d := fun h => hb ((hf b).mp h)
        simp only [beq_iff_eq, hb, hfb, if_false]
        cases s.splitOn d with
        | nil => rfl
        | cons l ls => rfl

theorem labels_of_ascii {unicodeToLower : GoString → GoString} {r : SuffixRule}
    (hascii : ∀ b ∈ r.pattern, b < 0x80) (hwild : [star, dot] <+: r.pattern) :
    r.labels unicodeToLower = suffixLabels r.pattern := by
  rw [SuffixRule.labels, parsePattern_wildcard hwild, domainLabels, toLower_ascii, suffixLabels,
    splitOn_map asciiToLower_eq_dot]
  exact fun b hb => hascii b (List.mem_of_mem_drop (mem_of_mem_trimSuffix hb))

theorem ruleTable_ascii {unicodeToLower : GoString → GoString} {rules : List SuffixRule}
    (hvalid : ValidRules unicodeToLower rules) (hascii : ∀ r ∈ rules, ∀ b ∈ r.pattern, b < 0x80) :
    ruleTable unicodeToLower rules = rules.map fun r => (suffixLabels r.pattern, r.action) := by
  apply List.map_congr_left
  intro r hr
  rw [labels_of_ascii (hascii r hr) (hvalid.each r hr).wildcard]

/-! ## End to end -/

theorem walkable_of_question {skb : SkBuff} {ls : List (List UInt8)} {rest : List UInt8}
    (hlabels : LabelsOk ls) (hcount : 1 ≤ ls.length ∧ ls.length ≤ 10)
    (hsize : (wireName ls).length ≤ 128) (hbytes : skb.question = wireName ls ++ rest) :
    Walkable skb ls 0 := by
  rw [wireName_length] at hsize
  rw [wireName, List.append_assoc, List.singleton_append] at hbytes
  exact ⟨hlabels, hcount.1, hcount.2, hsize, Or.inl rfl, rest, hbytes⟩

-- A query is redirected or left alone, as its name resolves.
theorem ingress_outcomes {unicodeToLower : GoString → GoString} {rules : List SuffixRule}
    {t : SuffixRules} (hinst : Installed unicodeToLower rules t) {m : Maps}
    (hm : m.suffixRules = t) (now : UInt64) {skb : SkBuff} {ls : List (List UInt8)}
    (hwalk : Walkable skb ls 0) (hq : IsQuery m.configMap skb) :
    (Redirected now skb m (dnsGatewayIngress .allOk now skb m) ↔
      resolvedAction (ruleTable unicodeToLower rules) m.configMap.defaultAction ls =
        actionHostResolve) ∧
    (Untouched skb m (dnsGatewayIngress .allOk now skb m) ↔
      resolvedAction (ruleTable unicodeToLower rules) m.configMap.defaultAction ls ≠
        actionHostResolve) := by
  rcases ingress_allOk now hwalk hq with ⟨hhost, hcluster⟩
  rw [hinst.resolve hm (encodable_of_walkable hwalk)] at hhost hcluster
  refine ⟨⟨fun hr => ?_, hhost⟩, ⟨fun hu h => hu.not_redirected (hhost h), hcluster⟩⟩
  by_contra hne
  exact (hcluster hne).not_redirected hr

/-- With rules installed by `PopulateSuffixRules` over any earlier content and all helpers
succeeding, `dns_gateway_ingress` redirects a well-formed query exactly when the longest rule that
is a suffix of its name, or else the default, says host-resolve; otherwise it leaves the packet
and `conntrack_map` alone. -/
theorem ingress_redirects_iff_resolved (unicodeToLower : GoString → GoString) (ops : MapOps)
    (orders : Orders) (rules : List SuffixRule) (t : SuffixRules) (m : Maps) (now : UInt64)
    (skb : SkBuff) (ls : List (List UInt8)) (rest : List UInt8)
    (hpopulate : (populateSuffixRules unicodeToLower ops orders rules t).err = none)
    (hascii : ∀ r ∈ rules, ∀ b ∈ r.pattern, b < 0x80)
    (hrules : m.suffixRules = (populateSuffixRules unicodeToLower ops orders rules t).final t)
    (hquery : IsQuery m.configMap skb) (hlabels : ∀ l ∈ ls, 1 ≤ l.length ∧ l.length ≤ 63)
    (hcount : 1 ≤ ls.length ∧ ls.length ≤ 10) (hsize : (wireName ls).length ≤ 128)
    (hbytes : skb.question = wireName ls ++ rest) :
    (Redirected now skb m (dnsGatewayIngress .allOk now skb m) ↔
      resolvedAction (rules.map fun r => (suffixLabels r.pattern, r.action))
        m.configMap.defaultAction ls = actionHostResolve) ∧
    (¬ Redirected now skb m (dnsGatewayIngress .allOk now skb m) →
      (dnsGatewayIngress .allOk now skb m).skb = skb ∧
      (dnsGatewayIngress .allOk now skb m).maps.conntrackMap = m.conntrackMap) := by
  have hinst := installed_of_populate hpopulate
  have hwalk := walkable_of_question hlabels hcount hsize hbytes
  have hout := ingress_outcomes hinst hrules now hwalk hquery
  rw [ruleTable_ascii hinst.1 hascii] at hout
  refine ⟨hout.1, fun hnot => ?_⟩
  have huntouched := hout.2.mpr fun hhost => hnot (hout.1.mpr hhost)
  exact ⟨huntouched.packet, huntouched.conntrack⟩

/-- The rule `*.corp`. -/
def corpRule (action : UInt32) : SuffixRule where
  pattern := [42, 46, 99, 111, 114, 112]
  action := action

theorem corpRule_ascii (action : UInt32) : ∀ b ∈ (corpRule action).pattern, b < 0x80 :=
  ascii_of_all (show List.all [42, 46, 99, 111, 114, 112] _ = true by decide)

theorem corpRule_labels (unicodeToLower : GoString → GoString) (action : UInt32) :
    (corpRule action).labels unicodeToLower = [[99, 111, 114, 112]] := by
  rw [labels_of_ascii (corpRule_ascii action) ⟨[99, 111, 114, 112], rfl⟩]
  change suffixLabels [42, 46, 99, 111, 114, 112] = _
  decide

-- A single rule needs no room beyond its own, and no agreement.
theorem single_accepted {unicodeToLower : GoString → GoString} {r : SuffixRule}
    (haction : r.action = actionHostResolve ∨ r.action = actionClusterResolve)
    (hwild : [star, dot] <+: r.pattern) (hplain : star ∉ r.pattern.drop 2)
    (henc : Dnsenc.Encodable (r.labels unicodeToLower)) (orders : Orders) (t : SuffixRules) :
    (populateSuffixRules unicodeToLower .reliable orders [r] t).err = none := by
  apply (populateSuffixRules_ok_iff orders _ t).mpr
  refine ⟨⟨fun r' hr => ?_, fun r hr r' hr' _ => ?_⟩, ?_⟩
  · rw [List.mem_singleton.mp hr]
    exact ⟨haction, hwild, hplain, key?_ne_none_iff.mpr henc⟩
  · rw [List.mem_singleton.mp hr, List.mem_singleton.mp hr']
  · refine (List.toFinset_card_le _).trans ((List.length_filterMap_le _ _).trans ?_)
    rw [List.length_singleton]
    decide

theorem corpRule_accepted (action : UInt32)
    (h : action = actionHostResolve ∨ action = actionClusterResolve)
    (unicodeToLower : GoString → GoString) (orders : Orders) (t : SuffixRules) :
    (populateSuffixRules unicodeToLower .reliable orders [corpRule action] t).err = none := by
  apply single_accepted h
  · exact ⟨[99, 111, 114, 112], rfl⟩
  · show star ∉ [99, 111, 114, 112]
    decide
  · rw [corpRule_labels]
    decide

/-- The rule `*.corp` alone, written to an empty table. -/
noncomputable def corpTable (action : UInt32) : SuffixRules :=
  (populateSuffixRules (List.map asciiToLower) .reliable ⟨default, default, default⟩
    [corpRule action] .empty).final .empty

theorem corpTable_installed (action : UInt32)
    (h : action = actionHostResolve ∨ action = actionClusterResolve) :
    Installed (List.map asciiToLower) [corpRule action] (corpTable action) :=
  installed_of_populate (corpRule_accepted action h (List.map asciiToLower) _ .empty)

/-- The query for `a.corp` is redirected by the rule `*.corp`. -/
theorem corpQuery_redirected :
    Redirected 7 (sampleQuery (wireName [[97], [99, 111, 114, 112]]) (by decide))
      (sampleMaps actionClusterResolve (corpTable actionHostResolve))
      (dnsGatewayIngress .allOk 7
        (sampleQuery (wireName [[97], [99, 111, 114, 112]]) (by decide))
        (sampleMaps actionClusterResolve (corpTable actionHostResolve))) := by
  have hrules : (sampleMaps actionClusterResolve (corpTable actionHostResolve)).suffixRules =
      corpTable actionHostResolve := sampleMaps_suffixRules _ _
  refine (ingress_redirects_iff_resolved (List.map asciiToLower) .reliable
    ⟨default, default, default⟩ [corpRule actionHostResolve] .empty
    (sampleMaps actionClusterResolve (corpTable actionHostResolve)) 7 _
    [[97], [99, 111, 114, 112]] [0, 1, 0, 1] (corpRule_accepted _ (Or.inl rfl) _ _ _) ?_ hrules
    (sampleQuery_isQuery _ _ _) (by decide) (by decide) (by decide)
    (sampleQuery_question _ _)).1.mpr ?_
  · intro r hr
    rw [List.mem_singleton.mp hr]
    exact corpRule_ascii actionHostResolve
  · decide

end DnsGateway
