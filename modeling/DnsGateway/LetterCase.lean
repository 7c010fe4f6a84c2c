import DnsGateway.Resolution

/-!
# Letter case

Rule keys are lowercase and the datapath compares bytes, so a label in another case never takes
part in a match: the query resolves by the labels to the right of its last changed label.
-/

namespace DnsGateway

open Reasoning Bpf Dnsenc Ebpf

/-! ## Letters -/

def IsLetter (b : UInt8) : Prop := (65 ≤ b ∧ b ≤ 90) ∨ (97 ≤ b ∧ b ≤ 122)

instance (b : UInt8) : Decidable (IsLetter b) := inferInstanceAs (Decidable (_ ∨ _))

def asciiToUpper (b : UInt8) : UInt8 := if 97 ≤ b ∧ b ≤ 122 then b - 32 else b

/-- No byte is an ASCII capital. -/
def Lowercase (s : List UInt8) : Prop := ∀ b ∈ s, ¬ (65 ≤ b ∧ b ≤ 90)

def lowerLabels (ls : List (List UInt8)) : List (List UInt8) := ls.map (List.map asciiToLower)

theorem asciiToUpper_toNat (b : UInt8) : (asciiToUpper b).toNat =
    if 97 ≤ b.toNat ∧ b.toNat ≤ 122 then b.toNat - 32 else b.toNat := by
  have hiff : (97 ≤ b ∧ b ≤ 122) ↔ (97 ≤ b.toNat ∧ b.toNat ≤ 122) :=
    and_congr UInt8.le_iff_toNat_le UInt8.le_iff_toNat_le
  unfold asciiToUpper
  by_cases h : 97 ≤ b.toNat ∧ b.toNat ≤ 122
  · rw [if_pos (hiff.mpr h), if_pos h, UInt8.toNat_sub_of_le _ _ (UInt8.le_iff_toNat_le.mpr (by
      change 32 ≤ b.toNat
      omega))]
    rfl
  · rw [if_neg (fun hb => h (hiff.mp hb)), if_neg h]

theorem asciiToLower_toUpper {b : UInt8} (h : ¬ (65 ≤ b ∧ b ≤ 90)) :
    asciiToLower (asciiToUpper b) = b := by
  rw [UInt8.le_iff_toNat_le, UInt8.le_iff_toNat_le] at h
  change ¬ (65 ≤ b.toNat ∧ b.toNat ≤ 90) at h
  rw [← UInt8.toNat_inj, asciiToLower_toNat, asciiToUpper_toNat]
  split_ifs <;> omega

theorem lowercase_map (s : List UInt8) : Lowercase (s.map asciiToLower) := by
  intro b hb
  rcases List.mem_map.mp hb with ⟨c, -, rfl⟩
  exact asciiToLower_lower c

theorem map_of_lowercase {s : List UInt8} (h : Lowercase s) : s.map asciiToLower = s := by
  conv_rhs => rw [← List.map_id s]
  exact List.map_congr_left fun b hb => asciiToLower_of_lower (h b hb)

theorem lowercase_iff {s : List UInt8} : Lowercase s ↔ s.map asciiToLower = s := by
  constructor
  · exact map_of_lowercase
  · intro h
    rw [← h]
    exact lowercase_map s

theorem lowerLabels_eq_self_iff {ls : List (List UInt8)} :
    lowerLabels ls = ls ↔ ∀ l ∈ ls, Lowercase l := by
  induction ls with
  | nil => simp [lowerLabels]
  | cons l ls ih =>
      rw [List.forall_mem_cons, ← ih, lowercase_iff, lowerLabels, List.map_cons, List.cons.injEq]
      rfl

-- A label that lowercasing changes has a letter.
theorem exists_letter_of_changed {s : List UInt8} (h : s.map asciiToLower ≠ s) :
    ∃ b ∈ s.map asciiToLower, IsLetter b := by
  by_contra hnone
  refine h (map_of_lowercase fun b hb hup =>
    hnone ⟨asciiToLower b, List.mem_map_of_mem hb, Or.inr ?_⟩)
  rw [UInt8.le_iff_toNat_le, UInt8.le_iff_toNat_le] at hup ⊢
  rw [asciiToLower_toNat]
  change 65 ≤ b.toNat ∧ b.toNat ≤ 90 at hup
  rw [if_pos hup]
  change 97 ≤ _ ∧ _ ≤ 122
  omega

-- A lowercase label with a letter can be changed by letter case alone.
theorem changed_of_letter {s : List UInt8} (hlow : Lowercase s) (h : ∃ b ∈ s, IsLetter b) :
    (s.map asciiToUpper).map asciiToLower = s ∧ s.map asciiToUpper ≠ s := by
  constructor
  · rw [List.map_map]
    conv_rhs => rw [← List.map_id s]
    exact List.map_congr_left fun b hb => asciiToLower_toUpper (hlow b hb)
  · intro hsame
    rcases h with ⟨b, hb, hletter⟩
    rcases hletter.resolve_left (hlow b hb) with ⟨hlo, hhi⟩
    have hcap : ¬ (65 ≤ asciiToUpper b ∧ asciiToUpper b ≤ 90) :=
      hlow _ (hsame ▸ List.mem_map_of_mem hb)
    rw [UInt8.le_iff_toNat_le] at hlo hhi
    rw [UInt8.le_iff_toNat_le, UInt8.le_iff_toNat_le, asciiToUpper_toNat] at hcap
    change 97 ≤ b.toNat at hlo
    change b.toNat ≤ 122 at hhi
    rw [if_pos ⟨hlo, hhi⟩] at hcap
    change ¬ (65 ≤ b.toNat - 32 ∧ b.toNat - 32 ≤ 90) at hcap
    omega

/-! ## A name in another case -/

-- A table without capitals has nothing to say about a list with a changed label.
theorem resolvedAction_changed {table : RuleTable} {defaultAction : UInt32}
    (htable : ∀ r ∈ table, ∀ l ∈ r.1, Lowercase l) {pre suf : List (List UInt8)} {l : List UInt8}
    (hl : l.map asciiToLower ≠ l) :
    resolvedAction table defaultAction (pre ++ l :: suf) =
      resolvedAction table defaultAction suf := by
  rw [resolvedAction, resolvedAction, longestMatch_congr fun r hr => ⟨fun h => ?_, fun h => ?_⟩]
  · rcases Nat.lt_or_ge suf.length r.1.length with hlong | hshort
    · -- A longer match would contain the changed label.
      have hsub : l :: suf <:+ r.1 := List.suffix_of_suffix_length_le
        ⟨pre, rfl⟩ h (by rw [List.length_cons]; omega)
      exact absurd (map_of_lowercase (htable r hr l (hsub.subset List.mem_cons_self))) hl
    · exact List.suffix_of_suffix_length_le h
        ((List.suffix_cons l suf).trans ⟨pre, rfl⟩) hshort
  · exact h.trans ((List.suffix_cons l suf).trans ⟨pre, rfl⟩)

-- The last changed label of a name.
theorem exists_last_changed {ls : List (List UInt8)} (h : lowerLabels ls ≠ ls) :
    ∃ pre l suf, ls = pre ++ l :: suf ∧ l.map asciiToLower ≠ l ∧ lowerLabels suf = suf := by
  induction ls with
  | nil => exact absurd rfl h
  | cons l ls ih =>
      by_cases hls : lowerLabels ls = ls
      · refine ⟨[], l, ls, rfl, fun hl => h ?_, hls⟩
        rw [lowerLabels, List.map_cons, hl]
        exact congrArg _ hls
      · rcases ih hls with ⟨pre, x, suf, he, hx, hsuf⟩
        exact ⟨l :: pre, x, suf, by rw [he, List.cons_append], hx, hsuf⟩

/-- The name stays on CoreDNS in lowercase, and leaves it as it is written: what stands to the right
of its last label with a capital goes to the host resolver. -/
def GainsRedirect (table : RuleTable) (defaultAction : UInt32) (ls : List (List UInt8)) : Prop :=
  resolvedAction table defaultAction (lowerLabels ls) ≠ actionHostResolve ∧
    ∃ pre l suf, ls = pre ++ l :: suf ∧ ¬ Lowercase l ∧ (∀ x ∈ suf, Lowercase x) ∧
      resolvedAction table defaultAction suf = actionHostResolve

-- These are the names that resolve to host-resolve in the given case only.
theorem gainsRedirect_iff {table : RuleTable} {defaultAction : UInt32}
    (htable : ∀ r ∈ table, ∀ l ∈ r.1, Lowercase l) (ls : List (List UInt8)) :
    GainsRedirect table defaultAction ls ↔
      resolvedAction table defaultAction (lowerLabels ls) ≠ actionHostResolve ∧
        resolvedAction table defaultAction ls = actionHostResolve := by
  apply and_congr_right
  intro hkeep
  constructor
  · rintro ⟨pre, l, suf, rfl, hl, -, hsuf⟩
    rw [resolvedAction_changed htable fun h => hl (lowercase_iff.mpr h)]
    exact hsuf
  · intro hgain
    have hchanged : lowerLabels ls ≠ ls := by
      intro hsame
      rw [hsame] at hkeep
      exact hkeep hgain
    rcases exists_last_changed hchanged with ⟨pre, l, suf, rfl, hl, hsuf⟩
    rw [resolvedAction_changed htable hl] at hgain
    exact ⟨pre, l, suf, rfl, fun h => hl (map_of_lowercase h), lowerLabels_eq_self_iff.mp hsuf,
      hgain⟩

/-- No rule for CoreDNS hides a host-resolve from a query: to the right of each of its labels with a
letter, the remaining labels do not resolve to host-resolve. -/
def CaseSafe (table : RuleTable) (defaultAction : UInt32) : Prop :=
  ∀ r ∈ table, r.2 ≠ actionHostResolve → r.1.length ≤ 10 → ∀ pre l suf, r.1 = pre ++ l :: suf →
    (∃ b ∈ l, IsLetter b) → resolvedAction table defaultAction suf ≠ actionHostResolve

-- Under a safe table a name keeps its place on CoreDNS in every letter case.
theorem CaseSafe.keeps {table : RuleTable} {defaultAction : UInt32}
    (hsafe : CaseSafe table defaultAction) (htable : ∀ r ∈ table, ∀ l ∈ r.1, Lowercase l)
    {ls : List (List UInt8)} (hcount : ls.length ≤ 10)
    (hkeep : resolvedAction table defaultAction (lowerLabels ls) ≠ actionHostResolve) :
    resolvedAction table defaultAction ls ≠ actionHostResolve := by
  by_cases hsame : lowerLabels ls = ls
  · rwa [hsame] at hkeep
  · rcases exists_last_changed hsame with ⟨pre, l, suf, rfl, hl, hsuf⟩
    rw [resolvedAction_changed htable hl]
    have hname : lowerLabels (pre ++ l :: suf) =
        lowerLabels pre ++ l.map asciiToLower :: suf := by
      rw [lowerLabels, List.map_append, List.map_cons]
      congr 2
    rw [hname] at hkeep
    have htail : suf <:+ lowerLabels pre ++ l.map asciiToLower :: suf :=
      (List.suffix_cons _ suf).trans ⟨lowerLabels pre, rfl⟩
    -- Either the match of the lowercase name lies to the right of the label, or it contains it.
    have hright : (∀ r ∈ table, r.1 <:+ lowerLabels pre ++ l.map asciiToLower :: suf →
        r.1.length ≤ suf.length) → resolvedAction table defaultAction suf ≠ actionHostResolve := by
      intro hshort
      rw [resolvedAction] at hkeep ⊢
      rwa [← longestMatch_congr fun r hr => ⟨fun h =>
        List.suffix_of_suffix_length_le h htail (hshort r hr h), fun h => h.trans htail⟩]
    cases hmatch : longestMatch table (lowerLabels pre ++ l.map asciiToLower :: suf) with
    | none => exact hright fun r hr h => absurd h (longestMatch_eq_none hmatch r hr)
    | some v =>
        rcases longestMatch_eq_some hmatch with ⟨r, hr, hrsuf, rfl, hmax⟩
        rcases Nat.lt_or_ge suf.length r.1.length with hlong | hshort
        · obtain ⟨p, hp⟩ : l.map asciiToLower :: suf <:+ r.1 :=
            List.suffix_of_suffix_length_le ⟨lowerLabels pre, rfl⟩ hrsuf
              (by rw [List.length_cons]; omega)
          have hlen := hrsuf.length_le
          rw [← hname, lowerLabels, List.length_map] at hlen
          rw [resolvedAction, hmatch, Option.getD_some] at hkeep
          exact hsafe r hr hkeep (by omega) p _ suf hp.symm (exists_letter_of_changed hl)
        · exact hright fun r' hr' h => (hmax r' hr' h).trans hshort

-- Without safety some name is kept on CoreDNS in lowercase only.
theorem exists_gain_of_not_caseSafe {table : RuleTable} {defaultAction : UInt32}
    (htable : ∀ r ∈ table, ∀ l ∈ r.1, Lowercase l)
    (hfun : ∀ r ∈ table, ∀ r' ∈ table, r'.1 = r.1 → r'.2 = r.2)
    (hnot : ¬ CaseSafe table defaultAction) :
    ∃ r ∈ table, r.1.length ≤ 10 ∧ ∃ ls, lowerLabels ls = r.1 ∧
      resolvedAction table defaultAction r.1 ≠ actionHostResolve ∧
      resolvedAction table defaultAction ls = actionHostResolve := by
  unfold CaseSafe at hnot
  push Not at hnot
  rcases hnot with ⟨r, hr, haction, hlen, pre, l, suf, hsplit, hletter, hres⟩
  have hmem : ∀ x ∈ pre ++ l :: suf, Lowercase x := fun x hx => htable r hr x (hsplit ▸ hx)
  rcases changed_of_letter
    (hmem l (List.mem_append_right pre List.mem_cons_self)) hletter with ⟨hback, hchanged⟩
  refine ⟨r, hr, hlen, pre ++ l.map asciiToUpper :: suf, ?_, ?_, ?_⟩
  · have hid : lowerLabels (pre ++ l :: suf) = pre ++ l :: suf := by
      rw [lowerLabels]
      conv_rhs => rw [← List.map_id (pre ++ l :: suf)]
      exact List.map_congr_left fun x hx => map_of_lowercase (hmem x hx)
    rw [hsplit, ← hid, lowerLabels, lowerLabels, List.map_append, List.map_append, List.map_cons,
      List.map_cons, hback,
      map_of_lowercase (hmem l (List.mem_append_right pre List.mem_cons_self))]
  · rw [resolvedAction, longestMatch_self hr (hfun r hr)]
    exact haction
  · rw [resolvedAction_changed htable (fun h => hchanged (h.symm.trans hback)), hres]

/-! ## Installed tables -/

-- `strings.ToLower` leaves no capital, so the table has none.
theorem ruleTable_lowercase {unicodeToLower : GoString → GoString}
    (hlower : ∀ s, Lowercase (unicodeToLower s)) (rules : List SuffixRule) :
    ∀ r ∈ ruleTable unicodeToLower rules, ∀ l ∈ r.1, Lowercase l := by
  intro r hr l hl b hb
  rcases List.mem_map.mp hr with ⟨rule, -, rfl⟩
  have hmem := (mem_of_mem_splitOn hl hb).1
  unfold toLower at hmem
  split at hmem
  · exact lowercase_map _ b hmem
  · exact hlower _ b hmem

theorem ruleTable_functional {unicodeToLower : GoString → GoString} {rules : List SuffixRule}
    (hvalid : ValidRules unicodeToLower rules) :
    ∀ r ∈ ruleTable unicodeToLower rules, ∀ r' ∈ ruleTable unicodeToLower rules,
      r'.1 = r.1 → r'.2 = r.2 := by
  intro r hr r' hr' hsame
  rcases List.mem_map.mp hr with ⟨rule, hmem, rfl⟩
  rcases List.mem_map.mp hr' with ⟨rule', hmem', rfl⟩
  rcases Option.ne_none_iff_exists'.mp (hvalid.each rule hmem).encodes with ⟨key, hkey⟩
  have henc := key?_eq_some_iff.mp hkey
  refine hvalid.agree rule' hmem' rule hmem ?_
  rw [hkey]
  exact key?_eq_some_iff.mpr (by rw [show rule'.labels unicodeToLower = _ from hsame]; exact henc)

/-! ## Two queries -/

/-- `skb` and `skb'` are packets with the QNAMEs `lowerLabels ls` and `ls`, and are otherwise byte
for byte the same. -/
structure CasePair (skb skb' : SkBuff) (ls : List (List UInt8)) (rest : List UInt8) : Prop where
  labels : LabelsOk ls
  nonempty : 1 ≤ ls.length
  count : ls.length ≤ 10
  size : (wireName ls).length ≤ 128
  lower : skb.data =
    skb.data.take (skb.dnsOffset + 12) ++ (wireName (lowerLabels ls) ++ rest)
  mixed : skb'.data = skb.data.take (skb.dnsOffset + 12) ++ (wireName ls ++ rest)

theorem wireBody_lowerLabels_length (ls : List (List UInt8)) :
    (wireBody (lowerLabels ls)).length = (wireBody ls).length := by
  induction ls with
  | nil => rfl
  | cons l ls ih =>
      rw [lowerLabels, List.map_cons, wireBody_cons_length, wireBody_cons_length, List.length_map]
      exact congrArg _ ih

theorem labelsOk_lowerLabels {ls : List (List UInt8)} (h : LabelsOk ls) :
    LabelsOk (lowerLabels ls) := by
  intro l hl
  rcases List.mem_map.mp hl with ⟨x, hx, rfl⟩
  rw [List.length_map]
  exact h x hx

theorem CasePair.isQuery {cfg : GatewayConfig} {skb skb' : SkBuff} {ls : List (List UInt8)}
    {rest : List UInt8} (h : CasePair skb skb' ls rest) (hq : IsQuery cfg skb) :
    IsQuery cfg skb' ∧ skb'.dnsOffset = skb.dnsOffset := by
  have hin : skb.dnsOffset + 12 ≤ skb.data.length := hq.header
  have htake : (skb.data.take (skb.dnsOffset + 12)).length = skb.dnsOffset + 12 := by
    rw [List.length_take]
    omega
  refine hq.congr ?_ fun i hi => ?_
  · rw [SkBuff.len, SkBuff.len, h.mixed]
    conv_rhs => rw [h.lower]
    simp only [List.length_append, wireName_length, wireBody_lowerLabels_length]
  · rw [byteAt, byteAt, List.getD_eq_getElem?_getD, List.getD_eq_getElem?_getD, h.mixed,
      List.getElem?_append_left (by omega)]
    conv_rhs => rw [h.lower]
    rw [List.getElem?_append_left (by omega)]

theorem CasePair.walkable {cfg : GatewayConfig} {skb skb' : SkBuff} {ls : List (List UInt8)}
    {rest : List UInt8} (h : CasePair skb skb' ls rest) (hq : IsQuery cfg skb) :
    Walkable skb (lowerLabels ls) 0 ∧ Walkable skb' ls 0 := by
  have hin : skb.dnsOffset + 12 ≤ skb.data.length := hq.header
  have htake : (skb.data.take (skb.dnsOffset + 12)).length = skb.dnsOffset + 12 := by
    rw [List.length_take]
    omega
  have hsize := h.size
  rw [wireName_length] at hsize
  have hlen : (lowerLabels ls).length = ls.length := List.length_map _
  have hdrop : ∀ x : List UInt8, (skb.data.take (skb.dnsOffset + 12) ++ x).drop
      (skb.dnsOffset + 12) = x := fun x => List.drop_left' htake
  have hbytes : ∀ ms : List (List UInt8), wireName ms ++ rest = wireBody ms ++ 0 :: rest := by
    intro ms
    rw [wireName, List.append_assoc, List.singleton_append]
  refine ⟨⟨labelsOk_lowerLabels h.labels, by rw [hlen]; exact h.nonempty,
    by rw [hlen]; exact h.count, ?_, Or.inl rfl, rest, ?_⟩,
    ⟨h.labels, h.nonempty, h.count, hsize, Or.inl rfl, rest, ?_⟩⟩
  · rw [wireBody_lowerLabels_length]
    exact hsize
  · have hlow := congrArg (List.drop (skb.dnsOffset + 12)) h.lower
    rw [hdrop] at hlow
    rw [SkBuff.question, hlow, hbytes]
  · rw [SkBuff.question, (h.isQuery hq).2, h.mixed, hdrop, hbytes]

-- The sample query with a name in lowercase, and with the name as it is.
theorem sampleQuery_pair {ls : List (List UInt8)} (hls : Dnsenc.Encodable (lowerLabels ls))
    (hpos : 1 ≤ ls.length) (hcount : ls.length ≤ 10)
    (hlow : (wireName (lowerLabels ls)).length ≤ 512) (hmixed : (wireName ls).length ≤ 512) :
    CasePair (sampleQuery (wireName (lowerLabels ls)) hlow) (sampleQuery (wireName ls) hmixed) ls
      [0, 1, 0, 1] := by
  have hdns := sampleQuery_dnsOffset _ hlow
  have hfits := hls.fits
  rw [wireName_length, wireBody_lowerLabels_length] at hfits
  constructor
  · intro l hl
    have hl' := hls.labels _ (List.mem_map_of_mem (f := List.map asciiToLower) hl)
    rw [List.length_map] at hl'
    exact hl'
  · exact hpos
  · exact hcount
  · rw [wireName_length]
    exact hfits
  · rw [hdns]
    rfl
  · rw [hdns]
    rfl

-- A pair of queries keeps its place on CoreDNS as its names do.
theorem CasePair.keeps_iff {unicodeToLower : GoString → GoString} {rules : List SuffixRule}
    {t : SuffixRules} {m : Maps} {skb skb' : SkBuff} {ls : List (List UInt8)} {rest : List UInt8}
    (hpair : CasePair skb skb' ls rest) (hinst : Installed unicodeToLower rules t)
    (hm : m.suffixRules = t) (now : UInt64) (hq : IsQuery m.configMap skb) :
    (¬ Redirected now skb m (dnsGatewayIngress .allOk now skb m) →
      Untouched skb' m (dnsGatewayIngress .allOk now skb' m)) ↔
    (resolvedAction (ruleTable unicodeToLower rules) m.configMap.defaultAction (lowerLabels ls) ≠
        actionHostResolve →
      resolvedAction (ruleTable unicodeToLower rules) m.configMap.defaultAction ls ≠
        actionHostResolve) := by
  rcases hpair.walkable hq with ⟨hwalk, hwalk'⟩
  rw [(ingress_outcomes hinst hm now hwalk hq).1,
    (ingress_outcomes hinst hm now hwalk' (hpair.isQuery hq).1).2]

/-- For the rules installed by `PopulateSuffixRules`, any default and any two queries that differ in
letter case only: if the lowercase query stays on CoreDNS so does the other, unless the labels to
the right of its last capital resolve to host-resolve. -/
theorem letterCase_keeps_iff (unicodeToLower : GoString → GoString)
    (hlower : ∀ s, Lowercase (unicodeToLower s)) (ops : MapOps) (orders : Orders)
    (rules : List SuffixRule) (t : SuffixRules)
    (hpopulate : (populateSuffixRules unicodeToLower ops orders rules t).err = none)
    (m : Maps) (now : UInt64) (skb skb' : SkBuff) (ls : List (List UInt8)) (rest : List UInt8)
    (hm : m.suffixRules = (populateSuffixRules unicodeToLower ops orders rules t).final t)
    (hquery : IsQuery m.configMap skb) (hpair : CasePair skb skb' ls rest) :
    (¬ Redirected now skb m (dnsGatewayIngress .allOk now skb m) →
      Untouched skb' m (dnsGatewayIngress .allOk now skb' m)) ↔
    ¬ GainsRedirect (ruleTable unicodeToLower rules) m.configMap.defaultAction ls := by
  rw [hpair.keeps_iff (installed_of_populate hpopulate) hm now hquery,
    gainsRedirect_iff (ruleTable_lowercase hlower rules)]
  exact not_and.symm

theorem ruleTable_corpRule (unicodeToLower : GoString → GoString) (action : UInt32) :
    ruleTable unicodeToLower [corpRule action] = [([[99, 111, 114, 112]], action)] := by
  rw [ruleTable, List.map_singleton, corpRule_labels]
  rfl

theorem corpTable_outcomes (defaultAction : UInt32) {skb : SkBuff} {ls : List (List UInt8)}
    (hwalk : Walkable skb ls 0) (hq : IsQuery (sampleConfig defaultAction) skb) :
    (Redirected 0 skb (sampleMaps defaultAction (corpTable actionClusterResolve))
      (dnsGatewayIngress .allOk 0 skb (sampleMaps defaultAction (corpTable actionClusterResolve))) ↔
      resolvedAction [([[99, 111, 114, 112]], actionClusterResolve)] defaultAction ls =
        actionHostResolve) ∧
    (Untouched skb (sampleMaps defaultAction (corpTable actionClusterResolve))
      (dnsGatewayIngress .allOk 0 skb (sampleMaps defaultAction (corpTable actionClusterResolve))) ↔
      resolvedAction [([[99, 111, 114, 112]], actionClusterResolve)] defaultAction ls ≠
        actionHostResolve) := by
  rw [← ruleTable_corpRule (List.map asciiToLower)]
  exact ingress_outcomes (corpTable_installed actionClusterResolve (Or.inr rfl))
    (sampleMaps_suffixRules defaultAction _) 0 hwalk hq

/-- The sample query for `A.corp`, and the same in lowercase. -/
def upperHostQuery : SkBuff := sampleQuery (wireName [[65], [99, 111, 114, 112]]) (by decide)

def hostQuery : SkBuff :=
  sampleQuery (wireName (lowerLabels [[65], [99, 111, 114, 112]])) (by decide)

theorem hostQuery_pair :
    CasePair hostQuery upperHostQuery [[65], [99, 111, 114, 112]] [0, 1, 0, 1] := by
  unfold hostQuery upperHostQuery
  exact sampleQuery_pair (by decide) (by decide) (by decide) _ _

/-- With the cluster rule `*.corp` and the host-resolve default some names lose CoreDNS by their
letter case; `A.corp` keeps it, as the rule lies to the right of its capital. -/
theorem upperHostQuery_keeps :
    ¬ CaseSafe [([[99, 111, 114, 112]], actionClusterResolve)] actionHostResolve ∧
    Untouched upperHostQuery (sampleMaps actionHostResolve (corpTable actionClusterResolve))
      (dnsGatewayIngress .allOk 0 upperHostQuery
        (sampleMaps actionHostResolve (corpTable actionClusterResolve))) := by
  have hq : IsQuery (sampleConfig actionHostResolve) hostQuery := sampleQuery_isQuery _ _ _
  constructor
  · intro hsafe
    apply hsafe _ (List.mem_singleton_self _) (by decide) (by decide) [] [99, 111, 114, 112] [] rfl
    · exact ⟨99, by decide, by decide⟩
    · decide
  · apply (letterCase_keeps_iff (List.map asciiToLower) lowercase_map .reliable
      ⟨default, default, default⟩ [corpRule actionClusterResolve] .empty
      (corpRule_accepted _ (Or.inr rfl) _ _ _) _ 0 hostQuery upperHostQuery _ _
      (sampleMaps_suffixRules actionHostResolve _) hq hostQuery_pair).mpr
    · rw [gainsRedirect_iff (ruleTable_lowercase lowercase_map _), ruleTable_corpRule]
      exact fun h => absurd h.2 (by decide)
    · exact fun hr => absurd ((corpTable_outcomes actionHostResolve
        (hostQuery_pair.walkable hq).1 hq).1.mp hr) (by decide)

/-- The sample query for `CORP`, and the same in lowercase. -/
def upperQuery : SkBuff := sampleQuery (wireName [[67, 79, 82, 80]]) (by decide)

def corpQuery : SkBuff := sampleQuery (wireName (lowerLabels [[67, 79, 82, 80]])) (by decide)

theorem corpQuery_pair : CasePair corpQuery upperQuery [[67, 79, 82, 80]] [0, 1, 0, 1] := by
  unfold corpQuery upperQuery
  exact sampleQuery_pair (by decide) (by decide) (by decide) _ _

/-- With the host-resolve default `corp` stays on CoreDNS and `CORP` is redirected. -/
theorem corpQuery_gains :
    CasePair corpQuery upperQuery [[67, 79, 82, 80]] [0, 1, 0, 1] ∧
    Untouched corpQuery (sampleMaps actionHostResolve (corpTable actionClusterResolve))
      (dnsGatewayIngress .allOk 0 corpQuery
        (sampleMaps actionHostResolve (corpTable actionClusterResolve))) ∧
    Redirected 0 upperQuery (sampleMaps actionHostResolve (corpTable actionClusterResolve))
      (dnsGatewayIngress .allOk 0 upperQuery
        (sampleMaps actionHostResolve (corpTable actionClusterResolve))) := by
  have hq : IsQuery (sampleConfig actionHostResolve) corpQuery := sampleQuery_isQuery _ _ _
  rcases corpQuery_pair.walkable hq with ⟨hwalk, hwalk'⟩
  refine ⟨corpQuery_pair, ?_, ?_⟩
  · rw [(corpTable_outcomes actionHostResolve hwalk hq).2]
    decide
  · rw [(corpTable_outcomes actionHostResolve hwalk' (corpQuery_pair.isQuery hq).1).1]
    decide

/-- Letter case never takes a query away from CoreDNS, whatever the packets are, exactly when the
rule table is case-safe. -/
theorem letterCase_always_keeps_iff (unicodeToLower : GoString → GoString)
    (hlower : ∀ s, Lowercase (unicodeToLower s)) (ops : MapOps) (orders : Orders)
    (rules : List SuffixRule) (t : SuffixRules)
    (hpopulate : (populateSuffixRules unicodeToLower ops orders rules t).err = none)
    (defaultAction : UInt32) :
    (∀ (m : Maps) (now : UInt64) (skb skb' : SkBuff) (ls : List (List UInt8)) (rest : List UInt8),
      m.suffixRules = (populateSuffixRules unicodeToLower ops orders rules t).final t →
      m.configMap.defaultAction = defaultAction → IsQuery m.configMap skb →
      CasePair skb skb' ls rest →
      ¬ Redirected now skb m (dnsGatewayIngress .allOk now skb m) →
      Untouched skb' m (dnsGatewayIngress .allOk now skb' m)) ↔
    CaseSafe (ruleTable unicodeToLower rules) defaultAction := by
  have hinst := installed_of_populate hpopulate
  have htable := ruleTable_lowercase hlower rules
  constructor
  · intro h
    by_contra hnot
    obtain ⟨r, hr, hcount, ls, hls, hkeep, hgain⟩ :=
      exists_gain_of_not_caseSafe htable (ruleTable_functional hinst.1) hnot
    have hne := Installed.table_ne_nil r hr
    rcases List.mem_map.mp hr with ⟨rule, hmem, rfl⟩
    rcases Option.ne_none_iff_exists'.mp (hinst.1.each rule hmem).encodes with ⟨key, hkey⟩
    have henc := (key?_eq_some_iff.mp hkey).1
    dsimp only at hne hcount hls hkeep
    rw [← hls] at hne hcount hkeep henc
    have hlen : (lowerLabels ls).length = ls.length := List.length_map _
    have hpos := List.length_pos_iff.mpr hne
    have hlow : (wireName (lowerLabels ls)).length ≤ 512 := Nat.le_trans henc.fits (by decide)
    have hmixed : (wireName ls).length ≤ 512 := by
      rw [wireName_length, ← wireBody_lowerLabels_length, ← wireName_length]
      exact hlow
    have hpair := sampleQuery_pair henc (by omega) (by omega) hlow hmixed
    have hq := sampleQuery_isQuery defaultAction _ hlow
    have hm := sampleMaps_suffixRules defaultAction
      ((populateSuffixRules unicodeToLower ops orders rules t).final t)
    exact (hpair.keeps_iff hinst hm 0 hq).mp (h _ 0 _ _ ls _ hm rfl hq hpair) hkeep hgain
  · intro hsafe m now skb skb' ls rest hm hdefault hq hpair
    apply (hpair.keeps_iff hinst hm now hq).mpr
    rw [hdefault]
    exact hsafe.keeps htable hpair.count

/-- With the cluster-resolve default, the cluster rule `*.corp` alone is safe. -/
theorem corpRule_keeps :
    Untouched upperQuery (sampleMaps actionClusterResolve (corpTable actionClusterResolve))
      (dnsGatewayIngress .allOk 0 upperQuery
        (sampleMaps actionClusterResolve (corpTable actionClusterResolve))) := by
  have hsafe : CaseSafe (ruleTable (List.map asciiToLower) [corpRule actionClusterResolve])
      actionClusterResolve := by
    rw [ruleTable_corpRule]
    intro r hr _ _ pre l suf hsplit _
    rw [List.mem_singleton.mp hr] at hsplit
    have hlen := congrArg List.length hsplit
    simp only [List.length_append, List.length_cons, List.length_nil] at hlen
    have hsuf : suf = [] := List.length_eq_zero_iff.mp (by omega)
    rw [hsuf]
    decide
  have hkeeps := (letterCase_always_keeps_iff (List.map asciiToLower) lowercase_map .reliable
    ⟨default, default, default⟩ [corpRule actionClusterResolve] .empty
    (corpRule_accepted _ (Or.inr rfl) _ _ _) actionClusterResolve).mpr hsafe
  have hq : IsQuery (sampleConfig actionClusterResolve) corpQuery := sampleQuery_isQuery _ _ _
  apply hkeeps _ 0 corpQuery upperQuery [[67, 79, 82, 80]] [0, 1, 0, 1]
  · exact sampleMaps_suffixRules actionClusterResolve (corpTable actionClusterResolve)
  · rfl
  · exact hq
  · exact corpQuery_pair
  · rw [(corpTable_outcomes actionClusterResolve (corpQuery_pair.walkable hq).1 hq).1]
    decide

end DnsGateway
