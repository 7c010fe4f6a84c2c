import DnsGateway.Resolution

/-!
# Rules that can match

`EncodeSuffix` bounds the bytes of a rule, the label walk bounds the bytes and the labels of a whole
query name.  A rule is of use only if some name below it gets through the walk.
-/

namespace DnsGateway

open Reasoning Bpf Dnsenc Ebpf

/-! ## Queries for a name -/

/-- A well-formed query for the name: it is complete, with labels of 1 to 63 bytes and at most 255
bytes in all. -/
structure QueryFor (cfg : GatewayConfig) (skb : SkBuff) (name : List (List UInt8)) : Prop where
  query : IsQuery cfg skb
  labels : LabelsOk name
  short : (wireName name).length ≤ 255
  bytes : ∃ rest, skb.question = wireName name ++ rest

/-- The byte behind the labels that the walk reads. -/
def closingByte (name : List (List UInt8)) : UInt8 :=
  match name.drop maxLabels with
  | [] => 0
  | l :: _ => UInt8.ofNat l.length

theorem closingByte_eq_zero_iff {name : List (List UInt8)} (h : LabelsOk name) :
    closingByte name = 0 ↔ name.length ≤ maxLabels := by
  rw [closingByte, ← List.drop_eq_nil_iff]
  cases hdrop : name.drop maxLabels with
  | nil => simp
  | cons l more =>
      have hl := h l (List.mem_of_mem_drop (by rw [hdrop]; exact List.mem_cons_self))
      simp [lengthByte_ne_zero hl]

theorem wireName_walked {name : List (List UInt8)} (h : LabelsOk name) (rest : List UInt8) :
    WalkedBytes (wireName name ++ rest) (name.take maxLabels) (closingByte name) := by
  have hbody := wireBody_take_drop name maxLabels
  have htake : LabelsOk (name.take maxLabels) := fun l hl => h l (List.mem_of_mem_take hl)
  unfold closingByte wireName
  rw [hbody]
  cases hdrop : name.drop maxLabels with
  | nil =>
      refine ⟨htake, List.length_take_le _ _, Or.inl rfl, rest, ?_⟩
      simp [wireBody]
  | cons l more =>
      have hlong : maxLabels < name.length := by
        by_contra hle
        rw [List.drop_of_length_le (by omega)] at hdrop
        cases hdrop
      refine ⟨htake, List.length_take_le _ _, Or.inr (List.length_take_of_le hlong.le),
        l ++ (wireBody more ++ [0]) ++ rest, ?_⟩
      simp [wireBody]

-- What the datapath sees of the name.
theorem QueryFor.walkable_iff {cfg : GatewayConfig} {skb : SkBuff} {name : List (List UInt8)}
    (h : QueryFor cfg skb name) (hne : name ≠ []) {ls : List (List UInt8)} {b : UInt8} :
    Walkable skb ls b ↔ ls = name.take maxLabels ∧ b = closingByte name ∧
      (wireBody (name.take maxLabels)).length + 1 ≤ maxDnsNameLen := by
  rcases h.bytes with ⟨rest, hbytes⟩
  have hwalked := wireName_walked h.labels rest
  rw [← hbytes] at hwalked
  constructor
  · intro hw
    rcases hw.walkedBytes.unique hwalked with ⟨rfl, rfl⟩
    exact ⟨rfl, rfl, hw.fits⟩
  · rintro ⟨rfl, rfl, hfits⟩
    refine ⟨hwalked.labels, ?_, hwalked.count, hfits, hwalked.stop, hwalked.bytes⟩
    have hpos := List.length_pos_of_ne_nil hne
    rw [List.length_take]
    have hmax : maxLabels = 10 := rfl
    omega

/-! ## Matches -/

/-- The run has counted a match and done what the action says. -/
structure Matched (action : UInt32) (now : UInt64) (skb : SkBuff) (m : Maps) (o : Outcome) :
    Prop where
  counted : o.maps.metricsMap .suffixMatch = m.metricsMap .suffixMatch + 1
  host : action = actionHostResolve → Redirected now skb m o
  cluster : action ≠ actionHostResolve → Untouched skb m o ∧
    o.maps.metricsMap .clusterResolved = m.metricsMap .clusterResolved + 1

-- What a run counts when the name gets through the walk.
theorem ingress_counts (now : UInt64) {skb : SkBuff} {m : Maps} {ls : List (List UInt8)} {b : UInt8}
    (hw : Walkable skb ls b) (hq : IsQuery m.configMap skb) :
    ∃ last, (resolve m ls b = actionHostResolve ∧ last = MetricId.redirected ∨
        resolve m ls b ≠ actionHostResolve ∧ last = .clusterResolved) ∧
      (dnsGatewayIngress .allOk now skb m).maps.metricsMap = fun id => m.metricsMap id +
        (lookupCounts (firstTail (probeTable m.suffixRules b) ls) ++ [last]).count id := by
  rcases ingress_allOk_end now hw hq rfl with ⟨haction, -, hmaps⟩ | ⟨haction, -, -, hmaps⟩
  · exact ⟨_, Or.inr ⟨haction, rfl⟩, hmaps.counted fun _ => rfl⟩
  · exact ⟨_, Or.inl ⟨haction, rfl⟩, hmaps.counted fun _ => rfl⟩

theorem ingress_matched (now : UInt64) {skb : SkBuff} {m : Maps} {ls : List (List UInt8)}
    {b : UInt8} {action : UInt32} (hw : Walkable skb ls b) (hq : IsQuery m.configMap skb)
    (hhit : firstTail (probeTable m.suffixRules b) ls = some action) :
    Matched action now skb m (dnsGatewayIngress .allOk now skb m) := by
  have hres : resolve m ls b = action := by
    rw [resolve, hhit]
    rfl
  rcases ingress_counts now hw hq with ⟨last, hlast, hmetrics⟩
  rw [hres] at hlast
  rw [hhit] at hmetrics
  constructor
  · rw [hmetrics]
    rcases hlast with ⟨-, rfl⟩ | ⟨-, rfl⟩ <;> rfl
  · intro hhost
    exact (ingress_allOk now hw hq).1 (hres.trans hhost)
  · intro hcluster
    refine ⟨(ingress_allOk now hw hq).2 (by rwa [hres]), ?_⟩
    rw [hmetrics]
    rcases hlast with ⟨hhost, -⟩ | ⟨-, rfl⟩
    · exact absurd hhost hcluster
    · rfl

-- A count of matches comes from a hit.
theorem Matched.hit {action : UInt32} {now : UInt64} {skb : SkBuff} {m : Maps}
    (h : Matched action now skb m (dnsGatewayIngress .allOk now skb m))
    (hq : IsQuery m.configMap skb) :
    ∃ ls b v, Walkable skb ls b ∧ firstTail (probeTable m.suffixRules b) ls = some v := by
  have hcounted := h.counted
  by_cases hw : ∃ ls b, Walkable skb ls b
  · rcases hw with ⟨ls, b, hw⟩
    rcases ingress_counts now hw hq with ⟨last, hlast, hmetrics⟩
    cases hhit : firstTail (probeTable m.suffixRules b) ls with
    | some v => exact ⟨ls, b, v, hw, hhit⟩
    | none =>
        rw [hmetrics, hhit] at hcounted
        rcases hlast with ⟨-, rfl⟩ | ⟨-, rfl⟩
        · exact absurd hcounted (Nat.ne_of_lt (Nat.lt_succ_self _))
        · exact absurd hcounted (Nat.ne_of_lt (Nat.lt_succ_self _))
  · -- The run ends before the lookup, and counts no match.
    have hearly : ∀ ids ∈ earlyCounts, MetricId.suffixMatch ∉ ids := by decide
    have hnot : ∀ {remaining scratch w}, ¬ Admitted .allOk skb m remaining scratch w := by
      intro remaining scratch w hadm
      rcases hadm.walkable with ⟨ls, b, hw', -⟩
      exact hw ⟨ls, b, hw'⟩
    cases (ingress_end .allOk now skb m).2 with
    | early ids hids _ hmaps =>
        rw [hmaps.metrics, bumpAll_of_not_mem _ (hearly ids hids)] at hcounted
        omega
    | cluster _ _ _ hadm => exact absurd hadm hnot
    | insertFailed _ _ _ hadm => exact absurd hadm hnot
    | natFailed _ _ _ hadm => exact absurd hadm hnot
    | redirected _ _ _ hadm => exact absurd hadm hnot

/-! ## Live rules -/

/-- Some name strictly below the labels can be asked for, and every well-formed query for it is
matched to the action, whatever the maps other than `suffix_rules` hold. -/
def Live (t : SuffixRules) (labels : List (List UInt8)) (action : UInt32) : Prop :=
  ∃ pre, pre ≠ [] ∧ (∃ cfg skb, QueryFor cfg skb (pre ++ labels)) ∧
    ∀ (m : Maps) (now : UInt64) (skb : SkBuff), m.suffixRules = t →
      QueryFor m.configMap skb (pre ++ labels) →
      Matched action now skb m (dnsGatewayIngress .allOk now skb m)

/-- There is room in the walk for the labels and one more. -/
def LeavesRoom (labels : List (List UInt8)) : Prop :=
  labels.length + 1 ≤ maxLabels ∧ (wireName labels).length + 2 ≤ maxDnsNameLen

/-- The last label is made of zeros, and the others fit into the walk behind one-byte labels that
make them ten.  The walk then stops at the length byte of the last label, and the zeros behind it in
the rule's key are those of the cleared lookup buffer. -/
def NulClosed (labels : List (List UInt8)) : Prop :=
  ∃ key n, labels = key ++ [List.replicate n 0] ∧ key ≠ [] ∧ key.length ≤ maxLabels ∧
    2 * (maxLabels - key.length) + (wireBody key).length + 1 ≤ maxDnsNameLen

theorem queryFor_exists {name : List (List UInt8)} (hlabels : LabelsOk name)
    (hshort : (wireName name).length ≤ 255) : ∃ cfg skb, QueryFor cfg skb name :=
  ⟨sampleConfig actionClusterResolve, sampleQuery (wireName name) (by omega),
    sampleQuery_isQuery _ _ _, hlabels, hshort, _, sampleQuery_question _ _⟩

theorem wireBody_fill (k : Nat) : (wireBody (List.replicate k [97])).length = 2 * k := by
  induction k with
  | zero => rfl
  | succ k ih =>
      rw [List.replicate_succ, wireBody_cons_length, ih, List.length_singleton]
      omega

-- One-byte labels in front make the labels of `key` ten; if they are ten already, the name repeats
-- the labels.
theorem nulClosed_name {labels key : List (List UInt8)} {n : Nat} (henc : Dnsenc.Encodable labels)
    (hlabels : labels = key ++ [List.replicate n 0]) (hcount : key.length ≤ maxLabels) :
    ∃ pre more, pre ≠ [] ∧ LabelsOk pre ∧ (wireName (pre ++ labels)).length ≤ 255 ∧
      pre ++ labels =
        (List.replicate (maxLabels - key.length) [97] ++ key) ++ List.replicate n 0 :: more := by
  have hmax : maxLabels = 10 := rfl
  have hwire : (wireName labels).length ≤ 128 := henc.fits
  rw [wireName_length] at hwire
  by_cases hten : key.length = maxLabels
  · refine ⟨labels, labels, ?_, henc.labels, ?_, ?_⟩
    · simp [hlabels]
    · rw [wireName_length, wireBody_append, List.length_append]
      omega
    · rw [hten, Nat.sub_self, List.replicate_zero, List.nil_append]
      nth_rewrite 1 [hlabels]
      rw [List.append_assoc, List.singleton_append]
  · refine ⟨List.replicate (maxLabels - key.length) [97], [], ?_, ?_, ?_, ?_⟩
    · rw [Ne, List.replicate_eq_nil_iff]
      omega
    · intro l hl
      simp [List.eq_of_mem_replicate hl]
    · rw [wireName_length, wireBody_append, List.length_append, wireBody_fill]
      omega
    · rw [hlabels, List.append_assoc]

section Single

variable {unicodeToLower : GoString → GoString} {r : SuffixRule} {t : SuffixRules}

theorem Installed.encodable (h : Installed unicodeToLower [r] t) :
    Dnsenc.Encodable (r.labels unicodeToLower) :=
  key?_ne_none_iff.mp (h.1.each r (List.mem_singleton_self r)).encodes

theorem Installed.probe_single (h : Installed unicodeToLower [r] t) {key : List (List UInt8)}
    {b : UInt8} {v : UInt32} :
    probeTable t b key = some v ↔
      bufOf maxDnsNameLen (wireBody key ++ [b]) = keyOf (r.labels unicodeToLower) ∧
        v = r.action := by
  rw [probeTable, h.2, Ebpf.Lists]
  simp only [List.mem_singleton, exists_eq_left, key?_eq_some_iff]
  constructor
  · intro hv
    exact ⟨SuffixKey.mk.inj hv.1.2, hv.2.symm⟩
  · intro hv
    exact ⟨⟨h.encodable, congrArg SuffixKey.mk hv.1⟩, hv.2.symm⟩

theorem Installed.live_of_hit (h : Installed unicodeToLower [r] t) (pre key : List (List UInt8))
    (hpre : pre ≠ []) (hlabels : LabelsOk pre)
    (hshort : (wireName (pre ++ r.labels unicodeToLower)).length ≤ 255)
    (hfits : (wireBody ((pre ++ r.labels unicodeToLower).take maxLabels)).length + 1 ≤
      maxDnsNameLen)
    (hsuf : key <:+ (pre ++ r.labels unicodeToLower).take maxLabels) (hne : key ≠ [])
    (hkey : bufOf maxDnsNameLen
        (wireBody key ++ [closingByte (pre ++ r.labels unicodeToLower)]) =
      keyOf (r.labels unicodeToLower)) :
    Live t (r.labels unicodeToLower) r.action := by
  have hall : LabelsOk (pre ++ r.labels unicodeToLower) := fun l hl =>
    (List.mem_append.mp hl).elim (hlabels l) (h.encodable.labels l)
  refine ⟨pre, hpre, queryFor_exists hall hshort, fun m now skb hm hq => ?_⟩
  have hw := (hq.walkable_iff (List.append_ne_nil_of_left_ne_nil hpre _)).mpr ⟨rfl, rfl, hfits⟩
  apply ingress_matched now hw hq.query
  rw [hm]
  apply firstTail_of_hit (fun _ _ hv => (h.probe_single.mp hv).2) hsuf hne
  rw [h.probe_single.mpr ⟨hkey, rfl⟩]
  exact Option.some_ne_none _

theorem Installed.live_of_room (h : Installed unicodeToLower [r] t)
    (hroom : LeavesRoom (r.labels unicodeToLower)) :
    Live t (r.labels unicodeToLower) r.action := by
  rcases hroom with ⟨hcount, hsize⟩
  have h128 : maxDnsNameLen = 128 := rfl
  have hlen : (wireBody ([[97]] ++ r.labels unicodeToLower)).length =
      2 + (wireBody (r.labels unicodeToLower)).length := wireBody_cons_length [97] _
  have hall : ([[97]] ++ r.labels unicodeToLower).length ≤ maxLabels := by
    rw [List.singleton_append, List.length_cons]
    exact hcount
  have htake := List.take_of_length_le hall
  have hclose : closingByte ([[97]] ++ r.labels unicodeToLower) = 0 := by
    rw [closingByte, List.drop_of_length_le hall]
  rw [wireName_length] at hsize
  apply h.live_of_hit [[97]] (r.labels unicodeToLower) (List.cons_ne_nil _ _)
  · simp [LabelsOk]
  · rw [wireName_length, hlen]
    omega
  · rw [htake, hlen]
    omega
  · rw [htake]
    exact List.suffix_append _ _
  · exact domainLabels_ne_nil _ _
  · rw [hclose]
    rfl

theorem Installed.live_of_nulClosed (h : Installed unicodeToLower [r] t)
    (hclosed : NulClosed (r.labels unicodeToLower)) :
    Live t (r.labels unicodeToLower) r.action := by
  rcases hclosed with ⟨key, n, hlabels, hne, hcount, hsize⟩
  have henc := h.encodable
  have hlast := henc.labels (List.replicate n 0) (by rw [hlabels]; simp)
  have hkey : LabelsOk key := fun l hl => henc.labels l (by rw [hlabels]; simp [hl])
  have hwire := henc.fits
  rw [List.length_replicate] at hlast
  have hbyte : (UInt8.ofNat n).toNat = n := by
    rw [UInt8.toNat_ofNat']
    omega
  rcases nulClosed_name henc hlabels hcount with ⟨pre, more, hpre, hok, hshort, hname⟩
  have hten : (List.replicate (maxLabels - key.length) [(97 : UInt8)] ++ key).length =
      maxLabels := by
    rw [List.length_append, List.length_replicate]
    omega
  have htake : (pre ++ r.labels unicodeToLower).take maxLabels =
      List.replicate (maxLabels - key.length) [97] ++ key := by
    rw [hname, List.take_left' hten]
  have hclose : closingByte (pre ++ r.labels unicodeToLower) = UInt8.ofNat n := by
    rw [closingByte, hname, List.drop_left' hten]
    show UInt8.ofNat (List.replicate n (0 : UInt8)).length = _
    rw [List.length_replicate]
  apply h.live_of_hit pre key hpre hok hshort
  · rw [htake, wireBody_append, List.length_append, wireBody_fill]
    exact hsize
  · rw [htake]
    exact List.suffix_append _ _
  · exact hne
  · rw [hclose]
    apply (bufOf_closed_iff hkey henc.labels _ _ hwire).mpr
    · rw [hbyte, hlabels]
    · intro hzero
      rw [hzero] at hbyte
      have hn : n = 0 := hbyte.symm
      omega
    · exact le_trans (by omega) hsize

-- A match of a query for a name below the labels, in any run.
theorem Installed.room_or_nulClosed (h : Installed unicodeToLower [r] t) {m : Maps} {now : UInt64}
    {skb : SkBuff} {pre : List (List UInt8)} {action : UInt32} (hm : m.suffixRules = t)
    (hpre : pre ≠ []) (hq : QueryFor m.configMap skb (pre ++ r.labels unicodeToLower))
    (hmatch : Matched action now skb m (dnsGatewayIngress .allOk now skb m)) :
    LeavesRoom (r.labels unicodeToLower) ∨ NulClosed (r.labels unicodeToLower) := by
  rcases hmatch.hit hq.query with ⟨ls, b, v, hw, hhit⟩
  rcases firstTail_eq_some hhit with ⟨key, hsuf, hne, hprobe, -⟩
  rw [hm, h.probe_single] at hprobe
  have hseen := (hq.walkable_iff (List.append_ne_nil_of_left_ne_nil hpre _)).mp hw
  by_cases hb : b = 0
  · -- The walk has seen the whole name.
    left
    rcases hseen with ⟨rfl, rfl, hfits⟩
    have hall := (closingByte_eq_zero_iff hq.labels).mp hb
    have hfront := two_mul_length_le_wireBody
      (fun l hl => hq.labels l (List.mem_append_left _ hl) : LabelsOk pre)
    have hpos := List.length_pos_of_ne_nil hpre
    rw [List.take_of_length_le hall, wireBody_append, List.length_append] at hfits
    rw [List.length_append] at hall
    rw [LeavesRoom, wireName_length]
    omega
  · right
    have hkey : LabelsOk key := fun l hl => hw.labels l (hsuf.subset hl)
    rcases hsuf with ⟨front, rfl⟩
    have hten := hw.stop.resolve_left hb
    have hfits := hw.fits
    have hfront := two_mul_length_le_wireBody
      (fun l hl => hw.labels l (List.mem_append_left key hl) : LabelsOk front)
    rw [wireBody_append, List.length_append] at hfits
    rw [List.length_append] at hten
    have hroom : (wireBody key).length + 1 ≤ maxDnsNameLen := by omega
    have hlabels := (bufOf_closed_iff hkey h.encodable.labels hb hroom h.encodable.fits).mp
      hprobe.1
    exact ⟨key, b.toNat, hlabels, hne, by omega, by omega⟩

/-- The only rule of a table is live exactly when the walk has room for it and one more label, or
when it ends in a label of zeros. -/
theorem Installed.live_iff (h : Installed unicodeToLower [r] t) :
    Live t (r.labels unicodeToLower) r.action ↔
      LeavesRoom (r.labels unicodeToLower) ∨ NulClosed (r.labels unicodeToLower) := by
  constructor
  · rintro ⟨pre, hpre, ⟨cfg, skb, hq⟩, hall⟩
    let m : Maps := { sampleMaps cfg.defaultAction t with configMap := cfg }
    exact h.room_or_nulClosed (m := m) rfl hpre hq (hall m 0 skb rfl hq)
  · intro hcond
    exact hcond.elim h.live_of_room h.live_of_nulClosed

end Single

/-- A rule that `PopulateSuffixRules` accepts as the only one has a name strictly below it whose
queries are matched to its action exactly when it has at most 9 labels and at most 126 bytes on the
wire, or ends in a label of zeros that the walk does not have to reach. -/
theorem accepted_rule_live_iff (unicodeToLower : GoString → GoString) (ops : MapOps)
    (orders : Orders) (r : SuffixRule) (t : SuffixRules)
    (haccepted : (populateSuffixRules unicodeToLower ops orders [r] t).err = none) :
    Live ((populateSuffixRules unicodeToLower ops orders [r] t).final t)
        (r.labels unicodeToLower) r.action ↔
      LeavesRoom (r.labels unicodeToLower) ∨ NulClosed (r.labels unicodeToLower) :=
  (installed_of_populate haccepted).live_iff

/-- The rule `*.corp` is live. -/
theorem corpRule_live :
    Live (corpTable actionHostResolve) [[99, 111, 114, 112]] actionHostResolve := by
  have hlive := accepted_rule_live_iff (List.map asciiToLower) .reliable
    ⟨default, default, default⟩ (corpRule actionHostResolve) .empty
    (corpRule_accepted _ (Or.inl rfl) _ _ _)
  rw [corpRule_labels] at hlive
  exact hlive.mpr (Or.inl (show LeavesRoom _ from ⟨by decide, by decide⟩))

/-- The rule `*.a.b.c.d.e.f.g.h.i.j`. -/
def tenLabelRule : SuffixRule where
  pattern := [42, 46, 97, 46, 98, 46, 99, 46, 100, 46, 101, 46, 102, 46, 103, 46, 104, 46, 105,
    46, 106]
  action := actionHostResolve

def tenLabels : List (List UInt8) :=
  [[97], [98], [99], [100], [101], [102], [103], [104], [105], [106]]

theorem tenLabelRule_labels (unicodeToLower : GoString → GoString) :
    tenLabelRule.labels unicodeToLower = tenLabels := by
  have hascii : ∀ b ∈ tenLabelRule.pattern, b < 0x80 := ascii_of_all (by decide)
  rw [labels_of_ascii hascii ⟨tenLabelRule.pattern.drop 2, rfl⟩]
  decide

theorem tenLabelRule_accepted (unicodeToLower : GoString → GoString) (orders : Orders)
    (t : SuffixRules) :
    (populateSuffixRules unicodeToLower .reliable orders [tenLabelRule] t).err = none := by
  apply single_accepted (Or.inl rfl)
  · exact ⟨tenLabelRule.pattern.drop 2, rfl⟩
  · decide
  · rw [tenLabelRule_labels]
    decide

theorem tenLabels_dead : ¬ (LeavesRoom tenLabels ∨ NulClosed tenLabels) := by
  rintro (hroom | ⟨key, n, hlabels, -⟩)
  · exact absurd hroom.1 (by decide)
  · have hlast : tenLabels.getLast? = some (List.replicate n 0) := by
      rw [hlabels, List.getLast?_concat]
    have hmem : (106 : UInt8) ∈ List.replicate n 0 := by
      rw [← Option.some.inj hlast]
      decide
    exact absurd (List.eq_of_mem_replicate hmem) (by decide)

/-- The rule is accepted, and no query for a name below it is ever matched, though there are such
queries. -/
theorem tenLabelRule_dead :
    (populateSuffixRules (List.map asciiToLower) .reliable ⟨default, default, default⟩
      [tenLabelRule] .empty).err = none ∧
    (∃ cfg skb, QueryFor cfg skb ([[97]] ++ tenLabels)) ∧
    ∀ (pre : List (List UInt8)) (m : Maps) (now : UInt64) (skb : SkBuff) (action : UInt32),
      pre ≠ [] →
      m.suffixRules = (populateSuffixRules (List.map asciiToLower) .reliable
        ⟨default, default, default⟩ [tenLabelRule] .empty).final .empty →
      QueryFor m.configMap skb (pre ++ tenLabels) →
      ¬ Matched action now skb m (dnsGatewayIngress .allOk now skb m) := by
  have haccepted := tenLabelRule_accepted (List.map asciiToLower) ⟨default, default, default⟩ .empty
  refine ⟨haccepted, queryFor_exists (show LabelsOk _ by simp [LabelsOk, tenLabels]) (by decide),
    fun pre m now skb action hpre hm hq hmatch => tenLabels_dead ?_⟩
  have hinst := installed_of_populate haccepted
  rw [← tenLabelRule_labels (List.map asciiToLower)] at hq ⊢
  exact hinst.room_or_nulClosed hm hpre hq hmatch

end DnsGateway
