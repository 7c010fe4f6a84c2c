import DnsGateway.Bpf.Ingress
import DnsGateway.Bpf.Qname

/-!
# Which packets reach the suffix lookup, and what they resolve to

The label walk accepts a byte string that starts with labels and is then closed by a zero byte; it
also accepts a longer name of which it has walked `MAX_LABELS` labels.
-/

namespace DnsGateway.Bpf

open DnsGateway.Reasoning

/-- The bytes behind the DNS header start with the labels `ls`, as the walk reads them, and `b` is
the byte in the place of the terminator. -/
structure Walkable (skb : SkBuff) (ls : List (List UInt8)) (b : UInt8) : Prop where
  labels : LabelsOk ls
  nonempty : 1 ≤ ls.length
  count : ls.length ≤ maxLabels
  fits : (wireBody ls).length + 1 ≤ maxDnsNameLen
  stop : b = 0 ∨ ls.length = maxLabels
  bytes : ∃ rest, skb.question = wireBody ls ++ b :: rest

/-- The action the rule table and the default give the labels `ls`. -/
def resolve (m : Maps) (ls : List (List UInt8)) (b : UInt8) : UInt32 :=
  (firstTail (probeTable m.suffixRules b) ls).getD m.configMap.defaultAction

theorem Walkable.nameBytes {skb : SkBuff} {ls : List (List UInt8)} {b : UInt8}
    (h : Walkable skb ls b) : ∃ rest, skb.nameBytes = wireBody ls ++ b :: rest := by
  rcases h.bytes with ⟨rest, hrest⟩
  have hfits := h.fits
  refine ⟨rest.take (maxDnsNameLen - ((wireBody ls).length + 1)), ?_⟩
  rw [SkBuff.nameBytes, hrest, List.take_append, List.take_of_length_le (by omega),
    show maxDnsNameLen - (wireBody ls).length =
      (maxDnsNameLen - ((wireBody ls).length + 1)) + 1 by omega, List.take_succ_cons]

/-- The state in which the walk over `ls` ends. -/
def walkedOver (ls : List (List UInt8)) : WalkState :=
  { labelOffsets := offsetsFrom 0 ls, pos := (wireBody ls).length }

-- A query whose name can be walked over is admitted.
theorem Walkable.admitted {ok : Helpers} {skb : SkBuff} {m : Maps} {ls : List (List UInt8)}
    {b : UInt8} (h : Walkable skb ls b) (hhelp : HeaderHelpers ok) (hload : ok .loadQname = true)
    (hq : IsQuery m.configMap skb) :
    ∃ remaining scratch, Admitted ok skb m remaining scratch (walkedOver ls) := by
  rcases h.nameBytes with ⟨rest, hrest⟩
  have hlen : skb.nameBytes.length = (wireBody ls).length + 1 + rest.length := by
    rw [hrest, List.length_append, List.length_cons]
    omega
  obtain ⟨scratch, hload⟩ := loadQname_isSome skb m.scratchMap hload (by omega)
  rcases loadQname_eq_some hload with ⟨-, -, hfresh⟩
  have hwalk := walkLabels_complete hfresh h.labels [] h.count h.stop
    (by rw [hrest, List.nil_append]) []
  rw [List.nil_append, List.length_nil, Nat.zero_add] at hwalk
  have hfits := h.fits
  have hpos := h.nonempty
  refine ⟨_, scratch, hhelp, hq, hload, hwalk, ?_, hfits, ?_⟩
  · change (offsetsFrom 0 ls).length ≠ 0
    rw [offsetsFrom_length]
    omega
  · change (wireBody ls).length + 1 ≤ skb.nameBytes.length
    omega

-- An admitted run has walked over labels of the packet, and probes the tails of their list.
theorem Admitted.walkable {ok : Helpers} {skb : SkBuff} {m : Maps} {remaining : Nat}
    {scratch : ScratchBuf} {w : WalkState} (h : Admitted ok skb m remaining scratch w) :
    ∃ ls b, Walkable skb ls b ∧ w = walkedOver ls ∧
      ((∀ i, ok (.ruleLookup i) = true) → resolvedTo ok m scratch w = resolve m ls b ∧
        ruleHit ok m scratch w = firstTail (probeTable m.suffixRules b) ls) := by
  rcases loadQname_eq_some h.qname with ⟨hrem, -, hfresh⟩
  subst hrem
  rcases walkLabels_sound hfresh h.walk h.fits.2 with ⟨ls, hls, hcount, hw, hdrop, hstop⟩
  have hwo : w = walkedOver ls := by
    rw [hw]
    dsimp only
    rw [List.nil_append, Nat.zero_add]
    rfl
  have hpos : w.pos = (wireBody ls).length := by rw [hwo]; rfl
  have hin := h.fits.2
  have hle := skb.nameBytes_length_le
  have hlabels := h.labels
  rw [hwo] at hlabels
  change (offsetsFrom 0 ls).length ≠ 0 at hlabels
  rw [offsetsFrom_length] at hlabels
  have hlt : w.pos < skb.nameBytes.length := by omega
  -- The byte behind the labels is the one the walk stopped at.
  have hname : skb.nameBytes = wireBody ls ++ byteAt skb.nameBytes w.pos ::
      skb.nameBytes.drop (w.pos + 1) := by
    dsimp only at hdrop
    rw [List.drop_zero, List.drop_eq_getElem_cons hlt] at hdrop
    rw [byteAt, List.getD_eq_getElem?_getD, List.getElem?_eq_getElem hlt, Option.getD_some]
    exact hdrop
  have hquestion : skb.question = wireBody ls ++ byteAt skb.nameBytes w.pos ::
      (skb.nameBytes.drop (w.pos + 1) ++ skb.question.drop maxDnsNameLen) := by
    have happ : skb.question = skb.nameBytes ++ skb.question.drop maxDnsNameLen :=
      (List.take_append_drop maxDnsNameLen skb.question).symm
    rw [hname, List.append_assoc, List.cons_append] at happ
    exact happ
  refine ⟨ls, byteAt skb.nameBytes w.pos, ⟨hls, by omega, hcount, by omega, hstop, _, hquestion⟩,
    hwo, fun hok => ?_⟩
  have hhit : ruleHit ok m scratch w =
      firstTail (probeTable m.suffixRules (byteAt skb.nameBytes w.pos)) ls := by
    rw [ruleHit, hwo]
    exact matchSuffix_eq hok m.suffixRules hfresh (by rw [← hwo]; exact hname) hcount maxLabels 0
      (by omega) scratch.lookup
  exact ⟨by rw [resolvedTo, hhit, resolve], hhit⟩

/-- What the walk makes of the bytes `q`, up to the bound on their number. -/
structure WalkedBytes (q : List UInt8) (ls : List (List UInt8)) (b : UInt8) : Prop where
  labels : LabelsOk ls
  count : ls.length ≤ maxLabels
  stop : b = 0 ∨ ls.length = maxLabels
  bytes : ∃ rest, q = wireBody ls ++ b :: rest

theorem Walkable.walkedBytes {skb : SkBuff} {ls : List (List UInt8)} {b : UInt8}
    (h : Walkable skb ls b) : WalkedBytes skb.question ls b :=
  ⟨h.labels, h.count, h.stop, h.bytes⟩

-- Bytes can be walked over in one way only.
theorem WalkedBytes.unique {q : List UInt8} {ls ms : List (List UInt8)} {b c : UInt8}
    (hl : WalkedBytes q ls b) (hm : WalkedBytes q ms c) : ls = ms ∧ b = c := by
  have shorter : ∀ {ls ms : List (List UInt8)} {b c : UInt8}, WalkedBytes q ls b →
      WalkedBytes q ms c → ls.length ≤ ms.length → ls = ms ∧ b = c := by
    intro ls ms b c hl hm hle
    rcases hl.bytes with ⟨x, hx⟩
    rcases hm.bytes with ⟨y, hy⟩
    rcases wireBody_extends hl.labels hm.labels hle (hx.symm.trans hy) with ⟨more, hmore, hrest⟩
    cases more with
    | nil =>
        rw [List.append_nil] at hmore
        rw [wireBody, List.nil_append, List.cons.injEq] at hrest
        exact ⟨hmore.symm, hrest.1⟩
    | cons l more =>
        -- The walk over `ls` did not stop at the bound, so it stopped at a zero byte.
        have hlen : ms.length = ls.length + (more.length + 1) := by
          rw [hmore, List.length_append, List.length_cons]
        have hcount := hm.count
        have hb : b = 0 := hl.stop.resolve_right (by omega)
        rw [wireBody, List.cons_append, List.cons.injEq] at hrest
        have hlabel := hm.labels l (by rw [hmore]; exact List.mem_append_right _ List.mem_cons_self)
        exact absurd (hrest.1.symm.trans hb) (lengthByte_ne_zero hlabel)
  rcases Nat.le_total ls.length ms.length with hle | hle
  · exact shorter hl hm hle
  · rcases shorter hm hl hle with ⟨he, hb⟩
    exact ⟨he.symm, hb.symm⟩

theorem Walkable.unique {skb : SkBuff} {ls ms : List (List UInt8)} {b c : UInt8}
    (hl : Walkable skb ls b) (hm : Walkable skb ms c) : ls = ms ∧ b = c :=
  hl.walkedBytes.unique hm.walkedBytes

/-! ## The outcome of a run -/

/-- The packet was sent to the host resolver, tracked and counted. -/
structure Redirected (now : UInt64) (skb : SkBuff) (m : Maps) (o : Outcome) : Prop where
  nat : o.natRc = some 0
  daddr : o.skb.daddr = m.configMap.hostResolverIp
  conntrack : o.maps.conntrackMap =
    m.conntrackMap.insert skb.queryKey (redirectEntry m.configMap now)
  counted : o.maps.metricsMap .redirected = m.metricsMap .redirected + 1

/-- The packet was passed on as it came, without a trace in `conntrack_map`. -/
structure Untouched (skb : SkBuff) (m : Maps) (o : Outcome) : Prop where
  packet : o.skb = skb
  conntrack : o.maps.conntrackMap = m.conntrackMap
  uncounted : o.maps.metricsMap .redirected = m.metricsMap .redirected

theorem Untouched.not_redirected {now : UInt64} {skb : SkBuff} {m : Maps} {o : Outcome}
    (h : Untouched skb m o) : ¬ Redirected now skb m o := by
  intro hr
  have hc := hr.counted
  rw [h.uncounted] at hc
  omega

theorem redirected_not_mem_early {ids : List MetricId} (h : ids ∈ earlyCounts) :
    MetricId.redirected ∉ ids := by
  revert ids
  decide

theorem redirected_not_mem_lookup (hit : Option UInt32) :
    MetricId.redirected ∉ lookupCounts hit := by
  unfold lookupCounts
  split <;> decide

-- With every helper succeeding, a walkable query gets past the lookup and the rewrite.
theorem ingress_allOk_end (now : UInt64) {skb : SkBuff} {m : Maps} {ls : List (List UInt8)}
    {b : UInt8} (hw : Walkable skb ls b) (hq : IsQuery m.configMap skb) {o : Outcome}
    (ho : dnsGatewayIngress .allOk now skb m = o) :
    (resolve m ls b ≠ actionHostResolve ∧ o.skb = skb ∧
      MapsAfter .allOk (lookupCounts (firstTail (probeTable m.suffixRules b) ls) ++
        [.clusterResolved]) m.conntrackMap m o.maps) ∨
    (resolve m ls b = actionHostResolve ∧ o.natRc = some 0 ∧
      o.skb.daddr = m.configMap.hostResolverIp ∧
      MapsAfter .allOk (lookupCounts (firstTail (probeTable m.suffixRules b) ls) ++ [.redirected])
        (m.conntrackMap.insert skb.queryKey (redirectEntry m.configMap now)) m o.maps) := by
  have hfound : ∀ {remaining scratch w}, Admitted .allOk skb m remaining scratch w →
      resolvedTo .allOk m scratch w = resolve m ls b ∧
        ruleHit .allOk m scratch w = firstTail (probeTable m.suffixRules b) ls := by
    intro remaining scratch w hadm
    rcases hadm.walkable with ⟨ms, c, hw', -, hres⟩
    rcases hw.unique hw' with ⟨rfl, rfl⟩
    exact hres fun _ => rfl
  have hend := (ingress_end .allOk now skb m).2
  rw [ho] at hend
  cases hend with
  | early ids hids hnot hmaps hskb hins hnat =>
      rcases hw.admitted
        (show HeaderHelpers .allOk from ⟨rfl, rfl, rfl, rfl, rfl, rfl⟩) rfl hq with
        ⟨remaining, scratch, hadm⟩
      exact absurd hadm (hnot _ _ _)
  | cluster remaining scratch w hadm haction hmaps hskb hins hnat =>
      rw [(hfound hadm).1] at haction
      rw [(hfound hadm).2] at hmaps
      exact Or.inl ⟨haction, hskb, hmaps⟩
  | insertFailed remaining scratch w hadm haction hupdate hmaps hskb hins hnat => cases hupdate
  | natFailed remaining scratch w hadm haction hupdate hrc hmaps hskb hins hnat =>
      rw [ingressNat_ok m.configMap hq.udp rfl rfl rfl] at hrc
      omega
  | redirected remaining scratch w hadm haction hupdate hrc hmaps hskb hins hnat =>
      rw [(hfound hadm).1] at haction
      rw [(hfound hadm).2] at hmaps
      have hdaddr := (ingressNat_spec .allOk skb m.configMap hq.udp).rewritten hrc
      exact Or.inr ⟨haction, hnat, hskb ▸ hdaddr, hmaps⟩

-- It is redirected or passed on, as it resolves.
theorem ingress_allOk (now : UInt64) {skb : SkBuff} {m : Maps} {ls : List (List UInt8)}
    {b : UInt8} (hw : Walkable skb ls b) (hq : IsQuery m.configMap skb) :
    (resolve m ls b = actionHostResolve →
      Redirected now skb m (dnsGatewayIngress .allOk now skb m)) ∧
    (resolve m ls b ≠ actionHostResolve →
      Untouched skb m (dnsGatewayIngress .allOk now skb m)) := by
  rcases ingress_allOk_end now hw hq rfl with ⟨haction, hskb, hmaps⟩ |
    ⟨haction, hnat, hdaddr, hmaps⟩
  · refine ⟨fun h => absurd h haction, fun _ => ⟨hskb, hmaps.conntrack, ?_⟩⟩
    rw [hmaps.metrics]
    exact bumpAll_of_not_mem _ (fun h => (List.mem_append.mp h).elim
      (redirected_not_mem_lookup _) (by decide)) _
  · refine ⟨fun _ => ⟨hnat, hdaddr, hmaps.conntrack, ?_⟩, fun h => absurd haction h⟩
    rw [hmaps.metrics, bumpAll_apply, List.count_append,
      List.count_eq_zero.mpr (redirected_not_mem_lookup _)]
    rfl

/-! ## The grammar of the label walk -/

/-- The bytes behind the DNS header start with a complete name of 1 to 10 labels whose terminator
is among the first 128 bytes. -/
def WellFormedQname (skb : SkBuff) : Prop :=
  ∃ ls rest, LabelsOk ls ∧ 1 ≤ ls.length ∧ ls.length ≤ 10 ∧ (wireName ls).length ≤ 128 ∧
    skb.question = wireName ls ++ rest

/-- Ten labels and one more byte fit into the first 128 bytes, and that byte is no terminator. -/
structure RunsOn (skb : SkBuff) (ls : List (List UInt8)) (b : UInt8) : Prop where
  labels : LabelsOk ls
  count : ls.length = 10
  fits : (wireBody ls).length + 1 ≤ 128
  bytes : ∃ rest, skb.question = wireBody ls ++ b :: rest
  more : b ≠ 0

theorem wellFormedQname_iff {skb : SkBuff} : WellFormedQname skb ↔ ∃ ls, Walkable skb ls 0 := by
  constructor
  · rintro ⟨ls, rest, hls, hpos, hcount, hlen, hbytes⟩
    rw [wireName_length] at hlen
    rw [wireName, List.append_assoc, List.singleton_append] at hbytes
    exact ⟨ls, hls, hpos, hcount, hlen, Or.inl rfl, rest, hbytes⟩
  · rintro ⟨ls, h⟩
    rcases h.bytes with ⟨rest, hbytes⟩
    refine ⟨ls, rest, h.labels, h.nonempty, h.count, ?_, ?_⟩
    · rw [wireName_length]
      exact h.fits
    · rw [wireName, List.append_assoc, List.singleton_append, hbytes]

theorem RunsOn.walkable {skb : SkBuff} {ls : List (List UInt8)} {b : UInt8} (h : RunsOn skb ls b) :
    Walkable skb ls b where
  labels := h.labels
  nonempty := by rw [h.count]; decide
  count := by rw [h.count]; decide
  fits := h.fits
  stop := Or.inr h.count
  bytes := h.bytes

theorem Walkable.runsOn {skb : SkBuff} {ls : List (List UInt8)} {b : UInt8}
    (h : Walkable skb ls b) (hb : b ≠ 0) : RunsOn skb ls b where
  labels := h.labels
  count := h.stop.resolve_left hb
  fits := h.fits
  bytes := h.bytes
  more := hb

theorem RunsOn.not_wellFormed {skb : SkBuff} {ls : List (List UInt8)} {b : UInt8}
    (h : RunsOn skb ls b) : ¬ WellFormedQname skb := by
  rw [wellFormedQname_iff]
  rintro ⟨ms, hms⟩
  exact h.more (h.walkable.unique hms).2

-- A run that gets to the redirect has found a complete name, or one that runs on.
theorem Admitted.name {ok : Helpers} {skb : SkBuff} {m : Maps} {remaining : Nat}
    {scratch : ScratchBuf} {w : WalkState} (h : Admitted ok skb m remaining scratch w)
    (hok : ∀ i, ok (.ruleLookup i) = true)
    (haction : resolvedTo ok m scratch w = actionHostResolve) :
    WellFormedQname skb ∨ (IsQuery m.configMap skb ∧
      ∃ ls b, RunsOn skb ls b ∧ resolve m ls b = actionHostResolve) := by
  rcases h.walkable with ⟨ls, b, hw, -, hres⟩
  by_cases hb : b = 0
  · subst hb
    exact Or.inl (wellFormedQname_iff.mpr ⟨ls, hw⟩)
  · exact Or.inr ⟨h.query, ls, b, hw.runsOn hb, (hres hok).1 ▸ haction⟩

/-- The walk never looks behind its tenth label: a packet whose QNAME is not well formed is left
alone, whatever the helpers do, unless it is a query whose name runs on behind ten labels and these
ten labels, with the following byte in the place of the terminator, resolve to host-resolve. -/
theorem ingress_leaves_malformed_iff (skb : SkBuff) (m : Maps) :
    (∀ (ok : Helpers) (now : UInt64), (∀ i, ok (.ruleLookup i) = true) → ¬ WellFormedQname skb →
      Untouched skb m (dnsGatewayIngress ok now skb m)) ↔
    ¬ (IsQuery m.configMap skb ∧
      ∃ ls b, RunsOn skb ls b ∧ resolve m ls b = actionHostResolve) := by
  constructor
  · rintro h ⟨hq, ls, b, hrun, hres⟩
    have hred := (ingress_allOk 0 hrun.walkable hq).1 hres
    exact (h .allOk 0 (fun _ => rfl) hrun.not_wellFormed).not_redirected hred
  · intro hnot ok now hok hbad
    have hname : ∀ {remaining scratch w}, Admitted ok skb m remaining scratch w →
        resolvedTo ok m scratch w ≠ actionHostResolve := fun hadm haction =>
      (hadm.name hok haction).elim hbad hnot
    cases (ingress_end ok now skb m).2 with
    | early ids hids _ hmaps hskb _ _ =>
        refine ⟨hskb, hmaps.conntrack, ?_⟩
        rw [hmaps.metrics, bumpAll_of_not_mem ok (redirected_not_mem_early hids)]
    | cluster remaining scratch w hadm _ hmaps hskb _ _ =>
        refine ⟨hskb, hmaps.conntrack, ?_⟩
        rw [hmaps.metrics]
        exact bumpAll_of_not_mem ok (fun h => (List.mem_append.mp h).elim
          (redirected_not_mem_lookup _) (by decide)) _
    | insertFailed remaining scratch w hadm haction => exact absurd haction (hname hadm)
    | natFailed remaining scratch w hadm haction => exact absurd haction (hname hadm)
    | redirected remaining scratch w hadm haction => exact absurd haction (hname hadm)

/-! ## A sample query -/

/-- A query from 10.0.0.5:40000 to 10.96.0.10:53 with the given QNAME bytes. -/
def sampleQueryBytes (qname : List UInt8) : List UInt8 :=
  [0x02, 0, 0, 0, 0, 0x01, 0x02, 0, 0, 0, 0, 0x02, 0x08, 0x00,
    0x45, 0, 0, 0x48, 0, 0, 0x40, 0, 64, 17, 0, 0, 10, 0, 0, 5, 10, 96, 0, 10,
    0x9C, 0x40, 0, 53, 0, 0x34, 0, 0,
    0x12, 0x34, 0x01, 0x00, 0, 1, 0, 0, 0, 0, 0, 0] ++ (qname ++ [0, 1, 0, 1])

def sampleQuery (qname : List UInt8) (h : qname.length ≤ 512) : SkBuff where
  data := sampleQueryBytes qname
  len_lt := by
    rw [sampleQueryBytes, List.length_append, List.length_append]
    simp only [List.length_cons, List.length_nil]
    omega

/-- CoreDNS at 10.96.0.10, the host resolver at 10.0.0.2. -/
def sampleConfig (defaultAction : UInt32) : GatewayConfig where
  corednsIp := u32OfLE 10 96 0 10
  hostResolverIp := u32OfLE 10 0 0 2
  dnsPort := u16OfLE 0 53
  bypass := 0
  defaultAction := defaultAction

def sampleMaps (defaultAction : UInt32) (rules : SuffixRules) : Maps where
  suffixRules := rules
  configMap := sampleConfig defaultAction
  conntrackMap := ∅
  metricsMap := fun _ => 0
  scratchMap := ⟨List.Vector.replicate maxDnsNameLen 0, List.Vector.replicate maxDnsNameLen 0⟩

theorem sampleMaps_suffixRules (defaultAction : UInt32) (rules : SuffixRules) :
    (sampleMaps defaultAction rules).suffixRules = rules := rfl

theorem sampleQuery_len (qname : List UInt8) (h : qname.length ≤ 512) :
    (sampleQuery qname h).len = 58 + qname.length := by
  change (sampleQueryBytes qname).length = _
  rw [sampleQueryBytes, List.length_append, List.length_append]
  simp only [List.length_cons, List.length_nil]
  omega

theorem sampleQuery_udpOffset (qname : List UInt8) (h : qname.length ≤ 512) :
    (sampleQuery qname h).udpOffset = 34 := by
  have hihl : byteAt (sampleQuery qname h).data 14 = 0x45 := rfl
  rw [SkBuff.udpOffset, SkBuff.ihl, hihl]
  rfl

theorem sampleQuery_dnsOffset (qname : List UInt8) (h : qname.length ≤ 512) :
    (sampleQuery qname h).dnsOffset = 42 := by
  rw [SkBuff.dnsOffset, sampleQuery_udpOffset]

theorem sampleQuery_question (qname : List UInt8) (h : qname.length ≤ 512) :
    (sampleQuery qname h).question = qname ++ [0, 1, 0, 1] := by
  rw [SkBuff.question, sampleQuery_dnsOffset]
  rfl

theorem sampleQuery_isQuery (defaultAction : UInt32) (qname : List UInt8)
    (h : qname.length ≤ 512) : IsQuery (sampleConfig defaultAction) (sampleQuery qname h) := by
  have hlen := sampleQuery_len qname h
  have hudp := sampleQuery_udpOffset qname h
  have hdns := sampleQuery_dnsOffset qname h
  have hihl : byteAt (sampleQuery qname h).data 14 = 0x45 := rfl
  have hfrag : byteAt (sampleQuery qname h).data 20 = 0x40 := rfl
  refine ⟨rfl, ⟨⟨rfl, rfl⟩, rfl, ?_, ⟨?_, rfl⟩, by omega⟩, rfl, ?_, by omega, ?_, ?_⟩
  · rw [SkBuff.ihl, hihl]
    decide
  · rw [hfrag]
    decide
  · rw [SkBuff.dport, hudp]
    rfl
  · rw [hdns]
    exact (by decide : (0x01 : UInt8).toNat < 128)
  · rw [hdns]
    exact ⟨rfl, rfl⟩

-- Without rules every name resolves to the default.
theorem resolve_noRules {m : Maps} (h : m.suffixRules = .empty) (ls : List (List UInt8))
    (b : UInt8) : resolve m ls b = m.configMap.defaultAction := by
  have hnone : firstTail (probeTable .empty b) ls = none :=
    firstTail_eq_none_iff.mpr fun _ _ _ => rfl
  rw [resolve, h, hnone]
  rfl

/-- Eleven one-byte labels. -/
def elevenLabels : List (List UInt8) :=
  [[97], [98], [99], [100], [101], [102], [103], [104], [105], [106], [107]]

/-- With the host-resolve default and no rules, a query with eleven labels is redirected. -/
theorem elevenLabels_redirected :
    ¬ WellFormedQname (sampleQuery (wireName elevenLabels) (by decide)) ∧
      Redirected 0 (sampleQuery (wireName elevenLabels) (by decide))
        (sampleMaps actionHostResolve .empty)
        (dnsGatewayIngress .allOk 0 (sampleQuery (wireName elevenLabels) (by decide))
          (sampleMaps actionHostResolve .empty)) := by
  have hrun : RunsOn (sampleQuery (wireName elevenLabels) (by decide))
      (elevenLabels.take 10) 1 := by
    refine ⟨by decide, by decide, by decide, ⟨[107, 0, 0, 1, 0, 1], ?_⟩, by decide⟩
    rw [sampleQuery_question]
    decide
  refine ⟨hrun.not_wellFormed, (ingress_allOk 0 hrun.walkable ?_).1 ?_⟩
  · exact sampleQuery_isQuery _ _ _
  · exact resolve_noRules rfl _ _

end DnsGateway.Bpf
