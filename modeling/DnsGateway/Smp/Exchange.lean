import DnsGateway.Smp.Machine
import DnsGateway.System.Tracking

/-!
# An exchange among others

A query and its response, each on its own CPU, with any other traffic around and between them.
-/

namespace DnsGateway.Smp

open DnsGateway.Reasoning DnsGateway.Bpf

/-! ## Moves that leave one entry alone -/

/-- A move that leaves the entry of `key` as it is. -/
structure Frames (key : ConntrackKey) (s t : Shared) : Prop extends Keeps s t where
  entry : t.conntrack.index.lookup key = s.conntrack.index.lookup key

theorem frames_exec {key : ConntrackKey} (cpu : Nat) {o : Access} (s : Shared)
    (ho : o.tracks = false) : Frames key s (s.exec cpu o).2 := by
  refine ⟨exec_keeps cpu o s, ?_⟩
  cases o with
  | ctUpdate key' val => cases ho
  | ctDelete key' => cases ho
  | _ => rfl

theorem frames_exec_other {key key' : ConntrackKey} (cpu : Nat) {o : Access} (s : Shared)
    (hne : key' ≠ key) (ho : (∃ val, o = .ctUpdate key' val) ∨ o = .ctDelete key') :
    Frames key s (s.exec cpu o).2 := by
  refine ⟨exec_keeps cpu o s, ?_⟩
  rcases ho with ⟨val, rfl⟩ | rfl
  · exact Finmap.lookup_insert_of_ne _ hne.symm
  · exact Finmap.lookup_erase_ne hne.symm

instance (key : ConntrackKey) : Rely (Frames key) where
  refl := fun s => ⟨Keeps.refl s, rfl⟩
  trans := fun _ _ _ hst htu =>
    ⟨hst.toKeeps.trans _ _ _ htu.toKeeps, htu.entry.trans hst.entry⟩
  keeps := fun h => h.toKeeps
  own := fun cpu _ s ho => frames_exec cpu s ho

/-- Starts a run for `key`, or evicts its entry. -/
def Touches (key : ConntrackKey) : Act → Prop
  | .spawn _ job => job.key = key
  | .env (.evict key') => key' = key
  | _ => False

theorem outside_frames {key : ConntrackKey} {e : Outside} {s t : Shared}
    (h : s.outside e = some t) (hkey : ¬ Touches key (.env e)) : Frames key s t := by
  refine ⟨outside_keeps h, ?_⟩
  cases e with
  | setBypass lookupOk updateOk on =>
      cases h
      rfl
  | tick now =>
      simp only [Shared.outside] at h
      split at h
      · cases h
        rfl
      · cases h
  | evict key' =>
      cases h
      exact Finmap.lookup_erase_ne (Ne.symm hkey)
  | recycle p q =>
      rcases Option.map_eq_some_iff.mp h with ⟨ct, hct, rfl⟩
      exact congrArg _ (recycle_cases hct).1

/-- No run for `key` is under way, but possibly one on the CPU `except`. -/
def Quiet (key : ConntrackKey) (except : Option Nat) (c : Cpus) : Prop :=
  ∀ i, some i ≠ except → ∀ t, c.threads i = some t → t.job.key ≠ key ∨ ∃ r, t.rest = .ret r

section Step

variable {key : ConntrackKey} {except : Option Nat} {s₀ : Shared} {c d : Cpus} {past : List Act}
  {a : Act}

theorem Quiet.step (h : Quiet key except c) (hstep : CpusStep c a d) (ha : ¬ Touches key a) :
    Quiet key except d := by
  intro i hi t ht
  rcases hstep.thread ht with ⟨rfl, -, -⟩ | ⟨t', ht', hjob, -, hrest, -⟩
  · exact Or.inl ha
  · rcases h i hi t' ht' with hkey | ⟨r, hr⟩
    · rw [← hjob]
      exact Or.inl hkey
    · exact Or.inr ⟨r, hrest r hr⟩

theorem step_frames (h : Reached s₀ c past) (hquiet : Quiet key except c)
    (hstep : CpusStep c a d) (ha : ¬ Touches key a)
    (hother : ∀ i, except = some i → a ≠ .access i) : Frames key c.mem d.mem := by
  cases hstep with
  | spawn i j hfree => exact Rely.refl _
  | access i j o k origin made ht =>
      cases ho : o.tracks with
      | false => exact frames_exec i c.mem ho
      | true =>
          have hi : some i ≠ except := fun heq => hother i heq.symm rfl
          rcases hquiet i hi _ ht with hkey | ⟨r, hr⟩
          · rcases (h.tracked i _ ht).next Keeps.refl Keeps.trans with ⟨ops, r, m, hruns, -⟩
            have hmem : o ∈ made ++ o :: ops := List.mem_append_right _ List.mem_cons_self
            exact frames_exec_other i c.mem hkey (job_writes hruns hmem ho)
          · cases hr
  | finish i j r origin made ht => exact Rely.refl _
  | env e m he => exact outside_frames he ha

end Step

/-! ## Runs -/

/-- Nobody is under way for `key`, and its entry is as in `s`. -/
structure Undisturbed (key : ConntrackKey) (s₀ s : Shared) (c : Cpus) (past : List Act) : Prop
    extends Reached s₀ c past where
  quiet : Quiet key none c
  frames : Frames key s c.mem

/-- CPU `i` runs, for `key`, what it started from `s`; nobody else is under way for `key`. -/
structure Watched (key : ConntrackKey) (i : Nat) (s₀ s : Shared) (c : Cpus) (past : List Act) :
    Prop extends Reached s₀ c past where
  quiet : Quiet key (some i) c
  framed : Tracked Job.prog Shared.exec (Frames key) i c
  started : ∀ t, c.threads i = some t → t.job.key = key → t.origin = s

section Run

variable {key : ConntrackKey} {i : Nat} {s₀ s : Shared} {c d : Cpus} {past acts : List Act}

theorem Undisturbed.run (h : Undisturbed key s₀ s c past) (hrun : c.run acts = some d)
    (hacts : ∀ a ∈ acts, ¬ Touches key a) : Undisturbed key s₀ s d (past ++ acts) := by
  refine foldlM_history_invariant_of (fun c past a d ha hnext h => ?_) h hrun hacts
  have hstep := machine_next_step hnext
  have hframes := step_frames h.toReached h.quiet hstep ha fun i hi => by cases hi
  exact ⟨h.toReached.step hstep, h.quiet.step hstep ha, Rely.trans _ _ _ h.frames hframes⟩

theorem Watched.run (h : Watched key i s₀ s c past) (hrun : c.run acts = some d)
    (hacts : ∀ a ∈ acts, ¬ Touches key a) : Watched key i s₀ s d (past ++ acts) := by
  refine foldlM_history_invariant_of (fun c past a d ha hnext h => ?_) h hrun hacts
  have hstep := machine_next_step hnext
  have hmove : a ≠ .access i → Frames key c.mem d.mem := by
    intro hne
    refine step_frames h.toReached h.quiet hstep ha fun k hk => ?_
    cases hk
    exact hne
  refine ⟨h.toReached.step hstep, h.quiet.step hstep ha, h.framed.step hstep hmove,
    fun t ht hkey => ?_⟩
  rcases hstep.thread ht with ⟨rfl, -, -⟩ | ⟨t', ht', hjob, horigin, -, -⟩
  · exact absurd hkey ha
  · rw [← horigin]
    rw [← hjob] at hkey
    exact h.started t' ht' hkey

-- The start of a run for `key`.
theorem Undisturbed.watch {job : Job} (h : Undisturbed key s₀ s c past)
    (hrun : c.run (.spawn i job :: acts) = some d) (hacts : ∀ a ∈ acts, ¬ Touches key a) :
    Watched key i s₀ c.mem d (past ++ .spawn i job :: acts) := by
  rcases Option.bind_eq_some_iff.mp hrun with ⟨c', hnext, hrest⟩
  have hstep := machine_next_step hnext
  rw [List.append_cons]
  refine Watched.run ?_ hrest hacts
  have hspawn := hstep
  cases hspawn with
  | spawn i job hfree =>
      have hframed : Tracked Job.prog Shared.exec (Frames key) i c := by
        intro t ht
        rw [hfree] at ht
        cases ht
      refine ⟨h.toReached.step hstep, fun k hk t ht => ?_,
        hframed.step hstep fun _ => Rely.refl _, fun t ht _ => ?_⟩
      · have hki : k ≠ i := fun heq => hk (congrArg some heq)
        dsimp only at ht
        rw [Function.update_of_ne hki] at ht
        exact h.quiet k (by simp) t ht
      · dsimp only at ht
        rw [Function.update_self] at ht
        cases ht
        rfl

-- Behind a run for `key` that has returned.
theorem Watched.undisturbed {job : Job} {s' : Shared} {ops : List Access} {r : Result}
    (h : Watched key i s₀ s c past) (hdone : c.Finished i job s' ops r) :
    Undisturbed key s₀ c.mem c past := by
  refine ⟨h.toReached, fun k _ t ht => ?_, Rely.refl _⟩
  by_cases hk : k = i
  · subst hk
    rw [hdone] at ht
    cases ht
    exact Or.inr ⟨r, rfl⟩
  · exact h.quiet k (fun heq => hk (Option.some_inj.mp heq)) t ht

end Run

/-! ## The entry of the exchange -/

/-- `conntrack_map` has this entry for `key`. -/
def Holds (s : Shared) (key : ConntrackKey) (val : ConntrackValue) : Prop :=
  ∃ p, s.conntrack.index.lookup key = some p ∧ s.conntrack.elems[p]? = some (key, val)

theorem Holds.frames {s t : Shared} {key : ConntrackKey} {val : ConntrackValue}
    (h : Holds s key val) (hst : Frames key s t) : Holds t key val := by
  rcases h with ⟨p, hlookup, hp⟩
  exact ⟨p, hst.entry.trans hlookup, getElem?_mono hst.elems hp⟩

theorem Holds.read {s : Shared} {key : ConntrackKey} {val : ConntrackValue} (h : Holds s key val)
    {p : Nat} (hlookup : s.conntrack.index.lookup key = some p) : s.conntrack.read p = val := by
  rcases h with ⟨p', hlookup', hp⟩
  obtain rfl : p' = p := Option.some_inj.mp (hlookup'.symm.trans hlookup)
  rcases s.conntrack.index_ok key p' hlookup with ⟨_, _, hcell⟩
  unfold Conntrack.read
  rw [hcell, hp]

-- A run whose one write to `conntrack_map` makes the entry.
theorem runs_holds {cpu : Nat} {α : Type} {p : Run α} {s u : Shared} {ops : List Access} {a : α}
    {key : ConntrackKey} {val : ConntrackValue}
    (h : Runs (Shared.exec cpu) (Frames key) p s ops a u)
    (hops : ops.filter Access.tracks = [.ctUpdate key val]) : Holds u key val := by
  induction h with
  | ret hmove => cases hops
  | access hmove hrest ih =>
      rename_i o k m m₁ m' ops' a'
      cases ho : o.tracks with
      | false =>
          rw [List.filter_cons_of_neg (Bool.eq_false_iff.mp ho)] at hops
          exact ih hops
      | true =>
          rw [List.filter_cons_of_pos ho] at hops
          rcases List.cons.inj hops with ⟨rfl, hsilent⟩
          have hmade : Holds (m₁.exec cpu (.ctUpdate key val)).2 key val :=
            ⟨m₁.conntrack.elems.length, Finmap.lookup_insert _, List.getElem?_concat_length⟩
          exact hmade.frames (runs_rely hrest hsilent)

-- What a run sees of an entry that nobody else touches.
theorem Seen.holds {s u : Shared} {key : ConntrackKey} {val : ConntrackValue}
    {found : Option ConntrackValue} (h : Seen (Frames key) s u key found) (hs : Holds s key val) :
    found = some { corednsIp := val.corednsIp, timestampNs := val.timestampNs } := by
  cases h with
  | missing t hst htu hnone =>
      rcases hs.frames hst with ⟨p, hlookup, -⟩
      rw [hnone] at hlookup
      cases hlookup
  | entry t t₁ t₂ p hst hlookup htt₁ ht₁t₂ ht₂u =>
      have ht := hs.frames hst
      have ht₁ := ht.frames htt₁
      rw [ht₁.read (htt₁.entry.trans hlookup),
        (ht₁.frames ht₁t₂).read (ht₁t₂.entry.trans (htt₁.entry.trans hlookup))]

theorem redirected_writes {ok : Helpers} {scratch : ScratchBuf} {skb : SkBuff} {s u : Shared}
    {ops : List Access} {r : Result} {R : Shared → Shared → Prop} [Rely R]
    (h : IngressAtomic R ok scratch skb s u ops r) (hnat : r.natRc = some 0) :
    ∃ now, s.clock ≤ now ∧ now ≤ u.clock ∧ ops.filter Access.tracks =
      [.ctUpdate skb.queryKey { corednsIp := s.config.corednsIp, timestampNs := now }] := by
  rcases h.on_maps with ⟨t, now, m, -, -, hlo, hhi, hops, hm⟩
  refine ⟨now, hlo, hhi, ?_⟩
  have hins : r.inserted = some true := by
    rw [← hm.natRc] at hnat
    rw [← hm.inserted]
    cases (ingress_end ok now skb m).2 with
    | early _ _ _ _ _ _ hnone =>
        rw [hnone] at hnat
        cases hnat
    | cluster _ _ _ _ _ _ _ _ hnone =>
        rw [hnone] at hnat
        cases hnat
    | insertFailed _ _ _ _ _ _ _ _ _ hnone =>
        rw [hnone] at hnat
        cases hnat
    | natFailed _ _ _ _ _ _ _ _ _ hins => exact hins
    | redirected _ _ _ _ _ _ _ _ _ hins => exact hins
  rw [hops, Result.ingressWrites, if_pos hins, hnat]
  rfl

theorem exchange_restored (s₀ : Shared) (acts₀ : List Act) (c₀ : Cpus)
    (hrun₀ : (Cpus.start s₀).run acts₀ = some c₀) (i : Nat) (ok : Helpers) (scratch : ScratchBuf)
    (query : SkBuff) (hquiet : Quiet query.queryKey none c₀) (acts₁ : List Act) (c₁ : Cpus)
    (hrun₁ : c₀.run (.spawn i (.ingress ok scratch query) :: acts₁) = some c₁) (s : Shared)
    (ops : List Access) (r : Result) (hdone₁ : c₁.Finished i (.ingress ok scratch query) s ops r)
    (hnat : r.natRc = some 0) (acts₂ : List Act) (c₂ : Cpus) (hrun₂ : c₁.run acts₂ = some c₂)
    (j : Nat) (ok' : Helpers) (response : SkBuff) (acts₃ : List Act) (c₃ : Cpus)
    (hrun₃ : c₂.run (.spawn j (.egress ok' response) :: acts₃) = some c₃) (s' : Shared)
    (ops' : List Access) (r' : Result) (hdone₃ : c₃.Finished j (.egress ok' response) s' ops' r')
    (hacts : ∀ a ∈ acts₁ ++ acts₂ ++ acts₃, ¬ Touches query.queryKey a)
    (hkey : response.responseKey = query.queryKey) (hok : AnswerHelpers ok')
    (hresp : IsResponse s₀.config response)
    (hclock : c₃.mem.clock.toNat ≤ s.clock.toNat + 5 * 10 ^ 9) :
    r'.natRc = some 0 ∧ r'.skb.saddr = s₀.config.corednsIp := by
  have hacts₁ : ∀ a ∈ acts₁, ¬ Touches query.queryKey a := fun a ha => hacts a (by simp [ha])
  have hacts₂ : ∀ a ∈ acts₂, ¬ Touches query.queryKey a := fun a ha => hacts a (by simp [ha])
  have hacts₃ : ∀ a ∈ acts₃, ¬ Touches query.queryKey a := fun a ha => hacts a (by simp [ha])
  have h₀ : Undisturbed query.queryKey s₀ c₀.mem c₀ acts₀ :=
    ⟨run_reached hrun₀, hquiet, Rely.refl _⟩
  -- the query makes the entry
  have h₁ := h₀.watch hrun₁ hacts₁
  have hruns₁ := (h₁.framed _ hdone₁).finished Rely.refl Rely.trans
  dsimp only at hruns₁
  rcases redirected_writes (ingress_atomic hruns₁) hnat with ⟨time, hlo, hhi, hwrites⟩
  have hholds₁ := runs_holds hruns₁ hwrites
  -- it is still there when the response comes
  have h₂ := (h₁.undisturbed hdone₁).run hrun₂ hacts₂
  have hholds₂ := hholds₁.frames h₂.frames
  have h₃ := h₂.watch hrun₃ hacts₃
  have hstarted : s' = c₂.mem := h₃.started _ hdone₃ hkey
  have hruns₃ := (h₃.framed _ hdone₃).finished Rely.refl Rely.trans
  rw [hstarted, ← hkey] at hruns₃
  rcases (egress_atomic hruns₃).on_maps with ⟨now, m, hfrom, hto, hconfig, hseen, hm⟩
  rw [← hkey] at hholds₂
  have hlookup := hseen.holds hholds₂
  have hkeeps₂ := h₂.keeps
  have hresp' : IsResponse m.configMap response := by
    rw [hconfig]
    exact ⟨hresp.udp, hresp.saddr.trans hkeeps₂.hostResolverIp.symm,
      hresp.sport.trans hkeeps₂.dnsPort.symm, hresp.header⟩
  have htime : time ≤ now := UInt64.le_trans hhi (UInt64.le_trans h₂.frames.clock hfrom)
  have hfresh : now - time ≤ conntrackTtlNs := by
    rw [elapsed_le_ttl_iff htime]
    rw [UInt64.le_iff_toNat_le] at hto hlo
    omega
  have hanswer := (egress_answers now hok hresp').1 _ hlookup hfresh
  rw [← hm.natRc, ← hm.skb]
  exact ⟨hanswer.1, hanswer.2.trans (h₁.origin i _ hdone₁).corednsIp⟩

def betweenActs : List Act := [.env (.tick 1000), .finish 0]

def responseActs : List Act :=
  .spawn 1 (.egress .allOk shortResponse) :: List.replicate 9 (.access 1)

theorem sample_exchange_restored :
    ∃ c s ops r, (Cpus.start sampleShared).run (queryActs ++ betweenActs ++ responseActs) = some c ∧
      c.Finished 1 (.egress .allOk shortResponse) s ops r ∧
      r.skb.saddr = sampleShared.config.corednsIp := by
  have hquery : ∃ c s ops r, (Cpus.start sampleShared).run queryActs = some c ∧
      c.Finished 0 (.ingress .allOk zeroScratch shortQuery) s ops r ∧
      (r.natRc == some 0) = true := by
    apply run_done (f := fun _ r => r.natRc == some 0)
    · decide +kernel
    · simp [queryActs]
  have hresponse : ∃ c s ops r,
      (Cpus.start sampleShared).run (queryActs ++ betweenActs ++ responseActs) = some c ∧
      c.Finished 1 (.egress .allOk shortResponse) s ops r ∧ true = true := by
    apply run_done (f := fun _ _ => true)
    · decide +kernel
    · simp [queryActs, betweenActs, responseActs]
  have hclock : ((Cpus.start sampleShared).run (queryActs ++ betweenActs ++ responseActs)).map
      (·.mem.clock) = some 1000 := by
    decide +kernel
  rcases hquery with ⟨c₁, s, ops, r, hrun₁, hdone₁, hnat⟩
  rcases hresponse with ⟨c₃, s', ops', r', hrun, hdone₃, -⟩
  rcases run_append hrun with ⟨c₂, hrun₁₂, hrun₃⟩
  rcases run_append hrun₁₂ with ⟨c₁', hrun₁', hrun₂⟩
  obtain rfl : c₁' = c₁ := Option.some_inj.mp (hrun₁'.symm.trans hrun₁)
  rw [hrun, Option.map_some, Option.some_inj] at hclock
  have hquiet : Quiet shortQuery.queryKey none (Cpus.start sampleShared) := by
    intro i _ t ht
    cases ht
  have hacts : ∀ a ∈ List.replicate 13 (.access 0) ++ betweenActs ++ List.replicate 9 (.access 1),
      ¬ Touches shortQuery.queryKey a := by
    simp [betweenActs, Touches]
  have hsoon : c₃.mem.clock.toNat ≤ s.clock.toNat + 5 * 10 ^ 9 := by
    rw [hclock, show (1000 : UInt64).toNat = 1000 from rfl]
    omega
  have h := exchange_restored sampleShared [] (Cpus.start sampleShared) rfl 0 .allOk zeroScratch
    shortQuery hquiet _ c₁' hrun₁ s ops r hdone₁ (eq_of_beq hnat) betweenActs c₂ hrun₂ 1 .allOk
    shortResponse _ c₃ hrun₃ s' ops' r' hdone₃ hacts shortResponse_key answerHelpers_allOk
    (shortResponse_isResponse actionHostResolve) hsoon
  exact ⟨c₃, s', ops', r', hrun, hdone₃, h.2⟩

end DnsGateway.Smp
