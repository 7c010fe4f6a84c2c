import DnsGateway.Reasoning.History
import DnsGateway.Ebpf.Attach
import DnsGateway.Netlinkmon.Monitor

/-!
# From link updates to attachments (`internal/controller/controller.go`)

The monitor handles updates and sends events; the controller takes them from the channel in order
and attaches or detaches.  Each side goes at its own pace, as far as the channel has room.
-/

namespace DnsGateway.Controller

open DnsGateway.Reasoning DnsGateway.Ebpf DnsGateway.Netlinkmon

/-- `Controller.handle`; an error is only logged. -/
def handle (ok : LinkCall → Bool) (ev : Event) (m : AttachManager) : AttachManager :=
  match ev.type with
  | .add => (attach ok ev.ifindex m).2
  | .remove => (detach ok ev.ifindex m).2

/-- The room in `Monitor.events`. -/
def eventsCap : Nat := 32

/-- An event in the channel stands beside the answers of the kernel to the calls that will be made
for it. -/
structure Pipeline where
  known : Known
  events : List (Event × (LinkCall → Bool))
  mgr : AttachManager

inductive Act where
  | update (u : LinkUpdate) (ok : LinkCall → Bool)
  | process

def Pipeline.start : Pipeline := ⟨∅, [], .new⟩

/-- The pipeline after an action, if the action is possible. -/
def Pipeline.next (p : Pipeline) : Act → Option Pipeline
  | .update u ok =>
      match Netlinkmon.handle u p.known with
      | (known, none) => some { p with known := known }
      | (known, some ev) =>
          if p.events.length < eventsCap then
            some { p with known := known, events := p.events ++ [(ev, ok)] }
          else none
  | .process =>
      match p.events with
      | [] => none
      | (ev, ok) :: events => some { p with events := events, mgr := handle ok ev p.mgr }

def Pipeline.run (p : Pipeline) (acts : List Act) : Option Pipeline := acts.foldlM Pipeline.next p

/-- The updates of a run, each with the answers to the calls made for it. -/
def updates (acts : List Act) : List (LinkUpdate × (LinkCall → Bool)) :=
  acts.filterMap fun
    | .update u ok => some (u, ok)
    | .process => none

theorem updates_snoc_update (acts : List Act) (u : LinkUpdate) (ok : LinkCall → Bool) :
    updates (acts ++ [.update u ok]) = updates acts ++ [(u, ok)] := by
  simp [updates]

theorem updates_snoc_process (acts : List Act) : updates (acts ++ [.process]) = updates acts := by
  simp [updates]

/-- Both `AttachTCX` calls for the interface succeed. -/
def Attaches (i : Int) (ok : LinkCall → Bool) : Prop :=
  ok (.attachTCX i .ingress) = true ∧ ok (.attachTCX i .egress) = true

def Closes (ok : LinkCall → Bool) : Prop := ∀ i hook, ok (.close i hook) = true

/-! ## One event -/

theorem handle_spec {ok : LinkCall → Bool} (hclose : Closes ok) {m : AttachManager}
    (h : WellAttached m) (ev : Event) :
    WellAttached (handle ok ev m) ∧
      ∀ j, j ∈ (handle ok ev m).attachments ↔
        match ev.type with
        | .add => j ∈ m.attachments ∨ j = ev.ifindex ∧ 0 < ev.ifindex ∧ Attaches ev.ifindex ok
        | .remove => j ∈ m.attachments ∧ j ≠ ev.ifindex := by
  unfold handle
  cases ev.type with
  | add => exact h.attach hclose ev.ifindex
  | remove => exact h.detach hclose ev.ifindex

/-- The manager once the channel is empty. -/
def Pipeline.drained (p : Pipeline) : AttachManager :=
  p.events.foldl (fun m e => handle e.2 e.1 m) p.mgr

theorem foldl_wellAttached {events : List (Event × (LinkCall → Bool))}
    (hclose : ∀ e ∈ events, Closes e.2) {m : AttachManager} (h : WellAttached m) :
    WellAttached (events.foldl (fun m e => handle e.2 e.1 m) m) := by
  induction events generalizing m with
  | nil => exact h
  | cons e events ih =>
      apply ih
      · exact fun x hx => hclose x (List.mem_cons_of_mem e hx)
      · exact (handle_spec (hclose e List.mem_cons_self) h e.1).1

/-! ## Every run -/

/-- The first `RTM_NEWLINK` for the interface since its last `RTM_DELLINK`. -/
def current (i : Int) (us : List (LinkUpdate × (LinkCall → Bool))) :
    Option (LinkUpdate × (LinkCall → Bool)) :=
  firstSince (fun u => u.1.mark i) us

/-- The three stages agree, counting what is still in the channel. -/
structure InStep (p : Pipeline) (us : List (LinkUpdate × (LinkCall → Bool))) : Prop where
  attached : WellAttached p.mgr
  closes : ∀ e ∈ p.events, Closes e.2
  known : ∀ i, i ∈ p.known ↔ (current i us).isSome = true
  drained : ∀ i, i ∈ p.drained.attachments ↔
    0 < i ∧ ∃ u, current i us = some u ∧ Attaches i u.2

theorem InStep.wellAttached_drained {p : Pipeline} {us : List (LinkUpdate × (LinkCall → Bool))}
    (h : InStep p us) : WellAttached p.drained :=
  foldl_wellAttached h.closes h.attached

theorem InStep.start : InStep .start [] where
  attached := WellAttached.new
  closes := by simp [Pipeline.start]
  known := by simp [Pipeline.start, current, firstSince, Finmap.notMem_empty]
  drained := by
    simp [Pipeline.start, Pipeline.drained, AttachManager.new, current, firstSince,
      Finmap.notMem_empty]

theorem current_snoc (i : Int) (us : List (LinkUpdate × (LinkCall → Bool)))
    (u : LinkUpdate × (LinkCall → Bool)) :
    current i (us ++ [u]) =
      match u.1.mark i with
      | none => current i us
      | some true => (current i us).or (some u)
      | some false => none :=
  firstSince_snoc _ us u

section Update

variable {p : Pipeline} {us : List (LinkUpdate × (LinkCall → Bool))} {u : LinkUpdate}
  {ok : LinkCall → Bool}

-- An update that sends nothing: the interfaces keep what they had.
theorem InStep.quiet (h : InStep p us) (hsame : ∀ i, current i (us ++ [(u, ok)]) = current i us) :
    InStep p (us ++ [(u, ok)]) :=
  ⟨h.attached, h.closes, by simpa only [hsame] using h.known, by simpa only [hsame] using h.drained⟩

-- An update that sends: what is left is to follow the event to the manager.
theorem InStep.send (h : InStep p us) (hclose : Closes ok) {known : Known} {ev : Event}
    (hknown : ∀ i, i ∈ known ↔ (current i (us ++ [(u, ok)])).isSome = true)
    (hdrained : ∀ i, i ∈ (handle ok ev p.drained).attachments ↔
      0 < i ∧ ∃ v, current i (us ++ [(u, ok)]) = some v ∧ Attaches i v.2) :
    InStep { p with known := known, events := p.events ++ [(ev, ok)] } (us ++ [(u, ok)]) := by
  have hlast : Pipeline.drained { p with known := known, events := p.events ++ [(ev, ok)] } =
      handle ok ev p.drained := by
    simp [Pipeline.drained, List.foldl_append]
  constructor
  · exact h.attached
  · intro e he
    rcases List.mem_append.mp he with he | he
    · exact h.closes e he
    · rw [List.mem_singleton.mp he]
      exact hclose
  · exact hknown
  · rw [hlast]
    exact hdrained

theorem InStep.appear (h : InStep p us) (hclose : Closes ok) {i : Int} {name : Dnsenc.GoString}
    (hnew : i ∉ p.known) (hmark : ∀ j, u.mark j = if i ≠ j then none else some true) :
    InStep { p with
      known := p.known.insert i name
      events := p.events ++ [(⟨.add, i, name⟩, ok)] } (us ++ [(u, ok)]) := by
  have hnone : current i us = none := by
    rw [← Option.not_isSome_iff_eq_none, ← h.known]
    exact hnew
  apply h.send hclose
  · intro j
    rw [Finmap.mem_insert, current_snoc, hmark]
    by_cases hj : i = j
    · simp [hj]
    · simp [hj, Ne.symm hj, h.known]
  · intro j
    rw [(handle_spec hclose h.wellAttached_drained ⟨.add, i, name⟩).2 j, current_snoc, hmark]
    by_cases hj : i = j
    · subst hj
      have habsent : i ∉ p.drained.attachments := by
        rw [h.drained, hnone]
        simp
      simp [hnone, habsent]
    · simp only [hj, Ne.symm hj, ne_eq, not_false_eq_true, if_true, false_and, or_false]
      exact h.drained j

theorem InStep.disappear (h : InStep p us) (hclose : Closes ok) {i : Int} {name : Dnsenc.GoString}
    (hmark : ∀ j, u.mark j = if i ≠ j then none else some false) :
    InStep { p with
      known := p.known.erase i
      events := p.events ++ [(⟨.remove, i, name⟩, ok)] } (us ++ [(u, ok)]) := by
  apply h.send hclose
  · intro j
    rw [Finmap.mem_erase, current_snoc, hmark]
    by_cases hj : i = j
    · simp [hj]
    · simp [hj, Ne.symm hj, h.known]
  · intro j
    rw [(handle_spec hclose h.wellAttached_drained ⟨.remove, i, name⟩).2 j, current_snoc, hmark]
    by_cases hj : i = j
    · simp [hj]
    · simp only [hj, Ne.symm hj, ne_eq, not_false_eq_true, if_true, and_true]
      exact h.drained j

theorem InStep.update (h : InStep p us) (hclose : Closes ok) {q : Pipeline}
    (hnext : p.next (.update u ok) = some q) : InStep q (us ++ [(u, ok)]) := by
  have hhandled := handle_handled u p.known
  rw [Pipeline.next] at hnext
  generalize Netlinkmon.handle u p.known = r at hhandled hnext
  cases hhandled with
  | ignored hmark =>
      cases hnext
      exact h.quiet fun i => by simp [current_snoc, hmark]
  | newlink attrs hmark =>
      unfold Known.appear at hnext
      by_cases hknown : attrs.index ∈ p.known
      · rw [if_pos hknown] at hnext
        cases hnext
        apply h.quiet
        intro i
        rw [current_snoc, hmark]
        by_cases hi : attrs.index = i
        · have hsome : (current i us).isSome = true := (h.known i).mp (hi ▸ hknown)
          simp [hi, Option.or_of_isSome hsome]
        · simp [hi]
      · rw [if_neg hknown] at hnext
        by_cases hroom : p.events.length < eventsCap
        · simp only [hroom, if_true, Option.some.injEq] at hnext
          subst hnext
          exact h.appear hclose hknown hmark
        · simp [hroom] at hnext
  | dellink i hmark =>
      unfold Known.disappear at hnext
      cases hname : p.known.lookup i with
      | none =>
          rw [hname] at hnext
          cases hnext
          apply h.quiet
          intro j
          rw [current_snoc, hmark]
          by_cases hj : i = j
          · have hnone : ¬ (current j us).isSome = true := by
              rw [← h.known, ← hj]
              exact Finmap.lookup_eq_none.mp hname
            simp [hj, Option.not_isSome_iff_eq_none.mp hnone]
          · simp [hj]
      | some name =>
          rw [hname] at hnext
          by_cases hroom : p.events.length < eventsCap
          · simp only [hroom, if_true, Option.some.injEq] at hnext
            subst hnext
            exact h.disappear hclose hmark
          · simp [hroom] at hnext

theorem InStep.process (h : InStep p us) {q : Pipeline} (hnext : p.next .process = some q) :
    InStep q us := by
  unfold Pipeline.next at hnext
  cases hevents : p.events with
  | nil => simp [hevents] at hnext
  | cons e events =>
      simp only [hevents, Option.some.injEq] at hnext
      have hclose : ∀ x ∈ e :: events, Closes x.2 := hevents ▸ h.closes
      have hdrained : q.drained = p.drained := by
        rw [← hnext, Pipeline.drained, Pipeline.drained, hevents]
        rfl
      subst hnext
      constructor
      · exact (handle_spec (hclose e List.mem_cons_self) h.attached e.1).1
      · exact fun x hx => hclose x (List.mem_cons_of_mem e hx)
      · exact h.known
      · rw [hdrained]
        exact h.drained

end Update

theorem run_inStep {acts : List Act} {p : Pipeline} (hrun : Pipeline.start.run acts = some p)
    (hclose : ∀ u ∈ updates acts, Closes u.2) : InStep p (updates acts) := by
  let Inv := fun (p : Pipeline) (acts : List Act) =>
    (∀ u ∈ updates acts, Closes u.2) → InStep p (updates acts)
  have hstep : ∀ p past a q, Pipeline.next p a = some q → Inv p past → Inv q (past ++ [a]) := by
    intro p past a q hnext h
    show (∀ u ∈ updates (past ++ [a]), Closes u.2) → InStep q (updates (past ++ [a]))
    cases a with
    | update u ok =>
        rw [updates_snoc_update]
        intro hclose
        have hpast := h fun v hv => hclose v (List.mem_append_left _ hv)
        exact hpast.update (hclose (u, ok) (by simp)) hnext
    | process =>
        rw [updates_snoc_process]
        exact fun hclose => (h hclose).process hnext
  have hinv : Inv p ([] ++ acts) :=
    foldlM_history_invariant hstep [] (fun _ => InStep.start) hrun
  exact hinv hclose

/-- The interface is tracked, and both links of its attachment are open. -/
def TrackedOpen (m : AttachManager) (i : Int) : Prop :=
  ∃ a, m.attachments.lookup i = some a ∧
    ∀ hook, ∃ id, a.link hook = some id ∧ m.kernel.links.lookup id = some (i, hook)

/-- The last relevant update for the interface is an `RTM_NEWLINK`, and the `Attach` made for the
first one since its last `RTM_DELLINK` finds both calls to succeed. -/
def Expected (i : Int) (us : List (LinkUpdate × (LinkCall → Bool))) : Prop :=
  lastMark (fun u => u.1.mark i) us = some true ∧
    ∃ before u ok after, us = before ++ (u, ok) :: after ∧ u.mark i = some true ∧
      (∀ v ∈ after, v.1.mark i ≠ some false) ∧
      lastMark (fun v => v.1.mark i) before ≠ some true ∧ Attaches i ok

theorem trackedOpen_iff {m : AttachManager} (h : WellAttached m) (i : Int) :
    TrackedOpen m i ↔ i ∈ m.attachments := by
  rw [← Finmap.lookup_isSome, Option.isSome_iff_exists]
  constructor
  · rintro ⟨a, ha, -⟩
    exact ⟨a, ha⟩
  · rintro ⟨a, ha⟩
    exact ⟨a, ha, (h.tracked i a ha).2⟩

theorem expected_iff (i : Int) (us : List (LinkUpdate × (LinkCall → Bool))) :
    Expected i us ↔ ∃ v, current i us = some v ∧ Attaches i v.2 := by
  have hcurrent := firstSince_eq_some_iff (fun u : LinkUpdate × (LinkCall → Bool) => u.1.mark i) us
  constructor
  · rintro ⟨-, before, u, ok, after, hus, hmark, hafter, hbefore, hok⟩
    exact ⟨(u, ok), (hcurrent (u, ok)).mpr ⟨before, after, hus, hmark, hafter, hbefore⟩, hok⟩
  · rintro ⟨⟨u, ok⟩, hv, hok⟩
    rcases (hcurrent (u, ok)).mp hv with ⟨before, after, hus, hmark, hafter, hbefore⟩
    refine ⟨(firstSince_isSome_iff _ us).mp ?_, before, u, ok, after, hus, hmark, hafter, hbefore,
      hok⟩
    show (current i us).isSome = true
    rw [hv]
    rfl

/-- Once the controller has caught up, the interfaces that are tracked with both of their links open
are the expected ones; any other interface has no link open.  At no point does a side of an
interface have two links. -/
theorem attachments_follow_links (acts : List Act) (p : Pipeline)
    (hrun : Pipeline.start.run acts = some p)
    (hclose : ∀ u ∈ updates acts, ∀ i hook, u.2 (.close i hook) = true) :
    (p.events = [] → ∀ i,
      (0 < i → (TrackedOpen p.mgr i ↔ Expected i (updates acts))) ∧
      (¬ (0 < i ∧ Expected i (updates acts)) →
        i ∉ p.mgr.attachments ∧ ∀ hook, ¬ p.mgr.kernel.links.Holds i hook)) ∧
    ∀ t ∈ p.mgr.kernel.tables, ∀ id id' i hook,
      t.lookup id = some (i, hook) → t.lookup id' = some (i, hook) → id = id' := by
  have hin := run_inStep hrun hclose
  refine ⟨fun hempty i => ?_, hin.attached.single⟩
  have hmem : i ∈ p.mgr.attachments ↔ 0 < i ∧ Expected i (updates acts) := by
    rw [expected_iff, ← hin.drained i, Pipeline.drained, hempty, List.foldl_nil]
  rw [trackedOpen_iff hin.attached, ← hmem]
  refine ⟨fun hpos => hmem.trans (and_iff_right hpos), fun hnot => ⟨hnot, fun hook hholds => ?_⟩⟩
  exact hnot ((hin.attached.holds_iff i hook).mp hholds)

/-- An update for a veth. -/
def vethLink (headerType : UInt16) (i : Int) : LinkUpdate :=
  ⟨headerType, some ⟨veth, some ⟨i, veth⟩⟩⟩

/-- Every call succeeds, apart from an `AttachTCX` of the egress program. -/
def egressRefused : LinkCall → Bool
  | .attachTCX _ .egress => false
  | _ => true

/-- Interface 7 is announced twice, goes, and is announced once more, with the first and the last
`Attach` succeeding; interface 8 is refused its egress program, and is not tried again. -/
def vethActs : List Act :=
  [.update (vethLink rtmNewlink 7) fun _ => true, .update (vethLink rtmNewlink 7) fun _ => true,
    .update (vethLink rtmNewlink 8) egressRefused, .process, .process,
    .update (vethLink rtmNewlink 8) fun _ => true, .update (vethLink rtmDellink 7) fun _ => true,
    .process, .update (vethLink rtmNewlink 7) fun _ => true, .process]

theorem veths_attached :
    ∃ p, Pipeline.start.run vethActs = some p ∧ p.events = [] ∧ TrackedOpen p.mgr 7 ∧
      8 ∉ p.mgr.attachments ∧ ∀ hook, ¬ p.mgr.kernel.links.Holds 8 hook := by
  have hclose : ∀ u ∈ updates vethActs, ∀ i hook, u.2 (.close i hook) = true := by
    simp [updates, vethActs, egressRefused]
  have hlinks := attachments_follow_links vethActs _ rfl hclose
  refine ⟨_, rfl, rfl, ?_, ?_⟩
  · apply ((hlinks.1 rfl 7).1 (by decide)).mpr
    refine ⟨rfl, (updates vethActs).take 5, vethLink rtmNewlink 7, fun _ => true, [], rfl, rfl, ?_,
      ?_, rfl, rfl⟩
    · exact fun v hv => absurd hv List.not_mem_nil
    · decide
  · apply (hlinks.1 rfl 8).2
    rintro ⟨-, hexpected⟩
    rcases (expected_iff 8 _).mp hexpected with ⟨v, hv, hattaches⟩
    have hfirst : current 8 (updates vethActs) = some (vethLink rtmNewlink 8, egressRefused) := rfl
    rw [hfirst] at hv
    cases hv
    cases hattaches.2

end DnsGateway.Controller
