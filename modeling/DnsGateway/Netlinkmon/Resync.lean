import Mathlib.Data.List.Chain
import DnsGateway.Reasoning.History
import DnsGateway.Netlinkmon.Monitor

/-!
# Two producers of events (`internal/netlinkmon/monitor.go`)

The loop of `Start` and its resync goroutine both test and update `known` under the lock and send
the event behind it.  The order of the sends need not be the order of the locked sections.
-/

namespace DnsGateway.Netlinkmon

open DnsGateway.Reasoning

/-- Where the loop of `Start` stands. -/
inductive MainPc where
  | waiting
  | sending (ev : Event)
  | exited

/-- Where the resync goroutine stands. -/
inductive ResyncPc where
  | idle
  -- `dumpInterrupted` was set; `LinkList` comes next.
  | listing
  -- `LinkList` has returned; the flag is cleared next.
  | listed (links : List Link)
  | scanning (links : List Link)
  | sending (ev : Event) (links : List Link)
  | exited

structure Monitor where
  known : Known
  -- The events that were delivered on the channel, in order.
  sent : List Event
  main : MainPc
  resync : ResyncPc
  dumpInterrupted : Bool
  canceled : Bool
  -- Whether the loop of `Start` was the last to find an event to send.
  mainLast : Bool

inductive Act where
  | update (u : LinkUpdate)
  | mainSends
  | mainExits
  | interrupt
  | tick
  | linkList (links : Option (List Link))
  | clearFlag
  | nextLink
  | resyncSends
  | resyncExits
  | cancel

def Monitor.start : Monitor where
  known := ∅
  sent := []
  main := .waiting
  resync := .idle
  dumpInterrupted := false
  canceled := false
  mainLast := true

/-- The monitor after an action, if the action is possible.  The consumer of the events keeps room
in the channel. -/
def Monitor.next (m : Monitor) : Act → Option Monitor
  | .update u =>
      match m.main with
      | .waiting =>
          match handle u m.known with
          | (known, none) => some { m with known := known }
          | (known, some ev) =>
              some { m with known := known, main := .sending ev, mainLast := true }
      | _ => none
  | .mainSends =>
      match m.main with
      | .sending ev => some { m with sent := m.sent ++ [ev], main := .waiting }
      | _ => none
  -- On cancellation, or when `updates` is closed.
  | .mainExits =>
      match m.main with
      | .waiting => some { m with main := .exited }
      | .sending _ => if m.canceled then some { m with main := .exited } else none
      | .exited => none
  | .interrupt => some { m with dumpInterrupted := true }
  | .tick =>
      match m.resync with
      | .idle => some { m with resync := if m.dumpInterrupted then .listing else .idle }
      | _ => none
  | .linkList links =>
      match m.resync, links with
      | .listing, none => some { m with resync := .idle }
      | .listing, some links => some { m with resync := .listed links }
      | _, _ => none
  | .clearFlag =>
      match m.resync with
      | .listed links => some { m with dumpInterrupted := false, resync := .scanning links }
      | _ => none
  | .nextLink =>
      match m.resync with
      | .scanning [] => some { m with resync := .idle }
      | .scanning (link :: links) =>
          match resyncLink link m.known with
          | (known, none) => some { m with known := known, resync := .scanning links }
          | (known, some ev) =>
              some { m with known := known, resync := .sending ev links, mainLast := false }
      | _ => none
  | .resyncSends =>
      match m.resync with
      | .sending ev links => some { m with sent := m.sent ++ [ev], resync := .scanning links }
      | _ => none
  -- `stopResync` is closed when the loop of `Start` exits.
  | .resyncExits =>
      match m.resync, m.main with
      | .idle, .exited => some { m with resync := .exited }
      | .sending _ _, .exited => some { m with resync := .exited }
      | .idle, _ => if m.canceled then some { m with resync := .exited } else none
      | .sending _ _, _ => if m.canceled then some { m with resync := .exited } else none
      | _, _ => none
  | .cancel => some { m with canceled := true }

def Monitor.run (m : Monitor) (acts : List Act) : Option Monitor := acts.foldlM Monitor.next m

/-- The actions of a monitor that is not shutting down. -/
def Act.Running : Act → Prop
  | .mainExits | .resyncExits | .cancel => False
  | _ => True

/-! ## Alternation -/

/-- `add`, `remove`, `add`, ... -/
def Alternates (types : List EventType) : Prop := List.IsChain (· ≠ ·) (EventType.remove :: types)

instance (types : List EventType) : Decidable (Alternates types) :=
  inferInstanceAs (Decidable (List.IsChain _ _))

/-- Whether an interface is there behind one more event for it, unless the event says nothing
new. -/
def toggle (present : Bool) : EventType → Option Bool
  | .add => if present then none else some true
  | .remove => if present then some false else none

theorem foldlM_toggle_isChain (types : List EventType) (b : Bool) :
    (types.foldlM toggle b).isSome = true ↔
      List.IsChain (· ≠ ·) ((if b then EventType.add else .remove) :: types) := by
  induction types generalizing b with
  | nil => simp
  | cons x types ih =>
      rw [List.foldlM_cons, List.isChain_cons_cons]
      cases b with
      | false =>
          cases x with
          | add => simpa [toggle] using ih true
          | remove => simp [toggle]
      | true =>
          cases x with
          | add => simp [toggle]
          | remove => simpa [toggle] using ih false

theorem foldlM_toggle_getLast {types : List EventType} {c : Bool}
    (h : types.foldlM toggle false = some c) : types.getLast? = some .add ↔ c = true := by
  induction types using List.reverseRecOn with
  | nil =>
      cases h
      simp
  | append_singleton types x _ =>
      rw [List.foldlM_append] at h
      rw [List.getLast?_concat, Option.some.injEq]
      cases hb : types.foldlM toggle false with
      | none => simp [hb] at h
      | some b => cases b <;> cases x <;> simp_all [toggle]

theorem alternates_iff (types : List EventType) :
    Alternates types ↔ (types.foldlM toggle false).isSome = true :=
  (foldlM_toggle_isChain types false).symm

/-! ## What is delivered and what is pending -/

/-- The events for one interface. -/
def typesOf (i : Int) (evs : List Event) : List EventType :=
  (evs.filter fun ev => ev.ifindex = i).map Event.type

def MainPc.pending : MainPc → List Event
  | .sending ev => [ev]
  | _ => []

def ResyncPc.pending : ResyncPc → List Event
  | .sending ev _ => [ev]
  | _ => []

/-- The events to be sent, in the order of the locked sections that found them. -/
def Monitor.pending (m : Monitor) : List Event :=
  if m.mainLast then m.resync.pending ++ m.main.pending else m.main.pending ++ m.resync.pending

/-- Events alternate for each interface, and while no send is pending the interfaces with an `add`
last are the known ones. -/
structure Consistent (m : Monitor) : Prop where
  alternates : ∀ i, Alternates (typesOf i m.sent)
  known : m.pending = [] → ∀ i, (typesOf i m.sent).getLast? = some .add ↔ i ∈ m.known

/-- The action sends an event while an earlier one for the same interface waits to be sent. -/
def Overtakes (m : Monitor) : Act → Prop
  | .mainSends => m.mainLast = true ∧ ∃ ev ∈ m.main.pending, ∃ ev' ∈ m.resync.pending,
      ev'.ifindex = ev.ifindex
  | .resyncSends => m.mainLast = false ∧ ∃ ev ∈ m.resync.pending, ∃ ev' ∈ m.main.pending,
      ev'.ifindex = ev.ifindex
  | _ => False

/-- What is delivered, followed by what is pending, alternates and ends in what is known. -/
def Ordered (m : Monitor) : Prop :=
  ∀ i, (typesOf i (m.sent ++ m.pending)).foldlM toggle false = some (decide (i ∈ m.known))

theorem typesOf_append (i : Int) (evs evs' : List Event) :
    typesOf i (evs ++ evs') = typesOf i evs ++ typesOf i evs' := by
  simp [typesOf]

theorem typesOf_self (ev : Event) : typesOf ev.ifindex [ev] = [ev.type] := by
  simp [typesOf]

theorem typesOf_other {i : Int} {ev : Event} (h : ev.ifindex ≠ i) : typesOf i [ev] = [] := by
  simp [typesOf, h]

theorem Ordered.start : Ordered .start := by
  intro i
  simp [Monitor.start, Monitor.pending, MainPc.pending, ResyncPc.pending, typesOf,
    Finmap.notMem_empty]

theorem Ordered.consistent {m : Monitor} (h : Ordered m) : Consistent m := by
  constructor
  · intro i
    have hi := h i
    rw [typesOf_append, List.foldlM_append] at hi
    rw [alternates_iff]
    cases hsent : (typesOf i m.sent).foldlM toggle false with
    | none => simp [hsent] at hi
    | some b => rfl
  · intro hnone i
    have hi := h i
    rw [hnone, List.append_nil] at hi
    simpa using foldlM_toggle_getLast hi

-- A locked section puts its event behind all others.
theorem Ordered.locked {m m' : Monitor} (h : Ordered m) {r : Known × Option Event}
    (hlocked : Locked m.known r) (hknown : m'.known = r.1) (hsent : m'.sent = m.sent)
    (hpending : m'.pending = m.pending ++ r.2.toList) : Ordered m' := by
  intro i
  rw [hknown, hsent, hpending, ← List.append_assoc, typesOf_append, List.foldlM_append, h i]
  cases hlocked with
  | unchanged => simp [typesOf]
  | added k name hk =>
      by_cases hi : k = i
      · subst hi
        simp [typesOf, toggle, hk]
      · simp [typesOf, hi, Ne.symm hi]
  | removed k name hk =>
      by_cases hi : k = i
      · subst hi
        simp [typesOf, toggle, hk]
      · simp [typesOf, hi, Ne.symm hi]

-- An event may be sent before those for other interfaces.
theorem typesOf_rotate {other : List Event} {ev : Event}
    (h : ∀ ev' ∈ other, ev'.ifindex ≠ ev.ifindex) (i : Int) :
    typesOf i (other ++ [ev]) = typesOf i (ev :: other) := by
  show typesOf i (other ++ [ev]) = typesOf i ([ev] ++ other)
  rw [typesOf_append, typesOf_append]
  by_cases hi : ev.ifindex = i
  · have hnone : typesOf i other = [] := by
      simp only [typesOf, List.map_eq_nil_iff, List.filter_eq_nil_iff, decide_eq_true_eq]
      exact fun ev' hev' heq => h ev' hev' (heq.trans hi.symm)
    simp [hnone]
  · simp [typesOf_other hi]

-- A send that overtakes nothing; `last` tells whether its event is the latest.
theorem Ordered.send {m m' : Monitor} (h : Ordered m) (ev : Event) (other : List Event)
    (last : Bool) (hpending : m.pending = if last then other ++ [ev] else ev :: other)
    (hknown : m'.known = m.known) (hsent : m'.sent = m.sent ++ [ev]) (hlater : m'.pending = other)
    (hfree : last = true → ∀ ev' ∈ other, ev'.ifindex ≠ ev.ifindex) : Ordered m' := by
  intro i
  have horder : typesOf i m.pending = typesOf i (ev :: other) := by
    rw [hpending]
    cases last with
    | false => rfl
    | true => exact typesOf_rotate (hfree rfl) i
  have hi := h i
  rw [typesOf_append, horder, ← List.singleton_append, typesOf_append] at hi
  rw [hknown, hsent, hlater, typesOf_append, typesOf_append, List.append_assoc]
  exact hi

-- A send that overtakes `ev'`.
theorem Ordered.overtake {m m' : Monitor} (h : Ordered m) {ev ev' : Event}
    (hpending : m.pending = [ev', ev]) (hsame : ev'.ifindex = ev.ifindex)
    (hsent : m'.sent = m.sent ++ [ev]) : ¬ Consistent m' := by
  intro hc
  have hi := h ev.ifindex
  have halt := hc.alternates ev.ifindex
  rw [alternates_iff, hsent, typesOf_append, typesOf_self, List.foldlM_append] at halt
  rw [hpending, typesOf_append, List.foldlM_append] at hi
  cases hb : (typesOf ev.ifindex m.sent).foldlM toggle false with
  | none => simp [hb] at halt
  | some b =>
      cases hx : ev.type <;> cases hy : ev'.type <;> cases b <;>
        simp_all [typesOf, toggle]

/-! ## Runs -/

theorem pending_of_waiting {m : Monitor} (h : m.main.pending = []) :
    m.pending = m.resync.pending := by
  simp [Monitor.pending, h]

theorem pending_of_quiet {m : Monitor} (h : m.resync.pending = []) :
    m.pending = m.main.pending := by
  simp [Monitor.pending, h]

-- The resync goroutine goes on with nothing to send.
theorem Ordered.move {m : Monitor} (h : Ordered m) (hold : m.resync.pending = []) {pc : ResyncPc}
    (hnew : pc.pending = []) (flag : Bool) :
    Ordered { m with resync := pc, dumpInterrupted := flag } := by
  intro i
  have hi := h i
  rw [pending_of_quiet hold] at hi
  rw [pending_of_quiet (show ResyncPc.pending _ = [] from hnew)]
  exact hi

theorem next_update_ordered {m m' : Monitor} {u : LinkUpdate} (hnext : m.next (.update u) = some m')
    (h : Ordered m) : Ordered m' := by
  cases hmain : m.main with
  | waiting =>
      have hpending : m.pending = m.resync.pending := pending_of_waiting (by rw [hmain]; rfl)
      have hlocked := handle_locked u m.known
      simp only [Monitor.next, hmain] at hnext
      generalize handle u m.known = r at hnext hlocked
      rcases r with ⟨known, _ | ev⟩
      · apply h.locked hlocked <;> cases hnext
        · rfl
        · rfl
        · rw [hpending, pending_of_waiting rfl]
          simp
      · apply h.locked hlocked <;> cases hnext
        · rfl
        · rfl
        · rw [hpending]
          rfl
  | sending ev => simp [Monitor.next, hmain] at hnext
  | exited => simp [Monitor.next, hmain] at hnext

theorem next_nextLink_ordered {m m' : Monitor} (hnext : m.next .nextLink = some m')
    (h : Ordered m) : Ordered m' := by
  cases hresync : m.resync with
  | scanning links =>
      have hquiet : m.resync.pending = [] := by rw [hresync]; rfl
      cases links with
      | nil =>
          simp only [Monitor.next, hresync, Option.some.injEq] at hnext
          subst hnext
          exact h.move hquiet rfl m.dumpInterrupted
      | cons link links =>
          have hlocked := resyncLink_locked link m.known
          simp only [Monitor.next, hresync] at hnext
          generalize resyncLink link m.known = r at hnext hlocked
          rcases r with ⟨known, _ | ev⟩
          · apply h.locked hlocked <;> cases hnext
            · rfl
            · rfl
            · rw [pending_of_quiet hquiet, pending_of_quiet rfl]
              simp
          · apply h.locked hlocked <;> cases hnext
            · rfl
            · rfl
            · rw [pending_of_quiet hquiet]
              rfl
  | _ => simp [Monitor.next, hresync] at hnext

-- The two sends.
theorem next_mainSends {m m' : Monitor} (hnext : m.next .mainSends = some m') :
    ∃ ev, m.main = .sending ev ∧ m' = { m with sent := m.sent ++ [ev], main := .waiting } := by
  cases hmain : m.main with
  | sending ev =>
      simp only [Monitor.next, hmain, Option.some.injEq] at hnext
      exact ⟨ev, rfl, hnext.symm⟩
  | waiting => simp [Monitor.next, hmain] at hnext
  | exited => simp [Monitor.next, hmain] at hnext

theorem next_resyncSends {m m' : Monitor} (hnext : m.next .resyncSends = some m') :
    ∃ ev links, m.resync = .sending ev links ∧
      m' = { m with sent := m.sent ++ [ev], resync := .scanning links } := by
  cases hresync : m.resync with
  | sending ev links =>
      simp only [Monitor.next, hresync, Option.some.injEq] at hnext
      exact ⟨ev, links, rfl, hnext.symm⟩
  | _ => simp [Monitor.next, hresync] at hnext

theorem next_ordered {m m' : Monitor} {a : Act} (hrunning : a.Running)
    (hnext : m.next a = some m') (h : Ordered m) (hfree : ¬ Overtakes m a) : Ordered m' := by
  cases a with
  | update u => exact next_update_ordered hnext h
  | mainSends =>
      rcases next_mainSends hnext with ⟨ev, hmain, rfl⟩
      apply h.send ev m.resync.pending m.mainLast
      · simp only [Monitor.pending, hmain, MainPc.pending, List.singleton_append]
      · rfl
      · rfl
      · exact pending_of_waiting rfl
      · intro hlast ev' hev' hsame
        exact hfree ⟨hlast, ev, by simp [hmain, MainPc.pending], ev', hev', hsame⟩
  | interrupt =>
      cases hnext
      exact h
  | tick =>
      cases hresync : m.resync with
      | idle =>
          simp only [Monitor.next, hresync, Option.some.injEq] at hnext
          subst hnext
          exact h.move (by rw [hresync]; rfl) (by split <;> rfl) m.dumpInterrupted
      | _ => simp [Monitor.next, hresync] at hnext
  | linkList links =>
      cases hresync : m.resync with
      | listing =>
          have hquiet : m.resync.pending = [] := by rw [hresync]; rfl
          cases links with
          | none =>
              simp only [Monitor.next, hresync, Option.some.injEq] at hnext
              subst hnext
              exact h.move hquiet rfl m.dumpInterrupted
          | some links =>
              simp only [Monitor.next, hresync, Option.some.injEq] at hnext
              subst hnext
              exact h.move hquiet rfl m.dumpInterrupted
      | _ => simp [Monitor.next, hresync] at hnext
  | clearFlag =>
      cases hresync : m.resync with
      | listed links =>
          simp only [Monitor.next, hresync, Option.some.injEq] at hnext
          subst hnext
          exact h.move (by rw [hresync]; rfl) rfl false
      | _ => simp [Monitor.next, hresync] at hnext
  | nextLink => exact next_nextLink_ordered hnext h
  | resyncSends =>
      rcases next_resyncSends hnext with ⟨ev, links, hresync, rfl⟩
      apply h.send ev m.main.pending (!m.mainLast)
      · cases hlast : m.mainLast <;>
          simp only [Monitor.pending, hlast, hresync, ResyncPc.pending] <;> rfl
      · rfl
      · rfl
      · exact pending_of_quiet rfl
      · intro hlast ev' hev' hsame
        refine hfree ⟨by simpa using hlast, ev, ?_, ev', hev', hsame⟩
        simp [hresync, ResyncPc.pending]
  | mainExits => exact absurd hrunning id
  | resyncExits => exact absurd hrunning id
  | cancel => exact absurd hrunning id

theorem mem_mainPending {pc : MainPc} {ev : Event} (h : ev ∈ pc.pending) : pc.pending = [ev] := by
  cases pc with
  | sending x =>
      cases List.mem_singleton.mp h
      rfl
  | _ => cases h

theorem mem_resyncPending {pc : ResyncPc} {ev : Event} (h : ev ∈ pc.pending) :
    pc.pending = [ev] := by
  cases pc with
  | sending x links =>
      cases List.mem_singleton.mp h
      rfl
  | _ => cases h

theorem next_overtakes {m m' : Monitor} {a : Act} (hnext : m.next a = some m') (h : Ordered m)
    (hover : Overtakes m a) : ¬ Consistent m' := by
  cases a with
  | mainSends =>
      rcases hover with ⟨hlast, ev, hev, ev', hev', hsame⟩
      rcases next_mainSends hnext with ⟨x, hmain, rfl⟩
      rw [hmain] at hev
      cases List.mem_singleton.mp hev
      apply h.overtake _ hsame rfl
      simp [Monitor.pending, hlast, hmain, MainPc.pending, mem_resyncPending hev']
  | resyncSends =>
      rcases hover with ⟨hlast, ev, hev, ev', hev', hsame⟩
      rcases next_resyncSends hnext with ⟨x, links, hresync, rfl⟩
      rw [hresync] at hev
      cases List.mem_singleton.mp hev
      apply h.overtake _ hsame rfl
      simp [Monitor.pending, hlast, hresync, ResyncPc.pending, mem_mainPending hev']
  | _ => exact absurd hover id

/-- A monitor that is not shutting down is consistent at every point of a run if and only if no send
of the run overtakes an earlier one for the same interface. -/
theorem events_consistent_iff (acts : List Act) (m : Monitor)
    (hrun : Monitor.start.run acts = some m) (hrunning : ∀ a ∈ acts, a.Running) :
    (∀ pre m', pre <+: acts → Monitor.start.run pre = some m' → Consistent m') ↔
      ∀ pre a m', pre ++ [a] <+: acts → Monitor.start.run pre = some m' → ¬ Overtakes m' a := by
  have hstep : ∀ m a m', Act.Running a → Monitor.next m a = some m' → Ordered m →
      ¬ Overtakes m a → Ordered m' := fun m a m' ha hnext h hfree => next_ordered ha hnext h hfree
  have hbad : ∀ m a m', Act.Running a → Monitor.next m a = some m' → Ordered m →
      Overtakes m a → ¬ Consistent m' := fun m a m' _ hnext h hover => next_overtakes hnext h hover
  exact foldlM_prefixes_iff (fun m => Ordered.consistent) hstep hbad Ordered.start hrunning hrun

/-- The update for a veth with index 7. -/
def vethUpdate (headerType : UInt16) : LinkUpdate := ⟨headerType, some ⟨veth, some ⟨7, veth⟩⟩⟩

/-- The resync goroutine finds a veth, and before it sends the `add` the loop of `Start` handles the
removal of the veth; the two then send in that order. -/
def resyncActs : List Act :=
  [.interrupt, .tick, .linkList (some [⟨veth, some ⟨7, veth⟩⟩]), .clearFlag, .nextLink,
    .update (vethUpdate rtmDellink), .resyncSends, .mainSends]

theorem resync_events_consistent :
    ∃ m, Monitor.start.run resyncActs = some m ∧ typesOf 7 m.sent = [.add, .remove] ∧
      ∀ pre m', pre <+: resyncActs → Monitor.start.run pre = some m' → Consistent m' := by
  refine ⟨_, rfl, rfl, (events_consistent_iff resyncActs _ rfl ?_).mpr ?_⟩
  · simp [resyncActs, Act.Running]
  · -- Only the sends could overtake.
    have hquiet : ∀ m : Monitor, ∀ a ∈ resyncActs.take 6, ¬ Overtakes m a := by
      simp [resyncActs, Overtakes]
    unfold Monitor.run resyncActs
    iterate 6 refine (foldlM_steps_cons rfl _).mpr ⟨hquiet _ _ (by simp [resyncActs]), ?_⟩
    refine (foldlM_steps_cons rfl _).mpr ⟨fun h => Bool.noConfusion h.1, ?_⟩
    refine (foldlM_steps_cons rfl _).mpr ⟨?_, ?_⟩
    · rintro ⟨-, ev, -, ev', hev', -⟩
      cases hev'
    · intro pre a m' hpre
      simp at hpre

/-- The resync goroutine finds a veth and is about to send its `add`; the loop of `Start` handles
the removal of the veth and sends `remove` first.  In the end the veth is not known, and what was
delivered last for it is an `add`. -/
theorem add_overtaken :
    ∃ m, Monitor.start.run [.interrupt, .tick, .linkList (some [⟨veth, some ⟨7, veth⟩⟩]),
        .clearFlag, .nextLink, .update (vethUpdate rtmDellink), .mainSends, .resyncSends] = some m ∧
      m.pending = [] ∧ typesOf 7 m.sent = [.remove, .add] ∧ ¬ Alternates (typesOf 7 m.sent) ∧
      7 ∉ m.known := by
  refine ⟨_, rfl, rfl, rfl, ?_, ?_⟩ <;> decide

end DnsGateway.Netlinkmon
