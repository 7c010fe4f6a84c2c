import Mathlib.Data.Prod.Lex
import DnsGateway.Reasoning.Progress
import DnsGateway.Netlinkmon.Start

/-!
# What the consumer of the events can rely on (`internal/netlinkmon/monitor.go`)

No event is lost before the monitor stops, the order is that of the locked sections as long as the
resync goroutine has nothing to do, the error that `Start` returns tells why it stopped, and once it
is told to stop it does.
-/

namespace DnsGateway.Netlinkmon

open DnsGateway.Reasoning

/-! ## Events are sent or given up -/

def StartPc.pending : StartPc → List Event
  | .emitting ev => [ev]
  | _ => []

/-- The events found and not yet sent. -/
def Start.pending (s : Start) : List Event :=
  s.main.pending ++ (s.resync.elim [] ResyncPc.pending)

def StartPc.pastLoop : StartPc → Bool
  | .subscribing | .selecting | .emitting _ => false
  | _ => true

def ResyncPc.exits : ResyncPc → Nat
  | .exited => 1
  | _ => 0

/-- How many of the two goroutines are past their last send. -/
def Start.exits (s : Start) : Nat :=
  (if s.main.pastLoop then 1 else 0) + s.resync.elim 0 ResyncPc.exits

/-- What was found was sent, is about to be sent or was given up, and each goroutine gives up at
most one event, its last. -/
structure Conserved (s : Start) : Prop where
  found : s.found.Perm (s.sent ++ s.pending ++ s.dropped)
  few : s.dropped.length ≤ s.exits
  cause : s.dropped ≠ [] → s.stopped = true

theorem Conserved.new : Conserved .new where
  found := List.Perm.refl []
  few := Nat.zero_le _
  cause := fun h => absurd rfl h

section Conserved

variable {s t : Start} (h : Conserved s) (ev : Event)

include h

omit ev in
theorem Conserved.quiet (hfound : t.found = s.found) (hsent : t.sent = s.sent)
    (hpending : t.pending = s.pending) (hdropped : t.dropped = s.dropped)
    (hexits : s.exits ≤ t.exits) (hstopped : s.stopped = true → t.stopped = true) :
    Conserved t := by
  constructor
  · rw [hfound, hsent, hpending, hdropped]
    exact h.found
  · rw [hdropped]
    exact Nat.le_trans h.few hexits
  · rw [hdropped]
    exact fun hne => hstopped (h.cause hne)

theorem Conserved.find (hfound : t.found = s.found ++ [ev]) (hsent : t.sent = s.sent)
    (hpending : t.pending.Perm (ev :: s.pending)) (hdropped : t.dropped = s.dropped)
    (hexits : s.exits = t.exits) (hstopped : s.stopped = t.stopped) : Conserved t := by
  constructor
  · rw [hfound, hsent, hdropped]
    rw [List.perm_iff_count]
    intro x
    have hx := (List.perm_iff_count.mp h.found) x
    have hp := (List.perm_iff_count.mp hpending) x
    simp only [List.count_append, List.count_cons, List.count_nil] at hx hp ⊢
    omega
  · rw [hdropped, ← hexits]
    exact h.few
  · rw [hdropped, ← hstopped]
    exact h.cause

theorem Conserved.send (hfound : t.found = s.found) (hsent : t.sent = s.sent ++ [ev])
    (hpending : s.pending.Perm (ev :: t.pending)) (hdropped : t.dropped = s.dropped)
    (hexits : s.exits = t.exits) (hstopped : s.stopped = t.stopped) : Conserved t := by
  constructor
  · rw [hfound, hsent, hdropped]
    rw [List.perm_iff_count]
    intro x
    have hx := (List.perm_iff_count.mp h.found) x
    have hp := (List.perm_iff_count.mp hpending) x
    simp only [List.count_append, List.count_cons, List.count_nil] at hx hp ⊢
    omega
  · rw [hdropped, ← hexits]
    exact h.few
  · rw [hdropped, ← hstopped]
    exact h.cause

theorem Conserved.giveUp (hfound : t.found = s.found) (hsent : t.sent = s.sent)
    (hpending : s.pending.Perm (ev :: t.pending)) (hdropped : t.dropped = s.dropped ++ [ev])
    (hexits : t.exits = s.exits + 1) (hstopped : t.stopped = true) : Conserved t := by
  constructor
  · rw [hfound, hsent, hdropped]
    rw [List.perm_iff_count]
    intro x
    have hx := (List.perm_iff_count.mp h.found) x
    have hp := (List.perm_iff_count.mp hpending) x
    simp only [List.count_append, List.count_cons, List.count_nil] at hx hp ⊢
    omega
  · rw [hdropped, hexits, List.length_append]
    exact Nat.succ_le_succ h.few
  · exact fun _ => hstopped

end Conserved

theorem MainStep.conserved {s t : Start} {a : MainAct} (hs : Sound s) (h : Conserved s)
    (hstep : MainStep s a t) : Conserved t := by
  cases hstep with
  | subscribed hmain =>
      have hnone := hs.subscribing hmain
      apply h.quiet <;> simp [Start.sent, Start.pending, Start.exits, Start.stopped, hmain, hnone,
        StartPc.pending, StartPc.pastLoop, ResyncPc.pending, ResyncPc.exits]
  | found hmain u known ev hhandle =>
      apply h.find ev <;> simp [Start.sent, Start.pending, Start.exits, Start.stopped, hmain,
        StartPc.pending, StartPc.pastLoop]
  | sent ev hmain c hbuf hopen =>
      apply h.send ev <;> simp [Start.sent, Start.pending, Start.exits, Start.stopped, hmain, hbuf,
        StartPc.pending, StartPc.pastLoop]
  | gaveUp ev hmain hstopped =>
      refine h.giveUp ev rfl rfl ?_ rfl ?_ hstopped
      · simp [Start.pending, hmain, StartPc.pending]
      · simp [Start.exits, hmain, StartPc.pastLoop, Nat.add_comm]
  | _ =>
      apply h.quiet <;> simp [Start.sent, Start.pending, Start.exits, Start.stopped,
        StartPc.pending, StartPc.pastLoop, *]

theorem ResyncStep.conserved {s t : Start} {a : ResyncAct} (h : Conserved s)
    (hstep : ResyncStep s a t) : Conserved t := by
  cases hstep with
  | found link links hpc known ev hlink =>
      apply h.find ev <;> simp [Start.sent, Start.pending, Start.exits, Start.stopped, hpc,
        ResyncPc.pending, ResyncPc.exits, List.perm_append_singleton]
  | sent ev links hpc c hbuf hopen =>
      apply h.send ev <;> simp [Start.sent, Start.pending, Start.exits, Start.stopped, hpc, hbuf,
        ResyncPc.pending, ResyncPc.exits, List.perm_append_singleton]
  | gaveUp ev links hpc hstopped c hclosed =>
      refine h.giveUp ev rfl rfl ?_ rfl ?_ hstopped
      · simp [Start.pending, hpc, ResyncPc.pending, List.perm_append_singleton]
      · simp [Start.exits, hpc, ResyncPc.exits]
  | _ =>
      apply h.quiet <;> simp [Start.sent, Start.pending, Start.exits, Start.stopped,
        ResyncPc.pending, ResyncPc.exits, *]

theorem StartStep.conserved {s t : Start} {a : StartAct} (hs : Sound s) (h : Conserved s)
    (hstep : StartStep s a t) : Conserved t := by
  cases hstep with
  | main a t hstep => exact hstep.conserved hs h
  | resync a t hstep => exact hstep.conserved h
  | cancel => exact h.quiet rfl rfl rfl rfl (Nat.le_refl _) (fun _ => rfl)
  | errorCallback err =>
      rcases s.errorCallback_eq err with ⟨flag, fatal, heq, -⟩
      rw [heq]
      exact h.quiet rfl rfl rfl rfl (Nat.le_refl _) id
  | closeUpdates => exact h.quiet rfl rfl rfl rfl (Nat.le_refl _) id
  | receive v c hbuf hclosed =>
      refine h.quiet rfl ?_ rfl rfl (Nat.le_refl _) id
      simp [Start.sent, hbuf]

theorem exits_le_two (s : Start) : s.exits ≤ 2 := by
  unfold Start.exits
  have hresync : s.resync.elim 0 ResyncPc.exits ≤ 1 := by
    rcases s.resync with _ | _ | _ | _ | _ | _ | _ <;> simp [ResyncPc.exits]
  split <;> omega

/-- Every event that a locked section found was sent, is about to be sent or was given up.  At most
two are given up, and none before the context is canceled or the loop of `Start` has ended. -/
theorem events_conserved (acts : List StartAct) (s : Start) (hrun : Start.new.run acts = some s) :
    s.found.Perm (s.received ++ s.events.buf ++ s.pending ++ s.dropped) ∧ s.dropped.length ≤ 2 ∧
      (s.canceled = false → s.main.pastLoop = false → s.dropped = []) := by
  let Inv := fun s : Start => Sound s ∧ Conserved s
  have hstep : ∀ s a t, s.next a = some t → Inv s → Inv t := fun s a t hnext h =>
    ⟨h.1.next hnext, (h.1.step hnext).conserved h.1 h.2⟩
  have h : Inv s := foldlM_invariant hstep ⟨Sound.new, Conserved.new⟩ hrun
  refine ⟨h.2.found, Nat.le_trans h.2.few (exits_le_two s), ?_⟩
  intro hcanceled hloop
  by_contra hdropped
  have hstopped := h.2.cause hdropped
  rw [Start.stopped, hcanceled, Bool.false_or, h.1.stop, Bool.and_eq_true] at hstopped
  have hpast := hstopped.1
  cases hmain : s.main <;> simp [hmain, StartPc.pastLoop, StartPc.pastStop] at hloop hpast

theorem veth_events_conserved :
    vethEnd.found.Perm
        (vethEnd.received ++ vethEnd.events.buf ++ vethEnd.pending ++ vethEnd.dropped) ∧
      vethEnd.dropped.length ≤ 2 :=
  have h := events_conserved vethRun vethEnd run_vethRun
  ⟨h.1, h.2.1⟩

/-! ## What `Start` returns -/

def StartPc.result : StartPc → Option (Option StartError)
  | .subscribing | .selecting | .emitting _ => none
  | .stopping err | .joining err | .closingDone err | .closingEvents err | .returned err =>
      some err

/-- What must have happened for `Start` to return `err`. -/
def Start.Cause (s : Start) : Option StartError → Prop
  | none => s.canceled = true
  | some (.subscribe _) => s.resync = none ∧ s.found = []
  | some (.subscription err) => s.updatesClosed = true ∧ err ≠ .dumpInterrupted
  | some .updatesClosed => s.updatesClosed = true

structure Explained (s : Start) : Prop where
  fatal : s.lastFatalErr ≠ some .dumpInterrupted
  idle : s.resync = none → s.found = []
  result : ∀ err, s.main.result = some err → s.Cause err

theorem Explained.new : Explained .new where
  fatal := by simp [Start.new]
  idle := fun _ => rfl
  result := by simp [Start.new, StartPc.result]

theorem MainStep.explained {s t : Start} {a : MainAct} (hs : Sound s) (h : Explained s)
    (hstep : MainStep s a t) : Explained t := by
  rcases h with ⟨hfatal, hidle, hresult⟩
  have hstop := hs.stop
  have hstarted := hs.started
  have hsub := hs.subscribing
  cases hstep <;> constructor <;>
    simp_all [Start.Cause, Start.stopped, StartPc.result, StartPc.pastStop, StartPc.pastJoin]

-- A cause remains one as long as the subscription stands.
theorem Start.Cause.mono {s t : Start} {err : Option StartError} (h : s.Cause err)
    (hcanceled : s.canceled = true → t.canceled = true)
    (hclosed : s.updatesClosed = true → t.updatesClosed = true)
    (hnone : s.resync = none → s.found = [] → t.resync = none ∧ t.found = []) : t.Cause err := by
  rcases err with _ | err
  · exact hcanceled h
  · cases err with
    | subscribe err => exact hnone h.1 h.2
    | subscription err => exact ⟨hclosed h.1, h.2⟩
    | updatesClosed => exact hclosed h

theorem ResyncStep.explained {s t : Start} {a : ResyncAct} (h : Explained s)
    (hstep : ResyncStep s a t) : Explained t := by
  have hcause : ∀ err, t.main.result = some err → t.Cause err := by
    intro err herr
    have hs : s.main.result = some err := by cases hstep <;> exact herr
    apply (h.result err hs).mono
    · cases hstep <;> exact id
    · cases hstep <;> exact id
    · intro hnone
      cases hstep <;> simp_all
  refine ⟨?_, ?_, hcause⟩
  · cases hstep <;> exact h.fatal
  · cases hstep <;> simp_all

theorem StartStep.explained {s t : Start} {a : StartAct} (hs : Sound s) (h : Explained s)
    (hstep : StartStep s a t) : Explained t := by
  cases hstep with
  | main a t hstep => exact hstep.explained hs h
  | resync a t hstep => exact hstep.explained h
  | cancel =>
      exact ⟨h.fatal, h.idle, fun err herr => (h.result err herr).mono (fun _ => rfl) id And.intro⟩
  | errorCallback err =>
      rcases s.errorCallback_eq err with ⟨flag, fatal, heq, hfatal⟩
      rw [heq]
      refine ⟨?_, h.idle, fun err herr => (h.result err herr).mono id id And.intro⟩
      rcases hfatal with rfl | ⟨rfl, hne⟩
      · exact h.fatal
      · exact fun hsome => hne (Option.some.inj hsome)
  | closeUpdates =>
      exact ⟨h.fatal, h.idle, fun err herr => (h.result err herr).mono id (fun _ => rfl) And.intro⟩
  | receive v c hbuf hclosed =>
      exact ⟨h.fatal, h.idle, fun err herr => (h.result err herr).mono id id And.intro⟩

theorem run_explained {acts : List StartAct} {s : Start} (hrun : Start.new.run acts = some s) :
    Explained s := by
  let Inv := fun s : Start => Sound s ∧ Explained s
  have hstep : ∀ s a t, s.next a = some t → Inv s → Inv t := fun s a t hnext h =>
    ⟨h.1.next hnext, (h.1.step hnext).explained h.1 h.2⟩
  exact (foldlM_invariant hstep ⟨Sound.new, Explained.new⟩ hrun).2

/-- The steps of the two goroutines, except that a `select` takes no further update and no further
tick of the timer. -/
def StartAct.Winding : StartAct → Prop
  | .main (.update _) | .resync .tick => False
  | .main _ | .resync _ => True
  | _ => False

/-- What is done to `Start` from outside. -/
def StartAct.Outside : StartAct → Prop
  | .cancel | .errorCallback _ | .closeUpdates | .receive => True
  | _ => False

def StartPc.rank : StartPc → Nat
  | .subscribing | .emitting _ => 7
  | .selecting => 6
  | .stopping _ => 5
  | .joining _ => 4
  | .closingDone _ => 3
  | .closingEvents _ => 2
  | .returned _ => 1

def ResyncPc.rank : ResyncPc → Nat
  | .listing => 4
  | .listed _ => 3
  | .scanning _ | .sending _ _ => 2
  | .idle => 1
  | .exited => 0

/-- The steps left in a scan. -/
def ResyncPc.left : ResyncPc → Nat
  | .scanning links => 2 * links.length
  | .sending _ links => 2 * links.length + 1
  | _ => 0

def Start.measure (s : Start) : ℕ ×ₗ ℕ :=
  toLex (s.main.rank + s.resync.elim 5 ResyncPc.rank, s.resync.elim 0 ResyncPc.left)

theorem MainStep.measure_lt {s t : Start} {a : MainAct} (hs : Sound s) (hstep : MainStep s a t)
    (hwinding : StartAct.Winding (.main a)) : t.measure < s.measure := by
  rw [Prod.Lex.lt_iff]
  have hsub := hs.subscribing
  cases hstep <;> simp_all [Start.measure, StartPc.rank, ResyncPc.rank, StartAct.Winding]

theorem ResyncStep.measure_lt {s t : Start} {a : ResyncAct} (hstep : ResyncStep s a t)
    (hwinding : StartAct.Winding (.resync a)) : t.measure < s.measure := by
  rw [Prod.Lex.lt_iff]
  cases hstep with
  | found link links hpc known ev hlink =>
      have hleft : 2 * links.length + 1 < 2 * (links.length + 1) := by omega
      simpa [Start.measure, hpc, ResyncPc.rank, ResyncPc.left] using hleft
  | _ => simp_all [Start.measure, ResyncPc.rank, ResyncPc.left, StartAct.Winding]

/-- `Start` is on its way out, or about to be. -/
def Start.Quits (s : Start) : Prop := s.canceled = true ∨ s.main.pastLoop = true

theorem StartStep.quits {s t : Start} {a : StartAct} (h : s.Quits) (hstep : StartStep s a t) :
    t.Quits := by
  unfold Start.Quits at h ⊢
  cases hstep with
  | main a t hstep => cases hstep <;> simp_all [StartPc.pastLoop]
  | resync a t hstep => cases hstep <;> exact h
  | cancel => exact Or.inl rfl
  | errorCallback err =>
      rcases s.errorCallback_eq err with ⟨flag, fatal, heq, -⟩
      rw [heq]
      exact h
  | closeUpdates => exact h
  | receive v c hbuf hclosed => exact h

theorem StartStep.measure_eq {s t : Start} {a : StartAct} (houtside : a.Outside)
    (hstep : StartStep s a t) : t.measure = s.measure := by
  cases hstep with
  | main a t hstep => exact absurd houtside id
  | resync a t hstep => exact absurd houtside id
  | cancel => rfl
  | errorCallback err =>
      rcases s.errorCallback_eq err with ⟨flag, fatal, heq, -⟩
      rw [heq]
      rfl
  | closeUpdates => rfl
  | receive v c hbuf hclosed => rfl

theorem StartStep.measure_lt {s t : Start} {a : StartAct} (hs : Sound s) (hwinding : a.Winding)
    (hstep : StartStep s a t) : t.measure < s.measure := by
  cases hstep with
  | main a t hstep => exact hstep.measure_lt hs hwinding
  | resync a t hstep => exact hstep.measure_lt hwinding
  | _ => exact absurd hwinding id

theorem Sound.next_main {s : Start} (h : Sound s) (a : MainAct) :
    s.next (.main a) = s.mainNext a := by
  unfold Start.next
  rw [if_neg (by simp [h.panicked])]

theorem Sound.next_resync {s : Start} (h : Sound s) (a : ResyncAct) :
    s.next (.resync a) = s.resyncNext a := by
  unfold Start.next
  rw [if_neg (by simp [h.panicked])]

-- The goroutine is never stuck once it is told to stop.
theorem Sound.resync_winds {s : Start} (h : Sound s) (hstopped : s.stopped = true) {pc : ResyncPc}
    (hpc : s.resync = some pc) (hne : pc ≠ .exited) :
    ∃ a, StartAct.Winding a ∧ (s.next a).isSome = true := by
  cases pc with
  | idle =>
      refine ⟨.resync .quit, trivial, ?_⟩
      simp [h.next_resync, Start.resyncNext, hpc, hstopped]
  | listing =>
      refine ⟨.resync (.linkList none), trivial, ?_⟩
      simp [h.next_resync, Start.resyncNext, hpc]
  | listed links =>
      refine ⟨.resync .clearFlag, trivial, ?_⟩
      simp [h.next_resync, Start.resyncNext, hpc]
  | scanning links =>
      refine ⟨.resync .nextLink, trivial, ?_⟩
      rw [h.next_resync, Start.resyncNext, hpc]
      cases links with
      | nil => rfl
      | cons link links =>
          dsimp only
          split <;> rfl
  | sending ev links =>
      refine ⟨.resync .giveUp, trivial, ?_⟩
      simp [h.next_resync, Start.resyncNext, hpc, hstopped]
  | exited => exact absurd rfl hne

theorem Sound.winds {s : Start} (h : Sound s) (hquits : s.Quits)
    (hreturned : ¬ ∃ err, s.main = .returned err) :
    ∃ a, StartAct.Winding a ∧ (s.next a).isSome = true := by
  cases hmain : s.main with
  | subscribing =>
      refine ⟨.main (.subscribe none), trivial, ?_⟩
      simp [h.next_main, Start.mainNext, hmain]
  | selecting =>
      refine ⟨.main .ctxDone, trivial, ?_⟩
      have hcanceled : s.canceled = true := by
        simpa [Start.Quits, hmain, StartPc.pastLoop] using hquits
      simp [h.next_main, Start.mainNext, hmain, hcanceled]
  | emitting ev =>
      refine ⟨.main .giveUp, trivial, ?_⟩
      have hcanceled : s.canceled = true := by
        simpa [Start.Quits, hmain, StartPc.pastLoop] using hquits
      simp [h.next_main, Start.mainNext, hmain, Start.stopped, hcanceled]
  | stopping err =>
      refine ⟨.main .closeStop, trivial, ?_⟩
      rw [h.next_main, Start.mainNext, hmain]
      dsimp only
      split <;> rfl
  | joining err =>
      cases hpc : s.resync with
      | none =>
          have hstarted := h.started hpc
          simp [hmain, StartPc.pastJoin] at hstarted
      | some pc =>
          by_cases hexited : pc = .exited
          · refine ⟨.main .join, trivial, ?_⟩
            have hdone : s.resyncDone.closed = true := h.resyncDone.mpr (by rw [hpc, hexited])
            simp [h.next_main, Start.mainNext, hmain, hdone]
          · apply h.resync_winds _ hpc hexited
            simp [Start.stopped, h.stop, hmain, hpc, StartPc.pastStop]
  | closingDone err =>
      refine ⟨.main .closeDone, trivial, ?_⟩
      rw [h.next_main, Start.mainNext, hmain]
      dsimp only
      split <;> rfl
  | closingEvents err =>
      refine ⟨.main .closeEvents, trivial, ?_⟩
      rw [h.next_main, Start.mainNext, hmain]
      dsimp only
      split <;> rfl
  | returned err => exact absurd ⟨err, hmain⟩ hreturned

/-- Once the context is canceled or the loop of `Start` has ended, `Start` is bound to return, also
when nobody receives its events any more. -/
theorem start_returns (acts : List StartAct) (s : Start) (hrun : Start.new.run acts = some s)
    (hquits : s.Quits) :
    Inevitable Start.next StartAct.Winding StartAct.Outside
      (fun t => ∃ err, t.main = .returned err) s := by
  apply inevitable_of_measure (fun s => Sound s ∧ s.Quits) Start.measure
  · intro s a t houtside hnext h
    have hstep := h.1.step hnext
    exact ⟨⟨hstep.sound h.1, hstep.quits h.2⟩, le_of_eq (hstep.measure_eq houtside)⟩
  · intro s a t hwinding hnext h
    have hstep := h.1.step hnext
    exact ⟨⟨hstep.sound h.1, hstep.quits h.2⟩, hstep.measure_lt h.1 hwinding⟩
  · exact fun s h hreturned => h.1.winds h.2 hreturned
  · exact ⟨run_sound hrun, hquits⟩

/-- The context is canceled while an event waits to be sent. -/
def canceledRun : List StartAct :=
  [.main (.subscribe none), .main (.update (vethUpdate rtmNewlink)), .cancel]

def canceledEnd : Start :=
  { Start.new with
    known := (∅ : Known).insert 7 veth
    canceled := true
    main := .emitting vethEvent
    resync := some .idle
    found := [vethEvent] }

theorem canceled_start_returns :
    Inevitable Start.next StartAct.Winding StartAct.Outside
      (fun t => ∃ err, t.main = .returned err) canceledEnd :=
  start_returns canceledRun canceledEnd rfl (Or.inl rfl)

/-! ## The order of the events -/

/-- The monitor of the two producers once everything that was found is sent. -/
def flushed (known : Known) (found : List Event) : Monitor :=
  { Monitor.start with known := known, sent := found }

theorem Ordered.flushed_locked {known : Known} {found : List Event}
    (h : Ordered (flushed known found)) {r : Known × Option Event} (hlocked : Locked known r) :
    Ordered (flushed r.1 (found ++ r.2.toList)) := by
  let pc : MainPc := r.2.elim .waiting .sending
  have hpending : pc.pending = r.2.toList := by
    show MainPc.pending (r.2.elim .waiting .sending) = r.2.toList
    cases r.2 <;> rfl
  let m : Monitor := { Monitor.start with known := r.1, sent := found, main := pc }
  have hm : Ordered m := h.locked hlocked rfl rfl hpending
  intro i
  have hi := hm i
  rw [pending_of_quiet rfl, hpending] at hi
  rw [pending_of_quiet rfl]
  show (typesOf i (found ++ r.2.toList ++ [])).foldlM toggle false = some (decide (i ∈ r.1))
  rw [List.append_nil]
  exact hi

theorem StartStep.flushed {s t : Start} {a : StartAct} (h : Ordered (flushed s.known s.found))
    (hstep : StartStep s a t) : Ordered (flushed t.known t.found) := by
  cases hstep with
  | main a t hstep =>
      cases hstep with
      | ignored hmain u known hhandle =>
          have hlocked := handle_locked u s.known
          rw [hhandle] at hlocked
          simpa using h.flushed_locked hlocked
      | found hmain u known ev hhandle =>
          have hlocked := handle_locked u s.known
          rw [hhandle] at hlocked
          exact h.flushed_locked hlocked
      | _ => exact h
  | resync a t hstep =>
      cases hstep with
      | skipped link links hpc known hlink =>
          have hlocked := resyncLink_locked link s.known
          rw [hlink] at hlocked
          simpa using h.flushed_locked hlocked
      | found link links hpc known ev hlink =>
          have hlocked := resyncLink_locked link s.known
          rw [hlink] at hlocked
          exact h.flushed_locked hlocked
      | _ => exact h
  | errorCallback err =>
      rcases s.errorCallback_eq err with ⟨flag, fatal, heq, -⟩
      rw [heq]
      exact h
  | _ => exact h

/-- The resync goroutine has nothing to do, and events are sent in the order they are found. -/
structure Quiet (s : Start) : Prop where
  flag : s.dumpInterrupted = false
  resync : s.resync = none ∨ s.resync = some .idle ∨ s.resync = some .exited
  dropped : s.main.pastLoop = false → s.dropped = []
  order : s.found = s.sent ++ s.main.pending ++ s.dropped

theorem Quiet.new : Quiet .new where
  flag := rfl
  resync := Or.inl rfl
  dropped := fun _ => rfl
  order := rfl

theorem StartStep.quiet {s t : Start} {a : StartAct} (h : Quiet s)
    (ha : a ≠ .errorCallback .dumpInterrupted) (hstep : StartStep s a t) : Quiet t := by
  rcases h with ⟨hflag, hresync, hdropped, horder⟩
  cases hstep with
  | main a t hstep =>
      cases hstep <;> constructor <;>
        simp_all [Start.sent, StartPc.pending, StartPc.pastLoop]
  | resync a t hstep =>
      cases hstep <;> constructor <;> simp_all [Start.sent]
  | cancel => exact ⟨hflag, hresync, hdropped, horder⟩
  | errorCallback err =>
      have herr : err ≠ .dumpInterrupted := fun h => ha (by rw [h])
      unfold Start.errorCallback
      split
      · exact ⟨hflag, hresync, hdropped, horder⟩
      · exact ⟨hflag, hresync, hdropped, horder⟩
  | closeUpdates => exact ⟨hflag, hresync, hdropped, horder⟩
  | receive v c hbuf hclosed =>
      refine ⟨hflag, hresync, hdropped, ?_⟩
      simp [horder, Start.sent, hbuf]

/-- For every interface the events found alternate, the known interfaces are those with an `add`
last, and as long as no dump is interrupted the consumer is sent the events in the order they were
found. -/
theorem events_in_order (acts : List StartAct) (s : Start) (hrun : Start.new.run acts = some s) :
    (∀ i, Alternates (typesOf i s.found) ∧
      ((typesOf i s.found).getLast? = some .add ↔ i ∈ s.known)) ∧
      ((∀ a ∈ acts, a ≠ .errorCallback .dumpInterrupted) →
        s.found = s.received ++ s.events.buf ++ s.pending ++ s.dropped) := by
  let Inv := fun (s : Start) (past : List StartAct) => Sound s ∧ Ordered (flushed s.known s.found) ∧
    ((∀ a ∈ past, a ≠ .errorCallback .dumpInterrupted) → Quiet s)
  have hstep : ∀ s past a t, s.next a = some t → Inv s past → Inv t (past ++ [a]) := by
    rintro s past a t hnext ⟨hsound, hordered, hquiet⟩
    have hstep := hsound.step hnext
    refine ⟨hstep.sound hsound, hstep.flushed hordered, fun hpast => ?_⟩
    rw [List.forall_mem_append, List.forall_mem_singleton] at hpast
    exact hstep.quiet (hquiet hpast.1) hpast.2
  have h : Inv s acts := foldlM_history_invariant hstep []
    ⟨Sound.new, Ordered.start, fun _ => Quiet.new⟩ hrun
  rcases h with ⟨-, hordered, hquiet⟩
  have hconsistent := hordered.consistent
  refine ⟨fun i => ⟨hconsistent.alternates i, hconsistent.known rfl i⟩, fun hacts => ?_⟩
  have hq := hquiet hacts
  have hpending : s.pending = s.main.pending := by
    rcases hq.resync with h | h | h <;> simp [Start.pending, h, ResyncPc.pending]
  rw [hpending]
  exact hq.order

theorem veth_events_in_order : Alternates (typesOf 7 vethEnd.found) ∧ 7 ∈ vethEnd.known :=
  have h := (events_in_order vethRun vethEnd run_vethRun).1 7
  ⟨h.1, h.2.mp rfl⟩

/-! ## The two producers behind the channel -/

/-- Where the loop of `Start` stands for the two-producer model. -/
def StartPc.producer : StartPc → MainPc
  | .subscribing | .selecting => .waiting
  | .emitting ev => .sending ev
  | _ => .exited

structure Shows (s : Start) (m : Monitor) : Prop where
  known : m.known = s.known
  sent : m.sent = s.sent
  main : m.main = s.main.producer
  resync : m.resync = s.resync.getD .idle
  flag : m.dumpInterrupted = s.dumpInterrupted
  canceled : m.canceled = s.canceled

-- The loop of `Start` ends, from `select` or canceled within `emit`.
theorem Shows.exits {s t : Start} {m : Monitor} (h : Shows s m)
    (hfrom : s.main.producer = .waiting ∨
      (∃ ev, s.main.producer = .sending ev) ∧ s.canceled = true)
    (hknown : t.known = s.known) (hsent : t.sent = s.sent) (hmain : t.main.producer = .exited)
    (hresync : t.resync = s.resync) (hflag : t.dumpInterrupted = s.dumpInterrupted)
    (hcanceled : t.canceled = s.canceled) : ∃ b m', m.next b = some m' ∧ Shows t m' := by
  refine ⟨.mainExits, { m with main := .exited }, ?_, ?_⟩
  · rcases hfrom with hwaiting | ⟨⟨ev, hsending⟩, hc⟩
    · simp [Monitor.next, h.main, hwaiting]
    · simp [Monitor.next, h.main, hsending, h.canceled, hc]
  · constructor
    · rw [hknown]
      exact h.known
    · rw [hsent]
      exact h.sent
    · rw [hmain]
    · rw [hresync]
      exact h.resync
    · rw [hflag]
      exact h.flag
    · rw [hcanceled]
      exact h.canceled

theorem MainStep.shows {s t : Start} {a : MainAct} {m : Monitor} (hs : Sound s) (h : Shows s m)
    (hstep : MainStep s a t) : Shows t m ∨ ∃ b m', m.next b = some m' ∧ Shows t m' := by
  cases hstep with
  | subscribed hmain =>
      have hwaiting := h.main
      have hidle := h.resync
      rw [hmain] at hwaiting
      rw [hs.subscribing hmain] at hidle
      exact Or.inl ⟨h.known, h.sent, hwaiting, hidle, h.flag, h.canceled⟩
  | refused hmain err =>
      exact Or.inr (h.exits (Or.inl (by rw [hmain]; rfl)) rfl rfl rfl rfl rfl rfl)
  | ctxDone hmain hc =>
      exact Or.inr (h.exits (Or.inl (by rw [hmain]; rfl)) rfl rfl rfl rfl rfl rfl)
  | failed hmain hclosed err herr =>
      exact Or.inr (h.exits (Or.inl (by rw [hmain]; rfl)) rfl rfl rfl rfl rfl rfl)
  | ended hmain hclosed =>
      exact Or.inr (h.exits (Or.inl (by rw [hmain]; rfl)) rfl rfl rfl rfl rfl rfl)
  | ignored hmain u known hhandle =>
      have hwaiting := h.main
      rw [hmain] at hwaiting
      refine Or.inr ⟨.update u, { m with known := known }, ?_, ?_⟩
      · simp [Monitor.next, hwaiting, StartPc.producer, h.known, hhandle]
      · exact ⟨rfl, h.sent, h.main, h.resync, h.flag, h.canceled⟩
  | found hmain u known ev hhandle =>
      have hwaiting := h.main
      rw [hmain] at hwaiting
      refine Or.inr ⟨.update u, { m with known := known, main := .sending ev, mainLast := true },
        ?_, ?_⟩
      · simp [Monitor.next, hwaiting, StartPc.producer, h.known, hhandle]
      · exact ⟨rfl, h.sent, rfl, h.resync, h.flag, h.canceled⟩
  | sent ev hmain c hbuf hopen =>
      have hsending := h.main
      rw [hmain] at hsending
      refine Or.inr ⟨.mainSends, { m with sent := m.sent ++ [ev], main := .waiting }, ?_, ?_⟩
      · simp [Monitor.next, hsending, StartPc.producer]
      · refine ⟨h.known, ?_, rfl, h.resync, h.flag, h.canceled⟩
        simp [h.sent, Start.sent, hbuf]
  | gaveUp ev hmain hstopped =>
      -- `stopResync` is not closed yet, so it is the context.
      have hcanceled : s.canceled = true := by
        simpa [Start.stopped, hs.stop, hmain, StartPc.pastStop] using hstopped
      exact Or.inr (h.exits (Or.inr ⟨⟨ev, by rw [hmain]; rfl⟩, hcanceled⟩) rfl rfl rfl rfl rfl rfl)
  | closedStop err hmain c hclosed =>
      have hexited := h.main
      rw [hmain] at hexited
      exact Or.inl ⟨h.known, h.sent, hexited, h.resync, h.flag, h.canceled⟩
  | joined err hmain hclosed =>
      have hexited := h.main
      rw [hmain] at hexited
      exact Or.inl ⟨h.known, h.sent, hexited, h.resync, h.flag, h.canceled⟩
  | closedDone err hmain c hclosed =>
      have hexited := h.main
      rw [hmain] at hexited
      exact Or.inl ⟨h.known, h.sent, hexited, h.resync, h.flag, h.canceled⟩
  | closedEvents err hmain c hbuf hclosed =>
      have hexited := h.main
      rw [hmain] at hexited
      refine Or.inl ⟨h.known, ?_, hexited, h.resync, h.flag, h.canceled⟩
      simp [h.sent, Start.sent, hbuf]

-- The resync goroutine returns only when the model lets it.
theorem Shows.resyncExits {s : Start} {m : Monitor} (hs : Sound s) (h : Shows s m)
    (hstopped : s.stopped = true)
    (hpc : m.resync = .idle ∨ ∃ ev links, m.resync = .sending ev links) :
    m.next .resyncExits = some { m with resync := .exited } := by
  rw [Start.stopped, Bool.or_eq_true, hs.stop, Bool.and_eq_true] at hstopped
  have hmain := h.main
  rcases hstopped with hcanceled | ⟨hpast, -⟩
  · rw [← h.canceled] at hcanceled
    rcases hpc with hidle | ⟨ev, links, hsending⟩
    · cases hm : m.main <;> simp [Monitor.next, hm, hidle, hcanceled]
    · cases hm : m.main <;> simp [Monitor.next, hm, hsending, hcanceled]
  · have hexited : m.main = .exited := by
      rw [hmain]
      cases hpc : s.main <;> simp [hpc, StartPc.pastStop] at hpast <;> rfl
    rcases hpc with hidle | ⟨ev, links, hsending⟩
    · simp [Monitor.next, hexited, hidle]
    · simp [Monitor.next, hexited, hsending]

theorem ResyncStep.shows {s t : Start} {a : ResyncAct} {m : Monitor} (hs : Sound s) (h : Shows s m)
    (hstep : ResyncStep s a t) : ∃ b m', m.next b = some m' ∧ Shows t m' := by
  have hresync := h.resync
  cases hstep with
  | quit hpc hstopped c hclosed =>
      rw [hpc] at hresync
      refine ⟨_, _, h.resyncExits hs hstopped (Or.inl hresync), ?_⟩
      exact ⟨h.known, h.sent, h.main, rfl, h.flag, h.canceled⟩
  | lingered hpc hflag =>
      rw [hpc] at hresync
      refine ⟨.tick, { m with resync := .idle }, ?_, ?_⟩
      · simp [Monitor.next, hresync, h.flag, hflag]
      · exact ⟨h.known, h.sent, h.main, by rw [hpc]; rfl, h.flag, h.canceled⟩
  | woke hpc hflag =>
      rw [hpc] at hresync
      refine ⟨.tick, { m with resync := .listing }, ?_, ?_⟩
      · simp [Monitor.next, hresync, h.flag, hflag]
      · exact ⟨h.known, h.sent, h.main, rfl, h.flag, h.canceled⟩
  | unlisted hpc =>
      rw [hpc] at hresync
      refine ⟨.linkList none, { m with resync := .idle }, ?_, ?_⟩
      · simp [Monitor.next, hresync]
      · exact ⟨h.known, h.sent, h.main, rfl, h.flag, h.canceled⟩
  | listed hpc links =>
      rw [hpc] at hresync
      refine ⟨.linkList (some links), { m with resync := .listed links }, ?_, ?_⟩
      · simp [Monitor.next, hresync]
      · exact ⟨h.known, h.sent, h.main, rfl, h.flag, h.canceled⟩
  | cleared links hpc =>
      rw [hpc] at hresync
      refine ⟨.clearFlag, { m with dumpInterrupted := false, resync := .scanning links }, ?_, ?_⟩
      · simp [Monitor.next, hresync]
      · exact ⟨h.known, h.sent, h.main, rfl, rfl, h.canceled⟩
  | scanned hpc =>
      rw [hpc] at hresync
      refine ⟨.nextLink, { m with resync := .idle }, ?_, ?_⟩
      · simp [Monitor.next, hresync]
      · exact ⟨h.known, h.sent, h.main, rfl, h.flag, h.canceled⟩
  | skipped link links hpc known hlink =>
      rw [hpc] at hresync
      refine ⟨.nextLink, { m with known := known, resync := .scanning links }, ?_, ?_⟩
      · simp [Monitor.next, hresync, h.known, hlink]
      · exact ⟨rfl, h.sent, h.main, rfl, h.flag, h.canceled⟩
  | found link links hpc known ev hlink =>
      rw [hpc] at hresync
      refine ⟨.nextLink, { m with known := known, resync := .sending ev links, mainLast := false },
        ?_, ?_⟩
      · simp [Monitor.next, hresync, h.known, hlink]
      · exact ⟨rfl, h.sent, h.main, rfl, h.flag, h.canceled⟩
  | sent ev links hpc c hbuf hopen =>
      rw [hpc] at hresync
      refine ⟨.resyncSends, { m with sent := m.sent ++ [ev], resync := .scanning links }, ?_, ?_⟩
      · simp [Monitor.next, hresync]
      · refine ⟨h.known, ?_, h.main, rfl, h.flag, h.canceled⟩
        simp [h.sent, Start.sent, hbuf]
  | gaveUp ev links hpc hstopped c hclosed =>
      rw [hpc] at hresync
      refine ⟨_, _, h.resyncExits hs hstopped (Or.inr ⟨ev, links, hresync⟩), ?_⟩
      exact ⟨h.known, h.sent, h.main, rfl, h.flag, h.canceled⟩

theorem StartStep.shows {s t : Start} {a : StartAct} {m : Monitor} (hs : Sound s) (h : Shows s m)
    (hstep : StartStep s a t) : Shows t m ∨ ∃ b m', m.next b = some m' ∧ Shows t m' := by
  cases hstep with
  | main a t hstep => exact hstep.shows hs h
  | resync a t hstep => exact Or.inr (hstep.shows hs h)
  | cancel =>
      refine Or.inr ⟨.cancel, _, rfl, ?_⟩
      exact ⟨h.known, h.sent, h.main, h.resync, h.flag, rfl⟩
  | errorCallback err =>
      unfold Start.errorCallback
      split
      · exact Or.inl h
      · split
        · refine Or.inr ⟨.interrupt, _, rfl, ?_⟩
          exact ⟨h.known, h.sent, h.main, h.resync, rfl, h.canceled⟩
        · exact Or.inl ⟨h.known, h.sent, h.main, h.resync, h.flag, h.canceled⟩
  | closeUpdates => exact Or.inl ⟨h.known, h.sent, h.main, h.resync, h.flag, h.canceled⟩
  | receive v c hbuf hclosed =>
      refine Or.inl ⟨h.known, ?_, h.main, h.resync, h.flag, h.canceled⟩
      simp [h.sent, Start.sent, hbuf]

/-- Seen by its consumer, `Start` with its bounded channel, its error paths and its deferred calls
does what the two producers of events can do. -/
theorem start_refines (acts : List StartAct) (s : Start) (hrun : Start.new.run acts = some s) :
    ∃ acts' m, Monitor.start.run acts' = some m ∧ m.known = s.known ∧
      m.sent = s.received ++ s.events.buf ∧ m.main = s.main.producer ∧
        m.resync = s.resync.getD .idle := by
  have hmatch : ∀ s a t m, s.next a = some t → Sound s → Shows s m →
      Shows t m ∨ ∃ b m', Monitor.next m b = some m' ∧ Shows t m' :=
    fun s a t m hnext hs hshows => (hs.step hnext).shows hs hshows
  have hstart : Shows .new .start := ⟨rfl, rfl, rfl, rfl, rfl, rfl⟩
  rcases foldlM_simulation (fun s a t hnext hs => hs.next hnext) hmatch Sound.new hstart hrun with
    ⟨acts', m, hm, hshows⟩
  exact ⟨acts', m, hm, hshows.known, hshows.sent, hshows.main, hshows.resync⟩

theorem veth_start_refines :
    ∃ acts m, Monitor.start.run acts = some m ∧ m.sent = [vethEvent] := by
  rcases start_refines vethRun vethEnd run_vethRun with ⟨acts, m, hm, -, hsent, -⟩
  exact ⟨acts, m, hm, hsent⟩

end DnsGateway.Netlinkmon
