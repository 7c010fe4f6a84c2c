import DnsGateway.Cmd.Shutdown
import DnsGateway.Controller.Pipeline

/-!
# Detaching in a shutdown (`cmd/bpf-dns-gateway/main.go`)

Beside `run` and the health checker, the controller reacts to the same cancellation: it leaves its
loop and closes the links of every interface, one after the other.  `run` waits for the controller
only behind its own `SetBypass(true)`.
-/

namespace DnsGateway.Cmd

open DnsGateway.Reasoning DnsGateway.Bpf DnsGateway.Ebpf DnsGateway.Health DnsGateway.Netlinkmon

/-- Where `Controller.Run` stands. -/
inductive ControllerPc where
  | looping
  -- In `DetachAll`, with the links it has still to close.
  | detaching (todo : List (Int × Hook × Nat))
  | done

structure Gateway where
  proc : Process
  controller : ControllerPc
  -- `Monitor.events`, and whether it is closed.
  events : List Event
  closed : Bool
  mgr : AttachManager

inductive GatewayAct where
  -- An action of `run` or of the checker.
  | proc (a : Act)
  | emit (ev : Event)
  | closeEvents
  | handle (ok : LinkCall → Bool)
  | ctxDone (order : RangeOrder Int Attachment)
  | eventsClosed (order : RangeOrder Int Attachment)
  | closeNext (ok : LinkCall → Bool)
  | detached

def Gateway.start (cfg : GatewayConfig) : Gateway where
  proc := .start cfg
  controller := .looping
  events := []
  closed := false
  mgr := .new

/-- `DetachAll`, up to its first `Close`. -/
def Gateway.detachAll (s : Gateway) (order : RangeOrder Int Attachment) : Gateway :=
  { s with
    controller := .detaching ((order.visit s.mgr.attachments).flatMap fun e => e.2.links)
    mgr := { s.mgr with attachments := ∅ } }

/-- The gateway after an action, if the action is possible.  A `select` of the controller may take
an event also when the context is canceled. -/
def Gateway.next (n : Int64) (s : Gateway) : GatewayAct → Option Gateway
  | .proc a => (s.proc.next n a).map fun p => { s with proc := p }
  | .emit ev => if s.closed then none else some { s with events := s.events ++ [ev] }
  | .closeEvents => some { s with closed := true }
  | .handle ok =>
      match s.controller, s.events with
      | .looping, ev :: events =>
          some { s with events := events, mgr := Controller.handle ok ev s.mgr }
      | _, _ => none
  | .ctxDone order =>
      match s.controller with
      | .looping => if s.proc.canceled then some (s.detachAll order) else none
      | _ => none
  | .eventsClosed order =>
      match s.controller with
      | .looping => if s.events = [] ∧ s.closed = true then some (s.detachAll order) else none
      | _ => none
  | .closeNext ok =>
      match s.controller with
      | .detaching ((ifindex, hook, id) :: todo) =>
          some { s with
            controller := .detaching todo
            mgr := { s.mgr with kernel := (closeLink ok ifindex hook id s.mgr.kernel).2 } }
      | _ => none
  | .detached =>
      match s.controller with
      | .detaching [] => some { s with controller := .done }
      | _ => none

def Gateway.steps (n : Int64) (s : Gateway) (acts : List GatewayAct) : Option Gateway :=
  acts.foldlM (Gateway.next n) s

/-- Every `SetBypass` succeeds. -/
def GatewayAct.SetsBypass : GatewayAct → Prop
  | .proc (.checkerSets lookupOk updateOk) => lookupOk = true ∧ updateOk = true
  | .proc (.runSets lookupOk updateOk) => lookupOk = true ∧ updateOk = true
  | _ => True

/-! ## `DetachAll` in one go -/

theorem gateway_steps_cons {n : Int64} {s t : Gateway} {a : GatewayAct} (h : s.next n a = some t)
    (acts : List GatewayAct) : s.steps n (a :: acts) = t.steps n acts :=
  foldlM_cons_some h acts

theorem steps_append {n : Int64} {s t : Gateway} {acts : List GatewayAct}
    (h : s.steps n acts = some t) (acts' : List GatewayAct) :
    s.steps n (acts ++ acts') = t.steps n acts' :=
  foldlM_append_some h acts'

theorem steps_closes (n : Int64) (ok : LinkCall → Bool) (todo : List (Int × Hook × Nat))
    {s : Gateway} (hs : s.controller = .detaching todo) :
    s.steps n (todo.map (fun _ => .closeNext ok) ++ [.detached]) = some { s with
      controller := .done
      mgr := { s.mgr with
        kernel := todo.foldl (fun k x => (closeLink ok x.1 x.2.1 x.2.2 k).2) s.mgr.kernel } } := by
  induction todo generalizing s with
  | nil =>
      have hnext : s.next n .detached = some { s with controller := .done } := by
        simp only [Gateway.next, hs]
      exact gateway_steps_cons hnext []
  | cons x todo ih =>
      rcases x with ⟨i, hook, id⟩
      have hnext : s.next n (.closeNext ok) = some { s with
          controller := .detaching todo
          mgr := { s.mgr with kernel := (closeLink ok i hook id s.mgr.kernel).2 } } := by
        simp only [Gateway.next, hs]
      rw [List.map_cons, List.cons_append, gateway_steps_cons hnext]
      exact ih rfl

-- With nothing in between, the controller's actions amount to `detachAll`.
theorem steps_detachAll (n : Int64) (ok : LinkCall → Bool) (order : RangeOrder Int Attachment)
    (s : Gateway) :
    ∃ acts, (s.detachAll order).steps n acts = some { s with
      controller := .done
      mgr := (Ebpf.detachAll ok order s.mgr).2 } := by
  refine ⟨_, (steps_closes n ok _ rfl).trans ?_⟩
  rw [Ebpf.detachAll, ← closeAll_links]
  rfl

/-! ## What one action can do -/

inductive GatewayStep (n : Int64) (s : Gateway) : GatewayAct → Gateway → Prop where
  | proc {a : Act} {p : Process} (h : s.proc.next n a = some p) :
      GatewayStep n s (.proc a) { s with proc := p }
  | emit {ev : Event} (h : s.closed = false) :
      GatewayStep n s (.emit ev) { s with events := s.events ++ [ev] }
  | closeEvents : GatewayStep n s .closeEvents { s with closed := true }
  | handle {ok : LinkCall → Bool} {ev : Event} {events : List Event}
      (hc : s.controller = .looping) (hevents : s.events = ev :: events) :
      GatewayStep n s (.handle ok)
        { s with events := events, mgr := Controller.handle ok ev s.mgr }
  | ctxDone {order : RangeOrder Int Attachment} (hc : s.controller = .looping)
      (h : s.proc.canceled = true) : GatewayStep n s (.ctxDone order) (s.detachAll order)
  | eventsClosed {order : RangeOrder Int Attachment} (hc : s.controller = .looping)
      (h : s.events = [] ∧ s.closed = true) :
      GatewayStep n s (.eventsClosed order) (s.detachAll order)
  | closeNext {ok : LinkCall → Bool} {i : Int} {hook : Hook} {id : Nat}
      {todo : List (Int × Hook × Nat)} (hc : s.controller = .detaching ((i, hook, id) :: todo)) :
      GatewayStep n s (.closeNext ok) { s with
        controller := .detaching todo
        mgr := { s.mgr with kernel := (closeLink ok i hook id s.mgr.kernel).2 } }
  | detached (hc : s.controller = .detaching []) :
      GatewayStep n s .detached { s with controller := .done }

theorem gateway_next_step {n : Int64} {s t : Gateway} {a : GatewayAct} (h : s.next n a = some t) :
    GatewayStep n s a t := by
  cases a with
  | proc b =>
      simp only [Gateway.next, Option.map_eq_some_iff] at h
      rcases h with ⟨p, hp, rfl⟩
      exact .proc hp
  | emit ev =>
      simp only [Gateway.next] at h
      split at h
      · cases h
      · rename_i hopen
        cases h
        exact .emit (by simpa using hopen)
  | closeEvents =>
      cases h
      exact .closeEvents
  | handle ok =>
      simp only [Gateway.next] at h
      split at h
      · rename_i hc hevents
        cases h
        exact .handle hc hevents
      · cases h
  | ctxDone order =>
      simp only [Gateway.next] at h
      split at h
      · rename_i hc
        split at h
        · rename_i hcanceled
          cases h
          exact .ctxDone hc hcanceled
        · cases h
      · cases h
  | eventsClosed order =>
      simp only [Gateway.next] at h
      split at h
      · rename_i hc
        split at h
        · rename_i hclosed
          cases h
          exact .eventsClosed hc hclosed
        · cases h
      · cases h
  | closeNext ok =>
      simp only [Gateway.next] at h
      split at h
      · rename_i hc
        cases h
        exact .closeNext hc
      · cases h
  | detached =>
      simp only [Gateway.next] at h
      split at h
      · rename_i hc
        cases h
        exact .detached hc
      · cases h

/-! ## The bypass is set -/

/-- The bypass is set, and nothing that is under way will clear it. -/
structure Guarded (s : Process) : Prop where
  canceled : s.canceled = true
  bypass : s.config.bypass ≠ 0
  quiet : s.pc ≠ .setting false

theorem Guarded.moves {s t : Process} (h : Guarded s) (hm : Moves s t) : Guarded t := by
  constructor
  · exact hm.canceled h.canceled
  · rcases (hm.quiet h.canceled h.quiet).2 with hc | hc
    · rw [hc]
      exact h.bypass
    · rw [hc]
      show (1 : UInt16) ≠ 0
      decide
  · exact (hm.quiet h.canceled h.quiet).1

-- Only `run` and the checker write `config_map`.
theorem gateway_next_guarded {n : Int64} {s t : Gateway} {a : GatewayAct} (h : s.next n a = some t)
    (hs : Guarded s.proc) : Guarded t.proc := by
  cases gateway_next_step h with
  | proc hp => exact hs.moves (next_moves hp)
  | _ => exact hs

/-! ## Nothing to detach -/

/-- `DetachAll` has no link to close, now or later: in the loop nothing is attached and nothing will
be, and in `DetachAll` no link is left. -/
def NothingToDetach (s : Gateway) : Prop :=
  match s.controller with
  | .looping => s.mgr.attachments = ∅ ∧ s.closed = true ∧
      ∀ ev ∈ s.events, ev.type = .add → ev.ifindex ≤ 0
  | .detaching todo => todo = []
  | .done => True

theorem nothingToDetach_looping {s : Gateway} (h : s.controller = .looping) :
    NothingToDetach s ↔ s.mgr.attachments = ∅ ∧ s.closed = true ∧
      ∀ ev ∈ s.events, ev.type = .add → ev.ifindex ≤ 0 := by
  rw [NothingToDetach, h]

theorem nothingToDetach_detaching {s : Gateway} {todo : List (Int × Hook × Nat)}
    (h : s.controller = .detaching todo) : NothingToDetach s ↔ todo = [] := by
  rw [NothingToDetach, h]

theorem nothingToDetach_done {s : Gateway} (h : s.controller = .done) : NothingToDetach s := by
  rw [NothingToDetach, h]
  trivial

-- With no attachments and no valid index there is nothing to do.
theorem handle_idle (ok : LinkCall → Bool) {ev : Event} (h : ev.type = .add → ev.ifindex ≤ 0)
    {m : AttachManager} (hm : m.attachments = ∅) : Controller.handle ok ev m = m := by
  unfold Controller.handle
  cases htype : ev.type with
  | add =>
      dsimp only
      rw [attach, if_pos (h htype)]
  | remove =>
      dsimp only
      rw [detach, hm, Finmap.lookup_empty]

theorem detachAll_nothing {s : Gateway} (hc : s.controller = .looping) (h : NothingToDetach s)
    (order : RangeOrder Int Attachment) : NothingToDetach (s.detachAll order) := by
  rw [nothingToDetach_looping hc] at h
  rw [nothingToDetach_detaching rfl, h.1, RangeOrder.visit_empty, List.flatMap_nil]

-- Behind its loop the controller takes no notice of the channel.
theorem channel_nothing {s : Gateway} {events : List Event} {closed : Bool}
    (hc : s.controller ≠ .looping) (h : NothingToDetach s) :
    NothingToDetach { s with events := events, closed := closed } := by
  cases hpc : s.controller with
  | looping => exact absurd hpc hc
  | detaching todo =>
      rw [nothingToDetach_detaching hpc] at h
      exact (nothingToDetach_detaching rfl).mpr h
  | done => exact nothingToDetach_done rfl

theorem gateway_next_nothing {n : Int64} {s t : Gateway} {a : GatewayAct}
    (h : s.next n a = some t) (hs : NothingToDetach s) : NothingToDetach t := by
  cases gateway_next_step h with
  | proc hp => exact hs
  | emit hopen =>
      apply channel_nothing _ hs
      intro hc
      rw [nothingToDetach_looping hc, hopen] at hs
      cases hs.2.1
  | closeEvents =>
      by_cases hc : s.controller = .looping
      · rw [nothingToDetach_looping hc] at hs
        exact (nothingToDetach_looping (s := { s with closed := true }) hc).mpr ⟨hs.1, rfl, hs.2.2⟩
      · exact channel_nothing hc hs
  | @handle ok ev events hc hevents =>
      rw [nothingToDetach_looping hc, hevents] at hs
      rw [handle_idle ok (hs.2.2 ev List.mem_cons_self) hs.1]
      exact (nothingToDetach_looping (s := { s with events := events }) hc).mpr
        ⟨hs.1, hs.2.1, fun x hx => hs.2.2 x (List.mem_cons_of_mem ev hx)⟩
  | ctxDone hc => exact detachAll_nothing hc hs _
  | eventsClosed hc => exact detachAll_nothing hc hs _
  | closeNext hc =>
      rw [nothingToDetach_detaching hc] at hs
      cases hs
  | detached => exact nothingToDetach_done rfl

/-! ## Something to detach -/

/-- Every tracked interface has a link to close. -/
def Held (m : AttachManager) : Prop := ∀ i a, m.attachments.lookup i = some a → a.links ≠ []

theorem held_empty (k : Kernel) : Held ⟨∅, k⟩ := by
  intro i a ha
  rw [Finmap.lookup_empty] at ha
  cases ha

theorem handle_held {ok : LinkCall → Bool} {ev : Event} {m : AttachManager} (h : Held m) :
    Held (Controller.handle ok ev m) := by
  unfold Controller.handle
  cases ev.type with
  | add =>
      have hend := attach_end ok ev.ifindex m
      dsimp only
      generalize attach ok ev.ifindex m = r at hend
      cases hend with
      | attached =>
          intro i a ha
          rcases lookup_insert_some ha with ⟨-, rfl⟩ | ⟨-, hold⟩
          · simp [Attachment.links]
          · exact h i a hold
      | _ => exact h
  | remove =>
      unfold detach
      dsimp only
      split
      · exact h
      · exact fun i a ha => h i a (lookup_erase_some ha).2

theorem gateway_next_held {n : Int64} {s t : Gateway} {a : GatewayAct} (h : s.next n a = some t)
    (hs : Held s.mgr) : Held t.mgr := by
  cases gateway_next_step h with
  | handle => exact handle_held hs
  | ctxDone => exact held_empty _
  | eventsClosed => exact held_empty _
  | _ => exact hs

theorem gateway_steps_held {n : Int64} {s t : Gateway} {acts : List GatewayAct}
    (h : s.steps n acts = some t) (hs : Held s.mgr) : Held t.mgr :=
  foldlM_invariant (fun _ _ _ hnext => gateway_next_held hnext) hs h

-- The controller may leave its loop at once, and go on to close a link.
theorem detaches_at_once {n : Int64} {s : Gateway} (hloop : s.controller = .looping)
    (hcanceled : s.proc.canceled = true) (hheld : Held s.mgr) (hsome : s.mgr.attachments ≠ ∅)
    (order : RangeOrder Int Attachment) (ok : LinkCall → Bool) :
    ∃ u, s.next n (.ctxDone order) = some (s.detachAll order) ∧
      (s.detachAll order).next n (.closeNext ok) = some u := by
  have hdone : s.next n (.ctxDone order) = some (s.detachAll order) := by
    simp only [Gateway.next, hloop, hcanceled, if_true]
  rcases ne_empty_iff.mp hsome with ⟨i, a, ha⟩
  cases htodo : (order.visit s.mgr.attachments).flatMap fun e => e.2.links with
  | nil =>
      rw [List.flatMap_eq_nil_iff] at htodo
      exact absurd (htodo (i, a) ((order.mem_iff _ i a).mpr ha)) (hheld i a ha)
  | cons x todo =>
      have hclose : ((s.detachAll order).next n (.closeNext ok)).isSome = true := by
        simp [Gateway.next, Gateway.detachAll, htodo]
      rcases Option.isSome_iff_exists.mp hclose with ⟨u, hu⟩
      exact ⟨u, hdone, hu⟩

theorem attach_announced {i : Int} (hpos : 0 < i) (m : AttachManager) :
    (attach (fun _ => true) i m).2.attachments ≠ ∅ := by
  have hend := attach_end (fun _ => true) i m
  generalize attach (fun _ => true) i m = r at hend
  apply ne_empty_iff.mpr
  cases hend with
  | invalid h => omega
  | already _ h => exact ⟨i, Option.isSome_iff_exists.mp (Finmap.lookup_isSome.mpr h)⟩
  | ingressFailed _ _ hin => cases hin
  | egressFailed _ _ _ heg => cases heg
  | attached => exact ⟨i, _, Finmap.lookup_insert _⟩

-- An interface that is announced can be attached to before that.
theorem attaches_announced {n : Int64} {s : Gateway} (hloop : s.controller = .looping)
    {before after : List Event} {ev : Event} (hevents : s.events = before ++ ev :: after)
    (hadd : ev.type = .add) (hpos : 0 < ev.ifindex) :
    ∃ acts t, (∀ a ∈ acts, a.SetsBypass) ∧ s.steps n acts = some t ∧ t.proc = s.proc ∧
      t.controller = .looping ∧ t.mgr.attachments ≠ ∅ := by
  induction before generalizing s with
  | nil =>
      have hnext : s.next n (.handle fun _ => true) = some { s with
          events := after, mgr := Controller.handle (fun _ => true) ev s.mgr } := by
        simp only [Gateway.next, hloop, hevents, List.nil_append]
      refine ⟨[.handle fun _ => true], _, ?_, gateway_steps_cons hnext [], rfl, hloop, ?_⟩
      · simp [GatewayAct.SetsBypass]
      · simp only [Controller.handle, hadd]
        exact attach_announced hpos s.mgr
  | cons x before ih =>
      have hnext : s.next n (.handle fun _ => true) = some { s with
          events := before ++ ev :: after
          mgr := Controller.handle (fun _ => true) x s.mgr } := by
        simp only [Gateway.next, hloop, hevents, List.cons_append]
      rcases ih (s := { s with
          events := before ++ ev :: after
          mgr := Controller.handle (fun _ => true) x s.mgr }) hloop rfl with
        ⟨acts, t, hacts, hsteps, hproc, hcontroller, hsome⟩
      refine ⟨.handle (fun _ => true) :: acts, t, List.forall_mem_cons.mpr ⟨trivial, hacts⟩, ?_,
        hproc, hcontroller, hsome⟩
      rw [gateway_steps_cons hnext]
      exact hsteps

-- In the loop, unless there is nothing to detach, something can get attached.
theorem attaches_unless_nothing {n : Int64} {s : Gateway} (hloop : s.controller = .looping)
    (h : ¬ NothingToDetach s) :
    ∃ acts t, (∀ a ∈ acts, a.SetsBypass) ∧ s.steps n acts = some t ∧ t.proc = s.proc ∧
      t.controller = .looping ∧ t.mgr.attachments ≠ ∅ := by
  rw [nothingToDetach_looping hloop] at h
  by_cases hsome : s.mgr.attachments = ∅
  · by_cases hclosed : s.closed = true
    · have hev : ∃ ev ∈ s.events, ev.type = .add ∧ 0 < ev.ifindex := by
        by_contra hnone
        apply h
        refine ⟨hsome, hclosed, fun ev hev hadd => ?_⟩
        by_contra hpos
        exact hnone ⟨ev, hev, hadd, by omega⟩
      rcases hev with ⟨ev, hev, hadd, hpos⟩
      rcases List.append_of_mem hev with ⟨before, after, hevents⟩
      exact attaches_announced hloop hevents hadd hpos
    · have hnext : s.next n (.emit ⟨.add, 1, []⟩) =
          some { s with events := s.events ++ [⟨.add, 1, []⟩] } := if_neg hclosed
      rcases attaches_announced (n := n) (s := { s with events := s.events ++ [⟨.add, 1, []⟩] })
          hloop rfl rfl (by decide) with ⟨acts, t, hacts, hsteps, hproc, hcontroller, hsome⟩
      refine ⟨.emit ⟨.add, 1, []⟩ :: acts, t, List.forall_mem_cons.mpr ⟨trivial, hacts⟩, ?_,
        hproc, hcontroller, hsome⟩
      rw [gateway_steps_cons hnext]
      exact hsteps
  · exact ⟨[], s, by simp, rfl, rfl, hloop, hsome⟩

-- Wherever the controller stands, unless there is nothing to detach it may come to close a link
-- while `run` and the checker stay where they are.
theorem closes_unless_nothing {n : Int64} {s : Gateway} (hcanceled : s.proc.canceled = true)
    (hheld : Held s.mgr) (h : ¬ NothingToDetach s) (ok : LinkCall → Bool) :
    ∃ acts t u, (∀ a ∈ acts, a.SetsBypass) ∧ s.steps n acts = some t ∧ t.proc = s.proc ∧
      t.next n (.closeNext ok) = some u := by
  cases hc : s.controller with
  | looping =>
      rcases attaches_unless_nothing (n := n) hc h with
        ⟨acts, t, hacts, hsteps, hproc, hloop, hsome⟩
      rcases detaches_at_once (n := n) hloop (by rw [hproc, hcanceled])
        (gateway_steps_held hsteps hheld) hsome default ok with ⟨u, hdone, hclose⟩
      refine ⟨acts ++ [.ctxDone default], t.detachAll default, u, ?_,
        (steps_append hsteps _).trans (gateway_steps_cons hdone []), hproc, hclose⟩
      intro a ha
      rcases List.mem_append.mp ha with ha | ha
      · exact hacts a ha
      · rw [List.mem_singleton.mp ha]
        trivial
  | detaching todo =>
      cases todo with
      | nil => exact absurd ((nothingToDetach_detaching hc).mpr rfl) h
      | cons x todo =>
          refine ⟨[], s, { s with
            controller := .detaching todo
            mgr := { s.mgr with kernel := (closeLink ok x.1 x.2.1 x.2.2 s.mgr.kernel).2 } },
            by simp, rfl, rfl, ?_⟩
          simp only [Gateway.next, hc]
  | done => exact absurd (nothingToDetach_done hc) h

-- A pending `SetBypass(false)` can go through.
theorem clears_unless_guarded {n : Int64} {s : Gateway}
    (h : ¬ (s.proc.config.bypass ≠ 0 ∧ s.proc.pc ≠ .setting false)) :
    ∃ acts t, (∀ a ∈ acts, a.SetsBypass) ∧ s.steps n acts = some t ∧
      t.proc.config.bypass = 0 ∧ t.proc.canceled = s.proc.canceled ∧
      t.controller = s.controller ∧ t.events = s.events ∧ t.closed = s.closed ∧ t.mgr = s.mgr := by
  by_cases hpc : s.proc.pc = .setting false
  · have hnext : s.next n (.proc (.checkerSets true true)) = some { s with
        proc := { s.proc with
          checker := settle false (setBypass true true false s.proc.config).1 s.proc.checker
          config := (setBypass true true false s.proc.config).2
          pc := .waiting } } := by
      rw [Gateway.next, next_checkerSets hpc]
      rfl
    refine ⟨[.proc (.checkerSets true true)], _, ?_, gateway_steps_cons hnext [], rfl, rfl, rfl,
      rfl, rfl, rfl⟩
    simp [GatewayAct.SetsBypass]
  · refine ⟨[], s, by simp, rfl, ?_, rfl, rfl, rfl, rfl, rfl⟩
    by_contra hb
    exact h ⟨hb, hpc⟩

/-- After the cancellation, wherever the controller stands, `DetachAll` is sure to close links only
under a set bypass if and only if the bypass is set at that time with no `SetBypass(false)` under
way, or there is nothing to detach and nothing that could be attached. -/
theorem detach_under_bypass_iff {n : Int64} {cfg : GatewayConfig} {before : List GatewayAct}
    {s : Gateway} (hs : (Gateway.start cfg).steps n before = some s)
    (hcanceled : s.proc.canceled = true) :
    (∀ acts t u ok, (∀ a ∈ acts, a.SetsBypass) → s.steps n acts = some t →
      t.next n (.closeNext ok) = some u → t.proc.config.bypass ≠ 0) ↔
    (s.proc.config.bypass ≠ 0 ∧ s.proc.pc ≠ .setting false) ∨ NothingToDetach s := by
  constructor
  · intro hsafe
    by_contra hnot
    rw [not_or] at hnot
    rcases clears_unless_guarded (n := n) hnot.1 with
      ⟨acts, t, hacts, hsteps, hbypass, hcanceled', hcontroller, hevents, hclosed, hmgr⟩
    have hnothing : ¬ NothingToDetach t := by
      rw [NothingToDetach, hcontroller, hmgr, hclosed, hevents]
      exact hnot.2
    have hheld : Held t.mgr := gateway_steps_held hsteps (gateway_steps_held hs (held_empty _))
    rcases closes_unless_nothing (n := n) (hcanceled'.trans hcanceled) hheld hnothing
      (fun _ => true) with ⟨acts', t', u, hacts', hsteps', hproc, hclose⟩
    refine hsafe (acts ++ acts') t' u (fun _ => true) ?_
      ((steps_append hsteps acts').trans hsteps') hclose ?_
    · intro a ha
      rcases List.mem_append.mp ha with ha | ha
      · exact hacts a ha
      · exact hacts' a ha
    · rw [hproc, hbypass]
  · rintro (⟨hbypass, hquiet⟩ | hnothing) acts t u ok - hsteps hclose
    · have hguarded : Guarded t.proc :=
        foldlM_invariant (fun s a t hnext => gateway_next_guarded hnext)
          (show Guarded s.proc from ⟨hcanceled, hbypass, hquiet⟩) hsteps
      exact hguarded.bypass
    · have hlater : NothingToDetach t :=
        foldlM_invariant (fun s a t hnext => gateway_next_nothing hnext) hnothing hsteps
      cases gateway_next_step hclose with
      | closeNext hc =>
          rw [nothingToDetach_detaching hc] at hlater
          cases hlater

/-- Interface 7 is attached to. -/
def attachedManager : AttachManager where
  attachments := (∅ : Finmap fun _ : Int => Attachment).insert 7 ⟨7, some 0, some 1⟩
  kernel := ((AttachManager.new.kernel.opened 7 .ingress).opened 7 .egress)

/-- A failed probe has set the bypass before the signal comes. -/
theorem detach_behind_failed_probe :
    ∃ s, (Gateway.start samplePopulated).steps 1 [.emit ⟨.add, 7, veth⟩, .handle fun _ => true,
        .proc (.probeReturns true), .proc .ctxCheck, .proc (.checkerSets true true),
        .proc .cancel] = some s ∧
      ∀ acts t u ok, (∀ a ∈ acts, a.SetsBypass) → s.steps 1 acts = some t →
        t.next 1 (.closeNext ok) = some u → t.proc.config.bypass ≠ 0 := by
  have hs : (Gateway.start samplePopulated).steps 1 [.emit ⟨.add, 7, veth⟩, .handle fun _ => true,
      .proc (.probeReturns true), .proc .ctxCheck, .proc (.checkerSets true true),
      .proc .cancel] = some
        { proc :=
            { canceled := true
              checker := { consecutiveFailures := 1, bypassActive := true, probeFailures := 1 }
              pc := .waiting
              run := .serving
              config := { samplePopulated with bypass := 1 } }
          controller := .looping
          events := []
          closed := false
          mgr := attachedManager } := rfl
  exact ⟨_, hs, (detach_under_bypass_iff hs rfl).mpr (Or.inl ⟨by decide, by decide⟩)⟩

/-- An interface is attached when the signal comes, and the controller is the first to react: it
closes the ingress link while the bypass is clear. -/
theorem detached_before_bypass :
    ∃ t u, (Gateway.start samplePopulated).steps 3 [.emit ⟨.add, 7, veth⟩, .handle fun _ => true,
        .proc .cancel, .ctxDone default] = some t ∧
      t.proc.config.bypass = 0 ∧ t.mgr.kernel.links.Holds 7 .ingress ∧
      t.next 3 (.closeNext fun _ => true) = some u ∧ ¬ u.mgr.kernel.links.Holds 7 .ingress := by
  let s : Gateway :=
    { proc := { Process.start samplePopulated with canceled := true }
      controller := .looping
      events := []
      closed := false
      mgr := attachedManager }
  have hvisit : (default : RangeOrder Int Attachment).visit s.mgr.attachments =
      [(7, ⟨7, some 0, some 1⟩)] := RangeOrder.visit_single _ _ _
  have hs : (Gateway.start samplePopulated).steps 3 [.emit ⟨.add, 7, veth⟩, .handle fun _ => true,
      .proc .cancel, .ctxDone default] = some (s.detachAll default) := rfl
  have hclose : (s.detachAll default).next 3 (.closeNext fun _ => true) = some { s with
      controller := .detaching [(7, .egress, 1)]
      mgr := ⟨∅, attachedManager.kernel.closed 0⟩ } := by
    rw [Gateway.detachAll, hvisit]
    rfl
  refine ⟨_, _, hs, rfl, ⟨0, rfl⟩, hclose, ?_⟩
  rintro ⟨id, hid⟩
  rcases lookup_erase_some hid with ⟨hne, hopen⟩
  rcases lookup_insert_some hopen with ⟨-, hegress⟩ | ⟨-, hingress⟩
  · cases hegress
  · rcases lookup_insert_some hingress with ⟨hzero, -⟩ | ⟨-, hnone⟩
    · exact hne hzero
    · cases hnone

end DnsGateway.Cmd
