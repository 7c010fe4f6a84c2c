import DnsGateway.Netlinkmon.Lifecycle
import DnsGateway.Ebpf.Leaks
import DnsGateway.Ebpf.Loader
import DnsGateway.Cmd.Teardown

/-!
# The running process (`cmd/bpf-dns-gateway/main.go`)

The monitor, the controller, the health checker and `run` itself, from the start of the goroutines
to the return of `run`.  They share the lifecycle context, which a signal, a failed monitor or a
failed controller cancels, the channel of the events, and `config_map`.
-/

namespace DnsGateway.Cmd

open DnsGateway.Reasoning DnsGateway.Bpf DnsGateway.Ebpf DnsGateway.Health DnsGateway.Netlinkmon

/-- Where `run` stands behind its `SetBypass(true)`, in steps 9c to 9e. -/
inductive TailPc where
  -- `<-ctrl.Done()`, for ten seconds at most.
  | awaiting
  | stoppingMetrics
  | closingLoader
  | unpinning
  | returned
  deriving DecidableEq, Repr

structure Daemon where
  proc : Process
  mon : Start
  controller : ControllerPc
  -- `Controller.Run` is going to return an error.
  controllerErr : Bool
  mgr : AttachManager
  tail : TailPc
  loaderOpen : Bool
  pins : PinDir
  -- The links whose `Close` has failed.
  lost : List Nat

inductive DaemonAct where
  -- An action of `run` up to its step 9b, or of the checker.
  | proc (a : Act)
  | signal
  -- An action of the monitor or of the netlink library.
  | monitor (a : StartAct)
  -- `stop()` behind `monitor.Start` and `ctrl.Run`.
  | monitorStops
  | controllerStops
  | handle (ok : LinkCall → Bool)
  | ctxDone (order : RangeOrder Int Attachment)
  | eventsClosed (order : RangeOrder Int Attachment)
  | closeNext (ok : LinkCall → Bool)
  | detached
  | ctrlDone
  | ctrlTimeout
  | metricsStopped
  | loaderClosed
  | unpinned (ops : FileOps)

/-- The goroutines start beside what `PopulateConfig` wrote and the pinned maps. -/
def Daemon.start (cfg : GatewayConfig) (pins : PinDir) : Daemon where
  proc := .start cfg
  mon := .new
  controller := .looping
  controllerErr := false
  mgr := .new
  tail := .awaiting
  loaderOpen := true
  pins := pins
  lost := []

/-- `stop()`, or a signal. -/
def Daemon.cancel (d : Daemon) : Daemon :=
  { d with
    proc := { d.proc with canceled := true }
    mon := { d.mon with canceled := true } }

/-- The links whose `Close` fails in `Controller.handle`. -/
def handleLoses (ok : LinkCall → Bool) (ev : Event) (m : AttachManager) : List Nat :=
  match ev.type with
  | .add => attachLoses ok ev.ifindex m
  | .remove => detachLoses ok ev.ifindex m

/-- `DetachAll`, up to its first `Close`. -/
def Daemon.detachAll (d : Daemon) (order : RangeOrder Int Attachment) (err : Bool) : Daemon :=
  { d with
    controller := .detaching (d.mgr.links order)
    controllerErr := err
    mgr := { d.mgr with attachments := ∅ } }

/-- The step of `run` from `pc` to `pc'`. -/
def Daemon.advance (d : Daemon) (pc pc' : TailPc) : Option Daemon :=
  if d.tail = pc then some { d with tail := pc' } else none

/-- The process after an action, if the action is possible.  `stop()` is left out where the context
is canceled, as it does nothing then. -/
def Daemon.next (n : Int64) (d : Daemon) : DaemonAct → Option Daemon
  | .proc a =>
      match a with
      | .cancel => none
      | a => (d.proc.next n a).map fun p => { d with proc := p }
  | .signal => some d.cancel
  | .monitor a =>
      match a with
      | .cancel | .receive => none
      | a => (d.mon.next a).map fun m => { d with mon := m }
  | .monitorStops =>
      match d.mon.main with
      | .returned (some _) => if d.proc.canceled then none else some d.cancel
      | _ => none
  | .controllerStops =>
      match d.controller with
      | .done => if d.controllerErr ∧ d.proc.canceled = false then some d.cancel else none
      | _ => none
  | .handle ok =>
      match d.controller, d.mon.events.receive with
      | .looping, some (some ev, events) =>
          some { d with
            mon := { d.mon with events := events, received := d.mon.received ++ [ev] }
            mgr := Controller.handle ok ev d.mgr
            lost := d.lost ++ handleLoses ok ev d.mgr }
      | _, _ => none
  | .ctxDone order =>
      match d.controller with
      | .looping => if d.proc.canceled then some (d.detachAll order false) else none
      | _ => none
  -- An error, unless the context is canceled as well.
  | .eventsClosed order =>
      match d.controller, d.mon.events.receive with
      | .looping, some (none, _) => some (d.detachAll order !d.proc.canceled)
      | _, _ => none
  | .closeNext ok =>
      match d.controller with
      | .detaching (x :: todo) =>
          some { d with
            controller := .detaching todo
            controllerErr := d.controllerErr || !ok (.close x.1 x.2.1)
            mgr := { d.mgr with kernel := (closeLink ok x.1 x.2.1 x.2.2 d.mgr.kernel).2 }
            lost := d.lost ++ failedClose ok x }
      | _ => none
  | .detached =>
      match d.controller with
      | .detaching [] => some { d with controller := .done }
      | _ => none
  | .ctrlDone =>
      match d.proc.run, d.controller with
      | .bypassed _, .done => d.advance .awaiting .stoppingMetrics
      | _, _ => none
  | .ctrlTimeout =>
      match d.proc.run with
      | .bypassed _ => d.advance .awaiting .stoppingMetrics
      | _ => none
  -- An error of the server's `Shutdown` is only logged, as are those of `Close` and `Unpin`.
  | .metricsStopped => d.advance .stoppingMetrics .closingLoader
  | .loaderClosed =>
      (d.advance .closingLoader .unpinning).map fun d => { d with loaderOpen := false }
  | .unpinned ops =>
      (d.advance .unpinning .returned).map fun d => { d with pins := (unpin ops d.pins).2 }

def Daemon.steps (n : Int64) (d : Daemon) (acts : List DaemonAct) : Option Daemon :=
  acts.foldlM (Daemon.next n) d

/-! ## What one action can do -/

inductive DaemonStep (n : Int64) (d : Daemon) : DaemonAct → Daemon → Prop where
  | proc (a : Act) (p : Process) (hne : a ≠ .cancel) (h : d.proc.next n a = some p) :
      DaemonStep n d (.proc a) { d with proc := p }
  | signal : DaemonStep n d .signal d.cancel
  | monitor (a : StartAct) (m : Start) (hne : a ≠ .cancel ∧ a ≠ .receive)
      (h : d.mon.next a = some m) : DaemonStep n d (.monitor a) { d with mon := m }
  | monitorStops (err : Netlinkmon.StartError) (h : d.mon.main = .returned (some err))
      (hlive : d.proc.canceled = false) : DaemonStep n d .monitorStops d.cancel
  | controllerStops (h : d.controller = .done) (herr : d.controllerErr = true)
      (hlive : d.proc.canceled = false) : DaemonStep n d .controllerStops d.cancel
  | handle (ok : LinkCall → Bool) (ev : Event) (events : Chan Event) (hc : d.controller = .looping)
      (hbuf : d.mon.events.buf = ev :: events.buf) (hclosed : events.closed = d.mon.events.closed)
      (hnext : d.mon.next .receive =
        some { d.mon with events := events, received := d.mon.received ++ [ev] }) :
      DaemonStep n d (.handle ok) { d with
        mon := { d.mon with events := events, received := d.mon.received ++ [ev] }
        mgr := Controller.handle ok ev d.mgr
        lost := d.lost ++ handleLoses ok ev d.mgr }
  | ctxDone (order : RangeOrder Int Attachment) (hc : d.controller = .looping)
      (hcanceled : d.proc.canceled = true) :
      DaemonStep n d (.ctxDone order) (d.detachAll order false)
  | eventsClosed (order : RangeOrder Int Attachment) (hc : d.controller = .looping)
      (hbuf : d.mon.events.buf = []) (hclosed : d.mon.events.closed = true) :
      DaemonStep n d (.eventsClosed order) (d.detachAll order !d.proc.canceled)
  | closeNext (ok : LinkCall → Bool) (x : Int × Hook × Nat) (todo : List (Int × Hook × Nat))
      (hc : d.controller = .detaching (x :: todo)) :
      DaemonStep n d (.closeNext ok) { d with
        controller := .detaching todo
        controllerErr := d.controllerErr || !ok (.close x.1 x.2.1)
        mgr := { d.mgr with kernel := (closeLink ok x.1 x.2.1 x.2.2 d.mgr.kernel).2 }
        lost := d.lost ++ failedClose ok x }
  | detached (hc : d.controller = .detaching []) :
      DaemonStep n d .detached { d with controller := .done }
  | ctrlDone (serr : Option ConfigError) (hrun : d.proc.run = .bypassed serr)
      (hc : d.controller = .done) (htail : d.tail = .awaiting) :
      DaemonStep n d .ctrlDone { d with tail := .stoppingMetrics }
  | ctrlTimeout (serr : Option ConfigError) (hrun : d.proc.run = .bypassed serr)
      (htail : d.tail = .awaiting) :
      DaemonStep n d .ctrlTimeout { d with tail := .stoppingMetrics }
  | metricsStopped (htail : d.tail = .stoppingMetrics) :
      DaemonStep n d .metricsStopped { d with tail := .closingLoader }
  | loaderClosed (htail : d.tail = .closingLoader) :
      DaemonStep n d .loaderClosed { d with tail := .unpinning, loaderOpen := false }
  | unpinned (ops : FileOps) (htail : d.tail = .unpinning) :
      DaemonStep n d (.unpinned ops) { d with tail := .returned, pins := (unpin ops d.pins).2 }

theorem advance_eq_some {d e : Daemon} {pc pc' : TailPc} :
    d.advance pc pc' = some e ↔ d.tail = pc ∧ e = { d with tail := pc' } := by
  unfold Daemon.advance
  rw [Option.ite_none_right_eq_some, Option.some.injEq, eq_comm (a := e)]

theorem receive_none {c c' : Chan Event} (h : c.receive = some (none, c')) :
    c.buf = [] ∧ c.closed = true := by
  rw [Chan.receive] at h
  split at h
  · rename_i hbuf
    rcases Option.ite_none_right_eq_some.mp h with ⟨hclosed, -⟩
    exact ⟨hbuf, hclosed⟩
  · cases h

theorem daemon_next_step {n : Int64} {d e : Daemon} {a : DaemonAct} (hs : Sound d.mon)
    (h : d.next n a = some e) : DaemonStep n d a e := by
  cases a with
  | proc a =>
      simp only [Daemon.next] at h
      split at h
      · cases h
      · rename_i hne
        rcases Option.map_eq_some_iff.mp h with ⟨p, hp, rfl⟩
        exact .proc a p hne hp
  | signal =>
      cases h
      exact .signal
  | monitor a =>
      simp only [Daemon.next] at h
      split at h
      · cases h
      · cases h
      · rename_i hcancel hreceive
        rcases Option.map_eq_some_iff.mp h with ⟨m, hm, rfl⟩
        exact .monitor a m ⟨hcancel, hreceive⟩ hm
  | monitorStops =>
      simp only [Daemon.next] at h
      split at h
      · rename_i err hmain
        split at h
        · cases h
        · rename_i hlive
          cases h
          exact .monitorStops err hmain (by simpa using hlive)
      · cases h
  | controllerStops =>
      simp only [Daemon.next] at h
      split at h
      · rename_i hc
        rcases Option.ite_none_right_eq_some.mp h with ⟨⟨herr, hlive⟩, h⟩
        cases h
        exact .controllerStops hc herr hlive
      · cases h
  | handle ok =>
      simp only [Daemon.next] at h
      split at h
      · rename_i ev events hc hreceive
        cases h
        rcases Chan.receive_eq_some hreceive with ⟨hbuf, hclosed⟩
        refine .handle ok ev events hc hbuf hclosed ?_
        unfold Start.next
        rw [if_neg (by simp [hs.panicked]), hreceive]
        rfl
      · cases h
  | ctxDone order =>
      simp only [Daemon.next] at h
      split at h
      · rename_i hc
        rcases Option.ite_none_right_eq_some.mp h with ⟨hcanceled, h⟩
        cases h
        exact .ctxDone order hc hcanceled
      · cases h
  | eventsClosed order =>
      simp only [Daemon.next] at h
      split at h
      · rename_i events hc hreceive
        cases h
        rcases receive_none hreceive with ⟨hbuf, hclosed⟩
        exact .eventsClosed order hc hbuf hclosed
      · cases h
  | closeNext ok =>
      simp only [Daemon.next] at h
      split at h
      · rename_i x todo hc
        cases h
        exact .closeNext ok x todo hc
      · cases h
  | detached =>
      simp only [Daemon.next] at h
      split at h
      · rename_i hc
        cases h
        exact .detached hc
      · cases h
  | ctrlDone =>
      simp only [Daemon.next] at h
      split at h
      · rename_i serr hrun hc
        rcases advance_eq_some.mp h with ⟨htail, rfl⟩
        exact .ctrlDone serr hrun hc htail
      · cases h
  | ctrlTimeout =>
      simp only [Daemon.next] at h
      split at h
      · rename_i serr hrun
        rcases advance_eq_some.mp h with ⟨htail, rfl⟩
        exact .ctrlTimeout serr hrun htail
      · cases h
  | metricsStopped =>
      rcases advance_eq_some.mp h with ⟨htail, rfl⟩
      exact .metricsStopped htail
  | loaderClosed =>
      rcases Option.map_eq_some_iff.mp h with ⟨d', hd, rfl⟩
      rcases advance_eq_some.mp hd with ⟨htail, rfl⟩
      exact .loaderClosed htail
  | unpinned ops =>
      rcases Option.map_eq_some_iff.mp h with ⟨d', hd, rfl⟩
      rcases advance_eq_some.mp hd with ⟨htail, rfl⟩
      exact .unpinned ops htail

/-! ## The context is one -/

structure Joined (d : Daemon) : Prop where
  sound : Sound d.mon
  canceled : d.mon.canceled = d.proc.canceled

theorem Joined.start (cfg : GatewayConfig) (pins : PinDir) : Joined (.start cfg pins) :=
  ⟨Sound.new, rfl⟩

-- Only the signal and `stop()` cancel.
theorem next_canceled {n : Int64} {s t : Process} {a : Act} (h : s.next n a = some t)
    (hne : a ≠ .cancel) : t.canceled = s.canceled := by
  cases a with
  | cancel => exact absurd rfl hne
  | ctxCheck =>
      rw [Process.next] at h
      split at h
      · rename_i err hpc
        cases hc : s.canceled with
        | true =>
            rw [if_pos hc] at h
            cases h
            exact hc
        | false =>
            rw [if_neg (by simp [hc])] at h
            split at h
            · cases h
              exact hc
            · cases h
              exact hc
      · cases h
  | checkerSets lookupOk updateOk =>
      rw [Process.next] at h
      split at h
      · cases h
        rfl
      · cases h
  | _ =>
      rcases Option.ite_none_right_eq_some.mp h with ⟨-, h⟩
      cases h
      rfl

theorem start_step_canceled {s t : Start} {a : StartAct} (h : StartStep s a t)
    (hne : a ≠ .cancel) : t.canceled = s.canceled := by
  cases h with
  | main a t h => cases h <;> rfl
  | resync a t h => cases h <;> rfl
  | cancel => exact absurd rfl hne
  | errorCallback err =>
      rcases s.errorCallback_eq err with ⟨flag, fatal, heq, -⟩
      rw [heq]
  | closeUpdates => rfl
  | receive v c hbuf hclosed => rfl

theorem Joined.cancel {d : Daemon} (h : Joined d) : Joined d.cancel :=
  ⟨h.sound.frame rfl rfl rfl rfl rfl rfl rfl, rfl⟩

theorem DaemonStep.joined {n : Int64} {d e : Daemon} {a : DaemonAct} (h : Joined d)
    (hstep : DaemonStep n d a e) : Joined e := by
  cases hstep with
  | proc a p hne hp => exact ⟨h.sound, h.canceled.trans (next_canceled hp hne).symm⟩
  | signal => exact h.cancel
  | monitor a m hne hm =>
      refine ⟨h.sound.next hm, ?_⟩
      exact (start_step_canceled (h.sound.step hm) hne.1).trans h.canceled
  | monitorStops => exact h.cancel
  | controllerStops => exact h.cancel
  | handle ok ev events hc hbuf hclosed hnext => exact ⟨h.sound.next hnext, h.canceled⟩
  | ctxDone => exact ⟨h.sound, h.canceled⟩
  | eventsClosed => exact ⟨h.sound, h.canceled⟩
  | _ => exact ⟨h.sound, h.canceled⟩

theorem Joined.next {n : Int64} {d e : Daemon} {a : DaemonAct} (h : Joined d)
    (hnext : d.next n a = some e) : DaemonStep n d a e ∧ Joined e :=
  have hstep := daemon_next_step h.sound hnext
  ⟨hstep, hstep.joined h⟩

/-! ## The gateway within -/

/-- The checker, `run`, the controller and its channel. -/
def Daemon.gateway (d : Daemon) : Gateway where
  proc := d.proc
  controller := d.controller
  events := d.mon.events.buf
  closed := d.mon.events.closed
  mgr := d.mgr

-- The monitor sends, closes its channel, or does something the controller does not see.
theorem start_step_events {s t : Start} {a : StartAct} (hs : Sound s) (h : StartStep s a t)
    (hne : a ≠ .receive) :
    (t.events.buf = s.events.buf ∧ t.events.closed = s.events.closed) ∨
      (∃ ev, s.events.closed = false ∧ t.events.buf = s.events.buf ++ [ev] ∧
        t.events.closed = false) ∨
      t.events.buf = s.events.buf ∧ t.events.closed = true := by
  cases h with
  | main a t h =>
      cases h with
      | sent ev hmain c hbuf hopen =>
          refine Or.inr (Or.inl ⟨ev, ?_, hbuf, hopen⟩)
          rw [hs.events, hmain]
          rfl
      | closedEvents err hmain c hbuf hclosed => exact Or.inr (Or.inr ⟨hbuf, hclosed⟩)
      | _ => exact Or.inl ⟨rfl, rfl⟩
  | resync a t h =>
      cases h with
      | sent ev links hpc c hbuf hopen =>
          exact Or.inr (Or.inl ⟨ev, (hs.running hpc (by simp)).2, hbuf, hopen⟩)
      | _ => exact Or.inl ⟨rfl, rfl⟩
  | cancel => exact Or.inl ⟨rfl, rfl⟩
  | errorCallback err =>
      rcases s.errorCallback_eq err with ⟨flag, fatal, heq, -⟩
      rw [heq]
      exact Or.inl ⟨rfl, rfl⟩
  | closeUpdates => exact Or.inl ⟨rfl, rfl⟩
  | receive v c hbuf hclosed => exact absurd rfl hne

theorem DaemonStep.gateway {n : Int64} {d e : Daemon} {a : DaemonAct} (hj : Joined d)
    (hstep : DaemonStep n d a e) :
    e.gateway = d.gateway ∨ ∃ b, d.gateway.next n b = some e.gateway := by
  cases hstep with
  | proc a p hne hp =>
      refine Or.inr ⟨.proc a, ?_⟩
      show (d.proc.next n a).map _ = _
      rw [hp]
      rfl
  | signal => exact Or.inr ⟨.proc .cancel, rfl⟩
  | monitor a m hne hm =>
      rcases start_step_events hj.sound (hj.sound.step hm) hne.2 with
        ⟨hbuf, hclosed⟩ | ⟨ev, hopen, hbuf, hclosed⟩ | ⟨hbuf, hclosed⟩
      · left
        simp [Daemon.gateway, hbuf, hclosed]
      · right
        refine ⟨.emit ev, ?_⟩
        simp [Gateway.next, Daemon.gateway, hopen, hbuf, hclosed]
      · right
        refine ⟨.closeEvents, ?_⟩
        simp [Gateway.next, Daemon.gateway, hbuf, hclosed]
  | monitorStops => exact Or.inr ⟨.proc .cancel, rfl⟩
  | controllerStops => exact Or.inr ⟨.proc .cancel, rfl⟩
  | handle ok ev events hc hbuf hclosed hnext =>
      refine Or.inr ⟨.handle ok, ?_⟩
      simp [Gateway.next, Daemon.gateway, hc, hbuf, hclosed]
  | ctxDone order hc hcanceled =>
      refine Or.inr ⟨.ctxDone order, ?_⟩
      simp [Gateway.next, Daemon.gateway, hc, hcanceled, Gateway.detachAll, Daemon.detachAll,
        AttachManager.links]
  | eventsClosed order hc hbuf hclosed =>
      refine Or.inr ⟨.eventsClosed order, ?_⟩
      simp [Gateway.next, Daemon.gateway, hc, hbuf, hclosed, Gateway.detachAll, Daemon.detachAll,
        AttachManager.links]
  | closeNext ok x todo hc =>
      refine Or.inr ⟨.closeNext ok, ?_⟩
      simp [Gateway.next, Daemon.gateway, hc]
  | detached hc =>
      refine Or.inr ⟨.detached, ?_⟩
      simp [Gateway.next, Daemon.gateway, hc]
  | _ => exact Or.inl rfl

/-- The process, with the real monitor and its channel, refines the gateway whose events come from
anywhere: what is proved of every run of the gateway holds in every run of the process. -/
theorem daemon_refines (n : Int64) (cfg : GatewayConfig) (pins : PinDir) (acts : List DaemonAct)
    (d : Daemon) (hrun : (Daemon.start cfg pins).steps n acts = some d) :
    ∃ acts', (Gateway.start cfg).steps n acts' = some d.gateway := by
  have hmatch : ∀ d a e g, d.next n a = some e → Joined d → g = d.gateway →
      g = e.gateway ∨ ∃ b g', Gateway.next n g b = some g' ∧ g' = e.gateway := by
    rintro d a e g hnext hj rfl
    rcases (hj.next hnext).1.gateway hj with heq | ⟨b, hb⟩
    · exact Or.inl heq.symm
    · exact Or.inr ⟨b, _, hb, rfl⟩
  rcases foldlM_simulation (fun d a e hnext hj => (Joined.next hj hnext).2) hmatch
    (Joined.start cfg pins) rfl hrun with ⟨acts', g, hg, rfl⟩
  exact ⟨acts', hg⟩

/-- A veth appears; the ingress program is attached, the egress program is not, and the `Close` of
the first link fails. -/
def leakyRun : List DaemonAct :=
  [.monitor (.main (.subscribe none)), .monitor (.main (.update (vethUpdate rtmNewlink))),
    .monitor (.main .send), .handle fun c => c = .attachTCX 7 .ingress]

def leakyEnd : Daemon :=
  { Daemon.start samplePopulated none with
    mon := { Start.new with
      known := (∅ : Known).insert 7 veth
      main := .selecting
      resync := some .idle
      found := [vethEvent]
      received := [vethEvent] }
    mgr := { AttachManager.new with kernel := AttachManager.new.kernel.opened 7 .ingress }
    lost := [0] }

theorem steps_leakyRun : (Daemon.start samplePopulated none).steps 3 leakyRun = some leakyEnd := rfl

theorem leaky_daemon_refines :
    ∃ acts, (Gateway.start samplePopulated).steps 3 acts = some leakyEnd.gateway :=
  daemon_refines 3 samplePopulated none leakyRun leakyEnd steps_leakyRun

/-! ## The open links -/

/-- A link that the manager tracks, or that `DetachAll` has still to close. -/
def Daemon.Holds (d : Daemon) (i : Int) (hook : Hook) (id : Nat) : Prop :=
  match d.controller with
  | .looping => d.mgr.Holds i hook id
  | .detaching todo => (i, hook, id) ∈ todo
  | .done => False

/-- The books of the links, for each place of the controller. -/
def Daemon.Booked (d : Daemon) : Prop :=
  match d.controller with
  | .looping => Accounted d.mgr d.lost
  | .detaching todo => Detaching d.mgr.kernel todo d.lost
  | .done => Detaching d.mgr.kernel [] d.lost

theorem Daemon.Booked.detachAll {d : Daemon} (h : d.Booked) (hc : d.controller = .looping)
    (order : RangeOrder Int Attachment) (err : Bool) : (d.detachAll order err).Booked := by
  rw [Daemon.Booked, hc] at h
  exact h.detachAll order

theorem Daemon.Booked.ledger {d : Daemon} (h : d.Booked) :
    Ledger d.mgr.kernel d.Holds d.lost := by
  unfold Daemon.Booked at h
  unfold Daemon.Holds
  split at h
  · exact h.ledger
  · exact h.ledger
  · exact h.ledger.congr fun i hook id => (iff_false_intro List.not_mem_nil).symm

theorem Daemon.Booked.mem_links_iff {d : Daemon} (h : d.Booked) (id : Nat) :
    id ∈ d.mgr.kernel.links ↔ (∃ i hook, d.Holds i hook id) ∨ id ∈ d.lost := by
  rw [← Finmap.lookup_isSome, Option.isSome_iff_exists]
  constructor
  · rintro ⟨x, hx⟩
    exact (h.ledger.covered id x hx).imp_left fun hid => ⟨x.1, x.2, hid⟩
  · rintro (⟨i, hook, hid⟩ | hlost)
    · exact ⟨_, h.ledger.opened i hook id hid⟩
    · exact h.ledger.stays id hlost

end DnsGateway.Cmd
