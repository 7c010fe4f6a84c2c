import DnsGateway.Cmd.Daemon

/-!
# The end of the process (`cmd/bpf-dns-gateway/main.go`)

`run` waits for the checker and for the controller, each for a limited time.  The waits do not need
their limits: whatever ends the run, every goroutine comes to its end.  Without the limits the
return of `run` finds everything closed.
-/

namespace DnsGateway.Cmd

open DnsGateway.Reasoning DnsGateway.Bpf DnsGateway.Ebpf DnsGateway.Health DnsGateway.Netlinkmon

/-! ## The monitor within -/

def CheckerPc.rank : CheckerPc → Nat
  | .probing => 4
  | .returned _ => 3
  | .setting _ => 2
  | .waiting => 1
  | .exited => 0

def RunPc.rank : RunPc → Nat
  | .serving => 3
  | .stopping => 2
  | .teardown => 1
  | .bypassed _ => 0

def ControllerPc.rank : ControllerPc → Nat
  | .looping => 2
  | .detaching _ => 1
  | .done => 0

def ControllerPc.left : ControllerPc → Nat
  | .detaching todo => todo.length
  | _ => 0

def TailPc.rank : TailPc → Nat
  | .awaiting => 4
  | .stoppingMetrics => 3
  | .closingLoader => 2
  | .unpinning => 1
  | .returned => 0

def Process.rank (p : Process) : Nat :=
  p.pc.rank + p.run.rank + if p.canceled then 0 else 1

/-- The actions of the process on its way out: the checker starts no further probe, the monitor
takes no further update or tick, and the limits of the two waits are not used. -/
def DaemonAct.Winding : DaemonAct → Prop
  | .proc .ticker | .proc .timeout | .ctrlTimeout | .signal => False
  | .monitor a => a.Winding
  | _ => True

/-- What is done to the process from outside. -/
def DaemonAct.Outside : DaemonAct → Prop
  | .signal => True
  | .monitor a => a.Outside
  | _ => False

def Daemon.measure (d : Daemon) : ℕ ×ₗ (ℕ ×ₗ ℕ) ×ₗ ℕ ×ₗ ℕ :=
  toLex (d.proc.rank + d.controller.rank + d.tail.rank,
    toLex (d.mon.measure, toLex (d.mon.events.buf.length, d.controller.left)))

theorem next_rank_lt {n : Int64} {s t : Process} {a : Act} (h : s.next n a = some t)
    (hcancel : a ≠ .cancel) (hticker : a ≠ .ticker) : t.rank < s.rank := by
  have hranks : t.pc.rank + t.run.rank < s.pc.rank + s.run.rank := by
    cases a with
    | cancel => exact absurd rfl hcancel
    | ticker => exact absurd rfl hticker
    | ctxCheck =>
        rw [Process.next] at h
        split at h
        · rename_i err hpc
          rw [hpc]
          split at h
          · cases h
            simp [CheckerPc.rank]
          · split at h
            · cases h
              simp [CheckerPc.rank]
            · cases h
              simp [CheckerPc.rank]
        · cases h
    | checkerSets lookupOk updateOk =>
        rw [Process.next] at h
        split at h
        · rename_i on hpc
          cases h
          rw [hpc]
          simp [CheckerPc.rank]
        · cases h
    | probeReturns err =>
        rcases Option.ite_none_right_eq_some.mp h with ⟨hpc, h⟩
        cases h
        rw [hpc]
        simp [CheckerPc.rank]
    | exit =>
        rcases Option.ite_none_right_eq_some.mp h with ⟨hpc, h⟩
        cases h
        rw [hpc.1]
        simp [CheckerPc.rank]
    | stop =>
        rcases Option.ite_none_right_eq_some.mp h with ⟨hrun, h⟩
        cases h
        rw [hrun.1]
        simp [RunPc.rank]
    | done =>
        rcases Option.ite_none_right_eq_some.mp h with ⟨hrun, h⟩
        cases h
        rw [hrun.1]
        simp [RunPc.rank]
    | timeout =>
        rcases Option.ite_none_right_eq_some.mp h with ⟨hrun, h⟩
        cases h
        rw [hrun]
        simp [RunPc.rank]
    | runSets lookupOk updateOk =>
        rcases Option.ite_none_right_eq_some.mp h with ⟨hrun, h⟩
        cases h
        rw [hrun]
        simp [RunPc.rank]
  unfold Process.rank
  rw [next_canceled h hcancel]
  exact Nat.add_lt_add_right hranks _

section Measure

variable {d e : Daemon}

theorem measure_lt_of_rank
    (h : e.proc.rank + e.controller.rank + e.tail.rank <
      d.proc.rank + d.controller.rank + d.tail.rank) : e.measure < d.measure :=
  Prod.Lex.lt_iff.mpr (Or.inl h)

theorem measure_lt_of_monitor (hproc : e.proc = d.proc) (hcontroller : e.controller = d.controller)
    (htail : e.tail = d.tail) (h : e.mon.measure < d.mon.measure) : e.measure < d.measure := by
  refine Prod.Lex.lt_iff.mpr (Or.inr ⟨?_, Prod.Lex.lt_iff.mpr (Or.inl h)⟩)
  simp [Daemon.measure, hproc, hcontroller, htail]

theorem measure_lt_of_left (hproc : e.proc = d.proc) (hrank : e.controller.rank = d.controller.rank)
    (htail : e.tail = d.tail) (hmon : e.mon.measure = d.mon.measure)
    (h : e.mon.events.buf.length < d.mon.events.buf.length ∨
      e.mon.events.buf.length = d.mon.events.buf.length ∧ e.controller.left < d.controller.left) :
    e.measure < d.measure := by
  refine Prod.Lex.lt_iff.mpr (Or.inr ⟨?_, Prod.Lex.lt_iff.mpr (Or.inr ⟨hmon, ?_⟩)⟩)
  · simp [Daemon.measure, hproc, hrank, htail]
  · exact Prod.Lex.lt_iff.mpr h

theorem measure_cancel_lt (h : d.proc.canceled = false) : d.cancel.measure < d.measure := by
  apply measure_lt_of_rank
  have hrank : d.cancel.proc.rank < d.proc.rank := by simp [Daemon.cancel, Process.rank, h]
  show d.cancel.proc.rank + d.controller.rank + d.tail.rank < _
  omega

end Measure

theorem DaemonStep.measure_lt {n : Int64} {d e : Daemon} {a : DaemonAct} (hj : Joined d)
    (hwinding : a.Winding) (hstep : DaemonStep n d a e) : e.measure < d.measure := by
  cases hstep with
  | proc a p hne hp =>
      apply measure_lt_of_rank
      have hrank := next_rank_lt hp hne (by rintro rfl; exact hwinding)
      show p.rank + d.controller.rank + d.tail.rank < _
      omega
  | signal => exact absurd hwinding id
  | monitor a m hne hm =>
      exact measure_lt_of_monitor rfl rfl rfl ((hj.sound.step hm).measure_lt hj.sound hwinding)
  | monitorStops err hmain hlive => exact measure_cancel_lt hlive
  | controllerStops hc herr hlive => exact measure_cancel_lt hlive
  | handle ok ev events hc hbuf hclosed hnext =>
      refine measure_lt_of_left rfl rfl rfl rfl (Or.inl ?_)
      simp [hbuf]
  | ctxDone order hc hcanceled =>
      apply measure_lt_of_rank
      simp [Daemon.detachAll, hc, ControllerPc.rank]
  | eventsClosed order hc hbuf hclosed =>
      apply measure_lt_of_rank
      simp [Daemon.detachAll, hc, ControllerPc.rank]
  | closeNext ok x todo hc =>
      refine measure_lt_of_left rfl ?_ rfl rfl (Or.inr ⟨rfl, ?_⟩)
      · simp [hc, ControllerPc.rank]
      · simp [hc, ControllerPc.left]
  | detached hc =>
      apply measure_lt_of_rank
      simp [hc, ControllerPc.rank]
  | ctrlDone serr hrun hc htail =>
      apply measure_lt_of_rank
      simp [htail, TailPc.rank]
  | ctrlTimeout => exact absurd hwinding id
  | metricsStopped htail =>
      apply measure_lt_of_rank
      simp [htail, TailPc.rank]
  | loaderClosed htail =>
      apply measure_lt_of_rank
      simp [htail, TailPc.rank]
  | unpinned ops htail =>
      apply measure_lt_of_rank
      simp [htail, TailPc.rank]

-- The checker is never stuck once the context is canceled.
theorem checker_winds {n : Int64} {s : Process} (hcanceled : s.canceled = true)
    (hpc : s.pc ≠ .exited) :
    ∃ a, a ≠ .cancel ∧ a ≠ .ticker ∧ a ≠ .timeout ∧ (s.next n a).isSome = true := by
  cases h : s.pc with
  | probing => exact ⟨.probeReturns false, by simp, by simp, by simp, by simp [Process.next, h]⟩
  | returned err =>
      refine ⟨.ctxCheck, by simp, by simp, by simp, ?_⟩
      simp [next_ctxCheck_canceled h hcanceled]
  | setting on =>
      refine ⟨.checkerSets true true, by simp, by simp, by simp, ?_⟩
      simp [next_checkerSets h]
  | waiting => exact ⟨.exit, by simp, by simp, by simp, by simp [Process.next, h, hcanceled]⟩
  | exited => exact absurd h hpc

theorem run_winds {n : Int64} {s : Process} (hcanceled : s.canceled = true)
    (hrun : ∀ serr, s.run ≠ .bypassed serr) :
    ∃ a, a ≠ .cancel ∧ a ≠ .ticker ∧ a ≠ .timeout ∧ (s.next n a).isSome = true := by
  cases h : s.run with
  | serving => exact ⟨.stop, by simp, by simp, by simp, by simp [Process.next, h, hcanceled]⟩
  | stopping =>
      by_cases hpc : s.pc = .exited
      · exact ⟨.done, by simp, by simp, by simp, by simp [Process.next, h, hpc]⟩
      · exact checker_winds hcanceled hpc
  | teardown => exact ⟨.runSets true true, by simp, by simp, by simp, by simp [Process.next, h]⟩
  | bypassed serr => exact absurd h (hrun serr)

theorem proc_winds {n : Int64} {d : Daemon}
    (h : ∃ a, a ≠ .cancel ∧ a ≠ .ticker ∧ a ≠ .timeout ∧ (d.proc.next n a).isSome = true) :
    ∃ a, DaemonAct.Winding a ∧ (d.next n a).isSome = true := by
  rcases h with ⟨a, hcancel, hticker, htimeout, hsome⟩
  refine ⟨.proc a, ?_, ?_⟩
  · cases a <;> simp_all [DaemonAct.Winding]
  · cases a <;> simp_all [Daemon.next]

theorem canceled_winds {n : Int64} {d : Daemon} (hcanceled : d.proc.canceled = true)
    (hreturned : d.tail ≠ .returned) :
    ∃ a, DaemonAct.Winding a ∧ (d.next n a).isSome = true := by
  by_cases hrun : ∀ serr, d.proc.run ≠ .bypassed serr
  · exact proc_winds (run_winds hcanceled hrun)
  · rw [not_forall] at hrun
    rcases hrun with ⟨serr, hrun⟩
    rw [not_not] at hrun
    cases htail : d.tail with
    | awaiting =>
        cases hc : d.controller with
        | looping => exact ⟨.ctxDone default, trivial, by simp [Daemon.next, hc, hcanceled]⟩
        | detaching todo =>
            cases todo with
            | nil => exact ⟨.detached, trivial, by simp [Daemon.next, hc]⟩
            | cons x todo => exact ⟨.closeNext fun _ => true, trivial, by simp [Daemon.next, hc]⟩
        | done =>
            exact ⟨.ctrlDone, trivial, by simp [Daemon.next, Daemon.advance, hrun, hc, htail]⟩
    | stoppingMetrics =>
        exact ⟨.metricsStopped, trivial, by simp [Daemon.next, Daemon.advance, htail]⟩
    | closingLoader =>
        exact ⟨.loaderClosed, trivial, by simp [Daemon.next, Daemon.advance, htail]⟩
    | unpinning =>
        refine ⟨.unpinned ⟨true, fun _ => true, true⟩, trivial, ?_⟩
        simp [Daemon.next, Daemon.advance, htail]
    | returned => exact absurd htail hreturned

/-- The context is canceled, or the monitor has left its loop, for whatever reason. -/
def Daemon.Quits (d : Daemon) : Prop := d.proc.canceled = true ∨ d.mon.main.pastLoop = true

structure Leaving (d : Daemon) : Prop where
  joined : Joined d
  monitor : ∃ acts, Start.new.run acts = some d.mon
  quits : d.Quits

theorem Leaving.winds {n : Int64} {d : Daemon} (h : Leaving d) (hreturned : d.tail ≠ .returned) :
    ∃ a, DaemonAct.Winding a ∧ (d.next n a).isSome = true := by
  rcases h.quits with hcanceled | hpast
  · exact canceled_winds hcanceled hreturned
  · by_cases hcanceled : d.proc.canceled = true
    · exact canceled_winds hcanceled hreturned
    · by_cases hmain : ∃ err, d.mon.main = .returned err
      · -- `nil` would mean that the context is canceled.
        rcases hmain with ⟨err, hmain⟩
        rcases h.monitor with ⟨acts, hacts⟩
        cases err with
        | none =>
            have hcause := (run_explained hacts).result none (by rw [hmain]; rfl)
            exact absurd (h.joined.canceled.symm.trans hcause) hcanceled
        | some err => exact ⟨.monitorStops, trivial, by simp [Daemon.next, hmain, hcanceled]⟩
      · rcases h.joined.sound.winds (Or.inr hpast) hmain with ⟨a, hwinding, hsome⟩
        refine ⟨.monitor a, hwinding, ?_⟩
        cases a <;> simp_all [Daemon.next, StartAct.Winding]

/-- `run` has not passed its wait for the checker before the checker was gone. -/
structure Paced (cfg : GatewayConfig) (s : Process) : Prop where
  orderly : Orderly cfg s
  checker : s.run ≠ .serving → s.run ≠ .stopping → s.pc = .exited
  bypassed : s.run = .bypassed none → TornDown cfg s

theorem Paced.start (cfg : GatewayConfig) : Paced cfg (.start cfg) where
  orderly := Orderly.start cfg
  checker := fun h => absurd rfl h
  bypassed := nofun

-- Which actions move `run`; a checker that is gone stays away.
theorem next_places {n : Int64} {s t : Process} {a : Act} (h : s.next n a = some t) :
    (s.pc = .exited → t.pc = .exited) ∧
      (t.run = s.run ∨ t.run = .stopping ∨ a = .timeout ∨ t.run = .teardown ∧ s.pc = .exited ∨
        ∃ lookupOk updateOk, a = .runSets lookupOk updateOk ∧ s.run = .teardown) := by
  cases a with
  | ctxCheck =>
      rw [Process.next] at h
      split at h
      · rename_i err hpc
        split at h
        · cases h
          simp [hpc]
        · split at h
          · cases h
            simp [hpc]
          · cases h
            simp [hpc]
      · cases h
  | checkerSets lookupOk updateOk =>
      rw [Process.next] at h
      split at h
      · rename_i on hpc
        cases h
        simp [hpc]
      · cases h
  | cancel =>
      cases h
      exact ⟨id, Or.inl rfl⟩
  | timeout =>
      rcases Option.ite_none_right_eq_some.mp h with ⟨-, h⟩
      cases h
      exact ⟨id, Or.inr (Or.inr (Or.inl rfl))⟩
  | _ =>
      rcases Option.ite_none_right_eq_some.mp h with ⟨hcond, h⟩
      cases h
      simp_all

theorem Paced.next {n : Int64} {cfg : GatewayConfig} {s t : Process} {a : Act} (h : Paced cfg s)
    (ha : a ≠ .timeout) (hnext : s.next n a = some t) : Paced cfg t := by
  have horderly : Orderly cfg t := h.orderly.moves (next_moves hnext)
  rcases next_places hnext with
    ⟨hgone, hsame | hstop | htimeout | ⟨hteardown, hpc⟩ | ⟨lookupOk, updateOk, rfl, hteardown⟩⟩
  · refine ⟨horderly, fun hserving hstopping => hgone ?_, fun hbypassed => ?_⟩
    · rw [hsame] at hserving hstopping
      exact h.checker hserving hstopping
    · rw [hsame] at hbypassed
      exact (h.bypassed hbypassed).moves (next_moves hnext)
  · refine ⟨horderly, fun _ hstopping => absurd hstop hstopping, fun hbypassed => ?_⟩
    rw [hstop] at hbypassed
    cases hbypassed
  · exact absurd htimeout ha
  · refine ⟨horderly, fun _ _ => hgone hpc, fun hbypassed => ?_⟩
    rw [hteardown] at hbypassed
    cases hbypassed
  · have hpc : t.pc = .exited :=
      hgone (h.checker (by rw [hteardown]; decide) (by rw [hteardown]; decide))
    refine ⟨horderly, fun _ _ => hpc, fun hbypassed => ?_⟩
    have hafter := runSets_ok h.orderly hnext hbypassed
    exact ⟨hafter.1, hbypassed, by rw [hpc]; decide, hafter.2.2⟩

/-- Beside that, `run` has not passed its wait for the controller before that one was done. -/
structure InOrder (cfg : GatewayConfig) (pins : PinDir) (d : Daemon) : Prop where
  paced : Paced cfg d.proc
  controller : d.tail ≠ .awaiting → d.controller = .done ∧ ∃ serr, d.proc.run = .bypassed serr
  loader : d.loaderOpen = false ↔ d.tail = .unpinning ∨ d.tail = .returned
  pinned : d.tail ≠ .returned → d.pins = pins
  unpinned : d.tail = .returned → d.pins = none ∨
    ∃ entries left, pins = some entries ∧ d.pins = some left ∧ left <:+ entries

theorem InOrder.start (cfg : GatewayConfig) (pins : PinDir) :
    InOrder cfg pins (.start cfg pins) where
  paced := Paced.start cfg
  controller := fun h => absurd rfl h
  loader := by simp [Daemon.start]
  pinned := fun _ => rfl
  unpinned := nofun

section InOrder

variable {n : Int64} {cfg : GatewayConfig} {pins : PinDir} {d e : Daemon} (h : InOrder cfg pins d)

include h

theorem InOrder.cancel : InOrder cfg pins d.cancel := by
  refine ⟨?_, h.controller, h.loader, h.pinned, h.unpinned⟩
  have hnext : d.proc.next 0 .cancel = some d.cancel.proc := rfl
  exact h.paced.next (by decide) hnext

-- A controller that is not done keeps `run` waiting.
theorem InOrder.awaiting (hc : d.controller ≠ .done) : d.tail = .awaiting := by
  by_contra htail
  exact hc (h.controller htail).1

end InOrder

end DnsGateway.Cmd
