import DnsGateway.Health.Checker

/-!
# Shutting down beside a running health checker (`cmd/bpf-dns-gateway/main.go`)

`run` and the goroutine of `Checker.Run` share the lifecycle context and `config_map`.  Either may
be stopped between any two of its actions; a `SetBypass` is one action, as it holds `configMu`.
-/

namespace DnsGateway.Cmd

open DnsGateway.Reasoning DnsGateway.Bpf DnsGateway.Ebpf DnsGateway.Health

/-- Where the goroutine of `Checker.Run` stands. -/
inductive CheckerPc where
  | probing
  -- The query has returned; the context check comes next.
  | returned (err : Bool)
  -- The context check is passed; `SetBypass(on)` comes next.
  | setting (on : Bool)
  | waiting
  | exited
  deriving DecidableEq, Repr

/-- Where `run` stands in its steps 9 to 9b. -/
inductive RunPc where
  | serving
  | stopping
  | teardown
  -- `SetBypass(true)` has returned.
  | bypassed (serr : Option ConfigError)
  deriving DecidableEq, Repr

structure Process where
  canceled : Bool
  checker : Checker
  pc : CheckerPc
  run : RunPc
  config : GatewayConfig

inductive Act where
  | probeReturns (err : Bool)
  | ctxCheck
  | checkerSets (lookupOk updateOk : Bool)
  | ticker
  | exit
  | cancel
  | stop
  | done
  | timeout
  | runSets (lookupOk updateOk : Bool)
  deriving DecidableEq, Repr

/-- `Run` starts with a probe, beside what `PopulateConfig` wrote. -/
def Process.start (cfg : GatewayConfig) : Process where
  canceled := false
  checker := {}
  pc := .probing
  run := .serving
  config := cfg

/-- The process after an action, if the action is possible. -/
def Process.next (n : Int64) (s : Process) : Act → Option Process
  | .probeReturns err => if s.pc = .probing then some { s with pc := .returned err } else none
  | .ctxCheck =>
      match s.pc with
      | .returned err =>
          if s.canceled then some { s with pc := .waiting }
          else
            match plan n err s.checker with
            | (c, some on) => some { s with checker := c, pc := .setting on }
            | (c, none) => some { s with checker := c, pc := .waiting }
      | _ => none
  | .checkerSets lookupOk updateOk =>
      match s.pc with
      | .setting on =>
          some { s with
            checker := settle on (setBypass lookupOk updateOk on s.config).1 s.checker
            config := (setBypass lookupOk updateOk on s.config).2
            pc := .waiting }
      | _ => none
  -- A `select` may take the ticker also when the context is canceled.
  | .ticker => if s.pc = .waiting then some { s with pc := .probing } else none
  | .exit => if s.pc = .waiting ∧ s.canceled = true then some { s with pc := .exited } else none
  | .cancel => some { s with canceled := true }
  | .stop =>
      if s.run = .serving ∧ s.canceled = true then some { s with run := .stopping } else none
  | .done => if s.run = .stopping ∧ s.pc = .exited then some { s with run := .teardown } else none
  | .timeout => if s.run = .stopping then some { s with run := .teardown } else none
  | .runSets lookupOk updateOk =>
      if s.run = .teardown then
        some { s with
          config := (setBypass lookupOk updateOk true s.config).2
          run := .bypassed (setBypass lookupOk updateOk true s.config).1 }
      else none

def Process.steps (n : Int64) (s : Process) (acts : List Act) : Option Process :=
  acts.foldlM (Process.next n) s

theorem steps_cons {n : Int64} {s t : Process} {a : Act} (h : s.next n a = some t)
    (acts : List Act) : s.steps n (a :: acts) = t.steps n acts :=
  foldlM_cons_some h acts

/-! ## A probe in one go -/

theorem next_ctxCheck_live {n : Int64} {s : Process} {err : Bool} (hpc : s.pc = .returned err)
    (hlive : s.canceled = false) :
    s.next n .ctxCheck = some { s with
      checker := (plan n err s.checker).1
      pc := match (plan n err s.checker).2 with
        | some on => .setting on
        | none => .waiting } := by
  unfold Process.next
  rw [hpc]
  dsimp only
  rw [if_neg (by rw [hlive]; exact Bool.false_ne_true)]
  generalize plan n err s.checker = r
  rcases r with ⟨c, _ | on⟩ <;> rfl

theorem next_ctxCheck_canceled {n : Int64} {s : Process} {err : Bool} (hpc : s.pc = .returned err)
    (hcanceled : s.canceled = true) :
    s.next n .ctxCheck = some { s with pc := .waiting } := by
  unfold Process.next
  rw [hpc]
  exact if_pos hcanceled

theorem next_checkerSets {n : Int64} {s : Process} {on : Bool} (hpc : s.pc = .setting on)
    (lookupOk updateOk : Bool) :
    s.next n (.checkerSets lookupOk updateOk) = some { s with
      checker := settle on (setBypass lookupOk updateOk on s.config).1 s.checker
      config := (setBypass lookupOk updateOk on s.config).2
      pc := .waiting } := by
  unfold Process.next
  rw [hpc]

-- With no action of `run` in between, the checker's actions amount to `probeOnce`.
theorem steps_probeOnce (n : Int64) {s : Process} (hpc : s.pc = .probing) (p : Probe)
    (hcanceled : s.canceled = p.canceled) :
    ∃ acts, s.steps n acts = some { s with
      checker := (probeOnce n p s.checker s.config).checker
      config := (probeOnce n p s.checker s.config).config
      pc := .waiting } := by
  have hreturn : s.next n (.probeReturns p.err) = some { s with pc := .returned p.err } :=
    if_pos hpc
  cases hc : p.canceled with
  | true =>
      refine ⟨[.probeReturns p.err, .ctxCheck], ?_⟩
      have hprobe : probeOnce n p s.checker s.config = ⟨s.checker, s.config, none⟩ := if_pos hc
      have hcheck := next_ctxCheck_canceled (n := n)
        (show ({ s with pc := .returned p.err } : Process).pc = .returned p.err from rfl)
        (hcanceled.trans hc)
      rw [steps_cons hreturn, steps_cons hcheck, hprobe]
      rfl
  | false =>
      have hcheck := next_ctxCheck_live (n := n)
        (show ({ s with pc := .returned p.err } : Process).pc = .returned p.err from rfl)
        (hcanceled.trans hc)
      rw [probeOnce_eq n hc]
      cases hplan : (plan n p.err s.checker).2 with
      | none =>
          refine ⟨[.probeReturns p.err, .ctxCheck], ?_⟩
          rw [hplan] at hcheck
          rw [steps_cons hreturn, steps_cons hcheck]
          rfl
      | some on =>
          refine ⟨[.probeReturns p.err, .ctxCheck, .checkerSets p.lookupOk p.updateOk], ?_⟩
          rw [hplan] at hcheck
          rw [steps_cons hreturn, steps_cons hcheck]
          exact steps_cons (next_checkerSets rfl p.lookupOk p.updateOk) []

/-! ## What one action can do -/

structure Moves (s t : Process) : Prop where
  canceled : s.canceled = true → t.canceled = true
  -- `config_map` is only written by a pending `SetBypass`, and only in its bypass field.
  config : t.config = s.config ∨
    ∃ on, (s.pc = .setting on ∨ s.run = .teardown ∧ on = true) ∧
      t.config = { s.config with bypass := if on then 1 else 0 }
  setting : ∀ on, t.pc = .setting on → s.pc = .setting on ∨ s.canceled = false
  started : t.run ≠ .serving → s.run ≠ .serving ∨ s.canceled = true
  finished : ∀ serr, s.run = .bypassed serr → t.run = .bypassed serr

-- Behind the cancellation, with no `SetBypass(false)` pending, none comes up and the bypass is at
-- most set.
theorem Moves.quiet {s t : Process} (hm : Moves s t) (hcanceled : s.canceled = true)
    (hquiet : s.pc ≠ .setting false) :
    t.pc ≠ .setting false ∧
      (t.config = s.config ∨ t.config = { s.config with bypass := 1 }) := by
  constructor
  · intro hpc
    rcases hm.setting false hpc with hs | hs
    · exact hquiet hs
    · rw [hcanceled] at hs
      cases hs
  · rcases hm.config with hc | ⟨on, hby, hc⟩
    · exact Or.inl hc
    · have hon : on = true := by
        rcases hby with hpc | hrun
        · cases on with
          | true => rfl
          | false => exact absurd hpc hquiet
        · exact hrun.2
      rw [hon] at hc
      exact Or.inr hc

-- `config_map` behind a pending `SetBypass`.
theorem pending_setBypass {s : Process} {on : Bool} (lookupOk updateOk : Bool)
    (hon : s.pc = .setting on ∨ s.run = .teardown ∧ on = true) :
    (setBypass lookupOk updateOk on s.config).2 = s.config ∨
      ∃ on', (s.pc = .setting on' ∨ s.run = .teardown ∧ on' = true) ∧
        (setBypass lookupOk updateOk on s.config).2 =
          { s.config with bypass := if on' then 1 else 0 } := by
  rcases setBypass_cases lookupOk updateOk on s.config with ⟨-, hset⟩ | ⟨-, hset, -⟩
  · exact Or.inr ⟨on, hon, hset⟩
  · exact Or.inl hset

-- Actions that only move the checker to a place without a pending `SetBypass`.
theorem Moves.checker {s : Process} {c : Checker} {pc : CheckerPc} (hpc : ∀ on, pc ≠ .setting on) :
    Moves s { s with checker := c, pc := pc } where
  canceled := id
  config := Or.inl rfl
  setting := fun on h => absurd h (hpc on)
  started := Or.inl
  finished := fun _ => id

-- Actions that only move `run`.
theorem Moves.advance {s : Process} {pc : RunPc} (hstart : s.run ≠ .serving ∨ s.canceled = true)
    (hopen : ∀ serr, s.run ≠ .bypassed serr) : Moves s { s with run := pc } where
  canceled := id
  config := Or.inl rfl
  setting := fun _ => Or.inl
  started := fun _ => hstart
  finished := fun serr h => absurd h (hopen serr)

theorem next_moves {n : Int64} {s t : Process} {a : Act} (h : s.next n a = some t) : Moves s t := by
  cases a with
  | probeReturns err =>
      rcases Option.ite_none_right_eq_some.mp h with ⟨-, h⟩
      cases h
      exact Moves.checker (by intro on hn; cases hn)
  | ctxCheck =>
      have hnext := h
      rw [Process.next] at hnext
      split at hnext
      · rename_i err hpc
        cases hc : s.canceled with
        | true =>
            rw [next_ctxCheck_canceled hpc hc] at h
            cases h
            exact Moves.checker (by intro on hn; cases hn)
        | false =>
            rw [next_ctxCheck_live hpc hc] at h
            cases h
            exact ⟨id, Or.inl rfl, fun on _ => Or.inr hc, Or.inl, fun _ => id⟩
      · cases hnext
  | checkerSets lookupOk updateOk =>
      rw [Process.next] at h
      split at h
      · rename_i on hpc
        cases h
        constructor
        · exact id
        · exact pending_setBypass lookupOk updateOk (Or.inl hpc)
        · simp
        · exact Or.inl
        · exact fun _ => id
      · cases h
  | ticker =>
      rcases Option.ite_none_right_eq_some.mp h with ⟨-, h⟩
      cases h
      exact Moves.checker (by intro on hn; cases hn)
  | exit =>
      rcases Option.ite_none_right_eq_some.mp h with ⟨-, h⟩
      cases h
      exact Moves.checker (by intro on hn; cases hn)
  | cancel =>
      cases h
      exact ⟨fun _ => rfl, Or.inl rfl, fun _ => Or.inl, Or.inl, fun _ => id⟩
  | stop =>
      rcases Option.ite_none_right_eq_some.mp h with ⟨hcond, h⟩
      cases h
      apply Moves.advance (Or.inr hcond.2)
      simp [hcond.1]
  | done =>
      rcases Option.ite_none_right_eq_some.mp h with ⟨hcond, h⟩
      cases h
      apply Moves.advance
      · simp [hcond.1]
      · simp [hcond.1]
  | timeout =>
      rcases Option.ite_none_right_eq_some.mp h with ⟨hcond, h⟩
      cases h
      apply Moves.advance
      · simp [hcond]
      · simp [hcond]
  | runSets lookupOk updateOk =>
      rcases Option.ite_none_right_eq_some.mp h with ⟨hcond, h⟩
      cases h
      constructor
      · exact id
      · exact pending_setBypass lookupOk updateOk (Or.inr ⟨hcond, rfl⟩)
      · exact fun _ => Or.inl
      · simp [hcond]
      · simp [hcond]

-- One action counts at most one failed probe.
theorem next_probeFailures {n : Int64} {s t : Process} {a : Act} (h : s.next n a = some t) :
    t.checker.probeFailures = s.checker.probeFailures ∨
      t.checker.probeFailures = s.checker.probeFailures + 1 := by
  cases a with
  | ctxCheck =>
      have hnext := h
      rw [Process.next] at hnext
      split at hnext
      · rename_i err hpc
        cases hc : s.canceled with
        | true =>
            rw [next_ctxCheck_canceled hpc hc] at h
            cases h
            exact Or.inl rfl
        | false =>
            rw [next_ctxCheck_live hpc hc] at h
            cases h
            cases err with
            | true => exact Or.inr rfl
            | false => exact Or.inl rfl
      · cases hnext
  | checkerSets lookupOk updateOk =>
      rw [Process.next] at h
      split at h
      · cases h
        exact Or.inl (settle_counters _ _ s.checker).2
      · cases h
  | cancel =>
      cases h
      exact Or.inl rfl
  | _ =>
      rcases Option.ite_none_right_eq_some.mp h with ⟨-, h⟩
      cases h
      exact Or.inl rfl

theorem steps_probeFailures {n : Int64} {acts : List Act} {s t : Process}
    (h : s.steps n acts = some t)
    (hfits : s.checker.probeFailures.toNat + acts.length < 2 ^ 64) :
    s.checker.probeFailures.toNat ≤ t.checker.probeFailures.toNat ∧
      t.checker.probeFailures.toNat ≤ s.checker.probeFailures.toNat + acts.length := by
  induction acts generalizing s with
  | nil =>
      cases h
      exact ⟨le_rfl, le_rfl⟩
  | cons a acts ih =>
      rw [Process.steps, List.foldlM_cons] at h
      rcases Option.bind_eq_some_iff.mp h with ⟨u, hnext, hrest⟩
      rw [List.length_cons] at hfits ⊢
      have hone : u.checker.probeFailures.toNat = s.checker.probeFailures.toNat ∨
          u.checker.probeFailures.toNat = s.checker.probeFailures.toNat + 1 := by
        rcases next_probeFailures hnext with heq | heq
        · exact Or.inl (congrArg UInt64.toNat heq)
        · rw [heq, UInt64.toNat_add, UInt64.toNat_one, Nat.mod_eq_of_lt (by omega)]
          exact Or.inr rfl
      have hle := ih hrest (by omega)
      omega

/-! ## Up to the teardown -/

structure Orderly (cfg : GatewayConfig) (s : Process) : Prop where
  canceled : s.run ≠ .serving → s.canceled = true
  settings : s.config = { cfg with bypass := s.config.bypass }

theorem Orderly.start (cfg : GatewayConfig) : Orderly cfg (Process.start cfg) :=
  ⟨fun h => absurd rfl h, rfl⟩

theorem Orderly.moves {cfg : GatewayConfig} {s t : Process} (h : Orderly cfg s) (hm : Moves s t) :
    Orderly cfg t := by
  constructor
  · intro hrun
    apply hm.canceled
    rcases hm.started hrun with hs | hs
    · exact h.canceled hs
    · exact hs
  · rcases hm.config with hc | ⟨on, -, hc⟩
    · rw [hc]
      exact h.settings
    · rw [hc]
      dsimp only
      rw [h.settings]

theorem steps_orderly {n : Int64} {cfg : GatewayConfig} {acts : List Act} {s : Process}
    (h : (Process.start cfg).steps n acts = some s) : Orderly cfg s :=
  foldlM_invariant (fun _ _ _ hnext hs => Orderly.moves hs (next_moves hnext)) (Orderly.start cfg) h

/-! ## After the teardown -/

/-- `SetBypass(true)` has succeeded, and no `SetBypass(false)` is pending. -/
structure TornDown (cfg : GatewayConfig) (s : Process) : Prop where
  canceled : s.canceled = true
  run : s.run = .bypassed none
  quiet : s.pc ≠ .setting false
  config : s.config = { cfg with bypass := 1 }

theorem TornDown.moves {cfg : GatewayConfig} {s t : Process} (h : TornDown cfg s)
    (hm : Moves s t) : TornDown cfg t := by
  constructor
  · exact hm.canceled h.canceled
  · exact hm.finished none h.run
  · exact (hm.quiet h.canceled h.quiet).1
  · rcases (hm.quiet h.canceled h.quiet).2 with hc | hc
    · rw [hc]
      exact h.config
    · rw [hc, h.config]

theorem next_runSets {n : Int64} {s t : Process} {lookupOk updateOk : Bool}
    (h : s.next n (.runSets lookupOk updateOk) = some t) :
    s.run = .teardown ∧ t = { s with
      config := (setBypass lookupOk updateOk true s.config).2
      run := .bypassed (setBypass lookupOk updateOk true s.config).1 } := by
  rw [Process.next] at h
  split at h
  · rename_i hrun
    cases h
    exact ⟨hrun, rfl⟩
  · cases h

-- What a successful `SetBypass(true)` of `run` leaves.
theorem runSets_ok {n : Int64} {cfg : GatewayConfig} {s t : Process} {lookupOk updateOk : Bool}
    (hs : Orderly cfg s) (h : s.next n (.runSets lookupOk updateOk) = some t)
    (hok : t.run = .bypassed none) :
    t.canceled = true ∧ t.pc = s.pc ∧ t.config = { cfg with bypass := 1 } := by
  rcases next_runSets h with ⟨hrun, rfl⟩
  refine ⟨hs.canceled ?_, rfl, ?_⟩
  · rw [hrun]
    decide
  · have hnil := RunPc.bypassed.inj hok
    rcases setBypass_cases lookupOk updateOk true s.config with ⟨-, hset⟩ | ⟨⟨serr, herr⟩, -⟩
    · change (setBypass lookupOk updateOk true s.config).2 = _
      rw [hset, hs.settings]
      rfl
    · rw [herr] at hnil
      cases hnil

/-- The teardown bypass stays, with the settings that `PopulateConfig` wrote, over everything that
can happen after `run`'s `SetBypass(true)` has succeeded, if and only if the checker was not holding
a `SetBypass(false)` behind its context check at that moment. -/
theorem teardown_bypass_stays_iff {n : Int64} {cfg : GatewayConfig} {acts : List Act}
    {s t : Process} (lookupOk updateOk : Bool) (hs : (Process.start cfg).steps n acts = some s)
    (ht : s.next n (.runSets lookupOk updateOk) = some t) (hok : t.run = .bypassed none) :
    (∀ later u, t.steps n later = some u → u.config = { cfg with bypass := 1 }) ↔
      s.pc ≠ .setting false := by
  have hafter := runSets_ok (steps_orderly hs) ht hok
  constructor
  · intro hstays hpc
    have hnext := next_checkerSets (n := n) (hafter.2.1.trans hpc) true true
    have hlost := hstays [.checkerSets true true] _ (steps_cons hnext [])
    have hbit := congrArg GatewayConfig.bypass hlost
    cases hbit
  · intro hquiet later u hu
    have htorn : TornDown cfg t :=
      ⟨hafter.1, hok, fun hpc => hquiet (hafter.2.1.symm.trans hpc), hafter.2.2⟩
    have hstep : ∀ s a t, Process.next n s a = some t → TornDown cfg s → TornDown cfg t :=
      fun s a t hnext h => h.moves (next_moves hnext)
    exact (foldlM_invariant hstep htorn hu).config

/-- A shutdown that finds the checker gone. -/
theorem teardown_after_exit :
    ∃ t, (Process.start samplePopulated).steps 3 [.probeReturns false, .ctxCheck, .cancel, .exit,
        .stop, .done, .runSets true true] = some t ∧
      ∀ later u, t.steps 3 later = some u → u.config = { samplePopulated with bypass := 1 } := by
  have hs : (Process.start samplePopulated).steps 3 [.probeReturns false, .ctxCheck, .cancel, .exit,
      .stop, .done] = some
        { canceled := true, checker := {}, pc := .exited, run := .teardown,
          config := samplePopulated } := rfl
  refine ⟨_, rfl, ?_⟩
  exact (teardown_bypass_stays_iff true true hs rfl rfl).mpr (by decide)

/-- The checker is stopped between its context check and its `SetBypass(false)` for longer than
`run` waits; it then clears the bypass that `run` has set. -/
theorem teardown_bypass_lost :
    ∃ t u, (Process.start samplePopulated).steps 1 [.probeReturns true, .ctxCheck,
        .checkerSets true true, .ticker, .probeReturns false, .ctxCheck, .cancel, .stop, .timeout,
        .runSets true true] = some t ∧ t.run = .bypassed none ∧ t.config.bypass = 1 ∧
      t.steps 1 [.checkerSets true true] = some u ∧ u.config.bypass = 0 :=
  ⟨_, _, rfl, rfl, rfl, rfl, rfl⟩

end DnsGateway.Cmd
