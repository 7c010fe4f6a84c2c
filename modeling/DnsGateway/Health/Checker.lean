import Mathlib.Data.List.Chain
import Mathlib.Data.List.DropRight
import DnsGateway.Reasoning.Guards
import DnsGateway.Reasoning.History
import DnsGateway.Ebpf.Maps

/-!
# The health checker (`internal/health/checker.go`)

The checker counts consecutive probe failures and keeps the bypass bit of `config_map` and its own
copy of it in step, also when a `SetBypass` fails.
-/

namespace DnsGateway.Health

open DnsGateway.Reasoning DnsGateway.Bpf DnsGateway.Ebpf

/-- The fields of `Checker` that its probes change; `consecutiveFailures` is a Go `int`. -/
structure Checker where
  consecutiveFailures : Int64 := 0
  bypassActive : Bool := false
  probeFailures : UInt64 := 0

/-! ## `New` -/

/-- `Config`; the durations are in nanoseconds. -/
structure Config where
  resolverIP : NetIP
  probePort : Int64 := 0
  probeName : Dnsenc.GoString := []
  interval : Int64
  timeout : Int64
  failureThreshold : Int64

/-- The errors of `New`. -/
inductive NewError where
  | bypassSetter
  | resolverIP
  | interval
  | timeout
  | failureThreshold
  | probePort (port : Int64)
  deriving DecidableEq, Repr

def NewError.format : NewError → String
  | bypassSetter => "BypassSetter is required"
  | resolverIP => "ResolverIP must be IPv4"
  | interval => "Interval must be > 0"
  | timeout => "Timeout must be > 0"
  | failureThreshold => "FailureThreshold must be >= 1"
  | probePort _ => "ProbePort %d out of range (want 1..65535)"

/-- `New`: the configuration with its defaults, and the checker.  Whether there is a `BypassSetter`
is the parameter `bypass`; a `nil` address has no bytes. -/
def new (cfg : Config) (bypass : Bool) : Except NewError (Config × Checker) := do
  refuse (bypass = false) .bypassSetter
  refuse (cfg.resolverIP = [] ∨ to4 cfg.resolverIP = none) .resolverIP
  refuse (cfg.interval ≤ 0) .interval
  refuse (cfg.timeout ≤ 0) .timeout
  refuse (cfg.failureThreshold < 1) .failureThreshold
  refuse (cfg.probePort < 0 ∨ cfg.probePort > 65535) (.probePort cfg.probePort)
  return ({ cfg with
    probeName := if cfg.probeName = [] then Dnsenc.goText "amazon.com." else cfg.probeName
    probePort := if cfg.probePort = 0 then 53 else cfg.probePort }, {})

theorem new_ok_iff {cfg : Config} {bypass : Bool} :
    (∃ checker, new cfg bypass = .ok checker) ↔
      bypass = true ∧ (∃ v4, to4 cfg.resolverIP = some v4) ∧ 0 < cfg.interval ∧ 0 < cfg.timeout ∧
        1 ≤ cfg.failureThreshold ∧ 0 ≤ cfg.probePort ∧ cfg.probePort ≤ 65535 := by
  unfold new
  simp only [guard_bind_eq_ok, refuse_eq_ok, exists_and_left, not_or, Bool.not_eq_false,
    Int64.not_le, Int64.not_lt, gt_iff_lt, ← Option.ne_none_iff_exists']
  have hsome : to4 cfg.resolverIP ≠ none → cfg.resolverIP ≠ [] := by
    intro h4 hnil
    rw [hnil] at h4
    exact h4 rfl
  constructor
  · rintro ⟨hbypass, ⟨-, h4⟩, hinterval, htimeout, hthreshold, hport, -⟩
    exact ⟨hbypass, h4, hinterval, htimeout, hthreshold, hport⟩
  · rintro ⟨hbypass, h4, hinterval, htimeout, hthreshold, hport⟩
    exact ⟨hbypass, ⟨hsome h4, h4⟩, hinterval, htimeout, hthreshold, hport, _, rfl⟩

/-! ## `probeOnce` -/

/-- What a call of `probeOnce` meets: the error of the query, the state of the context behind it,
and the answers of the map operations of `SetBypass`. -/
structure Probe where
  err : Bool
  canceled : Bool := false
  lookupOk : Bool := true
  updateOk : Bool := true

/-- The checker and `config_map` after the call, and the `SetBypass` call it made with the error
that one returned. -/
structure Probed where
  checker : Checker
  config : GatewayConfig
  call : Option (Bool × Option ConfigError)

def probeOnce (failureThreshold : Int64) (p : Probe) (c : Checker) (m : GatewayConfig) : Probed :=
  if p.canceled then ⟨c, m, none⟩
  else if p.err then
    let c := { c with
      probeFailures := c.probeFailures + 1
      consecutiveFailures := c.consecutiveFailures + 1 }
    if c.consecutiveFailures ≥ failureThreshold ∧ c.bypassActive = false then
      match setBypass p.lookupOk p.updateOk true m with
      | (some serr, m) => ⟨c, m, some (true, some serr)⟩
      | (none, m) => ⟨{ c with bypassActive := true }, m, some (true, none)⟩
    else ⟨c, m, none⟩
  else
    let c := { c with consecutiveFailures := 0 }
    if c.bypassActive then
      match setBypass p.lookupOk p.updateOk false m with
      | (some serr, m) => ⟨c, m, some (false, some serr)⟩
      | (none, m) => ⟨{ c with bypassActive := false }, m, some (false, none)⟩
    else ⟨c, m, none⟩

/-! ## The three parts of a probe -/

/-- Between the context check and `SetBypass`: the counters, and the call to make. -/
def plan (failureThreshold : Int64) (err : Bool) (c : Checker) : Checker × Option Bool :=
  if err then
    ({ c with
        probeFailures := c.probeFailures + 1
        consecutiveFailures := c.consecutiveFailures + 1 },
      if c.consecutiveFailures + 1 ≥ failureThreshold ∧ c.bypassActive = false then some true
      else none)
  else ({ c with consecutiveFailures := 0 }, if c.bypassActive then some false else none)

/-- Behind `SetBypass`: the copy of the bit. -/
def settle (on : Bool) (serr : Option ConfigError) (c : Checker) : Checker :=
  if serr.isNone then { c with bypassActive := on } else c

theorem probeOnce_eq (n : Int64) {p : Probe} (hlive : p.canceled = false) (c : Checker)
    (m : GatewayConfig) :
    probeOnce n p c m =
      match (plan n p.err c).2 with
      | none => ⟨(plan n p.err c).1, m, none⟩
      | some on =>
          ⟨settle on (setBypass p.lookupOk p.updateOk on m).1 (plan n p.err c).1,
            (setBypass p.lookupOk p.updateOk on m).2,
            some (on, (setBypass p.lookupOk p.updateOk on m).1)⟩ := by
  unfold probeOnce plan
  rw [if_neg (by rw [hlive]; exact Bool.false_ne_true)]
  cases p.err with
  | true =>
      dsimp only
      rw [if_pos rfl, if_pos rfl]
      dsimp only
      split
      · dsimp only
        generalize setBypass p.lookupOk p.updateOk true m = r
        rcases r with ⟨_ | serr, m'⟩ <;> rfl
      · rfl
  | false =>
      rw [if_neg Bool.false_ne_true, if_neg Bool.false_ne_true]
      dsimp only
      split
      · dsimp only
        generalize setBypass p.lookupOk p.updateOk false m = r
        rcases r with ⟨_ | serr, m'⟩ <;> rfl
      · rfl

theorem plan_bypassActive (n : Int64) (err : Bool) (c : Checker) :
    (plan n err c).1.bypassActive = c.bypassActive := by
  unfold plan
  split <;> rfl

-- The bit is only ever turned: on behind a failure, off behind a success.
theorem plan_call {n : Int64} {err : Bool} {c : Checker} {on : Bool}
    (h : (plan n err c).2 = some on) :
    on = err ∧ c.bypassActive = !on ∧ (on = true → n ≤ c.consecutiveFailures + 1) := by
  unfold plan at h
  cases err with
  | true =>
      rw [if_pos rfl] at h
      dsimp only at h
      split at h
      · rename_i hcond
        cases h
        exact ⟨rfl, hcond.2, fun _ => hcond.1⟩
      · cases h
  | false =>
      rw [if_neg Bool.false_ne_true] at h
      dsimp only at h
      split at h
      · rename_i hactive
        cases h
        exact ⟨rfl, hactive, fun hn => absurd hn Bool.false_ne_true⟩
      · cases h

-- A `SetBypass` that errs changes nothing; the others change one field.
theorem setBypass_cases (lookupOk updateOk on : Bool) (m : GatewayConfig) :
    (setBypass lookupOk updateOk on m).1 = none ∧
        (setBypass lookupOk updateOk on m).2 = { m with bypass := if on then 1 else 0 } ∨
      (∃ serr, (setBypass lookupOk updateOk on m).1 = some serr) ∧
        (setBypass lookupOk updateOk on m).2 = m ∧ ¬ (lookupOk = true ∧ updateOk = true) := by
  cases lookupOk with
  | false => exact Or.inr ⟨⟨_, rfl⟩, rfl, fun h => Bool.false_ne_true h.1⟩
  | true =>
      cases updateOk with
      | false => exact Or.inr ⟨⟨_, rfl⟩, rfl, fun h => Bool.false_ne_true h.2⟩
      | true => exact Or.inl ⟨rfl, rfl⟩

/-! ## Sequences of probes -/

/-- The checker and the map it writes. -/
structure Watch where
  checker : Checker
  config : GatewayConfig

/-- A fresh checker beside what `PopulateConfig` wrote. -/
def Watch.start (cfg : GatewayConfig) : Watch := ⟨{}, cfg⟩

def Watch.probe (n : Int64) (s : Watch) (p : Probe) : Watch :=
  ⟨(probeOnce n p s.checker s.config).checker, (probeOnce n p s.checker s.config).config⟩

-- The successful `SetBypass` of a probe, if there is one.
def Watch.write (n : Int64) (s : Watch) (p : Probe) : List Bool :=
  match (probeOnce n p s.checker s.config).call with
  | some (on, none) => [on]
  | _ => []

def Watch.run (n : Int64) (s : Watch) (probes : List Probe) : Watch :=
  probes.foldl (Watch.probe n) s

/-- The values written to the bit, in order. -/
def Watch.writes (n : Int64) (s : Watch) (probes : List Probe) : List Bool :=
  logFrom (Watch.probe n) (Watch.write n) s probes

/-- The number of consecutive failures at the end of the sequence. -/
def failuresAtEnd (probes : List Probe) : Nat := (probes.rtakeWhile (·.err)).length

theorem failuresAtEnd_snoc (probes : List Probe) (p : Probe) :
    failuresAtEnd (probes ++ [p]) = if p.err then failuresAtEnd probes + 1 else 0 := by
  rw [failuresAtEnd, List.rtakeWhile_concat]
  split
  · rw [List.length_append]
    rfl
  · rfl

theorem ofNat_succ (f : Nat) : Int64.ofNat (f + 1) = Int64.ofNat f + 1 := Int64.ofNat_add f 1

-- The wrapped counter never exceeds the count.
theorem le_of_le_ofNat {n : Int64} {f : Nat} (h : n ≤ Int64.ofNat f) : n.toInt ≤ f := by
  rw [Int64.le_iff_toInt_le, Int64.toInt_ofNat', Int.bmod_def,
    show (Int64.size : Int) = 2 ^ 64 from rfl] at h
  split at h <;> omega

theorem le_ofNat_of_le {n : Int64} {f : Nat} (h : n.toInt ≤ f) (hf : f < 2 ^ 63) :
    n ≤ Int64.ofNat f := by
  rw [Int64.le_iff_toInt_le, Int64.toInt_ofNat_of_lt hf]
  exact h

structure Watches (n : Int64) (s : Watch) (probes : List Probe) (ws : List Bool) : Prop where
  failures : s.checker.consecutiveFailures = Int64.ofNat (failuresAtEnd probes)
  total : s.checker.probeFailures = UInt64.ofNat (probes.countP (·.err))
  bit : s.config.bypass = if s.checker.bypassActive then 1 else 0
  alternate : List.IsChain (· ≠ ·) (false :: ws)
  last : (false :: ws).getLast? = some s.checker.bypassActive
  -- Without write errors the bit is never late.
  prompt : (∀ p ∈ probes, p.lookupOk = true ∧ p.updateOk = true) →
    (s.checker.bypassActive = true ↔ n.toInt ≤ failuresAtEnd probes)

theorem Watches.start {n : Int64} (hn : 1 ≤ n) {cfg : GatewayConfig} (hcfg : cfg.bypass = 0) :
    Watches n (Watch.start cfg) [] [] := by
  have hpos : (1 : Int) ≤ n.toInt := Int64.le_iff_toInt_le.mp hn
  constructor
  · rfl
  · rfl
  · exact hcfg
  · exact List.isChain_singleton _
  · rfl
  · intro _
    constructor
    · intro h
      cases h
    · intro h
      change n.toInt ≤ 0 at h
      omega

-- The counters do not depend on the `SetBypass` call.
theorem plan_counters {n : Int64} {c : Checker} {probes : List Probe} {p : Probe}
    (hfailures : c.consecutiveFailures = Int64.ofNat (failuresAtEnd probes))
    (htotal : c.probeFailures = UInt64.ofNat (probes.countP (·.err))) :
    (plan n p.err c).1.consecutiveFailures = Int64.ofNat (failuresAtEnd (probes ++ [p])) ∧
      (plan n p.err c).1.probeFailures = UInt64.ofNat ((probes ++ [p]).countP (·.err)) := by
  rw [failuresAtEnd_snoc, List.countP_append, List.countP_singleton]
  unfold plan
  split
  · rename_i herr
    dsimp only
    rw [hfailures, htotal, ofNat_succ, UInt64.ofNat_add]
    exact ⟨rfl, rfl⟩
  · dsimp only
    rw [htotal]
    exact ⟨rfl, rfl⟩

theorem settle_counters (on : Bool) (serr : Option ConfigError) (c : Checker) :
    (settle on serr c).consecutiveFailures = c.consecutiveFailures ∧
      (settle on serr c).probeFailures = c.probeFailures := by
  unfold settle
  split <;> exact ⟨rfl, rfl⟩

-- Whether the bit should be on, before and after a probe that makes no call.
theorem plan_none_prompt {n : Int64} (hn : 1 ≤ n) {c : Checker} {probes : List Probe} {p : Probe}
    (hfailures : c.consecutiveFailures = Int64.ofNat (failuresAtEnd probes))
    (hprompt : c.bypassActive = true ↔ n.toInt ≤ failuresAtEnd probes)
    (hnone : (plan n p.err c).2 = none) :
    c.bypassActive = true ↔ n.toInt ≤ failuresAtEnd (probes ++ [p]) := by
  have hpos : (1 : Int) ≤ n.toInt := Int64.le_iff_toInt_le.mp hn
  have hlt := n.toInt_lt
  rw [failuresAtEnd_snoc]
  unfold plan at hnone
  cases herr : p.err with
  | true =>
      rw [herr, if_pos rfl] at hnone
      rw [if_pos rfl]
      dsimp only at hnone
      split at hnone
      · cases hnone
      · rename_i hcond
        constructor
        · intro hactive
          have := hprompt.mp hactive
          omega
        · intro hle
          by_contra hactive
          have hbelow : ¬ n.toInt ≤ failuresAtEnd probes := fun h => hactive (hprompt.mpr h)
          apply hcond
          refine ⟨?_, Bool.eq_false_iff.mpr hactive⟩
          rw [hfailures, ← ofNat_succ]
          exact le_ofNat_of_le hle (by omega)
  | false =>
      rw [herr, if_neg Bool.false_ne_true] at hnone
      rw [if_neg Bool.false_ne_true]
      dsimp only at hnone
      split at hnone
      · cases hnone
      · rename_i hactive
        constructor
        · intro h
          exact absurd h hactive
        · intro h
          change n.toInt ≤ 0 at h
          omega

-- A successful write turns the bit, so it differs from the write before it.
theorem Watches.turned {n : Int64} {s : Watch} {probes : List Probe} {ws : List Bool}
    (h : Watches n s probes ws) {on : Bool} (hold : s.checker.bypassActive = !on) :
    List.IsChain (· ≠ ·) (false :: (ws ++ [on])) ∧
      (false :: (ws ++ [on])).getLast? = some on := by
  rw [← List.cons_append]
  constructor
  · apply h.alternate.append (List.isChain_singleton on)
    intro x hx y hy
    rw [h.last, Option.mem_some_iff, hold] at hx
    rw [List.head?_cons, Option.mem_some_iff] at hy
    rw [← hx, ← hy]
    exact Bool.not_ne_self on
  · exact List.getLast?_concat

section Step

variable {n : Int64} {s : Watch} {probes : List Probe} {ws : List Bool} {p : Probe}

theorem Watches.prompt_before (h : Watches n s probes ws)
    (hok : ∀ q ∈ probes ++ [p], q.lookupOk = true ∧ q.updateOk = true) :
    (s.checker.bypassActive = true ↔ n.toInt ≤ failuresAtEnd probes) ∧
      p.lookupOk = true ∧ p.updateOk = true := by
  constructor
  · apply h.prompt
    intro q hq
    exact hok q (List.mem_append_left _ hq)
  · exact hok p (List.mem_append_right _ List.mem_cons_self)

-- A probe that makes no call.
theorem Watches.idle (hn : 1 ≤ n) (h : Watches n s probes ws) (hlive : p.canceled = false)
    (hplan : (plan n p.err s.checker).2 = none) :
    Watches n (s.probe n p) (probes ++ [p]) (ws ++ s.write n p) := by
  have hcounters := plan_counters (n := n) (p := p) h.failures h.total
  have hprobe : probeOnce n p s.checker s.config =
      ⟨(plan n p.err s.checker).1, s.config, none⟩ := by
    rw [probeOnce_eq n hlive, hplan]
  rw [Watch.probe, Watch.write, hprobe]
  dsimp only
  rw [List.append_nil]
  constructor
  · exact hcounters.1
  · exact hcounters.2
  · rw [plan_bypassActive]
    exact h.bit
  · exact h.alternate
  · rw [plan_bypassActive]
    exact h.last
  · intro hok
    rw [plan_bypassActive]
    exact plan_none_prompt hn h.failures (h.prompt_before hok).1 hplan

-- A probe whose `SetBypass` succeeds.
theorem Watches.turn (hn : 1 ≤ n) (h : Watches n s probes ws) (hlive : p.canceled = false)
    {on : Bool} (hplan : (plan n p.err s.checker).2 = some on)
    (hnil : (setBypass p.lookupOk p.updateOk on s.config).1 = none)
    (hset : (setBypass p.lookupOk p.updateOk on s.config).2 =
      { s.config with bypass := if on then 1 else 0 }) :
    Watches n (s.probe n p) (probes ++ [p]) (ws ++ s.write n p) := by
  have hpos : (1 : Int) ≤ n.toInt := Int64.le_iff_toInt_le.mp hn
  have hcounters := plan_counters (n := n) (p := p) h.failures h.total
  have hcall := plan_call hplan
  have hturned := h.turned hcall.2.1
  have hsettle := settle_counters on none (plan n p.err s.checker).1
  have hprobe := probeOnce_eq n hlive s.checker s.config
  rw [hplan] at hprobe
  dsimp only at hprobe
  rw [hnil, hset] at hprobe
  rw [Watch.probe, Watch.write, hprobe]
  dsimp only
  constructor
  · rw [hsettle.1]
    exact hcounters.1
  · rw [hsettle.2]
    exact hcounters.2
  · rfl
  · exact hturned.1
  · exact hturned.2
  · intro _
    change on = true ↔ _
    rw [failuresAtEnd_snoc, ← hcall.1]
    cases on with
    | true =>
        have hle := hcall.2.2 rfl
        rw [h.failures, ← ofNat_succ] at hle
        exact ⟨fun _ => le_of_le_ofNat hle, fun _ => rfl⟩
    | false =>
        constructor
        · intro hfalse
          cases hfalse
        · intro hle
          change n.toInt ≤ 0 at hle
          omega

-- A probe whose `SetBypass` errs: it will be tried again.
theorem Watches.stuck (h : Watches n s probes ws) (hlive : p.canceled = false) {on : Bool}
    (hplan : (plan n p.err s.checker).2 = some on) {serr : ConfigError}
    (herr : (setBypass p.lookupOk p.updateOk on s.config).1 = some serr)
    (hset : (setBypass p.lookupOk p.updateOk on s.config).2 = s.config)
    (hfail : ¬ (p.lookupOk = true ∧ p.updateOk = true)) :
    Watches n (s.probe n p) (probes ++ [p]) (ws ++ s.write n p) := by
  have hcounters := plan_counters (n := n) (p := p) h.failures h.total
  have hsettle := settle_counters on (some serr) (plan n p.err s.checker).1
  have hkeep : (settle on (some serr) (plan n p.err s.checker).1).bypassActive =
      s.checker.bypassActive := plan_bypassActive n p.err s.checker
  have hprobe := probeOnce_eq n hlive s.checker s.config
  rw [hplan] at hprobe
  dsimp only at hprobe
  rw [herr, hset] at hprobe
  rw [Watch.probe, Watch.write, hprobe]
  dsimp only
  rw [List.append_nil]
  constructor
  · rw [hsettle.1]
    exact hcounters.1
  · rw [hsettle.2]
    exact hcounters.2
  · rw [hkeep]
    exact h.bit
  · exact h.alternate
  · rw [hkeep]
    exact h.last
  · intro hok
    exact absurd (h.prompt_before hok).2 hfail

theorem Watches.step (hn : 1 ≤ n) (h : Watches n s probes ws) (hlive : p.canceled = false) :
    Watches n (s.probe n p) (probes ++ [p]) (ws ++ s.write n p) := by
  cases hplan : (plan n p.err s.checker).2 with
  | none => exact h.idle hn hlive hplan
  | some on =>
      rcases setBypass_cases p.lookupOk p.updateOk on s.config with
        ⟨hnil, hset⟩ | ⟨⟨serr, herr⟩, hset, hfail⟩
      · exact h.turn hn hlive hplan hnil hset
      · exact h.stuck hlive hplan herr hset hfail

end Step

theorem Watch.run_watches {n : Int64} (hn : 1 ≤ n) {cfg : GatewayConfig} (hcfg : cfg.bypass = 0)
    {probes : List Probe} (hlive : ∀ p ∈ probes, p.canceled = false) :
    Watches n ((Watch.start cfg).run n probes) probes ((Watch.start cfg).writes n probes) := by
  have hstep : ∀ s past ws p, Probe.canceled p = false → Watches n s past ws →
      Watches n (s.probe n p) (past ++ [p]) (ws ++ s.write n p) :=
    fun s past ws p hp h => h.step hn hp
  exact foldl_history_invariant hstep [] (Watches.start hn hcfg) hlive

theorem plan_of_write {n : Int64} {s : Watch} {p : Probe} (hlive : p.canceled = false) {on : Bool}
    (h : s.write n p = [on]) : (plan n p.err s.checker).2 = some on := by
  rw [Watch.write, probeOnce_eq n hlive] at h
  cases hplan : (plan n p.err s.checker).2 with
  | none =>
      rw [hplan] at h
      cases h
  | some on' =>
      rw [hplan] at h
      dsimp only at h
      split at h
      · rename_i on'' hcall
        rw [Option.some.injEq, Prod.mk.injEq] at hcall
        cases h
        rw [hcall.1]
      · cases h

/-- Over every sequence of probes, with `SetBypass` failing at will: the checker's copy of the bit
is right; the bit is turned on only behind `n` failures in a row and off only behind a success, and
never written twice with one value; the failures are counted (modulo the width of the counter); and
without write errors the bit is on exactly behind `n` failures. -/
theorem checker_keeps_bypass (n : Int64) (hn : 1 ≤ n) (cfg : GatewayConfig)
    (hcfg : cfg.bypass = 0) (probes : List Probe) (hlive : ∀ p ∈ probes, p.canceled = false) :
    let s := (Watch.start cfg).run n probes
    s.config.bypass = (if s.checker.bypassActive then 1 else 0) ∧
    (∀ before p after, probes = before ++ p :: after →
      let w := ((Watch.start cfg).run n before).write n p
      (w = [true] → n.toInt ≤ failuresAtEnd (before ++ [p])) ∧ (w = [false] → p.err = false)) ∧
    List.IsChain (· ≠ ·) (false :: (Watch.start cfg).writes n probes) ∧
    s.checker.probeFailures.toNat = probes.countP (·.err) % 2 ^ 64 ∧
    ((∀ p ∈ probes, p.lookupOk = true ∧ p.updateOk = true) →
      (s.config.bypass = 1 ↔ n.toInt ≤ failuresAtEnd probes)) := by
  intro s
  have h := Watch.run_watches hn hcfg hlive
  refine ⟨h.bit, ?_, h.alternate, ?_, ?_⟩
  · intro before p after hsplit
    have hbefore : ∀ q ∈ before, q.canceled = false := by
      intro q hq
      apply hlive
      rw [hsplit]
      exact List.mem_append_left _ hq
    have hp : p.canceled = false := by
      apply hlive
      rw [hsplit]
      exact List.mem_append_right _ List.mem_cons_self
    have hb := Watch.run_watches hn hcfg hbefore
    constructor
    · intro hw
      have hcall := plan_call (plan_of_write hp hw)
      have hle := hcall.2.2 rfl
      rw [hb.failures, ← ofNat_succ] at hle
      rw [failuresAtEnd_snoc, ← hcall.1]
      exact le_of_le_ofNat hle
    · intro hw
      exact (plan_call (plan_of_write hp hw)).1.symm
  · rw [h.total]
    exact UInt64.toNat_ofNat'
  · intro hok
    rw [← h.prompt hok, h.bit]
    cases s.checker.bypassActive with
    | true => exact ⟨fun _ => rfl, fun _ => rfl⟩
    | false => decide

/-- `config_map` as `PopulateConfig` leaves it for CoreDNS at 10.96.0.10 and the host resolver at
10.0.0.2. -/
def samplePopulated : GatewayConfig :=
  (populateConfig true { corednsIP := [10, 96, 0, 10], hostResolverIP := [10, 0, 0, 2] }
    ⟨0, 0, 0, 0, 0⟩).2

/-- Three failures in a row reach a threshold of three. -/
theorem third_failure_bypasses :
    ((Watch.start samplePopulated).run 3
      [{ err := true }, { err := true }, { err := true }]).config.bypass = 1 := by
  have h := checker_keeps_bypass 3 (by decide) samplePopulated rfl
    [{ err := true }, { err := true }, { err := true }] (by
      intro p hp
      simp only [List.mem_cons, List.not_mem_nil, or_false, or_self] at hp
      rw [hp])
  exact (h.2.2.2.2 (by
    intro p hp
    simp only [List.mem_cons, List.not_mem_nil, or_false, or_self] at hp
    rw [hp]
    exact ⟨rfl, rfl⟩)).mpr (by decide)

end DnsGateway.Health
