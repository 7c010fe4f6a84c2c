import DnsGateway.Reasoning.Guards
import DnsGateway.Ebpf.Maps

/-!
# The configuration file (`internal/config/config.go`)

`Parse` fills in the defaults and validates.  It starts here from the value that the YAML decoder
has built, and `net.ParseIP`, `net.SplitHostPort` and `strconv.Atoi` are parameters.
-/

namespace DnsGateway

open Reasoning Dnsenc Ebpf

namespace Config

/-! ## The schema -/

/-- `time.Duration`, in nanoseconds. -/
abbrev Duration := Int64

def second : Duration := 1000000000

def actionHostResolve : GoString := goText "host-resolve"
def actionClusterResolve : GoString := goText "cluster-resolve"

def defaultMetricsAddr : GoString := goText ":9153"
def defaultHealthCheckInterval : Duration := 5 * second
def defaultHealthCheckTimeout : Duration := 2 * second
def defaultHealthCheckThreshold : Int64 := 3
def defaultLogLevel : GoString := goText "info"
def defaultDefaultAction : GoString := actionClusterResolve

structure Rule where
  pattern : GoString
  action : GoString
  deriving DecidableEq, Repr

/-- `HealthCheck`; an omitted field is `none`. -/
structure HealthCheck where
  interval : Option Duration := none
  timeout : Option Duration := none
  failureThreshold : Option Int64 := none

end Config

structure Config where
  corednsServiceIP : GoString
  hostResolverIP : GoString
  defaultAction : GoString := []
  rules : List Config.Rule
  metricsAddr : GoString := []
  healthCheck : Config.HealthCheck := {}
  logLevel : GoString := []

namespace Config

def healthCheckInterval (c : Config) : Duration :=
  c.healthCheck.interval.getD defaultHealthCheckInterval

def healthCheckTimeout (c : Config) : Duration :=
  c.healthCheck.timeout.getD defaultHealthCheckTimeout

def healthCheckThreshold (c : Config) : Int64 :=
  c.healthCheck.failureThreshold.getD defaultHealthCheckThreshold

/-- `applyDefaults`; the defaults of `HealthCheck` are those of the accessors. -/
def applyDefaults (c : Config) : Config :=
  { c with
    metricsAddr := if c.metricsAddr = [] then defaultMetricsAddr else c.metricsAddr
    logLevel := if c.logLevel = [] then defaultLogLevel else c.logLevel
    defaultAction := if c.defaultAction = [] then defaultDefaultAction else c.defaultAction }

/-! ## Errors -/

/-- The fields that hold an address. -/
inductive IPField where
  | corednsServiceIP
  | hostResolverIP
  deriving DecidableEq, Repr

def IPField.name : IPField → String
  | corednsServiceIP => "corednsServiceIP"
  | hostResolverIP => "hostResolverIP"

/-- The errors of `validateIPv4`; the arguments of the text are the name of the field and its
value. -/
inductive IPError where
  | notIP
  | notIPv4
  | loopback
  | unspecified
  | multicast
  deriving DecidableEq, Repr

def IPError.format : IPError → String
  | notIP => "%s: %q is not a valid IP"
  | notIPv4 => "%s: %q is not IPv4"
  | loopback => "%s: %q is a loopback address; use the VPC DNS resolver IP " ++
      "(e.g. VPC CIDR base + 2)"
  | unspecified => "%s: %q is the unspecified address"
  | multicast => "%s: %q is a multicast address"

/-- The errors of `validateRule`. -/
inductive RuleError where
  | emptyPattern
  | notWildcard (pattern : GoString)
  | interiorWildcard (pattern : GoString)
  | emptySuffix (pattern : GoString)
  | emptyLabel (pattern : GoString)
  | longLabel (pattern label : GoString)
  | emptyAction (pattern : GoString)
  | unsupportedAction (pattern action : GoString)
  deriving DecidableEq, Repr

def RuleError.format : RuleError → String
  | emptyPattern => "pattern is empty"
  | notWildcard _ => "pattern %q must start with *. (exact match unsupported in MVP)"
  | interiorWildcard _ => "pattern %q has interior wildcard; only leading *.suffix is supported"
  | emptySuffix _ => "pattern %q has empty suffix"
  | emptyLabel _ => "pattern %q has empty label"
  | longLabel _ _ => "pattern %q has label %q exceeding 63 bytes"
  | emptyAction _ => "pattern %q action is empty"
  | unsupportedAction _ _ =>
      "pattern %q has unsupported action %q (want host-resolve|cluster-resolve)"

/-- The errors of `validateMetricsAddr`. -/
inductive AddrError where
  | empty
  | split (addr err : GoString)
  | emptyPort (addr : GoString)
  | notNumeric (addr port : GoString)
  | outOfRange (addr : GoString) (port : Int64)
  deriving DecidableEq, Repr

def AddrError.format : AddrError → String
  | empty => "metricsAddr is empty"
  | split _ _ => "metricsAddr %q: %w"
  | emptyPort _ => "metricsAddr %q: empty port"
  | notNumeric _ _ => "metricsAddr %q: port %q is not numeric"
  | outOfRange _ _ => "metricsAddr %q: port %d out of range (want 1..65535)"

/-- The errors of `Validate`. -/
inductive ValidateError where
  | required (field : IPField)
  | ip (field : IPField) (s : GoString) (err : IPError)
  | defaultAction (action : GoString)
  | noRules
  | rule (i : Nat) (err : RuleError)
  | noOp (defaultAction : GoString)
  | metricsAddr (err : AddrError)
  | interval (d : Duration)
  | timeout (d : Duration)
  | timeoutNotBelow (timeout interval : Duration)
  | failureThreshold (n : Int64)
  | logLevel (s : GoString)
  deriving DecidableEq, Repr

def hostResolveHint (defaultAction : GoString) : String :=
  if defaultAction = actionHostResolve then
    "; without a cluster-resolve rule for *.cluster.local and *.in-addr.arpa, " ++
      "cluster service discovery would be sent to the VPC resolver"
  else ""

def ValidateError.format : ValidateError → String
  | required .corednsServiceIP => "corednsServiceIP is required"
  | required .hostResolverIP =>
      "hostResolverIP is required (no /etc/resolv.conf auto-detect; nodes running " ++
        "systemd-resolved expose 127.0.0.53 which is unusable)"
  | ip _ _ err => err.format
  | defaultAction _ => "invalid defaultAction %q (want cluster-resolve|host-resolve)"
  | noRules => "at least one rule is required"
  | rule _ _ => "rules[%d]: %w"
  | noOp a => "at least one rule must have an action different from defaultAction %q " ++
      "(otherwise the config is a no-op" ++ hostResolveHint a ++ ")"
  | metricsAddr err => err.format
  | interval _ => "healthCheck.interval must be > 0 (got %s)"
  | timeout _ => "healthCheck.timeout must be > 0 (got %s)"
  | timeoutNotBelow _ _ => "healthCheck.timeout (%s) must be < healthCheck.interval (%s)"
  | failureThreshold _ => "healthCheck.failureThreshold must be >= 1 (got %d)"
  | logLevel _ => "invalid logLevel %q (want debug|info|warn|error)"

/-! ## Validation -/

/-- The library functions the validation calls. -/
structure Library where
  parseIP : GoString → Option NetIP
  splitHostPort : GoString → Except GoString (GoString × GoString)
  atoi : GoString → Option Int64

/-- `IsLoopback` on four bytes. -/
def isLoopback (v4 : NetIP) : Bool := byteAt v4 0 == 127

/-- `IsUnspecified` on four bytes. -/
def isUnspecified (v4 : NetIP) : Bool := v4 == [0, 0, 0, 0]

/-- `IsMulticast` on four bytes. -/
def isMulticast (v4 : NetIP) : Bool := byteAt v4 0 &&& 0xF0 == 0xE0

def validateIPv4 (lib : Library) (s : GoString) (field : IPField) (rejectLoopback : Bool) :
    Except ValidateError Unit :=
  match lib.parseIP s with
  | none => .error (.ip field s .notIP)
  | some ip =>
    match to4 ip with
    | none => .error (.ip field s .notIPv4)
    | some v4 => do
      refuse (rejectLoopback ∧ isLoopback v4) (.ip field s .loopback)
      refuse (isUnspecified v4) (.ip field s .unspecified)
      refuse (isMulticast v4) (.ip field s .multicast)

def validAction (a : GoString) : Bool := a == actionHostResolve || a == actionClusterResolve

/-- `strings.TrimPrefix`. -/
def trimPrefix (s pre : GoString) : GoString := if pre <+: s then s.drop pre.length else s

def validateRule (r : Rule) : Except RuleError Unit := do
  refuse (r.pattern = []) .emptyPattern
  refuse (¬ [star, dot] <+: r.pattern) (.notWildcard r.pattern)
  let suffix := trimPrefix r.pattern [star, dot]
  refuse (star ∈ suffix) (.interiorWildcard r.pattern)
  refuse (suffix = []) (.emptySuffix r.pattern)
  (suffix.splitOn dot).forM fun label => do
    refuse (label = []) (.emptyLabel r.pattern)
    refuse (63 < label.length) (.longLabel r.pattern label)
  refuse (r.action = []) (.emptyAction r.pattern)
  refuse (¬ validAction r.action) (.unsupportedAction r.pattern r.action)

/-- The loop over the rules from index `i` on; its result is `differing`. -/
def validateRules (defaultAction : GoString) : Nat → Bool → List Rule → Except ValidateError Bool
  | _, differing, [] => .ok differing
  | i, differing, r :: rules => do
      (validateRule r).mapError (.rule i)
      validateRules defaultAction (i + 1) (if r.action ≠ defaultAction then true else differing)
        rules

def validateMetricsAddr (lib : Library) (addr : GoString) : Except AddrError Unit := do
  refuse (addr = []) .empty
  match lib.splitHostPort addr with
  | .error err => .error (.split addr err)
  | .ok (_, port) => do
    refuse (port = []) (.emptyPort addr)
    match lib.atoi port with
    | none => .error (.notNumeric addr port)
    | some p => refuse (p < 1 ∨ p > 65535) (.outOfRange addr p)

def validLogLevel (s : GoString) : Bool :=
  s == goText "debug" || s == goText "info" || s == goText "warn" || s == goText "error"

def validate (lib : Library) (c : Config) : Except ValidateError Unit := do
  refuse (c.corednsServiceIP = []) (.required .corednsServiceIP)
  validateIPv4 lib c.corednsServiceIP .corednsServiceIP false
  refuse (c.hostResolverIP = []) (.required .hostResolverIP)
  validateIPv4 lib c.hostResolverIP .hostResolverIP true
  refuse (¬ validAction c.defaultAction) (.defaultAction c.defaultAction)
  refuse (c.rules = []) .noRules
  let differing ← validateRules c.defaultAction 0 false c.rules
  refuse (¬ differing) (.noOp c.defaultAction)
  (validateMetricsAddr lib c.metricsAddr).mapError .metricsAddr
  let interval := c.healthCheckInterval
  let timeout := c.healthCheckTimeout
  let threshold := c.healthCheckThreshold
  refuse (interval ≤ 0) (.interval interval)
  refuse (timeout ≤ 0) (.timeout timeout)
  refuse (timeout ≥ interval) (.timeoutNotBelow timeout interval)
  refuse (threshold < 1) (.failureThreshold threshold)
  refuse (¬ validLogLevel c.logLevel) (.logLevel c.logLevel)

/-- `Parse`, from the decoded value on. -/
def parse (lib : Library) (c : Config) : Except ValidateError Config := do
  let c := c.applyDefaults
  c.validate lib
  return c

/-! ## What is accepted -/

/-- An address `validateIPv4` accepts. -/
def ValidIPv4 (lib : Library) (s : GoString) (rejectLoopback : Bool) : Prop :=
  ∃ ip v4, lib.parseIP s = some ip ∧ to4 ip = some v4 ∧
    ¬ (rejectLoopback ∧ isLoopback v4) ∧ ¬ isUnspecified v4 ∧ ¬ isMulticast v4

/-- A rule `validateRule` accepts. -/
structure AcceptedRule (r : Rule) : Prop where
  wildcard : [star, dot] <+: r.pattern
  plain : star ∉ r.pattern.drop 2
  labels : LabelsOk ((r.pattern.drop 2).splitOn dot)
  action : validAction r.action

/-- An address with a port to listen on. -/
def ValidMetricsAddr (lib : Library) (addr : GoString) : Prop :=
  addr ≠ [] ∧ ∃ host port p, lib.splitHostPort addr = .ok (host, port) ∧ port ≠ [] ∧
    lib.atoi port = some p ∧ 1 ≤ p ∧ p ≤ 65535

/-- A configuration `Validate` accepts. -/
structure Accepted (lib : Library) (c : Config) : Prop where
  coredns : c.corednsServiceIP ≠ [] ∧ ValidIPv4 lib c.corednsServiceIP false
  hostResolver : c.hostResolverIP ≠ [] ∧ ValidIPv4 lib c.hostResolverIP true
  defaultAction : validAction c.defaultAction
  rules : ∀ r ∈ c.rules, AcceptedRule r
  differing : ∃ r ∈ c.rules, r.action ≠ c.defaultAction
  metricsAddr : ValidMetricsAddr lib c.metricsAddr
  timeout : 0 < c.healthCheckTimeout
  interval : c.healthCheckTimeout < c.healthCheckInterval
  threshold : 1 ≤ c.healthCheckThreshold
  logLevel : validLogLevel c.logLevel

theorem validateIPv4_eq_ok {lib : Library} {s : GoString} {field : IPField}
    {rejectLoopback : Bool} :
    validateIPv4 lib s field rejectLoopback = .ok () ↔ ValidIPv4 lib s rejectLoopback := by
  unfold validateIPv4 ValidIPv4
  cases lib.parseIP s with
  | none => simp
  | some ip =>
      cases hv4 : to4 ip with
      | none => simp [hv4]
      | some v4 => simp [hv4]

theorem validateRule_eq_ok {r : Rule} : validateRule r = .ok () ↔ AcceptedRule r := by
  unfold validateRule
  simp only [guard_bind_eq_ok, refuse_eq_ok, forM_eq_ok, not_not]
  constructor
  · rintro ⟨-, hwild, hplain, -, hlabels, -, haction⟩
    have hsuffix : trimPrefix r.pattern [star, dot] = r.pattern.drop 2 := if_pos hwild
    rw [hsuffix] at hplain hlabels
    refine ⟨hwild, hplain, fun l hl => ?_, haction⟩
    have hlabel := hlabels l hl
    have hpos := List.length_pos_of_ne_nil hlabel.1
    omega
  · intro h
    have hsuffix : trimPrefix r.pattern [star, dot] = r.pattern.drop 2 := if_pos h.wildcard
    have hlabels : ∀ l ∈ (r.pattern.drop 2).splitOn dot, l ≠ [] ∧ ¬ 63 < l.length := by
      intro l hl
      have hlabel := h.labels l hl
      exact ⟨List.ne_nil_of_length_pos (by omega), by omega⟩
    rw [hsuffix]
    refine ⟨?_, h.wildcard, h.plain, ?_, hlabels, ?_, h.action⟩
    · intro hnil
      have hwild := h.wildcard
      simp [hnil] at hwild
    · intro hnil
      rw [hnil] at hlabels
      simp at hlabels
    · intro hnil
      have haction := h.action
      rw [hnil] at haction
      exact absurd haction (by decide)

theorem validateRules_eq_ok {defaultAction : GoString} {i : Nat} {differing d : Bool}
    {rules : List Rule} :
    validateRules defaultAction i differing rules = .ok d ↔ (∀ r ∈ rules, AcceptedRule r) ∧
      d = (differing || rules.any fun r => r.action ≠ defaultAction) := by
  induction rules generalizing i differing with
  | nil =>
      rw [validateRules, Except.ok.injEq]
      simp [eq_comm]
  | cons r rules ih =>
      rw [validateRules, guard_bind_eq_ok, mapError_eq_ok, validateRule_eq_ok, ih,
        List.forall_mem_cons, and_assoc, List.any_cons]
      by_cases hr : r.action = defaultAction
      · simp [hr]
      · simp [hr]

theorem validateMetricsAddr_eq_ok {lib : Library} {addr : GoString} :
    validateMetricsAddr lib addr = .ok () ↔ ValidMetricsAddr lib addr := by
  unfold validateMetricsAddr ValidMetricsAddr
  rw [guard_bind_eq_ok, refuse_eq_ok]
  apply and_congr_right
  intro _
  cases lib.splitHostPort addr with
  | error err => simp
  | ok hp =>
      rcases hp with ⟨host, port⟩
      dsimp only
      rw [guard_bind_eq_ok, refuse_eq_ok]
      cases hp : lib.atoi port with
      | none => simp [hp]
      | some p => simp [hp]

theorem validate_eq_ok {lib : Library} {c : Config} : c.validate lib = .ok () ↔ Accepted lib c := by
  unfold validate
  simp only [guard_bind_eq_ok, refuse_eq_ok, validateIPv4_eq_ok]
  rw [bind_eq_ok]
  simp only [guard_bind_eq_ok, refuse_eq_ok, validateRules_eq_ok, mapError_eq_ok,
    validateMetricsAddr_eq_ok, not_not]
  constructor
  · rintro ⟨hcoredns, hcoredns4, hhost, hhost4, hdefault, -, differing, ⟨hrules, rfl⟩, hdiffering,
      hmetrics, -, htimeout, hinterval, hthreshold, hlevel⟩
    refine ⟨⟨hcoredns, hcoredns4⟩, ⟨hhost, hhost4⟩, hdefault, hrules, ?_, hmetrics, ?_, ?_, ?_,
      hlevel⟩
    · simpa using hdiffering
    · exact Int64.not_le.mp htimeout
    · exact Int64.not_le.mp hinterval
    · exact Int64.not_lt.mp hthreshold
  · intro h
    refine ⟨h.coredns.1, h.coredns.2, h.hostResolver.1, h.hostResolver.2, h.defaultAction, ?_, _,
      ⟨h.rules, rfl⟩, ?_, h.metricsAddr, ?_, ?_, ?_, ?_, h.logLevel⟩
    · intro hnil
      rcases h.differing with ⟨r, hr, -⟩
      rw [hnil] at hr
      exact absurd hr List.not_mem_nil
    · simpa using h.differing
    · exact Int64.not_le.mpr (Int64.lt_trans h.timeout h.interval)
    · exact Int64.not_le.mpr h.timeout
    · exact Int64.not_le.mpr h.interval
    · exact Int64.not_lt.mpr h.threshold

theorem parse_eq_ok {lib : Library} {c c' : Config} :
    parse lib c = .ok c' ↔ Accepted lib c.applyDefaults ∧ c' = c.applyDefaults := by
  unfold parse
  dsimp only
  rw [guard_bind_eq_ok, validate_eq_ok]
  apply and_congr_right
  intro _
  show Except.ok c.applyDefaults = .ok c' ↔ _
  rw [Except.ok.injEq, eq_comm]

-- What is accepted leaves no field to a default.
theorem applyDefaults_of_accepted {lib : Library} {c : Config} (h : Accepted lib c) :
    c.applyDefaults = c := by
  have haction : c.defaultAction ≠ [] := by
    intro hnil
    have hvalid := h.defaultAction
    rw [hnil] at hvalid
    exact absurd hvalid (by decide)
  have hlevel : c.logLevel ≠ [] := by
    intro hnil
    have hvalid := h.logLevel
    rw [hnil] at hvalid
    exact absurd hvalid (by decide)
  unfold applyDefaults
  rw [if_neg h.metricsAddr.1, if_neg hlevel, if_neg haction]

-- The defaults pass their own checks.
theorem accepted_applyDefaults_iff {lib : Library} {c : Config} (hdefault : c.defaultAction = [])
    (hmetrics : c.metricsAddr = []) (hlevel : c.logLevel = []) (hhealth : c.healthCheck = {})
    (hport : ValidMetricsAddr lib defaultMetricsAddr) :
    Accepted lib c.applyDefaults ↔
      (c.corednsServiceIP ≠ [] ∧ ValidIPv4 lib c.corednsServiceIP false) ∧
      (c.hostResolverIP ≠ [] ∧ ValidIPv4 lib c.hostResolverIP true) ∧
      (∀ r ∈ c.rules, AcceptedRule r) ∧ ∃ r ∈ c.rules, r.action ≠ actionClusterResolve := by
  rcases c with ⟨coredns, host, defaultAction, rules, metricsAddr, healthCheck, logLevel⟩
  dsimp only at hdefault hmetrics hlevel hhealth
  subst hdefault hmetrics hlevel hhealth
  constructor
  · intro h
    exact ⟨h.coredns, h.hostResolver, h.rules, h.differing⟩
  · rintro ⟨hcoredns, hhost, hrules, hdiffering⟩
    refine ⟨hcoredns, hhost, ?_, hrules, hdiffering, hport, ?_, ?_, ?_, ?_⟩
    · show validAction actionClusterResolve
      decide
    · show 0 < defaultHealthCheckTimeout
      decide
    · show defaultHealthCheckTimeout < defaultHealthCheckInterval
      decide
    · show 1 ≤ defaultHealthCheckThreshold
      decide
    · show validLogLevel defaultLogLevel
      decide

end Config

end DnsGateway
