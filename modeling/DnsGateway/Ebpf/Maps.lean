import DnsGateway.Bpf.Types
import DnsGateway.Dnsenc.Wire

/-!
# Writing the maps from user space (`internal/ebpf/maps.go`)

A map operation fails when the kernel says so (the `Bool` parameters, `MapOps`) or, for a new key
of `suffix_rules`, when the table is full; a failing operation leaves the map as it was.
-/

namespace DnsGateway.Ebpf

open DnsGateway.Reasoning DnsGateway.Bpf DnsGateway.Dnsenc

/-- `Action`, with the values `actionHostResolve` and `actionClusterResolve`. -/
abbrev Action := UInt32

/-! ## `config_map` -/

/-- `net.IP`, as its bytes. -/
abbrev NetIP := List UInt8

/-- `net.IP.To4`: the four bytes of an IPv4 or IPv4-mapped address. -/
def to4 (ip : NetIP) : Option NetIP :=
  if ip.length = 4 then some ip
  else if ip.length = 16 ∧ ip.take 12 = List.replicate 10 0 ++ [0xFF, 0xFF] then some (ip.drop 12)
  else none

/-- `nativeUint32IP`. -/
def nativeUint32IP (ip4 : NetIP) : UInt32 := u32At ip4 0

/-- `dnsPort53`: port 53 in network byte order. -/
def dnsPort53 : UInt16 := u16OfLE 0x00 0x35

structure Config where
  corednsIP : NetIP
  hostResolverIP : NetIP
  bypass : Bool := false
  defaultAction : Action := 0

/-- The errors of `PopulateConfig` and `SetBypass`. -/
inductive ConfigError where
  | corednsIP (ip : NetIP)
  | hostResolverIP (ip : NetIP)
  | defaultAction (action : Action)
  | lookup
  | update
  deriving DecidableEq, Repr

def ConfigError.format : ConfigError → String
  | corednsIP _ => "corednsIP %s is not IPv4"
  | hostResolverIP _ => "hostResolverIP %s is not IPv4"
  | defaultAction _ => "invalid DefaultAction %d"
  | lookup => "lookup config_map: %w"
  | update => "update config_map: %w"

/-- `PopulateConfig`: the error, if any, and `config_map` after the call. -/
def populateConfig (updateOk : Bool) (cfg : Config) (m : GatewayConfig) :
    Option ConfigError × GatewayConfig :=
  match to4 cfg.corednsIP with
  | none => (some (.corednsIP cfg.corednsIP), m)
  | some c4 =>
    match to4 cfg.hostResolverIP with
    | none => (some (.hostResolverIP cfg.hostResolverIP), m)
    | some h4 =>
      let bypass : UInt16 := if cfg.bypass then 1 else 0
      let defaultAction :=
        if cfg.defaultAction = 0 then actionClusterResolve else cfg.defaultAction
      if defaultAction ≠ actionHostResolve ∧ defaultAction ≠ actionClusterResolve then
        (some (.defaultAction defaultAction), m)
      else if updateOk then
        (none, { corednsIp := nativeUint32IP c4, hostResolverIp := nativeUint32IP h4,
                 dnsPort := dnsPort53, bypass := bypass, defaultAction := defaultAction })
      else (some .update, m)

/-- `SetBypass`: one locked read-modify-write of `config_map`. -/
def setBypass (lookupOk updateOk on : Bool) (m : GatewayConfig) :
    Option ConfigError × GatewayConfig :=
  if lookupOk then
    let val := { m with bypass := if on then 1 else 0 }
    if updateOk then (none, val) else (some .update, m)
  else (some .lookup, m)

/-! ## `suffix_rules` -/

structure SuffixRule where
  pattern : GoString
  action : Action
  deriving DecidableEq, Repr

/-- The errors of `PopulateSuffixRules`. -/
inductive RuleError where
  | invalidAction (pattern : GoString) (action : Action)
  | notWildcard (pattern : GoString)
  | interiorWildcard (pattern : GoString)
  | encode (pattern : GoString) (err : EncodeError)
  | conflict (pattern : GoString)
  | iterate
  | deleteStale
  | addRule
  deriving DecidableEq, Repr

def RuleError.format : RuleError → String
  | invalidAction _ _ => "pattern %q has invalid action %d"
  | notWildcard _ => "pattern %q must use *.suffix form (exact match unsupported in MVP)"
  | interiorWildcard _ => "pattern %q has interior wildcard; only leading *.suffix is supported"
  | encode _ _ => "encode pattern %q: %w"
  | conflict _ => "pattern %q appears with conflicting actions"
  | iterate => "iterate suffix_rules: %w"
  | deleteStale => "delete stale suffix rule: %w"
  | addRule => "add suffix rule: %w"

/-- `map[DnsGatewaySuffixKey]Action`. -/
abbrev ActionMap := Finmap fun _ : SuffixKey => Action

/-- The validation loop: `desired` is built up rule by rule. -/
def buildDesired (unicodeToLower : GoString → GoString) :
    List SuffixRule → ActionMap → Except RuleError ActionMap
  | [], desired => .ok desired
  | r :: rules, desired =>
      if r.action ≠ actionHostResolve ∧ r.action ≠ actionClusterResolve then
        .error (.invalidAction r.pattern r.action)
      else
        let (suffix, isWildcard) := parsePattern r.pattern
        if !isWildcard then .error (.notWildcard r.pattern)
        else if star ∈ suffix then .error (.interiorWildcard r.pattern)
        else
          match encodeSuffix unicodeToLower suffix with
          | .error e => .error (.encode r.pattern e)
          | .ok key =>
            let mapKey : SuffixKey := ⟨key⟩
            match desired.lookup mapKey with
            | some prev =>
                if prev ≠ r.action then .error (.conflict r.pattern)
                else buildDesired unicodeToLower rules (desired.insert mapKey r.action)
            | none => buildDesired unicodeToLower rules (desired.insert mapKey r.action)

/-- Which of the map operations the kernel lets through. -/
structure MapOps where
  iterate : Bool
  delete : SuffixKey → Bool
  update : SuffixKey → Bool

/-- Operations that fail only for lack of room. -/
def MapOps.reliable : MapOps := ⟨true, fun _ => true, fun _ => true⟩

/-- The orders of the three iterations: over `suffix_rules`, `existing` and `desired`. -/
structure Orders where
  table : RangeOrder SuffixKey SuffixValue
  existing : RangeOrder SuffixKey Action
  desired : RangeOrder SuffixKey Action

/-- The error, if any, and the table after each write, in order. -/
structure Reconciled where
  err : Option RuleError
  writes : List SuffixRules

/-- The table after the call. -/
def Reconciled.final (r : Reconciled) (t : SuffixRules) : SuffixRules := r.writes.getLastD t

/-- Put one more write in front. -/
def Reconciled.after (t : SuffixRules) (r : Reconciled) : Reconciled :=
  { r with writes := t :: r.writes }

/-- The snapshot of the table in the Go map `existing`. -/
def snapshot (entries : List (SuffixKey × SuffixValue)) : ActionMap :=
  entries.foldl (fun existing e => existing.insert e.1 e.2.action) ∅

/-- The second loop: add new keys and update keys whose action changed. -/
def applyDesired (ops : MapOps) (existing : ActionMap) :
    List (SuffixKey × Action) → SuffixRules → Reconciled
  | [], _ => { err := none, writes := [] }
  | (key, action) :: entries, t =>
      if existing.lookup key = some action then applyDesired ops existing entries t
      else
        match (if ops.update key then t.update key { action := action } else none) with
        | none => { err := some .addRule, writes := [] }
        | some t' => (applyDesired ops existing entries t').after t'

/-- The first loop, which deletes stale keys, and then the second one.  A key that is already gone
(`ErrKeyNotExist`) is no error. -/
def reconcile (ops : MapOps) (order : RangeOrder SuffixKey Action) (existing desired : ActionMap) :
    List (SuffixKey × Action) → SuffixRules → Reconciled
  | [], t => applyDesired ops existing (order.visit desired) t
  | (key, _) :: entries, t =>
      if key ∈ desired then reconcile ops order existing desired entries t
      else if ops.delete key then
        match t.delete key with
        | none => reconcile ops order existing desired entries t
        | some t' => (reconcile ops order existing desired entries t').after t'
      else { err := some .deleteStale, writes := [] }

/-- `PopulateSuffixRules` on the table `t`. -/
def populateSuffixRules (unicodeToLower : GoString → GoString) (ops : MapOps) (orders : Orders)
    (rules : List SuffixRule) (t : SuffixRules) : Reconciled :=
  match buildDesired unicodeToLower rules ∅ with
  | .error e => { err := some e, writes := [] }
  | .ok desired =>
    if ops.iterate then
      let existing := snapshot (orders.table.visit t.entries)
      reconcile ops orders.desired existing desired (orders.existing.visit existing) t
    else { err := some .iterate, writes := [] }

end DnsGateway.Ebpf
