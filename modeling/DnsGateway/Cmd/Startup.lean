import DnsGateway.Config.Validate
import DnsGateway.Health.Checker
import DnsGateway.Resolution

/-!
# Starting up (`cmd/bpf-dns-gateway/main.go`)

`run` validates the configuration and hands its values to `PopulateConfig`, `PopulateSuffixRules`
and `health.New`, which check them once more.
-/

namespace DnsGateway.Cmd

open DnsGateway.Reasoning DnsGateway.Bpf DnsGateway.Dnsenc DnsGateway.Ebpf

/-! ## The steps -/

def toBPFAction (a : GoString) : Action :=
  if a = Config.actionHostResolve then actionHostResolve else actionClusterResolve

/-- The argument of `PopulateConfig`; `net.ParseIP` gives `nil` for what is no address. -/
def bpfConfig (lib : Config.Library) (c : DnsGateway.Config) : Ebpf.Config where
  corednsIP := (lib.parseIP c.corednsServiceIP).getD []
  hostResolverIP := (lib.parseIP c.hostResolverIP).getD []
  defaultAction := toBPFAction c.defaultAction

def bpfRule (r : Config.Rule) : SuffixRule where
  pattern := r.pattern
  action := toBPFAction r.action

/-- The argument of `health.New`. -/
def healthConfig (lib : Config.Library) (c : DnsGateway.Config) : Health.Config where
  resolverIP := (lib.parseIP c.hostResolverIP).getD []
  interval := c.healthCheckInterval
  timeout := c.healthCheckTimeout
  failureThreshold := c.healthCheckThreshold

/-- The errors of `run` up to its step 4; those of loading the programs and of `controller.New`,
which do not depend on the configuration, are left out. -/
inductive StartError where
  | loadConfig (err : Config.ValidateError)
  | populateConfig (err : ConfigError)
  | populateSuffixRules (err : RuleError)
  | newChecker (err : Health.NewError)
  deriving DecidableEq, Repr

def StartError.format : StartError → String
  | loadConfig _ => "load config: %w"
  | populateConfig _ => "populate config: %w"
  | populateSuffixRules _ => "populate suffix rules: %w"
  | newChecker _ => "new health checker: %w"

/-- What the steps leave: the two maps, and the checker with its configuration. -/
structure Started where
  config : GatewayConfig
  rules : SuffixRules
  checker : Health.Config × Health.Checker

/-- The steps 1, 3 and 4 of `run`, from the decoded configuration on. -/
def startUp (lib : Config.Library) (unicodeToLower : GoString → GoString) (updateOk : Bool)
    (ops : MapOps) (orders : Orders) (c : DnsGateway.Config) (m : GatewayConfig)
    (t : SuffixRules) : Except StartError Started := do
  let c ← (Config.parse lib c).mapError .loadConfig
  match populateConfig updateOk (bpfConfig lib c) m with
  | (some err, _) => .error (.populateConfig err)
  | (none, m) =>
    let rules := populateSuffixRules unicodeToLower ops orders (c.rules.map bpfRule) t
    match rules.err with
    | some err => .error (.populateSuffixRules err)
    | none => do
      let checker ← (Health.new (healthConfig lib c) true).mapError .newChecker
      return { config := m, rules := rules.final t, checker := checker }

/-! ## The checks that are made again -/

theorem toBPFAction_valid (a : GoString) :
    toBPFAction a = actionHostResolve ∨ toBPFAction a = actionClusterResolve := by
  unfold toBPFAction
  split
  · exact Or.inl rfl
  · exact Or.inr rfl

theorem toBPFAction_inj {a b : GoString} (ha : Config.validAction a) (hb : Config.validAction b) :
    toBPFAction a = toBPFAction b ↔ a = b := by
  have hval : ∀ x : GoString, Config.validAction x →
      x = Config.actionHostResolve ∨ x = Config.actionClusterResolve := by
    intro x hx
    simpa [Config.validAction] using hx
  rcases hval a ha with rfl | rfl <;> rcases hval b hb with rfl | rfl <;> decide

theorem populateConfig_ok {cfg : Ebpf.Config} {c4 h4 : NetIP} (hc : to4 cfg.corednsIP = some c4)
    (hh : to4 cfg.hostResolverIP = some h4)
    (haction : cfg.defaultAction = actionHostResolve ∨ cfg.defaultAction = actionClusterResolve)
    (m : GatewayConfig) : (populateConfig true cfg m).1 = none := by
  unfold populateConfig
  rw [hc, hh]
  dsimp only
  rcases haction with h | h
  · rw [h]
    rfl
  · rw [h]
    rfl

section Accepted

variable {lib : Config.Library} {c : DnsGateway.Config}

theorem validIPv4_to4 {s : GoString} {rejectLoopback : Bool}
    (h : Config.ValidIPv4 lib s rejectLoopback) :
    ∃ v4, to4 ((lib.parseIP s).getD []) = some v4 := by
  rcases h with ⟨ip, v4, hparse, h4, -⟩
  rw [hparse]
  exact ⟨v4, h4⟩

theorem accepted_populateConfig (h : Config.Accepted lib c) (m : GatewayConfig) :
    (populateConfig true (bpfConfig lib c) m).1 = none := by
  rcases validIPv4_to4 h.coredns.2 with ⟨c4, hc⟩
  rcases validIPv4_to4 h.hostResolver.2 with ⟨h4, hh⟩
  exact populateConfig_ok hc hh (toBPFAction_valid _) m

theorem accepted_newChecker (h : Config.Accepted lib c) :
    ∃ checker, Health.new (healthConfig lib c) true = .ok checker := by
  apply Health.new_ok_iff.mpr
  have hport : (healthConfig lib c).probePort = 0 := rfl
  rw [hport]
  exact ⟨rfl, validIPv4_to4 h.hostResolver.2, Int64.lt_trans h.timeout h.interval, h.timeout,
    h.threshold, by decide⟩

end Accepted

/-! ## The checks of `PopulateSuffixRules` alone -/

/-- What `Validate` does not ask of the rules. -/
structure RulesFit (rules : List Config.Rule) : Prop where
  short : ∀ r ∈ rules, (wireName (suffixLabels r.pattern)).length ≤ 128
  agree : ∀ r ∈ rules, ∀ r' ∈ rules, suffixLabels r.pattern = suffixLabels r'.pattern →
    r.action = r'.action
  room : (rules.map fun r => suffixLabels r.pattern).toFinset.card ≤ 1024

theorem acceptedRule_labelsOk {r : Config.Rule} (h : Config.AcceptedRule r) :
    LabelsOk (suffixLabels r.pattern) := by
  rw [suffixLabels, trimSuffix_dot h.labels]
  intro l hl
  rcases List.mem_map.mp hl with ⟨l', hl', rfl⟩
  rw [List.length_map]
  exact h.labels l' hl'

section Rules

variable {unicodeToLower : GoString → GoString} {rules : List Config.Rule}

theorem bpfRule_labels {r : Config.Rule} (h : Config.AcceptedRule r)
    (hascii : ∀ b ∈ r.pattern, b < 0x80) :
    (bpfRule r).labels unicodeToLower = suffixLabels r.pattern :=
  labels_of_ascii hascii h.wildcard

theorem bpfRule_encodable_iff {r : Config.Rule} (h : Config.AcceptedRule r)
    (hascii : ∀ b ∈ r.pattern, b < 0x80) :
    Dnsenc.Encodable ((bpfRule r).labels unicodeToLower) ↔
      (wireName (suffixLabels r.pattern)).length ≤ 128 := by
  rw [bpfRule_labels h hascii]
  exact ⟨fun henc => henc.fits, fun hfits => ⟨acceptedRule_labelsOk h, hfits⟩⟩

theorem bpfRules_agree_iff {r r' : Config.Rule} (hr : Config.AcceptedRule r)
    (hr' : Config.AcceptedRule r') (hascii : ∀ b ∈ r.pattern, b < 0x80)
    (hascii' : ∀ b ∈ r'.pattern, b < 0x80)
    (henc : Dnsenc.Encodable ((bpfRule r).labels unicodeToLower))
    (henc' : Dnsenc.Encodable ((bpfRule r').labels unicodeToLower)) :
    ((bpfRule r).key? unicodeToLower = (bpfRule r').key? unicodeToLower →
      (bpfRule r).action = (bpfRule r').action) ↔
    (suffixLabels r.pattern = suffixLabels r'.pattern → r.action = r'.action) := by
  rw [key?_eq_iff henc henc', bpfRule_labels hr hascii, bpfRule_labels hr' hascii']
  exact imp_congr_right fun _ => toBPFAction_inj hr.action hr'.action

variable (hrules : ∀ r ∈ rules, Config.AcceptedRule r)
  (hascii : ∀ r ∈ rules, ∀ b ∈ r.pattern, b < 0x80)

include hrules hascii

theorem bpfRules_keys_card
    (henc : ∀ r ∈ rules, Dnsenc.Encodable ((bpfRule r).labels unicodeToLower)) :
    (ruleKeys unicodeToLower (rules.map bpfRule)).card =
      (rules.map fun r => suffixLabels r.pattern).toFinset.card := by
  rw [ruleKeys_card (List.forall_mem_map.mpr henc), List.map_map]
  congr 2
  exact List.map_congr_left fun r hr => bpfRule_labels (hrules r hr) (hascii r hr)

theorem populateSuffixRules_accepted_iff (orders : Orders) (t : SuffixRules) :
    (populateSuffixRules unicodeToLower .reliable orders (rules.map bpfRule) t).err = none ↔
      RulesFit rules := by
  rw [populateSuffixRules_ok_iff]
  have hshort : (∀ r ∈ rules, Dnsenc.Encodable ((bpfRule r).labels unicodeToLower)) ↔
      ∀ r ∈ rules, (wireName (suffixLabels r.pattern)).length ≤ 128 :=
    forall₂_congr fun r hr => bpfRule_encodable_iff (hrules r hr) (hascii r hr)
  constructor
  · rintro ⟨hvalid, hroom⟩
    have henc : ∀ r ∈ rules, Dnsenc.Encodable ((bpfRule r).labels unicodeToLower) := fun r hr =>
      key?_ne_none_iff.mp (hvalid.each _ (List.mem_map_of_mem hr)).encodes
    refine ⟨hshort.mp henc, fun r hr r' hr' => ?_, ?_⟩
    · apply (bpfRules_agree_iff (hrules r hr) (hrules r' hr') (hascii r hr) (hascii r' hr')
        (henc r hr) (henc r' hr')).mp
      exact hvalid.agree _ (List.mem_map_of_mem hr) _ (List.mem_map_of_mem hr')
    · rw [← bpfRules_keys_card hrules hascii henc]
      exact hroom
  · intro hfit
    have henc := hshort.mpr hfit.short
    refine ⟨⟨List.forall_mem_map.mpr fun r hr => ?_, List.forall_mem_map.mpr fun r hr =>
      List.forall_mem_map.mpr fun r' hr' => ?_⟩, ?_⟩
    · exact ⟨toBPFAction_valid _, (hrules r hr).wildcard, (hrules r hr).plain,
        key?_ne_none_iff.mpr (henc r hr)⟩
    · apply (bpfRules_agree_iff (hrules r hr) (hrules r' hr') (hascii r hr) (hascii r' hr')
        (henc r hr) (henc r' hr')).mpr
      exact hfit.agree r hr r' hr'
    · rw [bpfRules_keys_card hrules hascii henc]
      exact hfit.room

end Rules

/-! ## Start-up -/

-- Behind the validation only the rules can still stop `run`.
theorem startUp_eq {lib : Config.Library} {unicodeToLower : GoString → GoString} {ops : MapOps}
    {orders : Orders} {c : DnsGateway.Config} (h : Config.Accepted lib c.applyDefaults)
    (m : GatewayConfig) (t : SuffixRules) :
    ∃ m' checker, startUp lib unicodeToLower true ops orders c m t =
      match (populateSuffixRules unicodeToLower ops orders (c.rules.map bpfRule) t).err with
      | some err => .error (.populateSuffixRules err)
      | none => .ok ⟨m', (populateSuffixRules unicodeToLower ops orders (c.rules.map bpfRule)
          t).final t, checker⟩ := by
  have hconfig := accepted_populateConfig h m
  rcases accepted_newChecker h with ⟨checker, hchecker⟩
  generalize hm : populateConfig true (bpfConfig lib c.applyDefaults) m = r at hconfig
  rcases r with ⟨err, m'⟩
  dsimp only at hconfig
  subst hconfig
  refine ⟨m', checker, ?_⟩
  unfold startUp
  rw [Config.parse_eq_ok.mpr ⟨h, rfl⟩]
  show (match populateConfig true (bpfConfig lib c.applyDefaults) m with
    | (some err, _) => _
    | (none, m) => _) = _
  rw [hm, hchecker]
  rfl

theorem startUp_ok_iff {lib : Config.Library} {unicodeToLower : GoString → GoString}
    {c : DnsGateway.Config} (hascii : ∀ r ∈ c.rules, ∀ b ∈ r.pattern, b < 0x80) (orders : Orders)
    (m : GatewayConfig) (t : SuffixRules) :
    (∃ s, startUp lib unicodeToLower true .reliable orders c m t = .ok s) ↔
      Config.Accepted lib c.applyDefaults ∧ RulesFit c.rules := by
  by_cases haccepted : Config.Accepted lib c.applyDefaults
  · have hrules : ∀ r ∈ c.rules, Config.AcceptedRule r := haccepted.rules
    rcases startUp_eq haccepted m t with ⟨m', checker, hrun⟩
    have hfit : (populateSuffixRules unicodeToLower .reliable orders (c.rules.map bpfRule) t).err =
        none ↔ RulesFit c.rules := populateSuffixRules_accepted_iff hrules hascii orders t
    rw [hrun, ← hfit]
    cases (populateSuffixRules unicodeToLower .reliable orders (c.rules.map bpfRule) t).err with
    | some err => simp
    | none => simp [haccepted]
  · -- `run` stops at the validation.
    constructor
    · rintro ⟨s, hs⟩
      rw [startUp, bind_eq_ok] at hs
      rcases hs with ⟨c', hc', -⟩
      rw [mapError_eq_ok, Config.parse_eq_ok] at hc'
      exact absurd hc'.1 haccepted
    · intro h
      exact absurd h.1 haccepted

/-- On an accepted configuration with ASCII patterns, and with map operations that fail only for
lack of room, `PopulateConfig` and `health.New` succeed; `PopulateSuffixRules` on the empty table,
and with it the start-up steps of `run`, succeed exactly when no suffix is longer than 128 bytes on
the wire, rules for one suffix agree on the action and there are at most 1024 suffixes. -/
theorem accepted_startUp_iff (lib : Config.Library) (unicodeToLower : GoString → GoString)
    (orders : Orders) (c : DnsGateway.Config) (m : GatewayConfig)
    (hvalid : c.validate lib = .ok ()) (hascii : ∀ r ∈ c.rules, ∀ b ∈ r.pattern, b < 0x80) :
    (populateConfig true (bpfConfig lib c) m).1 = none ∧
    (∃ checker, Health.new (healthConfig lib c) true = .ok checker) ∧
    ((populateSuffixRules unicodeToLower .reliable orders (c.rules.map bpfRule) .empty).err = none ↔
      RulesFit c.rules) ∧
    ((∃ s, startUp lib unicodeToLower true .reliable orders c m .empty = .ok s) ↔
      RulesFit c.rules) := by
  have haccepted := Config.validate_eq_ok.mp hvalid
  refine ⟨accepted_populateConfig haccepted m, accepted_newChecker haccepted,
    populateSuffixRules_accepted_iff haccepted.rules hascii orders .empty, ?_⟩
  rw [startUp_ok_iff hascii, Config.applyDefaults_of_accepted haccepted]
  exact and_iff_right haccepted

/-- `net.ParseIP`, `net.SplitHostPort` and `strconv.Atoi` on the texts of the samples. -/
def sampleLibrary : Config.Library where
  parseIP s :=
    if s = goText "10.96.0.10" then some (List.replicate 10 0 ++ [0xFF, 0xFF, 10, 96, 0, 10])
    else if s = goText "10.0.0.2" then some (List.replicate 10 0 ++ [0xFF, 0xFF, 10, 0, 0, 2])
    else none
  splitHostPort s :=
    if s = goText ":9153" then .ok ([], goText "9153")
    else .error (goText "missing port in address")
  atoi s := if s = goText "9153" then some 9153 else none

/-- A configuration with the given rules and all defaults. -/
def sampleFile (rules : List Config.Rule) : DnsGateway.Config :=
  Config.applyDefaults
    { corednsServiceIP := goText "10.96.0.10", hostResolverIP := goText "10.0.0.2", rules := rules }

/-- The rule `*.corp` of the file. -/
def corpEntry (action : GoString) : Config.Rule where
  pattern := goText "*.corp"
  action := action

theorem corpEntry_accepted {action : GoString} (h : Config.validAction action) :
    Config.AcceptedRule (corpEntry action) := by
  refine ⟨?_, ?_, ?_, h⟩
  · show [star, dot] <+: goText "*.corp"
    decide
  · show star ∉ (goText "*.corp").drop 2
    decide
  · show LabelsOk (((goText "*.corp").drop 2).splitOn dot)
    decide

theorem sampleFile_valid {rules : List Config.Rule} (hrules : ∀ r ∈ rules, Config.AcceptedRule r)
    (hdiffering : ∃ r ∈ rules, r.action ≠ Config.actionClusterResolve) :
    (sampleFile rules).validate sampleLibrary = .ok () := by
  apply Config.validate_eq_ok.mpr
  apply (Config.accepted_applyDefaults_iff rfl rfl rfl rfl _).mpr
  · refine ⟨⟨?_, ?_⟩, ⟨?_, ?_⟩, hrules, hdiffering⟩
    · show goText "10.96.0.10" ≠ []
      decide
    · exact ⟨_, [10, 96, 0, 10], rfl, by decide, by decide, by decide, by decide⟩
    · show goText "10.0.0.2" ≠ []
      decide
    · exact ⟨_, [10, 0, 0, 2], rfl, by decide, by decide, by decide, by decide⟩
  · exact ⟨by decide, [], goText "9153", 9153, rfl, by decide, by decide, by decide, by decide⟩

theorem corpEntry_ascii (action : GoString) : ∀ b ∈ (corpEntry action).pattern, b < 0x80 :=
  ascii_of_all (show (goText "*.corp").all _ = true by decide)

theorem corpEntry_fits (action : GoString) : RulesFit [corpEntry action] := by
  constructor
  · rw [List.forall_mem_singleton]
    show (wireName (suffixLabels (goText "*.corp"))).length ≤ 128
    decide
  · intro r hr r' hr' _
    rw [List.mem_singleton.mp hr, List.mem_singleton.mp hr']
  · exact (List.toFinset_card_le _).trans (by rw [List.length_map, List.length_singleton]; decide)

/-- A file with the one rule `*.corp: host-resolve` passes all the checks. -/
theorem corpFile_starts :
    (populateConfig true (bpfConfig sampleLibrary
      (sampleFile [corpEntry Config.actionHostResolve])) (sampleConfig 0)).1 = none ∧
    (∃ checker, Health.new (healthConfig sampleLibrary
      (sampleFile [corpEntry Config.actionHostResolve])) true = .ok checker) ∧
    (populateSuffixRules (List.map asciiToLower) .reliable ⟨default, default, default⟩
      ([corpEntry Config.actionHostResolve].map bpfRule) .empty).err = none ∧
    ∃ s, startUp sampleLibrary (List.map asciiToLower) true .reliable ⟨default, default, default⟩
      (sampleFile [corpEntry Config.actionHostResolve]) (sampleConfig 0) .empty = .ok s := by
  have hstarts := accepted_startUp_iff sampleLibrary (List.map asciiToLower)
    ⟨default, default, default⟩ (sampleFile [corpEntry Config.actionHostResolve]) (sampleConfig 0)
    (sampleFile_valid
      (List.forall_mem_singleton.mpr (corpEntry_accepted (show Config.validAction _ by decide)))
      ⟨_, List.mem_singleton_self _, by decide⟩)
    (List.forall_mem_singleton.mpr (corpEntry_ascii _))
  exact ⟨hstarts.1, hstarts.2.1, hstarts.2.2.1.mpr (corpEntry_fits _),
    hstarts.2.2.2.mpr (corpEntry_fits _)⟩

/-- A file with the rules `*.corp: host-resolve` and `*.corp: cluster-resolve` is accepted, and
`PopulateSuffixRules` refuses the second rule. -/
theorem conflictingFile_accepted :
    (sampleFile [corpEntry Config.actionHostResolve,
      corpEntry Config.actionClusterResolve]).validate sampleLibrary = .ok () ∧
    (populateSuffixRules (List.map asciiToLower) .reliable ⟨default, default, default⟩
      ([corpEntry Config.actionHostResolve, corpEntry Config.actionClusterResolve].map bpfRule)
      .empty).err = some (.conflict (goText "*.corp")) := by
  refine ⟨sampleFile_valid ?_ ?_, ?_⟩
  · simp only [List.forall_mem_cons]
    exact ⟨corpEntry_accepted (by decide), corpEntry_accepted (by decide),
      fun _ h => absurd h List.not_mem_nil⟩
  · exact ⟨corpEntry Config.actionHostResolve, by simp, by decide⟩
  · decide

end DnsGateway.Cmd
