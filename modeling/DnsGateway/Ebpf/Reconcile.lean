import DnsGateway.Ebpf.Maps

/-!
# `PopulateSuffixRules` reconciles

The validation loop computes the map of the listed rules; the two write loops then take the table
from its old content to the goal, one key at a time.
-/

namespace DnsGateway.Ebpf

open DnsGateway.Reasoning DnsGateway.Bpf DnsGateway.Dnsenc

/-! ## Rules -/

section Rules

variable (unicodeToLower : GoString → GoString)

/-- The labels of the suffix a rule is about. -/
def SuffixRule.labels (r : SuffixRule) : List GoString :=
  domainLabels unicodeToLower (parsePattern r.pattern).1

/-- The key `EncodeSuffix` gives the rule. -/
def SuffixRule.key? (r : SuffixRule) : Option SuffixKey :=
  match encodeSuffix unicodeToLower (parsePattern r.pattern).1 with
  | .ok key => some ⟨key⟩
  | .error _ => none

/-- What the validation loop asks of a single rule. -/
structure ValidRule (r : SuffixRule) : Prop where
  action : r.action = actionHostResolve ∨ r.action = actionClusterResolve
  wildcard : [star, dot] <+: r.pattern
  plain : star ∉ r.pattern.drop 2
  encodes : r.key? unicodeToLower ≠ none

/-- What it asks of the whole list. -/
structure ValidRules (rules : List SuffixRule) : Prop where
  each : ∀ r ∈ rules, ValidRule unicodeToLower r
  agree : ∀ r ∈ rules, ∀ r' ∈ rules,
    r.key? unicodeToLower = r'.key? unicodeToLower → r.action = r'.action

/-- Some rule of the list has key `k` and action `a`. -/
def Lists (rules : List SuffixRule) (k : SuffixKey) (a : Action) : Prop :=
  ∃ r ∈ rules, r.key? unicodeToLower = some k ∧ r.action = a

/-- The distinct keys of the list. -/
def ruleKeys (rules : List SuffixRule) : Finset SuffixKey :=
  (rules.filterMap fun r => r.key? unicodeToLower).toFinset

end Rules

/-- The pattern a validation error is about; the map errors name none. -/
def RuleError.pattern? : RuleError → Option GoString
  | invalidAction pattern _ => some pattern
  | notWildcard pattern => some pattern
  | interiorWildcard pattern => some pattern
  | encode pattern _ => some pattern
  | conflict pattern => some pattern
  | iterate => none
  | deleteStale => none
  | addRule => none

variable {unicodeToLower : GoString → GoString}

theorem key?_eq_some_iff {r : SuffixRule} {k : SuffixKey} :
    r.key? unicodeToLower = some k ↔
      Encodable (r.labels unicodeToLower) ∧ k = ⟨keyOf (r.labels unicodeToLower)⟩ := by
  unfold SuffixRule.key? SuffixRule.labels
  split
  · rename_i key hkey
    rcases encodeSuffix_ok_iff.mp hkey with ⟨henc, rfl⟩
    rw [Option.some.injEq]
    exact ⟨fun h => ⟨henc, h.symm⟩, fun h => h.2.symm⟩
  · rename_i e herr
    refine ⟨fun h => (by cases h), fun h => ?_⟩
    rw [encodeSuffix_ok_iff.mpr ⟨h.1, rfl⟩] at herr
    cases herr

theorem suffixKey_inj {ls ms : List (List UInt8)} (hl : Encodable ls) (hm : Encodable ms) :
    (⟨keyOf ls⟩ : SuffixKey) = ⟨keyOf ms⟩ ↔ ls = ms := by
  constructor
  · intro h
    exact (keyOf_inj hl hm).mp (SuffixKey.mk.inj h)
  · intro h
    rw [h]

theorem key?_ne_none_iff {r : SuffixRule} :
    r.key? unicodeToLower ≠ none ↔ Encodable (r.labels unicodeToLower) := by
  rw [Option.ne_none_iff_exists']
  constructor
  · rintro ⟨k, hk⟩
    exact (key?_eq_some_iff.mp hk).1
  · intro henc
    exact ⟨_, key?_eq_some_iff.mpr ⟨henc, rfl⟩⟩

theorem key?_eq_iff {r r' : SuffixRule} (h : Encodable (r.labels unicodeToLower))
    (h' : Encodable (r'.labels unicodeToLower)) :
    r.key? unicodeToLower = r'.key? unicodeToLower ↔
      r.labels unicodeToLower = r'.labels unicodeToLower := by
  rw [key?_eq_some_iff.mpr ⟨h, rfl⟩, key?_eq_some_iff.mpr ⟨h', rfl⟩, Option.some.injEq]
  exact suffixKey_inj h h'

theorem parsePattern_wildcard {pattern : GoString} (h : [star, dot] <+: pattern) :
    parsePattern pattern = (pattern.drop 2, true) := if_pos h

theorem mem_ruleKeys {rules : List SuffixRule} {k : SuffixKey} :
    k ∈ ruleKeys unicodeToLower rules ↔ ∃ a, Lists unicodeToLower rules k a := by
  rw [ruleKeys, List.mem_toFinset, List.mem_filterMap]
  constructor
  · rintro ⟨r, hr, hk⟩
    exact ⟨r.action, r, hr, hk, rfl⟩
  · rintro ⟨a, r, hr, hk, -⟩
    exact ⟨r, hr, hk⟩

-- Distinct label lists have distinct keys.
theorem ruleKeys_card {rules : List SuffixRule}
    (h : ∀ r ∈ rules, Encodable (r.labels unicodeToLower)) :
    (ruleKeys unicodeToLower rules).card =
      (rules.map fun r => r.labels unicodeToLower).toFinset.card := by
  let toKey : List GoString → SuffixKey := fun ls => ⟨keyOf ls⟩
  have himage : ruleKeys unicodeToLower rules =
      (rules.map fun r => r.labels unicodeToLower).toFinset.image toKey := by
    ext k
    rw [ruleKeys, List.mem_toFinset, List.mem_filterMap, Finset.mem_image]
    constructor
    · rintro ⟨r, hr, hk⟩
      exact ⟨_, List.mem_toFinset.mpr (List.mem_map_of_mem hr), (key?_eq_some_iff.mp hk).2.symm⟩
    · rintro ⟨ls, hls, rfl⟩
      rcases List.mem_map.mp (List.mem_toFinset.mp hls) with ⟨r, hr, rfl⟩
      exact ⟨r, hr, key?_eq_some_iff.mpr ⟨h r hr, rfl⟩⟩
  rw [himage]
  apply Finset.card_image_of_injOn
  intro ls hls ms hms heq
  rw [Finset.mem_coe, List.mem_toFinset, List.mem_map] at hls hms
  rcases hls with ⟨r, hr, rfl⟩
  rcases hms with ⟨r', hr', rfl⟩
  exact (suffixKey_inj (h r hr) (h r' hr')).mp heq

theorem ValidRules.functional {rules : List SuffixRule} (h : ValidRules unicodeToLower rules)
    {k : SuffixKey} {a a' : Action} (ha : Lists unicodeToLower rules k a)
    (ha' : Lists unicodeToLower rules k a') : a = a' := by
  rcases ha with ⟨r, hr, hk, rfl⟩
  rcases ha' with ⟨r', hr', hk', rfl⟩
  exact h.agree r hr r' hr' (hk.trans hk'.symm)

/-! ## The validation loop -/

/-- `desired` holds the binding already, or a rule still to come has it. -/
def Pending (unicodeToLower : GoString → GoString) (desired : ActionMap) (rules : List SuffixRule)
    (k : SuffixKey) (a : Action) : Prop :=
  desired.lookup k = some a ∨ Lists unicodeToLower rules k a

-- Inserting a rule that does not conflict moves its binding from the list into the map.
theorem pending_cons {desired : ActionMap} {r : SuffixRule} (rules : List SuffixRule)
    {key : SuffixKey} (hkey : r.key? unicodeToLower = some key)
    (hfree : ∀ prev, desired.lookup key = some prev → prev = r.action) (k : SuffixKey)
    (a : Action) :
    Pending unicodeToLower (desired.insert key r.action) rules k a ↔
      Pending unicodeToLower desired (r :: rules) k a := by
  have hsplit : Lists unicodeToLower (r :: rules) k a ↔
      (key = k ∧ r.action = a) ∨ Lists unicodeToLower rules k a := by
    unfold Lists
    rw [List.exists_mem_cons_iff, hkey, Option.some.injEq]
  unfold Pending
  rw [hsplit]
  by_cases hk : k = key
  · subst hk
    rw [Finmap.lookup_insert, Option.some.injEq]
    constructor
    · exact fun h => Or.inr (h.imp_left fun h => ⟨rfl, h⟩)
    · rintro (h | h | h)
      · exact Or.inl (hfree a h).symm
      · exact Or.inl h.2
      · exact Or.inr h
  · rw [Finmap.lookup_insert_of_ne _ hk]
    constructor
    · exact fun h => h.imp_right Or.inr
    · rintro (h | h | h)
      · exact Or.inl h
      · exact absurd h.1.symm hk
      · exact Or.inr h

/-- What the loop over `rules` may return when it is entered with `desired`: the map of all
bindings, or an error about a rule of the list. -/
inductive Validated (unicodeToLower : GoString → GoString) (rules : List SuffixRule)
    (desired : ActionMap) : Except RuleError ActionMap → Prop
  | accepted (d : ActionMap) (hvalid : ∀ r ∈ rules, ValidRule unicodeToLower r)
      (hlookup : ∀ k a, d.lookup k = some a ↔ Pending unicodeToLower desired rules k a) :
      Validated unicodeToLower rules desired (.ok d)
  | rejected (e : RuleError) (hnames : ∃ r ∈ rules, e.pattern? = some r.pattern)
      (hbad : ¬ ((∀ r ∈ rules, ValidRule unicodeToLower r) ∧
        ∀ k a a', Pending unicodeToLower desired rules k a →
          Pending unicodeToLower desired rules k a' → a = a')) :
      Validated unicodeToLower rules desired (.error e)

-- A rule that is not valid on its own ends the loop.
theorem Validated.reject {r : SuffixRule} {rules : List SuffixRule} {desired : ActionMap}
    {e : RuleError} (hp : e.pattern? = some r.pattern) (hbad : ¬ ValidRule unicodeToLower r) :
    Validated unicodeToLower (r :: rules) desired (.error e) :=
  .rejected e ⟨r, List.mem_cons_self, hp⟩ fun h => hbad (h.1 r List.mem_cons_self)

-- Without a conflict the loop goes on with the binding inserted.
theorem Validated.cons {r : SuffixRule} {rules : List SuffixRule} {desired : ActionMap}
    {key : SuffixKey} {o : Except RuleError ActionMap} (hr : ValidRule unicodeToLower r)
    (hkey : r.key? unicodeToLower = some key)
    (hfree : ∀ prev, desired.lookup key = some prev → prev = r.action)
    (h : Validated unicodeToLower rules (desired.insert key r.action) o) :
    Validated unicodeToLower (r :: rules) desired o := by
  have hpend := pending_cons rules hkey hfree
  cases h with
  | accepted d hvalid hlookup =>
      refine .accepted d (fun r' hr' => ?_) fun k a => (hlookup k a).trans (hpend k a)
      rcases List.mem_cons.mp hr' with rfl | hr'
      · exact hr
      · exact hvalid r' hr'
  | rejected e hnames hbad =>
      rcases hnames with ⟨r', hr', hp⟩
      refine .rejected e ⟨r', List.mem_cons_of_mem r hr', hp⟩ fun h => hbad ⟨fun r' hr' =>
        h.1 r' (List.mem_cons_of_mem r hr'), fun k a a' ha ha' => ?_⟩
      exact h.2 k a a' ((hpend k a).mp ha) ((hpend k a').mp ha')

-- The loop accepts exactly the valid rules without conflicts.
theorem buildDesired_validated (unicodeToLower : GoString → GoString) (rules : List SuffixRule)
    (desired : ActionMap) :
    Validated unicodeToLower rules desired (buildDesired unicodeToLower rules desired) := by
  induction rules generalizing desired with
  | nil =>
      refine .accepted desired (fun r hr => absurd hr List.not_mem_nil) fun k a => ?_
      exact ⟨Or.inl, fun h => h.resolve_right fun ⟨r, hr, _⟩ => absurd hr List.not_mem_nil⟩
  | cons r rules ih =>
      rw [buildDesired]
      split
      · rename_i haction
        exact .reject rfl fun h => h.action.elim haction.1 haction.2
      · rename_i haction
        by_cases hwild : [star, dot] <+: r.pattern
        · rw [parsePattern_wildcard hwild]
          dsimp only
          rw [if_neg (by decide)]
          split
          · rename_i hstar
            exact .reject rfl fun h => h.plain hstar
          · rename_i hplain
            have hkey : r.key? unicodeToLower =
                match encodeSuffix unicodeToLower (r.pattern.drop 2) with
                | .ok key => some ⟨key⟩
                | .error _ => none := by
              rw [SuffixRule.key?, parsePattern_wildcard hwild]
            split
            · rename_i e he
              rw [he] at hkey
              exact .reject rfl fun h => h.encodes hkey
            · rename_i key hok
              rw [hok] at hkey
              have hvalid : ValidRule unicodeToLower r :=
                ⟨by rwa [not_and_or, not_not, not_not] at haction, hwild, hplain,
                  by rw [hkey]; exact Option.some_ne_none _⟩
              split
              · rename_i prev hprev
                split
                · rename_i hne
                  refine .rejected _ ⟨r, List.mem_cons_self, rfl⟩ fun h => hne ?_
                  exact h.2 ⟨key⟩ prev r.action (Or.inl hprev)
                    (Or.inr ⟨r, List.mem_cons_self, hkey, rfl⟩)
                · rename_i heq
                  refine (ih _).cons hvalid hkey fun p hp => ?_
                  rw [hprev, Option.some.injEq] at hp
                  exact hp ▸ not_not.mp heq
              · rename_i hnone
                refine (ih _).cons hvalid hkey fun p hp => ?_
                rw [hnone] at hp
                cases hp
        · rw [show parsePattern r.pattern = (r.pattern, false) from if_neg hwild]
          exact .reject rfl fun h => hwild h.wildcard

theorem pending_empty {rules : List SuffixRule} {k : SuffixKey} {a : Action} :
    Pending unicodeToLower ∅ rules k a ↔ Lists unicodeToLower rules k a := by
  rw [Pending, Finmap.lookup_empty]
  exact ⟨fun h => h.resolve_left fun hn => (by cases hn), Or.inr⟩

-- The map the write loops work towards.
theorem buildDesired_ok {rules : List SuffixRule} {d : ActionMap}
    (h : buildDesired unicodeToLower rules ∅ = .ok d) :
    ValidRules unicodeToLower rules ∧
      ∀ k a, d.lookup k = some a ↔ Lists unicodeToLower rules k a := by
  have hv := buildDesired_validated unicodeToLower rules ∅
  rw [h] at hv
  cases hv with
  | accepted _ hvalid hlookup =>
      have hl : ∀ k a, d.lookup k = some a ↔ Lists unicodeToLower rules k a :=
        fun k a => (hlookup k a).trans pending_empty
      refine ⟨⟨hvalid, fun r hr r' hr' hk => ?_⟩, hl⟩
      rcases Option.ne_none_iff_exists'.mp (hvalid r hr).encodes with ⟨key, hkey⟩
      have h1 := (hl key r.action).mpr ⟨r, hr, hkey, rfl⟩
      have h2 := (hl key r'.action).mpr ⟨r', hr', hk ▸ hkey, rfl⟩
      exact Option.some.inj (h1.symm.trans h2)

theorem buildDesired_error {rules : List SuffixRule} {e : RuleError}
    (h : buildDesired unicodeToLower rules ∅ = .error e) :
    (∃ r ∈ rules, e.pattern? = some r.pattern) ∧ ¬ ValidRules unicodeToLower rules := by
  have hv := buildDesired_validated unicodeToLower rules ∅
  rw [h] at hv
  cases hv with
  | rejected _ hnames hbad =>
      exact ⟨hnames, fun hr => hbad ⟨hr.each, fun k a a' ha ha' =>
        hr.functional (pending_empty.mp ha) (pending_empty.mp ha')⟩⟩

/-! ## The write loops -/

theorem foldl_insert_lookup (entries : List (SuffixKey × SuffixValue)) (existing : ActionMap)
    (hnodup : (entries.map Prod.fst).Nodup) (k : SuffixKey) (a : Action) :
    (entries.foldl (fun m e => m.insert e.1 e.2.action) existing).lookup k = some a ↔
      (∃ v, (k, v) ∈ entries ∧ v.action = a) ∨
        (k ∉ entries.map Prod.fst ∧ existing.lookup k = some a) := by
  induction entries generalizing existing with
  | nil => simp only [List.foldl_nil, List.map_nil, List.not_mem_nil, false_and, exists_false,
      false_or, not_false_eq_true, true_and]
  | cons e entries ih =>
      rcases List.nodup_cons.mp hnodup with ⟨hnot, hrest⟩
      rw [List.foldl_cons, ih _ hrest]
      by_cases hk : k = e.1
      · subst hk
        have hnone : ∀ v, (e.1, v) ∉ entries := fun v hv =>
          hnot (List.mem_map.mpr ⟨_, hv, rfl⟩)
        simp only [Finmap.lookup_insert, Option.some.injEq, hnone, false_and, exists_false,
          false_or, hnot, not_false_eq_true, true_and, List.mem_cons, List.map_cons,
          not_true_eq_false, or_false, Prod.ext_iff, exists_eq_left]
      · rw [Finmap.lookup_insert_of_ne _ hk]
        simp only [List.mem_cons, List.map_cons, Prod.ext_iff, hk, false_and, false_or]

-- The snapshot has the actions of the table.
theorem snapshot_lookup (order : RangeOrder SuffixKey SuffixValue) (t : SuffixRules)
    (k : SuffixKey) :
    (snapshot (order.visit t.entries)).lookup k = (t.lookup k).map SuffixValue.action := by
  ext a
  rw [snapshot, foldl_insert_lookup _ _ (order.nodup _), Option.map_eq_some_iff,
    Finmap.lookup_empty]
  simp only [order.mem_iff, reduceCtorEq, and_false, or_false]
  rfl

section Writes

variable (old : SuffixRules) (desired : ActionMap)

/-- The content the write loops work towards: a key whose action is right already keeps its
value. -/
def goal (k : SuffixKey) : Option SuffixValue :=
  match desired.lookup k with
  | none => none
  | some a => if (old.lookup k).map SuffixValue.action = some a then old.lookup k
      else some { action := a }

theorem goal_action (k : SuffixKey) :
    (goal old desired k).map SuffixValue.action = desired.lookup k := by
  unfold goal
  split
  · rename_i hnone
    exact hnone.symm
  · rename_i a hsome
    split
    · rename_i hsame
      rw [hsame, hsome]
    · exact hsome.symm

theorem goal_of_not_mem {k : SuffixKey} (hk : k ∉ desired) : goal old desired k = none := by
  rw [goal, Finmap.lookup_eq_none.mpr hk]

theorem mem_of_goal {k : SuffixKey} (hk : goal old desired k ≠ none) : k ∈ desired := by
  by_contra hn
  exact hk (goal_of_not_mem old desired hn)

variable {old desired} {existing : ActionMap}
  (hexisting : ∀ k, existing.lookup k = (old.lookup k).map SuffixValue.action)

include hexisting

theorem goal_of_same {k : SuffixKey} {a : Action} (hk : desired.lookup k = some a)
    (hsame : existing.lookup k = some a) : goal old desired k = old.lookup k := by
  rw [goal, hk]
  dsimp only
  rw [← hexisting, if_pos hsame]

theorem goal_of_changed {k : SuffixKey} {a : Action} (hk : desired.lookup k = some a)
    (hne : existing.lookup k ≠ some a) : goal old desired k = some { action := a } := by
  rw [goal, hk]
  dsimp only
  rw [← hexisting, if_neg hne]

-- Whatever fails, the second loop writes only goal values.
theorem applyDesired_between (ops : MapOps) {entries : List (SuffixKey × Action)} {t : SuffixRules}
    (hentries : ∀ e ∈ entries, desired.lookup e.1 = some e.2)
    (ht : t.Between old.lookup (goal old desired)) :
    ∀ t' ∈ (applyDesired ops existing entries t).writes,
      t'.Between old.lookup (goal old desired) := by
  induction entries generalizing t with
  | nil => exact fun t' ht' => absurd ht' List.not_mem_nil
  | cons e entries ih =>
      rcases e with ⟨key, action⟩
      have hkey := hentries _ List.mem_cons_self
      have hrest := fun e he => hentries e (List.mem_cons_of_mem _ he)
      rw [applyDesired]
      split
      · exact ih hrest ht
      · rename_i hchanged
        split
        · exact fun t' ht' => absurd ht' List.not_mem_nil
        · rename_i t1 hupdate
          split at hupdate
          · have h1 := ht.update hupdate (goal_of_changed hexisting hkey hchanged)
            intro t' ht'
            rcases List.mem_cons.mp ht' with rfl | ht'
            · exact h1
            · exact ih hrest h1 t' ht'
          · cases hupdate

-- Whatever fails, every table on the way has each key at its old or its goal value.
theorem reconcile_between (ops : MapOps) (order : RangeOrder SuffixKey Action)
    {entries : List (SuffixKey × Action)} {t : SuffixRules}
    (ht : t.Between old.lookup (goal old desired)) :
    ∀ t' ∈ (reconcile ops order existing desired entries t).writes,
      t'.Between old.lookup (goal old desired) := by
  induction entries generalizing t with
  | nil => exact applyDesired_between hexisting ops (fun e he => (order.mem_iff _ _ _).mp he) ht
  | cons e entries ih =>
      rw [reconcile]
      split
      · exact ih ht
      · rename_i hstale
        split
        · split
          · exact ih ht
          · rename_i t1 hdelete
            have h1 := ht.delete hdelete (goal_of_not_mem old desired hstale)
            intro t' ht'
            rcases List.mem_cons.mp ht' with rfl | ht'
            · exact h1
            · exact ih h1 t' ht'
        · exact fun t' ht' => absurd ht' List.not_mem_nil

omit hexisting in
/-- The keys `ks` still have their old value, all others have reached the goal. -/
def Todo (old : SuffixRules) (desired : ActionMap) (ks : List SuffixKey) (t : SuffixRules) : Prop :=
  ∀ k, t.lookup k = if k ∈ ks then old.lookup k else goal old desired k

omit hexisting in
theorem Todo.step {key : SuffixKey} {ks : List SuffixKey} {t t' : SuffixRules}
    (h : Todo old desired (key :: ks) t) (hnot : key ∉ ks)
    (hkey : t'.lookup key = goal old desired key)
    (hsame : ∀ k, k ≠ key → t'.lookup k = t.lookup k) : Todo old desired ks t' := by
  intro k
  by_cases hk : k = key
  · subst hk
    rw [hkey, if_neg hnot]
  · rw [hsame k hk, h k]
    simp only [List.mem_cons, hk, false_or]

-- A key whose action is right is left alone.
theorem Todo.skip {key : SuffixKey} {action : Action} {ks : List SuffixKey} {t : SuffixRules}
    (h : Todo old desired (key :: ks) t) (hnot : key ∉ ks)
    (hkey : desired.lookup key = some action) (hsame : existing.lookup key = some action) :
    Todo old desired ks t := by
  apply h.step hnot
  · rw [h key, if_pos List.mem_cons_self, goal_of_same hexisting hkey hsame]
  · exact fun _ _ => rfl

-- Any other key is written.
theorem Todo.write {key : SuffixKey} {action : Action} {ks : List SuffixKey} {t t' : SuffixRules}
    (h : Todo old desired (key :: ks) t) (hnot : key ∉ ks)
    (hkey : desired.lookup key = some action) (hchanged : existing.lookup key ≠ some action)
    (hupdate : t.update key { action := action } = some t') : Todo old desired ks t' := by
  have hlook := HashTable.update_lookup hupdate
  apply h.step hnot
  · rw [hlook key, if_pos rfl, goal_of_changed hexisting hkey hchanged]
  · intro k hk
    rw [hlook k, if_neg hk]

-- A second loop without an error ends at the goal.
theorem applyDesired_final (ops : MapOps) {entries : List (SuffixKey × Action)} {t : SuffixRules}
    (hnodup : (entries.map Prod.fst).Nodup)
    (hentries : ∀ e ∈ entries, desired.lookup e.1 = some e.2)
    (ht : Todo old desired (entries.map Prod.fst) t)
    (hok : (applyDesired ops existing entries t).err = none) (k : SuffixKey) :
    ((applyDesired ops existing entries t).final t).lookup k = goal old desired k := by
  induction entries generalizing t with
  | nil => exact (ht k).trans (if_neg List.not_mem_nil)
  | cons e entries ih =>
      rcases e with ⟨key, action⟩
      rcases List.nodup_cons.mp hnodup with ⟨hnot, hrest⟩
      have hkey := hentries _ List.mem_cons_self
      have hmore := fun e he => hentries e (List.mem_cons_of_mem _ he)
      rw [applyDesired] at hok ⊢
      split at hok
      · rename_i hsame
        rw [if_pos hsame]
        exact ih hrest hmore (ht.skip hexisting hnot hkey hsame) hok
      · rename_i hchanged
        rw [if_neg hchanged]
        split at hok
        · cases hok
        · rename_i t1 hupdate
          split at hupdate
          · have h1 := ht.write hexisting hnot hkey hchanged hupdate
            change (List.getLastD (t1 :: _) t).lookup k = _
            rw [List.getLastD_cons]
            exact ih hrest hmore h1 hok
          · cases hupdate

-- With room for the desired keys the second loop has no error.
theorem applyDesired_ok {entries : List (SuffixKey × Action)} {t : SuffixRules}
    (hnodup : (entries.map Prod.fst).Nodup)
    (hentries : ∀ e ∈ entries, desired.lookup e.1 = some e.2)
    (ht : Todo old desired (entries.map Prod.fst) t) (hroom : desired.keys.card ≤ 1024) :
    (applyDesired .reliable existing entries t).err = none := by
  induction entries generalizing t with
  | nil => rfl
  | cons e entries ih =>
      rcases e with ⟨key, action⟩
      rcases List.nodup_cons.mp hnodup with ⟨hnot, hrest⟩
      have hkey := hentries _ List.mem_cons_self
      have hmore := fun e he => hentries e (List.mem_cons_of_mem _ he)
      -- Every key of the table is a desired one, so a missing desired key has a free slot.
      have hcover : ∀ x, t.lookup x ≠ none → x ∈ desired.keys := by
        intro x hx
        rw [ht x] at hx
        split at hx
        · rename_i hmem
          rcases List.mem_map.mp hmem with ⟨e', he', rfl⟩
          exact Finmap.mem_keys.mpr (Finmap.mem_of_lookup_eq_some (hentries e' he'))
        · exact Finmap.mem_keys.mpr (mem_of_goal old desired hx)
      rw [applyDesired]
      split
      · rename_i hsame
        exact ih hrest hmore (ht.skip hexisting hnot hkey hsame)
      · rename_i hchanged
        rw [if_pos (show MapOps.reliable.update key = true from rfl)]
        split
        · rename_i hfull
          rcases HashTable.update_eq_none_iff.mp hfull with ⟨hmiss, hsize⟩
          have hlt := HashTable.size_lt_of_missing hcover
            (Finmap.mem_keys.mpr (Finmap.mem_of_lookup_eq_some hkey)) hmiss
          omega
        · rename_i t1 hupdate
          exact ih hrest hmore (ht.write hexisting hnot hkey hchanged hupdate)

omit hexisting in
/-- In the first loop: stale keys not visited yet and desired keys have their old value, all other
keys are gone. -/
def StaleLeft (old : SuffixRules) (desired : ActionMap) (ks : List SuffixKey) (t : SuffixRules) :
    Prop :=
  ∀ k, t.lookup k = if k ∈ desired ∨ k ∈ ks then old.lookup k else none

omit hexisting in
theorem StaleLeft.keep {key : SuffixKey} {ks : List SuffixKey} {t : SuffixRules}
    (h : StaleLeft old desired (key :: ks) t) (hkey : key ∈ desired) :
    StaleLeft old desired ks t := by
  intro k
  rw [h k]
  by_cases hk : k = key
  · subst hk
    rw [if_pos (Or.inl hkey), if_pos (Or.inl hkey)]
  · simp only [List.mem_cons, hk, false_or]

omit hexisting in
theorem StaleLeft.drop {key : SuffixKey} {ks : List SuffixKey} {t t' : SuffixRules}
    (h : StaleLeft old desired (key :: ks) t) (hkey : key ∉ desired) (hnot : key ∉ ks)
    (hgone : t'.lookup key = none) (hsame : ∀ k, k ≠ key → t'.lookup k = t.lookup k) :
    StaleLeft old desired ks t' := by
  intro k
  by_cases hk : k = key
  · subst hk
    rw [hgone, if_neg (not_or.mpr ⟨hkey, hnot⟩)]
  · rw [hsame k hk, h k]
    simp only [List.mem_cons, hk, false_or]

omit hexisting in
-- A stale key is gone after its turn, whether the delete finds it or not.
theorem StaleLeft.delete {key : SuffixKey} {ks : List SuffixKey} {t t' : SuffixRules}
    (h : StaleLeft old desired (key :: ks) t) (hkey : key ∉ desired) (hnot : key ∉ ks)
    (hdelete : t.delete key = some t') : StaleLeft old desired ks t' := by
  have hlook := HashTable.delete_lookup hdelete
  apply h.drop hkey hnot
  · rw [hlook key, if_pos rfl]
  · intro k hk
    rw [hlook k, if_neg hk]

omit hexisting in
theorem StaleLeft.absent {key : SuffixKey} {ks : List SuffixKey} {t : SuffixRules}
    (h : StaleLeft old desired (key :: ks) t) (hkey : key ∉ desired) (hnot : key ∉ ks)
    (hgone : t.delete key = none) : StaleLeft old desired ks t :=
  h.drop hkey hnot (HashTable.delete_eq_none_iff.mp hgone) fun _ _ => rfl

omit hexisting in
theorem StaleLeft.todo {order : RangeOrder SuffixKey Action} {t : SuffixRules}
    (h : StaleLeft old desired [] t) :
    Todo old desired ((order.visit desired).map Prod.fst) t := by
  have hmem : ∀ k, k ∈ (order.visit desired).map Prod.fst ↔ k ∈ desired := by
    intro k
    rw [List.mem_map, Finmap.mem_iff]
    constructor
    · rintro ⟨e, he, rfl⟩
      exact ⟨e.2, (order.mem_iff _ _ _).mp he⟩
    · rintro ⟨a, ha⟩
      exact ⟨(k, a), (order.mem_iff _ _ _).mpr ha, rfl⟩
  intro k
  rw [h k]
  simp only [List.not_mem_nil, or_false, hmem]
  split
  · rfl
  · rename_i hk
    exact (goal_of_not_mem old desired hk).symm

-- Both loops, as a step from the delete of one key on.
theorem reconcile_final (ops : MapOps) (order : RangeOrder SuffixKey Action)
    {entries : List (SuffixKey × Action)} {t : SuffixRules}
    (hnodup : (entries.map Prod.fst).Nodup) (ht : StaleLeft old desired (entries.map Prod.fst) t)
    (hok : (reconcile ops order existing desired entries t).err = none) (k : SuffixKey) :
    ((reconcile ops order existing desired entries t).final t).lookup k = goal old desired k := by
  induction entries generalizing t with
  | nil =>
      exact applyDesired_final hexisting ops (order.nodup desired)
        (fun e he => (order.mem_iff _ _ _).mp he) ht.todo hok k
  | cons e entries ih =>
      rcases e with ⟨key, action⟩
      rcases List.nodup_cons.mp hnodup with ⟨hnot, hrest⟩
      rw [reconcile] at hok ⊢
      split at hok
      · rename_i hkey
        rw [if_pos hkey]
        exact ih hrest (ht.keep hkey) hok
      · rename_i hkey
        rw [if_neg hkey]
        split at hok
        · rename_i hlet
          rw [if_pos hlet]
          split at hok
          · rename_i hgone
            exact ih hrest (ht.absent hkey hnot hgone) hok
          · rename_i t1 hdelete
            change (List.getLastD (t1 :: _) t).lookup k = _
            rw [List.getLastD_cons]
            exact ih hrest (ht.delete hkey hnot hdelete) hok
        · cases hok

theorem reconcile_ok (order : RangeOrder SuffixKey Action)
    {entries : List (SuffixKey × Action)} {t : SuffixRules}
    (hnodup : (entries.map Prod.fst).Nodup) (ht : StaleLeft old desired (entries.map Prod.fst) t)
    (hroom : desired.keys.card ≤ 1024) :
    (reconcile .reliable order existing desired entries t).err = none := by
  induction entries generalizing t with
  | nil =>
      exact applyDesired_ok hexisting (order.nodup desired)
        (fun e he => (order.mem_iff _ _ _).mp he) ht.todo hroom
  | cons e entries ih =>
      rcases e with ⟨key, action⟩
      rcases List.nodup_cons.mp hnodup with ⟨hnot, hrest⟩
      rw [reconcile]
      split
      · rename_i hkey
        exact ih hrest (ht.keep hkey)
      · rename_i hkey
        rw [if_pos (show MapOps.reliable.delete key = true from rfl)]
        split
        · rename_i hgone
          exact ih hrest (ht.absent hkey hnot hgone)
        · rename_i t1 hdelete
          exact ih hrest (ht.delete hkey hnot hdelete)

-- Before the first loop nothing has been deleted.
theorem staleLeft_start (order : RangeOrder SuffixKey Action) :
    StaleLeft old desired ((order.visit existing).map Prod.fst) old := by
  intro k
  split
  · rfl
  · rename_i hk
    rw [not_or] at hk
    have hnone : existing.lookup k = none := by
      rw [Option.eq_none_iff_forall_not_mem]
      intro a ha
      exact hk.2 (List.mem_map.mpr ⟨(k, a), (order.mem_iff _ _ _).mpr ha, rfl⟩)
    rw [hexisting, Option.map_eq_none_iff] at hnone
    exact hnone

end Writes

/-! ## The whole call -/

-- A call without an error was given valid rules and leaves every key at its goal.
theorem populateSuffixRules_final {ops : MapOps} {orders : Orders} {rules : List SuffixRule}
    {t : SuffixRules} (h : (populateSuffixRules unicodeToLower ops orders rules t).err = none) :
    ∃ desired, buildDesired unicodeToLower rules ∅ = .ok desired ∧
      ∀ k, ((populateSuffixRules unicodeToLower ops orders rules t).final t).lookup k =
        goal t desired k := by
  unfold populateSuffixRules at h ⊢
  split at h
  · cases h
  · rename_i desired hdesired
    refine ⟨desired, hdesired, fun k => ?_⟩
    split at h
    · rename_i hiter
      rw [if_pos hiter]
      have hexisting := snapshot_lookup orders.table t
      exact reconcile_final hexisting ops orders.desired (orders.existing.nodup _)
        (staleLeft_start hexisting orders.existing) h k
    · cases h

-- After a call without an error the table holds exactly the listed keys with their actions.
theorem populateSuffixRules_lists {ops : MapOps} {orders : Orders} {rules : List SuffixRule}
    {t : SuffixRules} (h : (populateSuffixRules unicodeToLower ops orders rules t).err = none)
    (k : SuffixKey) (a : Action) :
    (((populateSuffixRules unicodeToLower ops orders rules t).final t).lookup k).map
      SuffixValue.action = some a ↔ Lists unicodeToLower rules k a := by
  rcases populateSuffixRules_final h with ⟨desired, hdesired, hfinal⟩
  rw [hfinal, goal_action, (buildDesired_ok hdesired).2]

theorem keys_eq_ruleKeys {rules : List SuffixRule} {desired : ActionMap}
    (h : ∀ k a, desired.lookup k = some a ↔ Lists unicodeToLower rules k a) :
    desired.keys = ruleKeys unicodeToLower rules := by
  ext k
  rw [Finmap.mem_keys, Finmap.mem_iff, mem_ruleKeys]
  exact exists_congr fun a => h k a

-- When the operations fail only for lack of room, the call succeeds exactly on valid rules with at
-- most 1024 distinct keys.
theorem populateSuffixRules_ok_iff (orders : Orders) (rules : List SuffixRule) (t : SuffixRules) :
    (populateSuffixRules unicodeToLower .reliable orders rules t).err = none ↔
      ValidRules unicodeToLower rules ∧ (ruleKeys unicodeToLower rules).card ≤ 1024 := by
  constructor
  · intro h
    rcases populateSuffixRules_final h with ⟨desired, hdesired, hfinal⟩
    rcases buildDesired_ok hdesired with ⟨hvalid, hlookup⟩
    refine ⟨hvalid, ?_⟩
    -- The table itself respects the bound, and its keys are the desired ones.
    rw [← keys_eq_ruleKeys hlookup]
    refine le_trans (le_of_eq (congrArg Finset.card ?_))
      ((populateSuffixRules unicodeToLower .reliable orders rules t).final t).size_le
    ext k
    rw [Finmap.mem_keys, Finmap.mem_keys, HashTable.mem_iff_lookup, hfinal,
      ← Option.isSome_iff_ne_none, ← Option.isSome_map (f := SuffixValue.action), goal_action,
      Finmap.lookup_isSome]
  · rintro ⟨hvalid, hroom⟩
    unfold populateSuffixRules
    split
    · rename_i e he
      exact absurd hvalid (buildDesired_error he).2
    · rename_i desired hdesired
      rw [← keys_eq_ruleKeys (buildDesired_ok hdesired).2] at hroom
      have hexisting := snapshot_lookup orders.table t
      exact reconcile_ok hexisting orders.desired (orders.existing.nodup _)
        (staleLeft_start hexisting orders.existing) hroom

-- The write loops report map errors only.
theorem applyDesired_err {ops : MapOps} {existing : ActionMap}
    {entries : List (SuffixKey × Action)} {t : SuffixRules} {e : RuleError}
    (h : (applyDesired ops existing entries t).err = some e) : e.pattern? = none := by
  induction entries generalizing t with
  | nil => cases h
  | cons _ entries ih =>
      rw [applyDesired] at h
      split at h
      · exact ih h
      · split at h
        · cases h
          rfl
        · exact ih h

theorem reconcile_err {ops : MapOps} {order : RangeOrder SuffixKey Action}
    {existing desired : ActionMap} {entries : List (SuffixKey × Action)} {t : SuffixRules}
    {e : RuleError} (h : (reconcile ops order existing desired entries t).err = some e) :
    e.pattern? = none := by
  induction entries generalizing t with
  | nil => exact applyDesired_err h
  | cons _ entries ih =>
      rw [reconcile] at h
      split at h
      · exact ih h
      · split at h
        · split at h
          · exact ih h
          · exact ih h
        · cases h
          rfl

-- A validation error comes before any write.
theorem populateSuffixRules_untouched {ops : MapOps} {orders : Orders} {rules : List SuffixRule}
    {t : SuffixRules} {e : RuleError} {p : GoString}
    (herr : (populateSuffixRules unicodeToLower ops orders rules t).err = some e)
    (hp : e.pattern? = some p) :
    (populateSuffixRules unicodeToLower ops orders rules t).writes = [] := by
  unfold populateSuffixRules at herr ⊢
  split at herr
  · rfl
  · split at herr
    · rw [reconcile_err herr] at hp
      cases hp
    · rename_i hiter
      rw [if_neg hiter]

-- Listing the same rules in another order, or more than once, changes nothing.
theorem populateSuffixRules_congr {orders orders' : Orders} {rules rules' : List SuffixRule}
    {t : SuffixRules} (hmem : ∀ r, r ∈ rules' ↔ r ∈ rules)
    (hok : (populateSuffixRules unicodeToLower .reliable orders rules t).err = none) :
    (populateSuffixRules unicodeToLower .reliable orders' rules' t).err = none ∧
      (populateSuffixRules unicodeToLower .reliable orders' rules' t).final t =
        (populateSuffixRules unicodeToLower .reliable orders rules t).final t := by
  have hlists : ∀ k a, Lists unicodeToLower rules' k a ↔ Lists unicodeToLower rules k a :=
    fun k a => exists_congr fun r => and_congr_left fun _ => hmem r
  have hok' : (populateSuffixRules unicodeToLower .reliable orders' rules' t).err = none := by
    rcases (populateSuffixRules_ok_iff orders rules t).mp hok with ⟨hvalid, hroom⟩
    refine (populateSuffixRules_ok_iff orders' rules' t).mpr ⟨⟨fun r hr =>
      hvalid.each r ((hmem r).mp hr), fun r hr r' hr' =>
      hvalid.agree r ((hmem r).mp hr) r' ((hmem r').mp hr')⟩, ?_⟩
    have hkeys : ruleKeys unicodeToLower rules' = ruleKeys unicodeToLower rules := by
      ext k
      rw [mem_ruleKeys, mem_ruleKeys]
      exact exists_congr fun a => hlists k a
    rw [hkeys]
    exact hroom
  refine ⟨hok', HashTable.ext fun k => ?_⟩
  rcases populateSuffixRules_final hok with ⟨d, hd, hfinal⟩
  rcases populateSuffixRules_final hok' with ⟨d', hd', hfinal'⟩
  have hdd : d' = d := Finmap.ext_lookup fun k => Option.ext fun a => by
    rw [(buildDesired_ok hd').2, (buildDesired_ok hd).2, hlists]
  rw [hfinal, hfinal', hdd]

/-- What `PopulateSuffixRules` promises about a call on the table `t`. -/
structure Reconciles (unicodeToLower : GoString → GoString) (rules : List SuffixRule)
    (t : SuffixRules) (r : Reconciled) : Prop where
  succeeds_iff : r.err = none ↔
    (∀ rule ∈ rules, ValidRule unicodeToLower rule) ∧
    (∀ rule ∈ rules, ∀ rule' ∈ rules,
      rule.key? unicodeToLower = rule'.key? unicodeToLower → rule.action = rule'.action) ∧
    (ruleKeys unicodeToLower rules).card ≤ 1024
  content : r.err = none → ∀ k a,
    ((r.final t).lookup k).map SuffixValue.action = some a ↔
      ∃ rule ∈ rules, rule.key? unicodeToLower = some k ∧ rule.action = a
  rejects : ¬ ValidRules unicodeToLower rules →
    ∃ e, r.err = some e ∧ ∃ rule ∈ rules, e.pattern? = some rule.pattern
  untouched : ∀ e p, r.err = some e → e.pattern? = some p → r.writes = []
  between : r.err = none → ∀ t' ∈ r.writes, ∀ k,
    t'.lookup k = t.lookup k ∨ t'.lookup k = (r.final t).lookup k

/-- `PopulateSuffixRules` keeps its promises on every table, for every rule list and in every
iteration order, and its result does not depend on the order and multiplicity of the rules. -/
theorem populateSuffixRules_reconciles (unicodeToLower : GoString → GoString) (orders : Orders)
    (rules : List SuffixRule) (t : SuffixRules) :
    Reconciles unicodeToLower rules t
      (populateSuffixRules unicodeToLower .reliable orders rules t) ∧
    ∀ (orders' : Orders) (rules' : List SuffixRule), (∀ rule, rule ∈ rules' ↔ rule ∈ rules) →
      ((populateSuffixRules unicodeToLower .reliable orders' rules' t).err = none ↔
        (populateSuffixRules unicodeToLower .reliable orders rules t).err = none) ∧
      ((populateSuffixRules unicodeToLower .reliable orders rules t).err = none →
        (populateSuffixRules unicodeToLower .reliable orders' rules' t).final t =
          (populateSuffixRules unicodeToLower .reliable orders rules t).final t) := by
  refine ⟨⟨?_, fun h k a => populateSuffixRules_lists h k a, fun hbad => ?_,
    fun e p herr hp => populateSuffixRules_untouched herr hp, fun h t' ht' k => ?_⟩,
    fun orders' rules' hmem => ⟨⟨fun h => ?_, fun h => ?_⟩, fun h => ?_⟩⟩
  · rw [populateSuffixRules_ok_iff, ← and_assoc]
    exact and_congr_left fun _ => ⟨fun h => ⟨h.each, h.agree⟩, fun h => ⟨h.1, h.2⟩⟩
  · unfold populateSuffixRules
    split
    · rename_i e he
      exact ⟨e, rfl, (buildDesired_error he).1⟩
    · rename_i d hd
      exact absurd (buildDesired_ok hd).1 hbad
  · rcases populateSuffixRules_final h with ⟨desired, hdesired, hfinal⟩
    rw [hfinal]
    unfold populateSuffixRules at ht'
    rw [hdesired] at ht'
    exact reconcile_between (snapshot_lookup orders.table t) .reliable orders.desired
      (fun k => Or.inl rfl) t' ht' k
  · exact (populateSuffixRules_congr (fun r => (hmem r).symm) h).1
  · exact (populateSuffixRules_congr hmem h).1
  · exact (populateSuffixRules_congr hmem h).2

end DnsGateway.Ebpf
