import DnsGateway.Reasoning.History

/-!
# Programs that share a memory

A program is cut at its accesses to a memory that it shares with others.  Between two of its
accesses the others move; `env` is what they may do.  A machine runs programs on its threads, one
access of one thread at a time.
-/

namespace DnsGateway.Reasoning

inductive Prog (Op : Type) (Ans : Op → Type) (α : Type) where
  | ret (a : α)
  | access (o : Op) (k : Ans o → Prog Op Ans α)

variable {Op : Type} {Ans : Op → Type} {α β σ : Type}

def Prog.bind : Prog Op Ans α → (α → Prog Op Ans β) → Prog Op Ans β
  | .ret a, f => f a
  | .access o k, f => .access o fun x => (k x).bind f

instance : Monad (Prog Op Ans) where
  pure := .ret
  bind := .bind

/-- The program that makes one access. -/
def perform (o : Op) : Prog Op Ans (Ans o) := .access o .ret

/-- The program alone: its accesses, its result and the memory behind it. -/
def Prog.run (exec : (o : Op) → σ → Ans o × σ) : Prog Op Ans α → σ → List Op × α × σ
  | .ret a, m => ([], a, m)
  | .access o k, m =>
      let r := (k (exec o m).1).run exec (exec o m).2
      (o :: r.1, r.2)

/-! ## Runs among others -/

/-- A run of a program from the memory `m` to `m'`, with its accesses; around them the others
move. -/
inductive Runs (exec : (o : Op) → σ → Ans o × σ) (env : σ → σ → Prop) :
    Prog Op Ans α → σ → List Op → α → σ → Prop where
  | ret {a : α} {m m' : σ} (hmove : env m m') : Runs exec env (.ret a) m [] a m'
  | access {o : Op} {k : Ans o → Prog Op Ans α} {m m₁ m' : σ} {ops : List Op} {a : α}
      (hmove : env m m₁)
      (h : Runs exec env (k (exec o m₁).1) (exec o m₁).2 ops a m') :
      Runs exec env (.access o k) m (o :: ops) a m'

/-- A run that has got as far as `q`. -/
inductive Reaches (exec : (o : Op) → σ → Ans o × σ) (env : σ → σ → Prop) (p : Prog Op Ans α)
    (m : σ) : List Op → Prog Op Ans α → σ → Prop where
  | refl : Reaches exec env p m [] p m
  | move {ops : List Op} {q : Prog Op Ans α} {m₁ m₂ : σ} (h : Reaches exec env p m ops q m₁)
      (hmove : env m₁ m₂) : Reaches exec env p m ops q m₂
  | access {ops : List Op} {o : Op} {k : Ans o → Prog Op Ans α} {m₁ : σ}
      (h : Reaches exec env p m ops (.access o k) m₁) :
      Reaches exec env p m (ops ++ [o]) (k (exec o m₁).1) (exec o m₁).2

section Runs

variable {exec : (o : Op) → σ → Ans o × σ} {env : σ → σ → Prop}

theorem runs_pure {a b : α} {m m' : σ} {ops : List Op} :
    Runs exec env (pure a) m ops b m' ↔ ops = [] ∧ b = a ∧ env m m' := by
  constructor
  · intro h
    cases h with
    | ret hmove => exact ⟨rfl, rfl, hmove⟩
  · rintro ⟨rfl, rfl, hmove⟩
    exact .ret hmove

theorem runs_access {o : Op} {k : Ans o → Prog Op Ans α} {m m' : σ} {ops : List Op} {a : α} :
    Runs exec env (.access o k) m ops a m' ↔
      ∃ m₁ ops', env m m₁ ∧ ops = o :: ops' ∧
        Runs exec env (k (exec o m₁).1) (exec o m₁).2 ops' a m' := by
  constructor
  · intro h
    cases h with
    | access hmove h => exact ⟨_, _, hmove, rfl, h⟩
  · rintro ⟨m₁, ops', hmove, rfl, h⟩
    exact .access hmove h

theorem runs_perform {o : Op} {f : Ans o → Prog Op Ans β} {m m' : σ} {ops : List Op} {b : β} :
    Runs exec env (perform o >>= f) m ops b m' ↔
      ∃ m₁ ops', env m m₁ ∧ ops = o :: ops' ∧
        Runs exec env (f (exec o m₁).1) (exec o m₁).2 ops' b m' :=
  runs_access (k := f)

section Preorder

variable (hrefl : ∀ m, env m m) (htrans : ∀ m₁ m₂ m₃, env m₁ m₂ → env m₂ m₃ → env m₁ m₃)

include htrans in
theorem Runs.move {p : Prog Op Ans α} {m m₁ m' : σ} {ops : List Op} {a : α} (hmove : env m m₁)
    (h : Runs exec env p m₁ ops a m') : Runs exec env p m ops a m' := by
  cases h with
  | ret hmove' => exact .ret (htrans _ _ _ hmove hmove')
  | access hmove' h => exact .access (htrans _ _ _ hmove hmove') h

include hrefl htrans in
theorem runs_bind {p : Prog Op Ans α} {f : α → Prog Op Ans β} {m m' : σ} {ops : List Op} {b : β} :
    Runs exec env (p >>= f) m ops b m' ↔
      ∃ a m₁ ops₁ ops₂, Runs exec env p m ops₁ a m₁ ∧ Runs exec env (f a) m₁ ops₂ b m' ∧
        ops = ops₁ ++ ops₂ := by
  induction p generalizing m ops with
  | ret a =>
      constructor
      · exact fun h => ⟨a, m, [], ops, .ret (hrefl m), h, rfl⟩
      · rintro ⟨a', m₁, ops₁, ops₂, hp, hf, rfl⟩
        cases hp with
        | ret hmove => exact hf.move htrans hmove
  | access o k ih =>
      constructor
      · intro h
        rcases runs_access.mp h with ⟨m₁, ops', hmove, rfl, hk⟩
        rcases (ih _).mp hk with ⟨a, m₂, ops₁, ops₂, hp, hf, rfl⟩
        exact ⟨a, m₂, o :: ops₁, ops₂, .access hmove hp, hf, rfl⟩
      · rintro ⟨a, m₂, ops₁, ops₂, hp, hf, rfl⟩
        rcases runs_access.mp hp with ⟨m₁, ops', hmove, rfl, hk⟩
        exact .access hmove ((ih _).mpr ⟨a, m₂, ops', ops₂, hk, hf, rfl⟩)

include hrefl in
theorem runs_run (p : Prog Op Ans α) (m : σ) :
    Runs exec env p m (p.run exec m).1 (p.run exec m).2.1 (p.run exec m).2.2 := by
  induction p generalizing m with
  | ret a => exact .ret (hrefl m)
  | access o k ih => exact .access (hrefl m) (ih _ _)

include hrefl htrans in
-- A run that got as far as `q`, and a run of `q` from there.
theorem Reaches.runs {p q : Prog Op Ans α} {m m₁ m' : σ} {ops ops' : List Op} {a : α}
    (h : Reaches exec env p m ops q m₁) (hq : Runs exec env q m₁ ops' a m') :
    Runs exec env p m (ops ++ ops') a m' := by
  induction h generalizing ops' with
  | refl => exact hq
  | move _ hmove ih => exact ih (hq.move htrans hmove)
  | access _ ih =>
      rw [List.append_assoc]
      exact ih (.access (hrefl _) hq)

include hrefl htrans in
theorem Reaches.finished {p : Prog Op Ans α} {m m₁ : σ} {ops : List Op} {a : α}
    (h : Reaches exec env p m ops (.ret a) m₁) : Runs exec env p m ops a m₁ := by
  have hruns := h.runs hrefl htrans (.ret (hrefl m₁))
  rwa [List.append_nil] at hruns

include hrefl htrans in
-- What a program does next is an access of a run: of the one in which it goes on alone.
theorem Reaches.next {p : Prog Op Ans α} {m m₁ : σ} {ops : List Op} {o : Op}
    {k : Ans o → Prog Op Ans α} (h : Reaches exec env p m ops (.access o k) m₁) :
    ∃ ops' a m', Runs exec env p m (ops ++ o :: ops') a m' ∧
      m' = ((Prog.access o k).run exec m₁).2.2 :=
  ⟨_, _, _, h.runs hrefl htrans (runs_run hrefl _ _), rfl⟩

end Preorder

end Runs

/-! ## Paths -/

/-- The accesses on a way through a program, whatever they answer. -/
inductive Path : Prog Op Ans α → List Op → α → Prop where
  | ret (a : α) : Path (.ret a) [] a
  | access {o : Op} {k : Ans o → Prog Op Ans α} {ops : List Op} {a : α} (x : Ans o)
      (h : Path (k x) ops a) : Path (.access o k) (o :: ops) a

theorem Runs.path {exec : (o : Op) → σ → Ans o × σ} {env : σ → σ → Prop} {p : Prog Op Ans α}
    {m m' : σ} {ops : List Op} {a : α} (h : Runs exec env p m ops a m') : Path p ops a := by
  induction h with
  | ret _ => exact .ret _
  | access _ _ ih => exact .access _ ih

theorem path_pure {a b : α} {ops : List Op} :
    Path (pure a : Prog Op Ans α) ops b ↔ ops = [] ∧ b = a := by
  constructor
  · intro h
    cases h with
    | ret => exact ⟨rfl, rfl⟩
  · rintro ⟨rfl, rfl⟩
    exact .ret _

theorem path_bind {p : Prog Op Ans α} {f : α → Prog Op Ans β} {ops : List Op} {b : β} :
    Path (p >>= f) ops b ↔
      ∃ a ops₁ ops₂, Path p ops₁ a ∧ Path (f a) ops₂ b ∧ ops = ops₁ ++ ops₂ := by
  induction p generalizing ops with
  | ret a =>
      constructor
      · exact fun h => ⟨a, [], ops, .ret a, h, rfl⟩
      · rintro ⟨a', ops₁, ops₂, hp, hf, rfl⟩
        cases hp with
        | ret => exact hf
  | access o k ih =>
      constructor
      · intro h
        cases h with
        | access x h =>
            rcases (ih x).mp h with ⟨a, ops₁, ops₂, hp, hf, rfl⟩
            exact ⟨a, o :: ops₁, ops₂, .access x hp, hf, rfl⟩
      · rintro ⟨a, ops₁, ops₂, hp, hf, rfl⟩
        cases hp with
        | access x hp => exact .access x ((ih x).mpr ⟨a, _, ops₂, hp, hf, rfl⟩)

/-! ## The machine -/

structure Thread (Op : Type) (Ans : Op → Type) (α σ J : Type) where
  job : J
  rest : Prog Op Ans α
  -- The memory the job started from, and its accesses up to now.
  origin : σ
  made : List Op

structure Machine (ι : Type) (Op : Type) (Ans : Op → Type) (α σ J : Type) where
  mem : σ
  threads : ι → Option (Thread Op Ans α σ J)

inductive MachineAct (ι J E : Type) where
  | spawn (i : ι) (j : J)
  | access (i : ι)
  | finish (i : ι)
  -- Something that none of the threads does.
  | env (e : E)

variable {ι J E : Type} [DecidableEq ι]

/-- The machine after an action, if the action is possible. -/
def Machine.next (prog : J → Prog Op Ans α) (exec : ι → (o : Op) → σ → Ans o × σ)
    (env : E → σ → Option σ) (c : Machine ι Op Ans α σ J) :
    MachineAct ι J E → Option (Machine ι Op Ans α σ J)
  | .spawn i j =>
      match c.threads i with
      | none => some { c with
          threads := Function.update c.threads i (some ⟨j, prog j, c.mem, []⟩) }
      | some _ => none
  | .access i =>
      match c.threads i with
      | some ⟨j, .access o k, origin, made⟩ => some {
          mem := (exec i o c.mem).2
          threads := Function.update c.threads i
            (some ⟨j, k (exec i o c.mem).1, origin, made ++ [o]⟩) }
      | _ => none
  | .finish i =>
      match c.threads i with
      | some ⟨_, .ret _, _, _⟩ => some { c with threads := Function.update c.threads i none }
      | _ => none
  | .env e => (env e c.mem).map fun m => { c with mem := m }

section Machine

variable {prog : J → Prog Op Ans α} {exec : ι → (o : Op) → σ → Ans o × σ}
  {env : E → σ → Option σ}

inductive MachineStep (prog : J → Prog Op Ans α) (exec : ι → (o : Op) → σ → Ans o × σ)
    (env : E → σ → Option σ) (c : Machine ι Op Ans α σ J) :
    MachineAct ι J E → Machine ι Op Ans α σ J → Prop where
  | spawn (i : ι) (j : J) (hfree : c.threads i = none) :
      MachineStep prog exec env c (.spawn i j) { c with
        threads := Function.update c.threads i (some ⟨j, prog j, c.mem, []⟩) }
  | access (i : ι) (j : J) (o : Op) (k : Ans o → Prog Op Ans α) (origin : σ) (made : List Op)
      (hthread : c.threads i = some ⟨j, .access o k, origin, made⟩) :
      MachineStep prog exec env c (.access i) {
        mem := (exec i o c.mem).2
        threads := Function.update c.threads i
          (some ⟨j, k (exec i o c.mem).1, origin, made ++ [o]⟩) }
  | finish (i : ι) (j : J) (a : α) (origin : σ) (made : List Op)
      (hthread : c.threads i = some ⟨j, .ret a, origin, made⟩) :
      MachineStep prog exec env c (.finish i) { c with
        threads := Function.update c.threads i none }
  | env (e : E) (m : σ) (h : env e c.mem = some m) :
      MachineStep prog exec env c (.env e) { c with mem := m }

theorem machine_next_step {c d : Machine ι Op Ans α σ J} {a : MachineAct ι J E}
    (h : c.next prog exec env a = some d) : MachineStep prog exec env c a d := by
  cases a with
  | spawn i j =>
      simp only [Machine.next] at h
      split at h
      · rename_i hfree
        cases h
        exact .spawn i j hfree
      · cases h
  | access i =>
      simp only [Machine.next] at h
      split at h
      · rename_i j o k origin made hthread
        cases h
        exact .access i j o k origin made hthread
      · cases h
  | finish i =>
      simp only [Machine.next] at h
      split at h
      · rename_i j a origin made hthread
        cases h
        exact .finish i j a origin made hthread
      · cases h
  | env e =>
      rcases Option.map_eq_some_iff.mp h with ⟨m, hm, rfl⟩
      exact .env e m hm

-- A thread in flight was started by the step, or was in flight already.
theorem MachineStep.thread {c d : Machine ι Op Ans α σ J} {a : MachineAct ι J E}
    (hstep : MachineStep prog exec env c a d) {i : ι} {t : Thread Op Ans α σ J}
    (ht : d.threads i = some t) :
    (a = .spawn i t.job ∧ t = ⟨t.job, prog t.job, c.mem, []⟩ ∧ d.mem = c.mem) ∨
      ∃ t', c.threads i = some t' ∧ t'.job = t.job ∧ t'.origin = t.origin ∧
        (∀ r, t'.rest = .ret r → t.rest = .ret r) ∧
        ∀ R : σ → σ → Prop, (a ≠ .access i → R c.mem d.mem) →
          Reaches (exec i) R (prog t'.job) t'.origin t'.made t'.rest c.mem →
          Reaches (exec i) R (prog t.job) t.origin t.made t.rest d.mem := by
  cases hstep with
  | spawn i' j hfree =>
      dsimp only at ht
      rw [Function.update_apply] at ht
      split at ht
      · rename_i hi
        subst hi
        cases ht
        exact Or.inl ⟨rfl, rfl, rfl⟩
      · exact Or.inr ⟨t, ht, rfl, rfl, fun _ h => h, fun _ _ h => h⟩
  | access i' j o k origin made hthread =>
      dsimp only at ht
      rw [Function.update_apply] at ht
      split at ht
      · rename_i hi
        subst hi
        cases ht
        refine Or.inr ⟨_, hthread, rfl, rfl, fun r hr => ?_, fun R _ h => .access h⟩
        cases hr
      · rename_i hi
        refine Or.inr ⟨t, ht, rfl, rfl, fun _ h => h,
          fun R hmove h => .move h (hmove fun heq => ?_)⟩
        cases heq
        exact hi rfl
  | finish i' j r origin made hthread =>
      dsimp only at ht
      rw [Function.update_apply] at ht
      split at ht
      · cases ht
      · exact Or.inr ⟨t, ht, rfl, rfl, fun _ h => h, fun _ _ h => h⟩
  | env e m he =>
      exact Or.inr ⟨t, ht, rfl, rfl, fun _ h => h,
        fun R hmove h => .move h (hmove fun heq => by cases heq)⟩

/-- Thread `i` is on its way through its program, in a memory that has moved from where it started;
`R` covers what the others do. -/
def Tracked (prog : J → Prog Op Ans α) (exec : ι → (o : Op) → σ → Ans o × σ) (R : σ → σ → Prop)
    (i : ι) (c : Machine ι Op Ans α σ J) : Prop :=
  ∀ t, c.threads i = some t → Reaches (exec i) R (prog t.job) t.origin t.made t.rest c.mem

theorem Tracked.step {R : σ → σ → Prop} {i : ι} {c d : Machine ι Op Ans α σ J}
    {a : MachineAct ι J E} (h : Tracked prog exec R i c)
    (hstep : MachineStep prog exec env c a d) (hmove : a ≠ .access i → R c.mem d.mem) :
    Tracked prog exec R i d := by
  intro t ht
  rcases hstep.thread ht with ⟨-, hnew, hmem⟩ | ⟨t', ht', -, -, -, hreaches⟩
  · rw [hnew, hmem]
    exact .refl
  · exact hreaches R hmove (h t' ht')

end Machine

end DnsGateway.Reasoning
