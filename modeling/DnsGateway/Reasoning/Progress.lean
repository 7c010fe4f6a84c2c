import Mathlib.Order.WellFounded
import DnsGateway.Reasoning.History

/-!
# What is bound to happen

A system takes steps of its own and is acted on from outside.  A goal is inevitable when, whatever
happens from outside, some own step is possible until the goal is reached, and no run takes own
steps for ever.
-/

namespace DnsGateway.Reasoning

variable {σ α : Type*} (step : σ → α → Option σ) (Own Env : α → Prop) (Goal : σ → Prop)

/-- However the outside acts, and whichever own steps are taken, the goal is reached. -/
inductive Inevitable : σ → Prop where
  | intro {s : σ}
      (possible : ∀ (env : List α) t, (∀ a ∈ env, Env a) → env.foldlM step s = some t → ¬ Goal t →
        ∃ a, Own a ∧ (step t a).isSome = true)
      (next : ∀ (env : List α) t a u, (∀ a ∈ env, Env a) → env.foldlM step s = some t → ¬ Goal t →
        Own a → step t a = some u → Inevitable u) :
      Inevitable s

variable {step Own Env Goal}

-- The runs of the outside alone.
theorem foldlM_env_invariant {Inv : σ → Prop} {M : Type*} [Preorder M] {μ : σ → M}
    (henv : ∀ s a t, Env a → step s a = some t → Inv s → Inv t ∧ μ t ≤ μ s) {s t : σ}
    (h : Inv s) {env : List α} (hall : ∀ a ∈ env, Env a) (hrun : env.foldlM step s = some t) :
    Inv t ∧ μ t ≤ μ s := by
  let Inv' := fun (t : σ) (past : List α) => (∀ a ∈ past, Env a) → Inv t ∧ μ t ≤ μ s
  have hstep : ∀ u past a v, step u a = some v → Inv' u past → Inv' v (past ++ [a]) := by
    intro u past a v hnext hu hpast
    rw [List.forall_mem_append, List.forall_mem_singleton] at hpast
    rcases hu hpast.1 with ⟨hinv, hμ⟩
    rcases henv u a v hpast.2 hnext hinv with ⟨hv, hμv⟩
    exact ⟨hv, hμv.trans hμ⟩
  exact foldlM_history_invariant hstep [] (fun _ => ⟨h, le_rfl⟩) hrun hall

-- Own steps lower a measure that the outside does not raise, and one is possible until the goal.
theorem inevitable_of_measure (Inv : σ → Prop) {M : Type*} [Preorder M] [WellFoundedLT M]
    (μ : σ → M) (henv : ∀ s a t, Env a → step s a = some t → Inv s → Inv t ∧ μ t ≤ μ s)
    (hown : ∀ s a t, Own a → step s a = some t → Inv s → Inv t ∧ μ t < μ s)
    (hlive : ∀ s, Inv s → ¬ Goal s → ∃ a, Own a ∧ (step s a).isSome = true) {s : σ} (h : Inv s) :
    Inevitable step Own Env Goal s := by
  generalize hm : μ s = m
  induction m using WellFoundedLT.induction generalizing s with
  | ind m ih =>
      constructor
      · intro env t hall hrun hgoal
        exact hlive t (foldlM_env_invariant henv h hall hrun).1 hgoal
      · intro env t a u hall hrun _ ha hnext
        rcases foldlM_env_invariant henv h hall hrun with ⟨ht, hμ⟩
        rcases hown t a u ha hnext ht with ⟨hu, hlt⟩
        exact ih (μ u) (by rw [← hm]; exact lt_of_lt_of_le hlt hμ) hu rfl

end DnsGateway.Reasoning
