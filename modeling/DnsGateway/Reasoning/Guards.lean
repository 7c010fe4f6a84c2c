import Mathlib.Data.List.Basic

/-!
# Guard sequences

A validator runs its checks in order and returns the error of the first one that fails.
-/

namespace DnsGateway.Reasoning

variable {ε ε' α β : Type}

/-- The error `e` when `bad` holds. -/
def refuse (bad : Prop) [Decidable bad] (e : ε) : Except ε Unit :=
  if bad then .error e else .ok ()

@[simp]
theorem refuse_eq_ok {bad : Prop} [Decidable bad] {e : ε} : refuse bad e = .ok () ↔ ¬ bad := by
  by_cases h : bad
  · simp [refuse, h]
  · simp [refuse, h]

theorem bind_eq_ok {x : Except ε α} {f : α → Except ε β} {b : β} :
    (x >>= f) = .ok b ↔ ∃ a, x = .ok a ∧ f a = .ok b := by
  cases x with
  | error e => simp [bind, Except.bind]
  | ok a => simp [bind, Except.bind]

@[simp]
theorem guard_bind_eq_ok {x : Except ε Unit} {y : Except ε β} {b : β} :
    (x >>= fun _ => y) = .ok b ↔ x = .ok () ∧ y = .ok b := by
  rw [bind_eq_ok]
  exact ⟨fun ⟨_, h⟩ => h, fun h => ⟨(), h⟩⟩

@[simp]
theorem mapError_eq_ok {x : Except ε α} {f : ε → ε'} {a : α} :
    x.mapError f = .ok a ↔ x = .ok a := by
  cases x with
  | error e => simp [Except.mapError]
  | ok b => simp [Except.mapError]

-- A loop of checks succeeds when each check does.
@[simp]
theorem forM_eq_ok {xs : List α} {check : α → Except ε Unit} :
    xs.forM check = .ok () ↔ ∀ x ∈ xs, check x = .ok () := by
  induction xs with
  | nil => simp [List.forM, pure, Except.pure]
  | cons x xs ih =>
      show (check x >>= fun _ => xs.forM check) = .ok () ↔ _
      rw [guard_bind_eq_ok, ih, List.forall_mem_cons]

end DnsGateway.Reasoning
