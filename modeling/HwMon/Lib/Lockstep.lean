import Mathlib.Logic.Function.Iterate

/-!
# Lockstep simulation

A step relation follows a function when every step from a related state either leads to
a state that is related to the next value of the function, or ends the run. Then every
run of `n` steps is at the `n`-th value of the function or has ended on the way.
-/

namespace HwMon
set_option autoImplicit false

variable {α β : Type}

/-- The second state is reached by `n` steps. -/
inductive StepsIn (step : α → α → Prop) : Nat → α → α → Prop
  | zero (a : α) : StepsIn step 0 a a
  | succ {n : Nat} {a b c : α} (h : StepsIn step n a b) (hstep : step b c) :
      StepsIn step (n + 1) a c

/-- Steps keep the relation `R` to the values of `next` until they end in a state that is
related by `Ends` and has no step. -/
structure Lockstep (step : α → α → Prop) (next : β → β) (R Ends : α → β → Prop) : Prop where
  forward : ∀ a a' b, R a b → step a a' → R a' (next b) ∨ Ends a' b
  final : ∀ a a' b, Ends a b → ¬step a a'
  live : ∀ a b, R a b → ∃ a', step a a'

namespace Lockstep
variable {step : α → α → Prop} {next : β → β} {R Ends : α → β → Prop} {a a' : α} {b : β}

theorem run (h : Lockstep step next R Ends) (hstart : R a b) {n : Nat}
    (hrun : StepsIn step n a a') :
    R a' (next^[n] b) ∨ ∃ k, n = k + 1 ∧ Ends a' (next^[k] b) := by
  induction hrun with
  | zero => exact .inl hstart
  | @succ n _ a' a'' _ hstep ih =>
    rcases ih hstart with hR | ⟨k, -, hends⟩
    · rcases h.forward a' a'' _ hR hstep with hnext | hends
      · rw [Function.iterate_succ_apply']
        exact .inl hnext
      · exact .inr ⟨n, rfl, hends⟩
    · exact absurd hstep (h.final a' a'' _ hends)

/-- A run goes on until it ends. -/
theorem exists_run (h : Lockstep step next R Ends) (hstart : R a b) (n : Nat) :
    (∃ a', StepsIn step n a a') ∨ ∃ k a', k < n ∧ StepsIn step (k + 1) a a' ∧
      Ends a' (next^[k] b) := by
  induction n with
  | zero => exact .inl ⟨a, .zero a⟩
  | succ n ih =>
    rcases ih with ⟨a', hrun⟩ | ⟨k, a', hk, hrun, hends⟩
    · rcases h.run hstart hrun with hR | ⟨k, rfl, hends⟩
      · obtain ⟨a'', hstep⟩ := h.live a' _ hR
        exact .inl ⟨a'', .succ hrun hstep⟩
      · exact .inr ⟨k, a', by omega, hrun, hends⟩
    · exact .inr ⟨k, a', by omega, hrun, hends⟩

end Lockstep
end HwMon
