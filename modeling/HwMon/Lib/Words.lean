import Mathlib.Algebra.Order.BigOperators.Group.List
import Mathlib.Algebra.Order.Group.Nat
import Mathlib.Algebra.Order.Ring.Nat
import Mathlib.Data.List.Basic

/-!
# Words with a separator between them

Putting words behind one another, and taking the line apart again.
-/

namespace HwMon
set_option autoImplicit false

section Words
variable {α : Type}

theorem intercalate_cons (sep v : List α) (ws : List (List α)) :
    sep.intercalate (v :: ws) = v ++ ws.flatMap (sep ++ ·) := by
  induction ws generalizing v with
  | nil => rw [List.intercalate_singleton, List.flatMap_nil, List.append_nil]
  | cons u ws ih =>
    rw [List.intercalate_cons_cons, ih, List.flatMap_cons, List.append_assoc, List.append_assoc]

theorem intercalate_snoc (sep : List α) {ws : List (List α)} (hws : ws ≠ []) (w : List α) :
    sep.intercalate (ws ++ [w]) = sep.intercalate ws ++ (sep ++ w) := by
  cases ws with
  | nil => exact absurd rfl hws
  | cons v ws =>
    rw [List.cons_append, intercalate_cons, intercalate_cons, List.flatMap_append,
      List.flatMap_singleton, List.append_assoc]

theorem length_intercalate_le (sep : α) (ws : List (List α)) :
    ([sep].intercalate ws).length ≤ (ws.map fun w => w.length + 1).sum := by
  induction ws with
  | nil => exact Nat.le_refl 0
  | cons v ws ih =>
    cases ws with
    | nil =>
      rw [List.intercalate_singleton, List.map_singleton, List.sum_singleton]
      exact Nat.le_succ _
    | cons u ws =>
      rw [List.intercalate_cons_cons, List.map_cons, List.sum_cons, List.length_append,
        List.length_append, List.length_singleton]
      omega

theorem length_intercalate_sublist (sep : α) {vs ws : List (List α)} (h : vs.Sublist ws) :
    ([sep].intercalate vs).length ≤ (ws.map fun w => w.length + 1).sum :=
  Nat.le_trans (length_intercalate_le sep vs)
    ((h.map _).sum_le_sum fun _ _ => Nat.zero_le _)

theorem intercalate_eq_nil_iff (sep : List α) {ws : List (List α)} (hws : ∀ w ∈ ws, w ≠ []) :
    sep.intercalate ws = [] ↔ ws = [] := by
  cases ws with
  | nil => exact iff_of_true rfl rfl
  | cons v ws =>
    rw [intercalate_cons, List.append_eq_nil_iff]
    exact iff_of_false (fun h => hws v List.mem_cons_self h.1) (List.cons_ne_nil v ws)

end Words
end HwMon
