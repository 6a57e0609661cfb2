import Mathlib.Data.List.Induction

/-!
# The first of the largest elements

A search that goes through a list and changes its mind only for a strictly larger
element, ignoring the elements below a floor, ends with the first of the largest.
-/

namespace HwMon
set_option autoImplicit false

variable {α : Type} (size : α → Nat) (floor : Nat)

def keepBetter (best : Option α) (x : α) : Option α :=
  if floor ≤ size x ∧ ∀ b ∈ best, size b < size x then some x else best

/-- `x` is the first of the largest elements of the list. -/
def FirstLargest (xs : List α) (x : α) : Prop :=
  ∃ front back, xs = front ++ x :: back ∧ (∀ y ∈ front, size y < size x) ∧
    ∀ y ∈ back, size y ≤ size x

variable {size floor} {xs : List α} {x : α}

theorem FirstLargest.mem (h : FirstLargest size xs x) : x ∈ xs := by
  obtain ⟨front, back, rfl, _, _⟩ := h
  exact List.mem_append_right front List.mem_cons_self

theorem FirstLargest.le (h : FirstLargest size xs x) {y : α} (hy : y ∈ xs) : size y ≤ size x := by
  obtain ⟨front, back, rfl, hfront, hback⟩ := h
  rcases List.mem_append.mp hy with hy | hy
  · exact Nat.le_of_lt (hfront y hy)
  · rcases List.mem_cons.mp hy with rfl | hy
    · exact Nat.le_refl _
    · exact hback y hy

theorem FirstLargest.append_smaller (h : FirstLargest size xs x) {y : α} (hy : size y ≤ size x) :
    FirstLargest size (xs ++ [y]) x := by
  obtain ⟨front, back, rfl, hfront, hback⟩ := h
  refine ⟨front, back ++ [y], by simp, hfront, ?_⟩
  intro z hz
  rcases List.mem_append.mp hz with hz | hz
  · exact hback z hz
  · rw [List.mem_singleton.mp hz]
    exact hy

theorem firstLargest_last (h : ∀ y ∈ xs, size y < size x) : FirstLargest size (xs ++ [x]) x :=
  ⟨xs, [], rfl, h, fun _ hy => absurd hy List.not_mem_nil⟩

/-- What the search has found so far. -/
theorem foldl_keepBetter (size : α → Nat) (floor : Nat) (xs : List α) :
    (xs.foldl (keepBetter size floor) none = none ∧ ∀ y ∈ xs, size y < floor) ∨
      ∃ x, xs.foldl (keepBetter size floor) none = some x ∧ floor ≤ size x ∧
        FirstLargest size xs x := by
  induction xs using List.reverseRecOn with
  | nil => exact Or.inl ⟨rfl, fun y hy => absurd hy List.not_mem_nil⟩
  | append_singleton xs y ih =>
    rw [List.foldl_append, List.foldl_cons, List.foldl_nil]
    rcases ih with ⟨hnone, hall⟩ | ⟨x, hsome, hfloor, hfirst⟩
    · rw [hnone, keepBetter]
      split
      · rename_i hy
        refine Or.inr ⟨y, rfl, hy.1, firstLargest_last ?_⟩
        exact fun z hz => Nat.lt_of_lt_of_le (hall z hz) hy.1
      · rename_i hy
        have hlt : size y < floor := by
          by_contra hle
          exact hy ⟨Nat.not_lt.mp hle, fun b hb => by cases hb⟩
        refine Or.inl ⟨rfl, fun z hz => ?_⟩
        rcases List.mem_append.mp hz with hz | hz
        · exact hall z hz
        · rw [List.mem_singleton.mp hz]
          exact hlt
    · rw [hsome, keepBetter]
      split
      · rename_i hy
        have hlt : size x < size y := hy.2 x rfl
        refine Or.inr ⟨y, rfl, hy.1, firstLargest_last ?_⟩
        exact fun z hz => Nat.lt_of_le_of_lt (hfirst.le hz) hlt
      · rename_i hy
        refine Or.inr ⟨x, rfl, hfloor, hfirst.append_smaller ?_⟩
        by_contra hlt
        have hlarger := Nat.not_le.mp hlt
        refine hy ⟨Nat.le_trans hfloor (Nat.le_of_lt hlarger), fun b hb => ?_⟩
        cases hb
        exact hlarger

end HwMon
