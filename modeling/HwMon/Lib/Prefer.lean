import Mathlib.Data.List.Basic

/-!
# The last of the best, or else the first of the others

A search that always takes a preferred element, and one of a second kind only if it
has nothing yet, ends with the last preferred one or else with the first of the
second kind. The order matters only where a kind occurs more than once.
-/

namespace HwMon
set_option autoImplicit false

variable {α : Type} (best fallback : α → Bool)

def prefer (chosen : Option α) (a : α) : Option α :=
  if best a = true then some a
  else if chosen = none ∧ fallback a = true then some a
  else chosen

/-- What the search over a list ends with. -/
def preferred (xs : List α) : Option α := (xs.filter best).getLast?.or (xs.filter fallback).head?

variable {best fallback}

section Steps
variable {a : α} {chosen : Option α}

theorem prefer_of_best (h : best a = true) : prefer best fallback chosen a = some a :=
  if_pos h

theorem prefer_some (h : best a = false) (b : α) :
    prefer best fallback (some b) a = some b := by
  rw [prefer, if_neg (Bool.eq_false_iff.mp h), if_neg fun hboth => Option.some_ne_none b hboth.1]

theorem prefer_of_fallback (h : best a = false) (hf : fallback a = true) :
    prefer best fallback none a = some a := by
  rw [prefer, if_neg (Bool.eq_false_iff.mp h), if_pos ⟨rfl, hf⟩]

theorem prefer_of_neither (h : best a = false) (hf : fallback a = false) :
    prefer best fallback chosen a = chosen := by
  rw [prefer, if_neg (Bool.eq_false_iff.mp h), if_neg fun hboth => Bool.eq_false_iff.mp hf hboth.2]

end Steps

section Folds
variable (xs : List α)

theorem foldl_prefer_some (b : α) : xs.foldl (prefer best fallback) (some b) =
    (xs.filter best).getLast?.or (some b) := by
  induction xs generalizing b with
  | nil => rfl
  | cons a xs ih =>
    rw [List.foldl_cons]
    cases h : best a with
    | true =>
      rw [prefer_of_best h, ih, List.filter_cons_of_pos h, List.getLast?_cons]
      cases (xs.filter best).getLast? with
      | none => rfl
      | some c => rfl
    | false => rw [prefer_some h, ih, List.filter_cons_of_neg (Bool.eq_false_iff.mp h)]

theorem foldl_prefer : xs.foldl (prefer best fallback) none = preferred best fallback xs := by
  induction xs with
  | nil => rfl
  | cons a xs ih =>
    rw [List.foldl_cons, preferred]
    cases h : best a with
    | true =>
      rw [prefer_of_best h, foldl_prefer_some, List.filter_cons_of_pos h, List.getLast?_cons]
      cases (xs.filter best).getLast? with
      | none => rfl
      | some c => rfl
    | false =>
      rw [List.filter_cons_of_neg (Bool.eq_false_iff.mp h)]
      cases hf : fallback a with
      | true => rw [prefer_of_fallback h hf, foldl_prefer_some, List.filter_cons_of_pos hf,
          List.head?_cons]
      | false =>
        rw [prefer_of_neither h hf, ih, List.filter_cons_of_neg (Bool.eq_false_iff.mp hf),
          preferred]

end Folds

section Results
variable {xs ys : List α}

theorem preferred_of_best (h : ∃ a ∈ xs, best a = true) :
    ∃ a ∈ preferred best fallback xs, a ∈ xs ∧ best a = true := by
  obtain ⟨a, ha, hbest⟩ := h
  cases hlast : (xs.filter best).getLast? with
  | none =>
    rw [List.getLast?_eq_none_iff, List.filter_eq_nil_iff] at hlast
    exact absurd hbest (hlast a ha)
  | some b =>
    obtain ⟨hb, hbestb⟩ := List.mem_filter.mp (List.mem_of_getLast? hlast)
    refine ⟨b, ?_, hb, hbestb⟩
    rw [preferred, hlast]
    rfl

theorem preferred_of_fallback (h : ∀ a ∈ xs, best a = false) (hf : ∃ a ∈ xs, fallback a = true) :
    ∃ a ∈ preferred best fallback xs, a ∈ xs ∧ fallback a = true := by
  obtain ⟨a, ha, hfall⟩ := hf
  have hnone : xs.filter best = [] :=
    List.filter_eq_nil_iff.mpr fun b hb => Bool.eq_false_iff.mp (h b hb)
  cases hhead : (xs.filter fallback).head? with
  | none =>
    rw [List.head?_eq_none_iff, List.filter_eq_nil_iff] at hhead
    exact absurd hfall (hhead a ha)
  | some b =>
    obtain ⟨hb, hfallb⟩ := List.mem_filter.mp (List.mem_of_head? hhead)
    refine ⟨b, ?_, hb, hfallb⟩
    rw [preferred, hnone, hhead]
    rfl

/-- What is chosen is of one of the two kinds. -/
theorem mem_of_mem_preferred {a : α} (h : a ∈ preferred best fallback xs) :
    a ∈ xs ∧ (best a = true ∨ fallback a = true) := by
  rw [Option.mem_def, preferred, Option.or_eq_some_iff] at h
  rcases h with hlast | ⟨-, hhead⟩
  · obtain ⟨hmem, hbest⟩ := List.mem_filter.mp (List.mem_of_getLast? hlast)
    exact ⟨hmem, Or.inl hbest⟩
  · obtain ⟨hmem, hfall⟩ := List.mem_filter.mp (List.mem_of_head? hhead)
    exact ⟨hmem, Or.inr hfall⟩

theorem preferred_eq_none (h : ∀ a ∈ xs, best a = false ∧ fallback a = false) :
    preferred best fallback xs = none := by
  have hnone : xs.filter best = [] :=
    List.filter_eq_nil_iff.mpr fun a ha => Bool.eq_false_iff.mp (h a ha).1
  have hfall : xs.filter fallback = [] :=
    List.filter_eq_nil_iff.mpr fun a ha => Bool.eq_false_iff.mp (h a ha).2
  rw [preferred, hnone, hfall]
  rfl

/-- A list of one element at most has no other order. -/
theorem eq_of_perm_of_length (h : xs.Perm ys) (hlen : xs.length ≤ 1) : xs = ys := by
  cases xs with
  | nil => exact (List.nil_perm.mp h).symm
  | cons a xs =>
    obtain rfl : xs = [] := List.eq_nil_of_length_eq_zero (by rw [List.length_cons] at hlen; omega)
    exact List.singleton_perm.mp h

/-- Where each kind occurs at most once the order does not matter. -/
theorem preferred_perm (h : xs.Perm ys) (hbest : (xs.filter best).length ≤ 1)
    (hfall : (xs.filter fallback).length ≤ 1) :
    preferred best fallback ys = preferred best fallback xs := by
  rw [preferred, preferred, eq_of_perm_of_length (h.filter best) hbest,
    eq_of_perm_of_length (h.filter fallback) hfall]

end Results
end HwMon
