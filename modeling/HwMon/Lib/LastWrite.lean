import Mathlib.Data.List.Basic

/-!
# The last write wins

A cell that each element of a list may overwrite holds in the end what the last
writing element wrote. When only the last element of each kind is kept, an
element that writes nothing no longer lets an earlier one of its kind through.
-/

namespace HwMon
set_option autoImplicit false

variable {α β κ σ : Type}

/-- What a cell that holds `z` holds after the writes of a list. -/
def lastWrite (w : α → Option β) (z : β) (xs : List α) : β := ((xs.filterMap w).getLast?).getD z

theorem lastWrite_cons (w : α → Option β) (z : β) (x : α) (xs : List α) :
    lastWrite w z (x :: xs) = lastWrite w ((w x).getD z) xs := by
  unfold lastWrite
  cases h : w x with
  | none => rw [List.filterMap_cons_none h, Option.getD_none]
  | some b =>
    rw [List.filterMap_cons_some h, List.getLast?_cons, Option.getD_some, Option.getD_some]

/-- A part of the state of a fold whose steps change it without looking at the rest. -/
theorem foldl_part (step : σ → α → σ) (get : σ → β) (g : β → α → β) {I : σ → Prop}
    (hI : ∀ s x, I s → I (step s x)) (hstep : ∀ s x, I s → get (step s x) = g (get s) x)
    (xs : List α) {s : σ} (hs : I s) : get (xs.foldl step s) = xs.foldl g (get s) := by
  induction xs generalizing s with
  | nil => rfl
  | cons x xs ih => rw [List.foldl_cons, ih (hI s x hs), hstep s x hs, List.foldl_cons]

theorem foldl_lastWrite (w : α → Option β) (z : β) (xs : List α) :
    xs.foldl (fun b x => (w x).getD b) z = lastWrite w z xs := by
  induction xs generalizing z with
  | nil => rfl
  | cons x xs ih => rw [List.foldl_cons, ih, lastWrite_cons]

section Kinds
variable [DecidableEq κ] (kind : α → Option κ)

def ofKind (k : κ) (xs : List α) : List α := xs.filter fun x => kind x = some k

/-- Drop every element that a later one of its kind follows. -/
def keepLast : List α → List α
  | [] => []
  | x :: xs =>
    if (kind x).isSome ∧ ∃ y ∈ xs, kind y = kind x then keepLast xs else x :: keepLast xs

theorem mem_of_mem_keepLast {x : α} {xs : List α} (h : x ∈ keepLast kind xs) : x ∈ xs := by
  induction xs with
  | nil => exact h
  | cons y ys ih =>
    rw [keepLast] at h
    split at h
    · exact List.mem_cons_of_mem y (ih h)
    · rcases List.mem_cons.mp h with rfl | h
      · exact List.mem_cons_self
      · exact List.mem_cons_of_mem y (ih h)

theorem ofKind_cons {x : α} {k : κ} (h : kind x = some k) (xs : List α) :
    ofKind kind k (x :: xs) = x :: ofKind kind k xs :=
  List.filter_cons_of_pos (decide_eq_true h)

theorem ofKind_cons_of_ne {x : α} {k : κ} (h : kind x ≠ some k) (xs : List α) :
    ofKind kind k (x :: xs) = ofKind kind k xs :=
  List.filter_cons_of_neg fun hx => h (of_decide_eq_true hx)

theorem ofKind_keepLast (k : κ) (xs : List α) :
    ofKind kind k (keepLast kind xs) = (ofKind kind k xs).getLast?.toList := by
  induction xs with
  | nil => rfl
  | cons x xs ih =>
    by_cases hk : kind x = some k
    · rw [ofKind_cons kind hk, List.getLast?_cons, keepLast, hk]
      by_cases hlater : ∃ y ∈ xs, kind y = some k
      · obtain ⟨y, hy, hyk⟩ := hlater
        have hmem : y ∈ ofKind kind k xs := List.mem_filter.mpr ⟨hy, decide_eq_true hyk⟩
        obtain ⟨z, hz⟩ := Option.isSome_iff_exists.mp
          (List.getLast?_isSome.mpr (List.ne_nil_of_mem hmem))
        rw [if_pos ⟨rfl, y, hy, hyk⟩, ih, hz]
        rfl
      · have hnone : ofKind kind k xs = [] :=
          List.filter_eq_nil_iff.mpr fun y hy h => hlater ⟨y, hy, of_decide_eq_true h⟩
        rw [if_neg fun h => hlater h.2, ofKind_cons kind hk, ih, hnone]
        rfl
    · rw [ofKind_cons_of_ne kind hk, ← ih, keepLast]
      split
      · rfl
      · exact ofKind_cons_of_ne kind hk _

variable {kind} {k : κ} {w : α → Option β} (hw : ∀ x, w x ≠ none → kind x = some k)
include hw

theorem filterMap_ofKind (xs : List α) : (ofKind kind k xs).filterMap w = xs.filterMap w := by
  induction xs with
  | nil => rfl
  | cons x xs ih =>
    by_cases hk : kind x = some k
    · rw [ofKind_cons kind hk, List.filterMap_cons, List.filterMap_cons, ih]
    · have hnone : w x = none := by
        by_contra h
        exact hk (hw x h)
      rw [ofKind_cons_of_ne kind hk, List.filterMap_cons_none hnone, ih]

theorem lastWrite_keepLast (z : β) (xs : List α) :
    lastWrite w z (keepLast kind xs) = ((ofKind kind k xs).getLast?.bind w).getD z := by
  rw [lastWrite, ← filterMap_ofKind hw, ofKind_keepLast]
  cases (ofKind kind k xs).getLast? with
  | none => rfl
  | some x => cases h : w x <;> simp [h]

/-- Keeping the last element of each kind changes a cell just when that element
does not write it and an earlier one wrote something else than `z`. -/
theorem lastWrite_eq_keepLast_iff (z : β) (xs : List α) :
    lastWrite w z xs = lastWrite w z (keepLast kind xs) ↔
      ∀ x, (ofKind kind k xs).getLast? = some x → w x = none →
        ∀ b, (xs.filterMap w).getLast? = some b → b = z := by
  rw [lastWrite_keepLast hw, lastWrite, ← filterMap_ofKind hw]
  cases hlast : (ofKind kind k xs).getLast? with
  | none =>
    rw [List.getLast?_eq_none_iff.mp hlast]
    exact iff_of_true rfl fun x hx => by cases hx
  | some x =>
    obtain ⟨front, hfront⟩ := List.getLast?_eq_some_iff.mp hlast
    constructor
    · intro h y hy hnone b hb
      cases hy
      rw [hb, Option.bind_some, hnone] at h
      exact h
    · intro h
      cases hx : w x with
      | none =>
        rw [Option.bind_some, hx, Option.getD_none]
        cases hb : ((ofKind kind k xs).filterMap w).getLast? with
        | none => rfl
        | some b => exact h x rfl hx b hb
      | some b =>
        rw [hfront, List.filterMap_append, List.filterMap_cons_some hx, Option.bind_some, hx]
        simp

end Kinds
end HwMon
