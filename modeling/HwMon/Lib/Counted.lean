import Mathlib.Data.List.Basic

/-!
# A list up to its n-th element of a kind

A loop that stops once it has met `n` elements that satisfy `p` sees `upTo p n l`
and leaves `past p n l`.
-/

namespace HwMon
set_option autoImplicit false

variable {α β : Type} (p : α → Bool)

def upTo : Nat → List α → List α
  | 0, _ => []
  | _ + 1, [] => []
  | n + 1, a :: l => a :: upTo (if p a = true then n else n + 1) l

def past : Nat → List α → List α
  | 0, l => l
  | _ + 1, [] => []
  | n + 1, a :: l => past (if p a = true then n else n + 1) l

theorem upTo_zero (l : List α) : upTo p 0 l = [] := by
  cases l with
  | nil => rfl
  | cons a l => rfl

theorem past_zero (l : List α) : past p 0 l = l := by
  cases l with
  | nil => rfl
  | cons a l => rfl

theorem upTo_nil (n : Nat) : upTo p n [] = [] := by
  cases n with
  | zero => rfl
  | succ n => rfl

theorem past_nil (n : Nat) : past p n [] = [] := by
  cases n with
  | zero => rfl
  | succ n => rfl

theorem upTo_cons (n : Nat) (a : α) (l : List α) :
    upTo p (n + 1) (a :: l) = a :: upTo p (if p a = true then n else n + 1) l := rfl

theorem past_cons (n : Nat) (a : α) (l : List α) :
    past p (n + 1) (a :: l) = past p (if p a = true then n else n + 1) l := rfl

theorem countP_past (n : Nat) (l : List α) : (past p n l).countP p = l.countP p - n := by
  induction l generalizing n with
  | nil => rw [past_nil, List.countP_nil, Nat.zero_sub]
  | cons a l ih =>
    cases n with
    | zero => rw [past_zero, Nat.sub_zero]
    | succ n =>
      rw [past_cons, ih, List.countP_cons]
      split
      · rw [Nat.add_sub_add_right]
      · rfl

variable {p}

theorem past_replicate {a : α} (ha : p a = true) (n : Nat) (l : List α) :
    past p n (List.replicate n a ++ l) = l := by
  induction n with
  | zero => rw [past_zero, List.replicate_zero, List.nil_append]
  | succ n ih =>
    rw [List.replicate_succ, List.cons_append, past_cons, if_pos ha]
    exact ih

variable {f : α → Option β} (hp : ∀ a, p a = (f a).isSome)
include hp

/-- What the elements of the kind give is what the first `n` of them give. -/
theorem filterMap_upTo (n : Nat) (l : List α) :
    (upTo p n l).filterMap f = (l.filterMap f).take n := by
  induction l generalizing n with
  | nil => rw [upTo_nil, List.filterMap_nil, List.take_nil]
  | cons a l ih =>
    cases n with
    | zero => rw [upTo_zero, List.filterMap_nil, List.take_zero]
    | succ n =>
      rw [upTo_cons, hp]
      cases h : f a with
      | none =>
        rw [List.filterMap_cons_none h, List.filterMap_cons_none h]
        exact ih (n + 1)
      | some b =>
        rw [List.filterMap_cons_some h, List.filterMap_cons_some h, List.take_succ_cons]
        exact congrArg (b :: ·) (ih n)

end HwMon
