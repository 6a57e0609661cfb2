import Mathlib.Data.List.Basic

/-!
# Arrays filled up to a capacity

A C array with its element count is the list of the elements written so far.
Pushing onto a full array changes nothing, so any sequence of pushes leaves the
first `cap` elements.
-/

namespace HwMon
set_option autoImplicit false

structure Capped (α : Type) (cap : Nat) where
  items : List α
  le_cap : items.length ≤ cap
  deriving DecidableEq

namespace Capped
variable {α β : Type} {cap : Nat}

@[ext] theorem ext {a b : Capped α cap} (h : a.items = b.items) : a = b := by
  cases a
  cases b
  cases h
  rfl

def empty : Capped α cap := ⟨[], Nat.zero_le cap⟩

instance : Inhabited (Capped α cap) := ⟨empty⟩

def count (c : Capped α cap) : Nat := c.items.length

def push (c : Capped α cap) (a : α) : Capped α cap :=
  if h : c.items.length < cap then ⟨c.items ++ [a], by simpa using Nat.succ_le_of_lt h⟩ else c

def map (f : α → β) (c : Capped α cap) : Capped β cap :=
  ⟨c.items.map f, by rw [List.length_map]; exact c.le_cap⟩

@[simp] theorem items_empty : (empty : Capped α cap).items = [] := rfl

theorem push_items (c : Capped α cap) (a : α) :
    (c.push a).items = (c.items ++ [a]).take cap := by
  unfold push
  split
  · rename_i h
    rw [List.take_of_length_le (by simpa using Nat.succ_le_of_lt h)]
  · rename_i h
    have hfull : c.items.length = cap := Nat.le_antisymm c.le_cap (Nat.not_lt.mp h)
    rw [List.take_left' hfull]

theorem push_of_full {c : Capped α cap} (h : ¬c.count < cap) (a : α) : c.push a = c :=
  dif_neg h

theorem push_items_of_room {c : Capped α cap} (h : c.count < cap) (a : α) :
    (c.push a).items = c.items ++ [a] := by
  rw [push_items, List.take_of_length_le]
  rw [List.length_append]
  exact h

theorem push_count {c : Capped α cap} (h : c.count < cap) (a : α) :
    (c.push a).count = c.count + 1 :=
  (congrArg List.length (push_items_of_room h a)).trans List.length_append

/-- Taking twice around a push is taking once. -/
theorem take_push_take (xs ys : List α) (n : Nat) :
    ((xs.take n) ++ ys).take n = (xs ++ ys).take n := by
  rw [List.take_append, List.take_append, List.take_take, Nat.min_self, List.length_take]
  by_cases h : n ≤ xs.length
  · simp [Nat.min_eq_left h, Nat.sub_eq_zero_of_le h]
  · rw [Nat.min_eq_right (by omega)]

theorem foldl_push_items (c : Capped α cap) (xs : List α) :
    (xs.foldl push c).items = (c.items ++ xs).take cap := by
  induction xs generalizing c with
  | nil => simpa using (List.take_of_length_le c.le_cap).symm
  | cons x xs ih => rw [List.foldl_cons, ih, push_items, take_push_take, List.append_assoc,
      List.singleton_append]

theorem foldl_push_of_full {c : Capped α cap} (h : ¬c.count < cap) (xs : List α) :
    xs.foldl push c = c := by
  have hfull : c.items.length = cap := Nat.le_antisymm c.le_cap (Nat.not_lt.mp h)
  apply ext
  rw [foldl_push_items, List.take_left' hfull]

/-- Push `f x` where it is defined and skip `x` elsewhere. -/
def pushAll (f : β → Option α) (c : Capped α cap) (xs : List β) : Capped α cap :=
  (xs.filterMap f).foldl push c

theorem pushAll_items (f : β → Option α) (c : Capped α cap) (xs : List β) :
    (pushAll f c xs).items = (c.items ++ xs.filterMap f).take cap :=
  foldl_push_items c _

theorem pushAll_singleton (f : β → Option α) (c : Capped α cap) (x : β) :
    pushAll f c [x] = (f x).toList.foldl push c := by
  unfold pushAll
  cases h : f x with
  | none => rw [List.filterMap_cons_none h]; rfl
  | some a => rw [List.filterMap_cons_some h]; rfl

theorem pushAll_cons (f : β → Option α) (c : Capped α cap) (x : β) (xs : List β) :
    pushAll f c (x :: xs) = pushAll f (pushAll f c [x]) xs := by
  unfold pushAll
  cases h : f x with
  | none => rw [List.filterMap_cons_none h, List.filterMap_cons_none h]; rfl
  | some a => rw [List.filterMap_cons_some h, List.filterMap_cons_some h]; rfl

theorem foldl_pushAll (f : β → Option α) (c : Capped α cap) (xs : List β) :
    xs.foldl (fun c x => pushAll f c [x]) c = pushAll f c xs := by
  induction xs generalizing c with
  | nil => rfl
  | cons x xs ih => rw [List.foldl_cons, ih, ← pushAll_cons]

theorem pushAll_none {f : β → Option α} {x : β} (h : f x = none) (c : Capped α cap) :
    pushAll f c [x] = c := by
  rw [pushAll_singleton, h]
  rfl

theorem pushAll_of_full {c : Capped α cap} (h : ¬c.count < cap) (f : β → Option α)
    (xs : List β) : pushAll f c xs = c :=
  foldl_push_of_full h _

/-- A loop over `xs` that starts with `c`, pushes `f x` where that is defined, and
stops early only when the array is full: it saw `ys` and ended with `r`. -/
structure Fills (f : β → Option α) (c : Capped α cap) (xs ys : List β) (r : Capped α cap) :
    Prop where
  isPrefix : ys <+: xs
  all : r.count < cap → ys = xs
  result : r = pushAll f c xs

namespace Fills
variable {f : β → Option α} {c r : Capped α cap} {xs ys : List β}

theorem nil : Fills f c [] [] c := ⟨List.prefix_refl [], fun _ => rfl, rfl⟩

theorem full (h : ¬c.count < cap) (xs : List β) : Fills f c xs [] c :=
  ⟨List.nil_prefix, fun hlt => absurd hlt h, (pushAll_of_full h f xs).symm⟩

theorem cons {x : β} (h : Fills f (pushAll f c [x]) xs ys r) : Fills f c (x :: xs) (x :: ys) r := by
  refine ⟨List.cons_prefix_cons.mpr ⟨rfl, h.isPrefix⟩, fun hlt => ?_, ?_⟩
  · rw [h.all hlt]
  · rw [pushAll_cons]
    exact h.result

theorem last (x : β) : Fills f c [x] [x] (pushAll f c [x]) := cons nil

theorem last_none {x : β} (h : f x = none) : Fills f c [x] [x] c := by
  have hlast := last (f := f) (c := c) x
  rw [pushAll_none h] at hlast
  exact hlast

end Fills
end Capped
end HwMon
