import Mathlib.Data.List.Basic

/-!
# Splitting a list into chunks

A `ChunkRule` reads the length of the first chunk off a list, from the chunk
alone. Splitting off chunks as long as there are any gives the longest run of
chunks at the front of the list.
-/

namespace HwMon
set_option autoImplicit false

structure ChunkRule (α : Type) where
  /-- The length of the first chunk, if the list starts with one. -/
  size : List α → Option Nat
  pos : ∀ {l n}, size l = some n → 0 < n
  le : ∀ {l n}, size l = some n → n ≤ l.length
  stable : ∀ {l n}, size l = some n → ∀ r, size (l.take n ++ r) = some n

namespace ChunkRule
variable {α : Type} (R : ChunkRule α)

def IsChunk (c : List α) : Prop := R.size c = some c.length

/-- The chunks at the front of a list, and what is left. -/
def split (l : List α) : List (List α) × List α :=
  match _h : R.size l with
  | some n => (l.take n :: (split (l.drop n)).1, (split (l.drop n)).2)
  | none => ([], l)
termination_by l.length
decreasing_by
  all_goals
    have hpos := R.pos _h
    have hle := R.le _h
    rw [List.length_drop]
    omega

theorem split_of_none {l : List α} (h : R.size l = none) : R.split l = ([], l) := by
  rw [split]
  split
  · rename_i n hn
    rw [h] at hn
    cases hn
  · rfl

theorem split_of_some {l : List α} {n : Nat} (h : R.size l = some n) :
    R.split l = (l.take n :: (R.split (l.drop n)).1, (R.split (l.drop n)).2) := by
  rw [split]
  split
  · rename_i k hk
    rw [h] at hk
    cases hk
    rfl
  · rename_i hn
    rw [h] at hn
    cases hn

variable {R}

theorem isChunk_take {l : List α} {n : Nat} (h : R.size l = some n) : R.IsChunk (l.take n) := by
  have hfront := R.stable h []
  rw [List.append_nil] at hfront
  rw [IsChunk, hfront, List.length_take_of_le (R.le h)]

theorem size_append {c : List α} (h : R.IsChunk c) (r : List α) :
    R.size (c ++ r) = some c.length := by
  have hstable := R.stable h r
  rwa [List.take_length] at hstable

theorem split_chunk {c : List α} (h : R.IsChunk c) (r : List α) :
    R.split (c ++ r) = (c :: (R.split r).1, (R.split r).2) := by
  rw [R.split_of_some (size_append h r), List.take_left, List.drop_left]

theorem split_append {cs : List (List α)} (h : ∀ c ∈ cs, R.IsChunk c) (r : List α) :
    R.split (cs.flatten ++ r) = (cs ++ (R.split r).1, (R.split r).2) := by
  induction cs with
  | nil => rfl
  | cons c cs ih =>
    rw [List.flatten_cons, List.append_assoc, split_chunk (h c List.mem_cons_self),
      ih fun d hd => h d (List.mem_cons_of_mem c hd)]
    rfl

variable (R)

theorem split_flatten (l : List α) : (R.split l).1.flatten ++ (R.split l).2 = l := by
  fun_induction R.split l with
  | case1 l n h ih => rw [List.flatten_cons, List.append_assoc, ih, List.take_append_drop]
  | case2 l h => rfl

theorem split_isChunk (l : List α) : ∀ c ∈ (R.split l).1, R.IsChunk c := by
  fun_induction R.split l with
  | case1 l n h ih =>
    intro c hc
    rcases List.mem_cons.mp hc with rfl | hc
    · exact isChunk_take h
    · exact ih c hc
  | case2 l h =>
    intro c hc
    exact absurd hc List.not_mem_nil

variable {R}

/-- No run of chunks at the front is longer. -/
theorem prefix_split {l : List α} {cs : List (List α)} {r : List α} (hl : l = cs.flatten ++ r)
    (h : ∀ c ∈ cs, R.IsChunk c) : cs <+: (R.split l).1 := by
  rw [hl, split_append h]
  exact List.prefix_append _ _

end ChunkRule
end HwMon
