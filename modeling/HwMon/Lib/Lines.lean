import Mathlib.Data.List.Count

/-!
# Terminated lines

A list of lines, each with a separator behind it, is split at the separators into
just these lines and nothing behind the last one. A split has one piece more than
there are separators.
-/

namespace HwMon
set_option autoImplicit false

variable {α : Type} (sep : α)

def joinLines (lines : List (List α)) : List α := lines.flatMap (· ++ [sep])

variable {sep} [BEq α]

theorem splitOn_joinLines [LawfulBEq α] {lines : List (List α)} (h : ∀ line ∈ lines, sep ∉ line) :
    (joinLines sep lines).splitOn sep = lines ++ [[]] := by
  induction lines with
  | nil => rfl
  | cons line lines ih =>
    obtain ⟨hline, hlines⟩ := List.forall_mem_cons.mp h
    rw [joinLines, List.flatMap_cons, List.append_assoc, List.singleton_append,
      List.splitOn_append_cons_self_of_not_mem hline]
    exact congrArg _ (ih hlines)

theorem length_splitOn (l : List α) : (l.splitOn sep).length = l.count sep + 1 := by
  induction l with
  | nil => rfl
  | cons a l ih =>
    rw [List.splitOn_cons_eq_if_modifyHead, List.count_cons]
    split
    · rename_i ha
      rw [List.length_cons, ih]
    · rename_i ha
      rw [List.length_modifyHead, ih, Nat.add_zero]

end HwMon
