import Mathlib.Data.List.DropRight

/-!
# Lists without padding

A list is trimmed of what may lead at its front and of padding at its end. A list
that neither starts with the one nor ends with the other is left as it is, and then
whatever is put behind it is taken away or left, but does not reach into it.
-/

namespace HwMon
set_option autoImplicit false

variable {α : Type} (lead pad : α → Bool)

def trimmed (l : List α) : List α := (l.rdropWhile pad).dropWhile lead

variable {lead pad}

theorem trimmed_head {l : List α} : ∀ a ∈ (trimmed lead pad l).head?, lead a = false := by
  intro a ha
  have hnot := List.head?_dropWhile_not lead (l.rdropWhile pad)
  rw [trimmed, Option.mem_def] at ha
  rw [ha] at hnot
  exact hnot

theorem trimmed_last {l : List α} : ∀ a ∈ (trimmed lead pad l).getLast?, pad a = false := by
  intro a ha
  obtain ⟨front, hfront⟩ := List.dropWhile_suffix (l := l.rdropWhile pad) lead
  have hlast : (l.rdropWhile pad).getLast? = some a := by
    rw [← hfront]
    exact List.mem_getLast?_append_of_mem_getLast? ha
  have hne : l.rdropWhile pad ≠ [] := by
    rintro hnil
    rw [hnil] at hlast
    cases hlast
  have hnot := List.rdropWhile_last_not pad l hne
  rw [List.getLast?_eq_some_getLast hne] at hlast
  rw [← Option.some.inj hlast]
  exact Bool.eq_false_iff.mpr hnot

theorem trimmed_subset {l : List α} : trimmed lead pad l ⊆ l.rdropWhile pad :=
  (List.dropWhile_suffix lead).subset

/-- A list that ends with padding gets shorter. -/
theorem length_trimmed_lt {l : List α} {a : α} (h : l.getLast? = some a) (ha : pad a = true) :
    (trimmed lead pad l).length < l.length := by
  obtain ⟨front, rfl⟩ := List.getLast?_eq_some_iff.mp h
  have hdrop := (List.dropWhile_suffix (l := (front ++ [a]).rdropWhile pad) lead).length_le
  have hfront := (List.rdropWhile_prefix pad front).length_le
  rw [List.rdropWhile_concat_pos pad front a ha] at hdrop
  rw [trimmed, List.rdropWhile_concat_pos pad front a ha, List.length_append,
    List.length_singleton]
  omega

/-- What ends without padding stays in front of what is left of the rest. -/
theorem rdropWhile_append {s : List α} (h : ∀ a ∈ s.getLast?, pad a = false) (r : List α) :
    ∃ left, left <+: r ∧ (s ++ r).rdropWhile pad = s ++ left := by
  induction r using List.reverseRecOn with
  | nil =>
    refine ⟨[], List.nil_prefix, ?_⟩
    rw [List.append_nil, List.rdropWhile_eq_self_iff]
    intro hne
    rw [h _ (List.getLast?_eq_some_getLast hne)]
    exact Bool.false_ne_true
  | append_singleton r b ih =>
    rw [← List.append_assoc, List.rdropWhile_concat]
    split
    · obtain ⟨left, hleft, heq⟩ := ih
      exact ⟨left, hleft.trans (List.prefix_append r [b]), heq⟩
    · exact ⟨r ++ [b], List.prefix_rfl, List.append_assoc _ _ _⟩

theorem dropWhile_eq_self {l : List α} (h : ∀ a ∈ l.head?, lead a = false) :
    l.dropWhile lead = l := by
  cases l with
  | nil => rfl
  | cons a l => exact List.dropWhile_cons_of_neg (Bool.eq_false_iff.mp (h a rfl))

/-- Trimming does not reach into a list that needs none. -/
theorem trimmed_append {s r : List α} (hhead : ∀ a ∈ (s ++ r).head?, lead a = false)
    (hlast : ∀ a ∈ s.getLast?, pad a = false) :
    ∃ left, left <+: r ∧ trimmed lead pad (s ++ r) = s ++ left := by
  obtain ⟨left, hleft, heq⟩ := rdropWhile_append hlast r
  refine ⟨left, hleft, ?_⟩
  rw [trimmed, heq]
  obtain ⟨rest, rfl⟩ := hleft
  apply dropWhile_eq_self
  intro a ha
  apply hhead
  rw [← List.append_assoc]
  exact List.mem_head?_append_of_mem_head? ha

end HwMon
