import HwMon.Smbios.Parser

/-!
# What an SMBIOS table is

A structure is a formatted area that states its own length, followed by a
string set up to its first two consecutive NULs. A table splits in exactly one
way into such structures, none of them an end-of-table marker, and a rest that
does not begin with one. The decoders below read one structure as a list of
bytes; they do not know where in the table it stands.
-/

namespace HwMon
set_option autoImplicit false

structure SmbiosStructure where
  formatted : List UInt8
  strings : List UInt8
  four_le : 4 ≤ formatted.length
  length_eq : (formatted.getD 1 0).toNat = formatted.length
  closed : Closed strings

def endOfTable : UInt8 := 127

/-- Formatted length that a structure at the head of `l` states. -/
def statedLength (l : List UInt8) : Nat := (l.getD 1 0).toNat

/-- A structure header at the head of `l` whose formatted area is inside `l`. -/
def HeaderFits (l : List UInt8) : Prop := 4 ≤ statedLength l ∧ statedLength l ≤ l.length

instance (l : List UInt8) : Decidable (HeaderFits l) := inferInstanceAs (Decidable (_ ∧ _))

theorem HeaderFits.four_le {l : List UInt8} (h : HeaderFits l) : 4 ≤ l.length :=
  Nat.le_trans h.1 h.2

/-- An end-of-table marker at the head of `l`; its string set is not looked at. -/
def Marker (l : List UInt8) : Prop := l.getD 0 0 = endOfTable ∧ HeaderFits l

instance (l : List UInt8) : Decidable (Marker l) := inferInstanceAs (Decidable (_ ∧ _))

namespace SmbiosStructure

@[ext] theorem ext {s t : SmbiosStructure} (hf : s.formatted = t.formatted)
    (hs : s.strings = t.strings) : s = t := by
  cases s
  cases t
  cases hf
  cases hs
  rfl

def type (s : SmbiosStructure) : UInt8 := s.formatted.getD 0 0

def hlen (s : SmbiosStructure) : UInt8 := s.formatted.getD 1 0

def bytes (s : SmbiosStructure) : List UInt8 := s.formatted ++ s.strings

@[simp] theorem bytes_length (s : SmbiosStructure) :
    s.bytes.length = s.formatted.length + s.strings.length := List.length_append

theorem getD_bytes (s : SmbiosStructure) (r : List UInt8) {i : Nat} (hi : i < s.formatted.length) :
    (s.bytes ++ r).getD i 0 = s.formatted.getD i 0 := by
  rw [bytes, List.append_assoc, getD_append_left hi]

theorem statedLength_bytes (s : SmbiosStructure) (r : List UInt8) :
    statedLength (s.bytes ++ r) = s.formatted.length := by
  have hlong := s.four_le
  rw [statedLength, s.getD_bytes r (by omega), s.length_eq]

theorem headerFits_bytes (s : SmbiosStructure) (r : List UInt8) : HeaderFits (s.bytes ++ r) := by
  rw [HeaderFits, s.statedLength_bytes r]
  refine ⟨s.four_le, ?_⟩
  simp only [List.length_append, bytes_length]
  omega

end SmbiosStructure

/-- The structure at the head of a list, with the bytes after it. -/
def splitStructure (l : List UInt8) : Option (SmbiosStructure × List UInt8) :=
  if h : HeaderFits l then
    match hc : closeAt (l.drop (statedLength l)) with
    | none => none
    | some n => some
        ({ formatted := l.take (statedLength l)
           strings := (l.drop (statedLength l)).take n
           four_le := by
            rw [List.length_take_of_le h.2]
            exact h.1
           length_eq := by
            have hlong := h.1
            rw [List.length_take_of_le h.2, getD_take l (by omega)]
            rfl
           closed := closed_take hc },
         (l.drop (statedLength l)).drop n)
  else none

theorem splitStructure_eq_some {l r : List UInt8} {s : SmbiosStructure}
    (h : splitStructure l = some (s, r)) : l = s.bytes ++ r := by
  unfold splitStructure at h
  split at h
  · split at h
    · cases h
    · cases h
      rw [SmbiosStructure.bytes, List.append_assoc, List.take_append_drop, List.take_append_drop]
  · cases h

theorem splitStructure_bytes (s : SmbiosStructure) (r : List UInt8) :
    splitStructure (s.bytes ++ r) = some (s, r) := by
  have hdrop : (s.bytes ++ r).drop (statedLength (s.bytes ++ r)) = s.strings ++ r := by
    rw [s.statedLength_bytes r, SmbiosStructure.bytes, List.append_assoc, List.drop_left]
  have hclose : closeAt ((s.bytes ++ r).drop (statedLength (s.bytes ++ r))) =
      some s.strings.length := by
    rw [hdrop]
    exact closeAt_append s.closed r
  unfold splitStructure
  rw [dif_pos (s.headerFits_bytes r)]
  split
  · rename_i hnone
    rw [hclose] at hnone
    cases hnone
  · rename_i n hn
    rw [hclose] at hn
    cases hn
    simp only [Option.some.injEq, Prod.mk.injEq]
    refine ⟨SmbiosStructure.ext ?_ ?_, ?_⟩
    · simp only [s.statedLength_bytes r]
      rw [SmbiosStructure.bytes, List.append_assoc, List.take_left]
    · simp only [hdrop, List.take_left]
    · simp only [hdrop, List.drop_left]

/-- The bytes of a run of structures. -/
def tableBytes (ss : List SmbiosStructure) : List UInt8 := ss.flatMap SmbiosStructure.bytes

@[simp] theorem tableBytes_nil : tableBytes [] = [] := rfl

@[simp] theorem tableBytes_cons (s : SmbiosStructure) (ss : List SmbiosStructure) :
    tableBytes (s :: ss) = s.bytes ++ tableBytes ss := rfl

/-- As many structures as the head of a list holds, up to an end-of-table marker. -/
def splitTable (l : List UInt8) : List SmbiosStructure × List UInt8 :=
  match _hl : splitStructure l with
  | none => ([], l)
  | some (s, r) =>
    if s.type = endOfTable then ([], l)
    else (s :: (splitTable r).1, (splitTable r).2)
termination_by l.length
decreasing_by
  all_goals
    have hlong := s.four_le
    rw [splitStructure_eq_some _hl, List.length_append, s.bytes_length]
    omega

/-- `l` does not begin with a structure other than an end-of-table marker. -/
def Stuck (l : List UInt8) : Prop :=
  ∀ s r, l = SmbiosStructure.bytes s ++ r → s.type = endOfTable

theorem splitTable_bytes {s : SmbiosStructure} (hs : s.type ≠ endOfTable) (r : List UInt8) :
    splitTable (s.bytes ++ r) = (s :: (splitTable r).1, (splitTable r).2) := by
  rw [splitTable]
  split
  · rename_i h
    rw [splitStructure_bytes] at h
    cases h
  · rename_i s' r' h
    rw [splitStructure_bytes] at h
    cases h
    rw [if_neg hs]

theorem splitTable_stuck {l : List UInt8} (h : Stuck l) : splitTable l = ([], l) := by
  rw [splitTable]
  split
  · rfl
  · rename_i s r hs
    rw [if_pos (h s r (splitStructure_eq_some hs))]

theorem splitTable_append {ss : List SmbiosStructure} (hss : ∀ s ∈ ss, s.type ≠ endOfTable)
    (r : List UInt8) :
    splitTable (tableBytes ss ++ r) = (ss ++ (splitTable r).1, (splitTable r).2) := by
  induction ss with
  | nil => rfl
  | cons s ss ih =>
    rw [tableBytes_cons, List.append_assoc, splitTable_bytes (hss s List.mem_cons_self),
      ih fun t ht => hss t (List.mem_cons_of_mem s ht)]
    rfl

/-- Every table is a run of structures and a stuck rest. -/
theorem splitTable_spec (l : List UInt8) :
    l = tableBytes (splitTable l).1 ++ (splitTable l).2 ∧
      (∀ s ∈ (splitTable l).1, s.type ≠ endOfTable) ∧ Stuck (splitTable l).2 := by
  fun_induction splitTable l with
  | case1 l h =>
    refine ⟨rfl, fun s hs => absurd hs List.not_mem_nil, ?_⟩
    intro s r hl
    have hbytes : l = s.bytes ++ r := hl
    rw [hbytes, splitStructure_bytes] at h
    cases h
  | case2 l s r h hs =>
    refine ⟨rfl, fun s hs => absurd hs List.not_mem_nil, ?_⟩
    intro s' r' hl
    have hbytes : l = s'.bytes ++ r' := hl
    rw [hbytes, splitStructure_bytes] at h
    cases h
    exact hs
  | case3 l s r h hs ih =>
    obtain ⟨heq, hty, hstuck⟩ := ih
    refine ⟨?_, ?_, hstuck⟩
    · rw [tableBytes_cons, List.append_assoc, ← heq]
      exact splitStructure_eq_some h
    · intro t ht
      rcases List.mem_cons.mp ht with rfl | ht
      · exact hs
      · exact hty t ht

/-- How a table may end after its structures. -/
def TableTail (l : List UInt8) : Prop := l = [] ∨ Marker l

instance (l : List UInt8) : Decidable (TableTail l) := inferInstanceAs (Decidable (_ ∨ _))

/-- Header inside the table, not a marker, and no end to its string set. -/
def Unterminated (l : List UInt8) : Prop :=
  HeaderFits l ∧ l.getD 0 0 ≠ endOfTable ∧ closeAt (l.drop (statedLength l)) = none

instance (l : List UInt8) : Decidable (Unterminated l) := inferInstanceAs (Decidable (_ ∧ _))

theorem stuck_of_not_headerFits {l : List UInt8} (h : ¬HeaderFits l) : Stuck l := by
  intro s r hl
  exact absurd (hl ▸ s.headerFits_bytes r) h

theorem Marker.stuck {l : List UInt8} (h : Marker l) : Stuck l := by
  intro s r hl
  have hlong := s.four_le
  rw [SmbiosStructure.type, ← s.getD_bytes r (by omega), ← hl]
  exact h.1

theorem stuck_nil : Stuck [] := stuck_of_not_headerFits (by decide)

theorem TableTail.stuck {l : List UInt8} (h : TableTail l) : Stuck l := by
  rcases h with rfl | hmark
  · exact stuck_nil
  · exact hmark.stuck

theorem not_headerFits_of_short {l : List UInt8} (h : l.length < 4) : ¬HeaderFits l :=
  fun hfit => Nat.not_le.mpr h hfit.four_le

theorem not_unterminated_nil : ¬Unterminated [] :=
  fun h => not_headerFits_of_short (by decide) h.1

theorem Marker.not_unterminated {l : List UInt8} (h : Marker l) : ¬Unterminated l :=
  fun hopen => hopen.2.1 h.1

theorem Unterminated.stuck {l : List UInt8} (h : Unterminated l) : Stuck l := by
  intro s r hl
  have hclose := h.2.2
  rw [hl, s.statedLength_bytes r, SmbiosStructure.bytes, List.append_assoc, List.drop_left,
    closeAt_append s.closed r] at hclose
  cases hclose

theorem stuck_cases {l : List UInt8} (h : Stuck l) :
    ¬HeaderFits l ∨ Marker l ∨ Unterminated l := by
  by_cases hfit : HeaderFits l
  · by_cases hty : l.getD 0 0 = endOfTable
    · exact Or.inr (Or.inl ⟨hty, hfit⟩)
    · refine Or.inr (Or.inr ⟨hfit, hty, ?_⟩)
      cases hc : closeAt (l.drop (statedLength l)) with
      | none => rfl
      | some n =>
        have hsplit : (splitStructure l).isSome := by
          unfold splitStructure
          rw [dif_pos hfit]
          split
          · rename_i hnone
            rw [hc] at hnone
            cases hnone
          · rfl
        obtain ⟨⟨s, r⟩, hs⟩ := Option.isSome_iff_exists.mp hsplit
        have hl := splitStructure_eq_some hs
        have hlong := s.four_le
        have htype := h s r hl
        rw [hl, s.getD_bytes r (by omega)] at hty
        exact absurd htype hty
  · exact Or.inl hfit

end HwMon
