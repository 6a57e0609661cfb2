import HwMon.Lib.Trim
import HwMon.Storage.QueryDevice

/-!
# What a trimmed copy holds

`trim_copy` trims its source before it cuts it to the size of the destination, so a
cut behind a space leaves that space at the end of the copy.
-/

namespace HwMon
set_option autoImplicit false

def isBlank (b : UInt8) : Bool := decide (b = 32)

def isPadding (b : UInt8) : Bool := decide (b = 32 ∨ b = 0)

/-- A source without its leading spaces and its trailing spaces and NULs. -/
def trimmedText (l : List UInt8) : List UInt8 := trimmed isBlank isPadding l

/-- The string in an array that starts with the given bytes. -/
def cString (l : List UInt8) : List UInt8 := l.takeWhile (· ≠ 0)

/-- The bytes that `trim_copy` writes, from the start of its destination on. -/
def copied (m : Mem) (dstSize src srcLen : Nat) : List UInt8 :=
  (trimCopy dstSize src srcLen : ByteProbe Empty _).val m

/-- The copy stays in its arrays, is trimmed and cut, and is not changed by a second
copy of it, up to its first NUL or any further. -/
structure TrimCopyExact (m : Mem) (dstSize src srcLen : Nat) : Prop where
  writes : (copied m dstSize src srcLen).length ≤ dstSize
  reads : (trimCopy dstSize src srcLen : ByteProbe Empty _).Always
    (ReadsWithin src (src + srcLen)) m
  terminated : (copied m dstSize src srcLen).getLast? = some 0
  text : 0 ∉ (segment m src srcLen).rdropWhile isPadding →
    cString (copied m dstSize src srcLen) =
      ((trimmedText (segment m src srcLen)).take (dstSize - 1)).rdropWhile isBlank
  ends : 0 ∉ (segment m src srcLen).rdropWhile isPadding →
    ∀ b, b ∈ (cString (copied m dstSize src srcLen)).head? ∨
      b ∈ (cString (copied m dstSize src srcLen)).getLast? → b ≠ 32
  idempotent : ∀ len, (cString (copied m dstSize src srcLen)).length ≤ len →
    len ≤ (copied m dstSize src srcLen).length →
    cString (copied (memOf (copied m dstSize src srcLen)) dstSize 0 len) =
      cString (copied m dstSize src srcLen)

/-- A space of the trimmed source that no NUL precedes is the last byte that fits, or a NUL
follows it. -/
def SpaceAtCut (dstSize : Nat) (text : List UInt8) : Prop :=
  ∃ k < text.length, text[k]? = some 32 ∧ 0 ∉ text.take k ∧ k + 1 < dstSize ∧
    (k + 2 = dstSize ∨ text[k + 1]? = some 0)

instance (dstSize : Nat) (text : List UInt8) : Decidable (SpaceAtCut dstSize text) :=
  inferInstanceAs (Decidable (∃ k < _, _))

section Strings
variable {s r l : List UInt8}

theorem cString_noNul : 0 ∉ cString l := by
  intro h
  simpa using List.mem_takeWhile_imp h

theorem cString_append (h : 0 ∉ s) (r : List UInt8) : cString (s ++ r) = s ++ cString r := by
  apply List.takeWhile_append_of_pos
  intro b hb
  exact decide_eq_true fun hz => h (hz ▸ hb)

theorem cString_self (h : 0 ∉ s) : cString s = s := by
  have happ := cString_append h []
  rw [List.append_nil] at happ
  exact happ.trans (List.append_nil s)

theorem cString_append_nul (l r : List UInt8) : cString (l ++ 0 :: r) = cString l := by
  induction l with
  | nil => rfl
  | cons b l ih =>
    rw [cString] at ih ⊢
    rw [cString, List.cons_append, List.takeWhile_cons, List.takeWhile_cons]
    split
    · exact congrArg _ ih
    · rfl

theorem cString_eq_nil_iff : cString l = [] ↔ ∀ b ∈ l.head?, b = 0 := by
  cases l with
  | nil => exact iff_of_true rfl fun b hb => by cases hb
  | cons b l =>
    rw [cString, List.takeWhile_cons]
    by_cases hb : b = 0
    · rw [if_neg (by simpa using hb)]
      exact iff_of_true rfl fun c hc => (Option.some.inj hc) ▸ hb
    · rw [if_pos (decide_eq_true hb)]
      exact iff_of_false (List.cons_ne_nil _ _) fun h => hb (h b rfl)

/-- Behind the string of a list there is nothing or a NUL. -/
theorem exists_cString_append (l : List UInt8) : ∃ r, l = cString l ++ r ∧ cString r = [] := by
  refine ⟨l.dropWhile (· ≠ 0), List.takeWhile_append_dropWhile.symm, ?_⟩
  rw [cString_eq_nil_iff]
  intro b hb
  have hnot := List.head?_dropWhile_not (fun b : UInt8 => decide (b ≠ 0)) l
  rw [Option.mem_def.mp hb] at hnot
  simpa using hnot

theorem cString_prefix_eq_nil (h : s <+: l) (hl : cString l = []) : cString s = [] := by
  obtain ⟨r, rfl⟩ := h
  rw [cString_eq_nil_iff] at hl ⊢
  intro b hb
  exact hl b (List.mem_head?_append_of_mem_head? hb)

end Strings

section Values
variable (m : Mem)

theorem trimEnd_val (src srcLen : Nat) :
    segment m src ((trimEnd src srcLen : ByteProbe Empty _).val m) =
      (segment m src srcLen).rdropWhile isPadding := by
  induction srcLen with
  | zero => rfl
  | succ srcLen ih =>
    have hlast : segment m src (srcLen + 1) = segment m src srcLen ++ [m (src + srcLen)] :=
      segment_add m src srcLen 1
    rw [hlast, List.rdropWhile_concat, trimEnd]
    simp only [↓Probe.val_bind, ↓Probe.val_ite, Probe.val_ask, Probe.val_pure, isPadding,
      decide_eq_true_eq]
    split
    · exact ih
    · exact hlast

theorem trimStart_val (src left : Nat) :
    segment m (src + (trimStart src left : ByteProbe Empty _).val m)
      (left - (trimStart src left : ByteProbe Empty _).val m) =
        (segment m src left).dropWhile isBlank := by
  induction left generalizing src with
  | zero => rfl
  | succ left ih =>
    rw [segment_succ, List.dropWhile_cons, trimStart]
    simp only [↓Probe.val_bind, ↓Probe.val_ite, Probe.val_ask, Probe.val_pure, isBlank,
      decide_eq_true_eq]
    split
    · rw [← ih (src + 1)]
      have hnext : src + ((trimStart (src + 1) left : ByteProbe Empty _).val m + 1) =
          src + 1 + (trimStart (src + 1) left : ByteProbe Empty _).val m := by omega
      rw [hnext, Nat.add_sub_add_right]
    · rw [Nat.add_zero, Nat.sub_zero, segment_succ]

/-- The copy is the trimmed source, cut, with a NUL. -/
theorem copied_eq {dstSize : Nat} (h : 0 < dstSize) (src srcLen : Nat) :
    copied m dstSize src srcLen =
      (trimmedText (segment m src srcLen)).take (dstSize - 1) ++ [0] := by
  rw [copied, trimmedText, trimmed, ← trimEnd_val, trimCopy]
  simp only [↓Probe.val_bind, Probe.val_pure, readBytes_val]
  generalize (trimEnd src srcLen : ByteProbe Empty _).val m = len
  rw [← trimStart_val]
  generalize (trimStart src len : ByteProbe Empty _).val m = start
  split
  · rw [segment_take m _ _ _ (by omega)]
  · rw [List.take_of_length_le]
    rw [segment_length]
    omega

theorem cString_copied {dstSize : Nat} (h : 0 < dstSize) (src srcLen : Nat) :
    cString (copied m dstSize src srcLen) =
      cString ((trimmedText (segment m src srcLen)).take (dstSize - 1)) := by
  rw [copied_eq m h, cString_append_nul]

end Values

section Texts
variable {s r l : List UInt8} {dstSize : Nat}

theorem trimmedText_head : ∀ b ∈ (trimmedText l).head?, b ≠ 32 := by
  intro b hb
  exact of_decide_eq_false (trimmed_head b hb)

theorem trimmedText_last : ∀ b ∈ (trimmedText l).getLast?, b ≠ 32 := by
  intro b hb hblank
  exact of_decide_eq_false (trimmed_last b hb) (Or.inl hblank)

/-- A string without spaces at its ends is copied as it is, whatever follows its NUL. -/
theorem cString_trimmed_append (hs : 0 ∉ s) (hfits : s.length < dstSize)
    (hhead : ∀ b ∈ s.head?, b ≠ 32) (hlast : ∀ b ∈ s.getLast?, b ≠ 32) (hr : cString r = []) :
    cString ((trimmedText (s ++ r)).take (dstSize - 1)) = s := by
  have hfront : ∀ b ∈ (s ++ r).head?, isBlank b = false := by
    intro b hb
    apply decide_eq_false
    cases s with
    | nil =>
      rw [cString_eq_nil_iff.mp hr b hb]
      decide
    | cons c s => exact hhead b hb
  have hend : ∀ b ∈ s.getLast?, isPadding b = false := by
    intro b hb
    refine decide_eq_false (not_or.mpr ⟨hlast b hb, ?_⟩)
    rintro rfl
    exact hs (List.mem_of_getLast? hb)
  obtain ⟨left, hleft, heq⟩ := trimmed_append hfront hend
  have hnil : cString (left.take (dstSize - 1 - s.length)) = [] :=
    cString_prefix_eq_nil ((List.take_prefix _ left).trans hleft) hr
  rw [trimmedText, heq, List.take_append, List.take_of_length_le (by omega), cString_append hs,
    hnil, List.append_nil]

/-- A string that ends in a space does not come out of a copy again. -/
theorem cString_trimmed_ne (hlast : s.getLast? = some 32) :
    cString ((trimmedText s).take (dstSize - 1)) ≠ s := by
  intro heq
  have hshort : (trimmedText s).length < s.length := length_trimmed_lt hlast rfl
  have hstring := (List.takeWhile_prefix (l := (trimmedText s).take (dstSize - 1))
    (· ≠ 0)).length_le
  rw [cString] at heq
  rw [heq, List.length_take] at hstring
  omega

theorem cString_of_spaceAtCut (h : SpaceAtCut dstSize l) :
    (cString (l.take (dstSize - 1))).getLast? = some 32 := by
  obtain ⟨k, _, hspace, hnoNul, hcut, hend⟩ := h
  have hlen : dstSize - 1 = k + 1 + (dstSize - 1 - (k + 1)) := by omega
  have hfront : l.take (k + 1) = l.take k ++ [32] := by
    rw [List.take_add_one, hspace]
    rfl
  have hstring : 0 ∉ l.take k ++ [32] := by
    rw [List.mem_append]
    exact not_or.mpr ⟨hnoNul, by decide⟩
  have hnil : cString ((l.drop (k + 1)).take (dstSize - 1 - (k + 1))) = [] := by
    rcases hend with hlast | hnul
    · have hzero : dstSize - 1 - (k + 1) = 0 := by omega
      rw [hzero]
      rfl
    · apply cString_prefix_eq_nil (List.take_prefix _ _)
      rw [cString_eq_nil_iff, List.head?_drop, hnul]
      intro b hb
      exact (Option.some.inj hb).symm
  rw [hlen, List.take_add, hfront, cString_append hstring, hnil, List.append_nil,
    List.getLast?_concat]

theorem spaceAtCut_of_cString (hlast : ∀ b ∈ l.getLast?, b ≠ 32)
    (h : (cString (l.take (dstSize - 1))).getLast? = some 32) : SpaceAtCut dstSize l := by
  obtain ⟨u, hu⟩ := List.getLast?_eq_some_iff.mp h
  obtain ⟨r, hr, hnil⟩ := exists_cString_append (l.take (dstSize - 1))
  have hnoNul : 0 ∉ u := fun hz => by
    have hmem := cString_noNul (l := l.take (dstSize - 1))
    rw [hu] at hmem
    exact hmem (List.mem_append_left _ hz)
  rw [hu] at hr
  have hcut : u.length + 1 + r.length ≤ dstSize - 1 := by
    have hle := List.length_take_le (dstSize - 1) l
    rw [hr, List.length_append, List.length_append, List.length_singleton] at hle
    exact hle
  have hl : l = u ++ ([32] ++ (r ++ l.drop (dstSize - 1))) := by
    rw [← List.append_assoc, ← List.append_assoc, ← hr, List.take_append_drop]
  refine ⟨u.length, ?_, ?_, ?_, by omega, ?_⟩
  · rw [hl, List.length_append, List.length_append, List.length_singleton]
    omega
  · rw [hl, List.getElem?_append_right (Nat.le_refl _), Nat.sub_self]
    rfl
  · rw [hl, List.take_left]
    exact hnoNul
  · rcases r with - | ⟨b, r⟩
    · -- Nothing of the text is cut off here, so it would end in the space.
      left
      by_contra hroom
      rw [List.append_nil] at hr
      have hshort : l.length ≤ dstSize - 1 := by
        have hlen := congrArg List.length hr
        rw [List.length_take, List.length_append, List.length_singleton] at hlen
        omega
      rw [List.take_of_length_le hshort] at hr
      exact hlast 32 (by rw [hr, List.getLast?_concat]; rfl) rfl
    · right
      obtain rfl : b = 0 := cString_eq_nil_iff.mp hnil b rfl
      rw [hl, List.getElem?_append_right (Nat.le_add_right _ 1), Nat.add_sub_cancel_left]
      rfl

theorem spaceAtCut_iff (hlast : ∀ b ∈ l.getLast?, b ≠ 32) :
    SpaceAtCut dstSize l ↔ (cString (l.take (dstSize - 1))).getLast? = some 32 :=
  ⟨cString_of_spaceAtCut, spaceAtCut_of_cString hlast⟩

end Texts

section Exact
variable {m : Mem} {dstSize src srcLen : Nat}

theorem copied_length_le (hdst : 0 < dstSize) : (copied m dstSize src srcLen).length ≤ dstSize := by
  have hle := List.length_take_le (dstSize - 1) (trimmedText (segment m src srcLen))
  rw [copied_eq m hdst, List.length_append, List.length_singleton]
  omega

theorem cString_copied_head (hdst : 0 < dstSize) :
    ∀ b ∈ (cString (copied m dstSize src srcLen)).head?, b ≠ 32 := by
  intro b hb
  rw [cString_copied m hdst] at hb
  obtain ⟨r, hr⟩ := (List.takeWhile_prefix (· ≠ 0)).trans
    (List.take_prefix (dstSize - 1) (trimmedText (segment m src srcLen)))
  apply trimmedText_head
  rw [← hr]
  exact List.mem_head?_append_of_mem_head? hb

/-- A second copy changes nothing where the string does not end in a space. -/
theorem copied_again (hdst : 0 < dstSize)
    (hlast : ∀ b ∈ (cString (copied m dstSize src srcLen)).getLast?, b ≠ 32) {len : Nat}
    (hlow : (cString (copied m dstSize src srcLen)).length ≤ len)
    (hhigh : len ≤ (copied m dstSize src srcLen).length) :
    cString (copied (memOf (copied m dstSize src srcLen)) dstSize 0 len) =
      cString (copied m dstSize src srcLen) := by
  have hfits : (cString (copied m dstSize src srcLen)).length < dstSize := by
    have hle := List.length_take_le (dstSize - 1) (trimmedText (segment m src srcLen))
    have hstring := (List.takeWhile_prefix (l := (trimmedText (segment m src srcLen)).take
      (dstSize - 1)) (· ≠ 0)).length_le
    rw [cString_copied m hdst, cString]
    omega
  have hhead : ∀ b ∈ (cString (copied m dstSize src srcLen)).head?, b ≠ 32 :=
    cString_copied_head hdst
  obtain ⟨r, hr, hnil⟩ := exists_cString_append (copied m dstSize src srcLen)
  have hsource : segment (memOf (copied m dstSize src srcLen)) 0 len =
      cString (copied m dstSize src srcLen) ++
        r.take (len - (cString (copied m dstSize src srcLen)).length) := by
    rw [segment_memOf _ _ _ (by omega), List.drop_zero]
    nth_rewrite 1 [hr]
    rw [List.take_append, List.take_of_length_le hlow]
  rw [cString_copied _ hdst, hsource]
  exact cString_trimmed_append cString_noNul hfits hhead hlast
    (cString_prefix_eq_nil (List.take_prefix _ _) hnil)

theorem trimCopyExact_of_last (hdst : 0 < dstSize)
    (hlast : ∀ b ∈ (cString (copied m dstSize src srcLen)).getLast?, b ≠ 32) :
    TrimCopyExact m dstSize src srcLen := by
  refine ⟨copied_length_le hdst, ?_, ?_, ?_, ?_, fun len => copied_again hdst hlast⟩
  · apply always_trimCopy
    intro i hle hlt
    exact ⟨hle, hlt⟩
  · rw [copied_eq m hdst, List.getLast?_concat]
  · intro hnoNul
    have htext : 0 ∉ (trimmedText (segment m src srcLen)).take (dstSize - 1) := fun hz =>
      hnoNul (trimmed_subset (List.mem_of_mem_take hz))
    rw [cString_copied m hdst, cString_self htext] at hlast ⊢
    refine (List.rdropWhile_eq_self_iff.mpr ?_).symm
    intro hne hblank
    exact hlast _ (List.getLast?_eq_some_getLast hne) (of_decide_eq_true hblank)
  · rintro - b (hhead | hend)
    · exact cString_copied_head hdst b hhead
    · exact hlast b hend

/-- The copy is exact just when no space comes to stand at its end. -/
theorem trimCopyExact_iff (m : Mem) (dstSize src srcLen : Nat) (hdst : 0 < dstSize) :
    TrimCopyExact m dstSize src srcLen ↔
      ¬SpaceAtCut dstSize (trimmedText (segment m src srcLen)) := by
  constructor
  · intro hexact hcut
    have hspace := (spaceAtCut_iff trimmedText_last).mp hcut
    rw [← cString_copied m hdst] at hspace
    have hprefix : cString (copied m dstSize src srcLen) <+: copied m dstSize src srcLen :=
      List.takeWhile_prefix _
    have hsource : segment (memOf (copied m dstSize src srcLen)) 0
        (cString (copied m dstSize src srcLen)).length = cString (copied m dstSize src srcLen) := by
      rw [segment_memOf _ _ _ (by rw [Nat.zero_add]; exact hprefix.length_le), List.drop_zero]
      exact (List.prefix_iff_eq_take.mp hprefix).symm
    have hagain := hexact.idempotent _ (Nat.le_refl _) hprefix.length_le
    rw [cString_copied _ hdst, hsource] at hagain
    exact cString_trimmed_ne hspace hagain
  · intro hcut
    apply trimCopyExact_of_last hdst
    rintro b hb rfl
    rw [cString_copied m hdst] at hb
    exact hcut ((spaceAtCut_iff trimmedText_last).mpr hb)

end Exact

section Fields
variable (m : Mem) (size : Nat) [NeZero size] (returned off : UInt32)

/-- The source of an identity string: the reply from its offset to the first NUL. -/
def descriptorText : List UInt8 := cString (segment m off.toNat (returned - off).toNat)

theorem segment_descriptorText : segment m off.toNat
    ((strnlen off.toNat (returned - off).toNat : StorageProbe _).val m) =
      descriptorText m returned off := by
  have hprefix : descriptorText m returned off <+:
      segment m off.toNat (returned - off).toNat := List.takeWhile_prefix _
  have hle := hprefix.length_le
  rw [segment_length] at hle
  have hlen : (strnlen off.toNat (returned - off).toNat : StorageProbe _).val m =
      (descriptorText m returned off).length := strnlen_val m _ _
  rw [hlen, ← segment_take m _ _ _ hle]
  exact (List.prefix_iff_eq_take.mp hprefix).symm

/-- An identity string is its trimmed source, cut. -/
theorem copyDescriptorString_bytes : ((copyDescriptorString size returned off).val m).bytes =
    (trimmedText (descriptorText m returned off)).take (size - 1) := by
  have hnoNul : 0 ∉ (trimmedText (descriptorText m returned off)).take (size - 1) := fun hz =>
    cString_noNul ((List.rdropWhile_prefix _ _).subset (trimmed_subset (List.mem_of_mem_take hz)))
  have hcopied := cString_copied m (Nat.pos_of_neZero size) off.toNat
    ((strnlen off.toNat (returned - off).toNat : StorageProbe _).val m)
  rw [segment_descriptorText, cString_self hnoNul] at hcopied
  have hbytes : ((copyDescriptorString size returned off).val m).bytes =
      (cString (copied m size off.toNat
        ((strnlen off.toNat (returned - off).toNat : StorageProbe _).val m))).take (size - 1) := rfl
  rw [hbytes, hcopied, List.take_take, Nat.min_self]

/-- It ends in a space just when its cut is behind one. -/
theorem identityString_trimmed_iff :
    (∀ b ∈ ((copyDescriptorString size returned off).val m).bytes.getLast?, b ≠ 32) ↔
      ¬SpaceAtCut size (trimmedText (descriptorText m returned off)) := by
  have hnoNul : 0 ∉ (trimmedText (descriptorText m returned off)).take (size - 1) := by
    rw [← copyDescriptorString_bytes]
    exact ((copyDescriptorString size returned off).val m).noNul
  rw [copyDescriptorString_bytes, spaceAtCut_iff trimmedText_last, cString_self hnoNul]
  constructor
  · intro h hspace
    exact h 32 hspace rfl
  · rintro h b hb rfl
    exact h hb

end Fields

/-- `  AB C ` and a NUL. -/
def paddedName : List UInt8 := [32, 32, 65, 66, 32, 67, 32, 0]

theorem paddedName_exact : TrimCopyExact (memOf paddedName) 80 0 8 :=
  (trimCopyExact_iff (memOf paddedName) 80 0 8 (by decide)).mpr (by decide)

/-- Thirty letters, a space and a letter. -/
def longRevision : List UInt8 := List.replicate 30 65 ++ [32, 66]

/-- The firmware revision keeps the space in front of the letter that was cut off. -/
theorem longRevision_untrimmed : ¬TrimCopyExact (memOf longRevision) 32 0 32 := by
  intro h
  have hspace : (32 : UInt8) ∈ (cString (copied (memOf longRevision) 32 0 32)).getLast? := by
    decide
  exact h.ends (by decide) 32 (Or.inr hspace) rfl

end HwMon
