import HwMon.Smbios.Collect

/-!
# Malformed structures and the malformed counter

Where a walk ends is decided by the rest of the table after its last complete
structure. The contract of the collector fails on two kinds of rest: a structure
whose string set has no end, which is decoded before the end is looked for, and
a rest that the walk passes over without counting it.
-/

namespace HwMon
set_option autoImplicit false

/-- No two consecutive NULs in `[p, stop)`. -/
def NoDoubleNul (m : Mem) (p stop : Nat) : Prop :=
  ∀ i < stop, p ≤ i → i + 1 < stop → ¬(m i = 0 ∧ m (i + 1) = 0)

instance (m : Mem) (p stop : Nat) : Decidable (NoDoubleNul m p stop) :=
  inferInstanceAs (Decidable (∀ i < stop, p ≤ i → i + 1 < stop → ¬(m i = 0 ∧ m (i + 1) = 0)))

/-- A structure that is malformed where it stands. An end-of-table marker needs no strings. -/
def MalformedVisit (m : Mem) (stop : Nat) (v : Visit) : Prop :=
  v.hlen < 4 ∨ v.offset + v.hlen.toNat > stop ∨
    v.type ≠ endOfTable ∧ NoDoubleNul m (v.offset + v.hlen.toNat) stop

instance (m : Mem) (stop : Nat) (v : Visit) : Decidable (MalformedVisit m stop v) :=
  inferInstanceAs (Decidable (_ ∨ _ ∨ _))

section Visits
variable {m : Mem} {stop cur : Nat}

theorem noDoubleNul_iff {p : Nat} (hp : p ≤ stop) :
    NoDoubleNul m p stop ↔ closeAt (segment m p (stop - p)) = none := by
  rw [closeAt_eq_none_iff]
  constructor
  · intro h i hnul
    obtain ⟨h0, h1⟩ := hnul
    have hi : i + 1 < stop - p := by
      obtain ⟨hlt, _⟩ := List.getElem?_eq_some_iff.mp h1
      rwa [segment_length] at hlt
    rw [segment_getElem? m p _ _ (by omega)] at h0 h1
    exact h (p + i) (by omega) (by omega) (by omega) ⟨Option.some.inj h0, Option.some.inj h1⟩
  · intro h i _ hpi hi hnul
    obtain ⟨h0, h1⟩ := hnul
    obtain ⟨k, rfl⟩ := Nat.exists_eq_add_of_le hpi
    apply h k
    rw [segment_getElem? m p _ _ (by omega), segment_getElem? m p _ _ (by omega), h0]
    exact ⟨rfl, congrArg some h1⟩

theorem malformedVisit_iff {l : List UInt8} (hl : segment m cur (stop - cur) = l)
    (h4 : 4 ≤ l.length) :
    MalformedVisit m stop ⟨cur, l.getD 0 0, l.getD 1 0⟩ ↔ ¬HeaderFits l ∨ Unterminated l := by
  have hhdr := headerFits_iff hl h4
  have hlen := statedLength_table hl h4
  rw [← getD_table hl (by omega)] at hhdr hlen
  by_cases hfit : HeaderFits l
  · have hroom := Nat.le_of_not_lt fun h => hhdr.mp hfit (Or.inr h)
    have hnul := noDoubleNul_iff (m := m) hroom
    rw [← hlen, table_area hl hfit] at hnul
    constructor
    · intro hor
      rcases hor with hshort | hlong | ⟨hty, hopen⟩
      · exact absurd (Or.inl hshort) (hhdr.mp hfit)
      · exact absurd (Or.inr hlong) (hhdr.mp hfit)
      · exact Or.inr ⟨hfit, hty, hnul.mp (hlen ▸ hopen)⟩
    · intro hor
      rcases hor with hbad | ⟨_, hty, hopen⟩
      · exact absurd hfit hbad
      · exact Or.inr (Or.inr ⟨hty, hlen ▸ hnul.mpr hopen⟩)
  · constructor
    · intro _
      exact Or.inl hfit
    · intro _
      rcases not_not.mp (mt hhdr.mpr hfit) with hshort | hlong
      · exact Or.inl hshort
      · exact Or.inr (Or.inl hlong)

theorem tableVisits_wellFormed {ss : List SmbiosStructure} {rest : List UInt8}
    (hl : segment m cur (stop - cur) = tableBytes ss ++ rest) :
    ∀ v ∈ tableVisits cur ss [], ¬MalformedVisit m stop v := by
  induction ss generalizing cur with
  | nil =>
    intro v hv
    exact absurd hv List.not_mem_nil
  | cons s ss ih =>
    intro v hv
    rw [tableBytes_cons, List.append_assoc] at hl
    rcases List.mem_cons.mp hv with rfl | hv
    · have hlong := s.four_le
      have h4 : 4 ≤ (s.bytes ++ (tableBytes ss ++ rest)).length := by
        rw [List.length_append, s.bytes_length]
        omega
      have hiff := malformedVisit_iff hl h4
      rw [s.getD_bytes _ (by omega), s.getD_bytes _ (by omega)] at hiff
      intro hbad
      rcases hiff.mp hbad with hfit | hopen
      · exact hfit (s.headerFits_bytes _)
      · exact hopen.2.1 (hopen.stuck s _ rfl ▸ s.getD_bytes _ (by omega))
    · obtain ⟨_, hnext, hlen⟩ := segment_append m hl
      apply ih ?_ v hv
      rw [← Nat.sub_sub, hlen, Nat.add_sub_cancel_left]
      exact hnext

end Visits

def firstMalformed (raw : List UInt8) : Option Visit :=
  (smbiosVisits raw).find? fun v =>
    MalformedVisit (memOf raw) (smbiosTableEnd raw.length (smbiosLength raw)) v

/-- The structures to be counted: all but the marker at which the walk ends. -/
def countedVisits (raw : List UInt8) : List Visit :=
  (smbiosVisits raw).filter fun v => v.type ≠ endOfTable ∨
    MalformedVisit (memOf raw) (smbiosTableEnd raw.length (smbiosLength raw)) v

/-- The contract of the collector: of the first malformed structure and of what
follows it nothing is trusted, and every structure is counted once. -/
structure NeverTrusted (raw : List UInt8) : Prop where
  cut : ∀ v, firstMalformed raw = some v → smbiosResult raw =
    { smbiosResult (raw.take v.offset) with structuresMalformedSkipped := 1 }
  counted : (smbiosResult raw).structuresParsed +
    (smbiosResult raw).structuresMalformedSkipped = (countedVisits raw).length

section Split
variable {raw : List UInt8} (hsize : 8 ≤ raw.length)
variable {ss : List SmbiosStructure} {rest : List UInt8}
variable (hl : smbiosTable raw = tableBytes ss ++ rest)
variable (hss : ∀ s ∈ ss, s.type ≠ endOfTable) (hrest : Stuck rest)
include hsize hl

theorem segment_rest :
    segment (memOf raw) (8 + (tableBytes ss).length)
        (smbiosTableEnd raw.length (smbiosLength raw) - (8 + (tableBytes ss).length)) = rest := by
  obtain ⟨_, hnext, hlen⟩ := segment_append _ ((segment_smbiosTable hsize).trans hl)
  rw [← Nat.sub_sub, hlen, Nat.add_sub_cancel_left]
  exact hnext

theorem restVisit_malformed_iff (h4 : 4 ≤ rest.length) :
    MalformedVisit (memOf raw) (smbiosTableEnd raw.length (smbiosLength raw))
      ⟨8 + (tableBytes ss).length, rest.getD 0 0, rest.getD 1 0⟩ ↔
        ¬HeaderFits rest ∨ Unterminated rest :=
  malformedVisit_iff (segment_rest hsize hl) h4

include hss hrest

theorem firstMalformed_eq : firstMalformed raw =
    if 4 ≤ rest.length ∧ (¬HeaderFits rest ∨ Unterminated rest) then
      some ⟨8 + (tableBytes ss).length, rest.getD 0 0, rest.getD 1 0⟩
    else none := by
  have hnone : (tableVisits 8 ss []).find? (fun v => decide (MalformedVisit (memOf raw)
      (smbiosTableEnd raw.length (smbiosLength raw)) v)) = none := by
    rw [List.find?_eq_none]
    intro v hv
    rw [decide_eq_true_eq]
    exact tableVisits_wellFormed ((segment_smbiosTable hsize).trans hl) v hv
  rw [firstMalformed, (smbiosCollect_structures hsize hl hss hrest).2, tableVisits_append,
    List.find?_append, hnone, Option.none_or, tableVisits]
  rcases Nat.lt_or_ge rest.length 4 with h4 | h4
  · rw [if_pos h4, if_neg fun h => Nat.not_le.mpr h4 h.1]
    rfl
  · have hiff := restVisit_malformed_iff hsize hl h4
    rw [if_neg (Nat.not_lt.mpr h4), List.find?_singleton]
    by_cases hbad : ¬HeaderFits rest ∨ Unterminated rest
    · rw [if_pos (decide_eq_true (hiff.mpr hbad)), if_pos ⟨h4, hbad⟩]
    · rw [if_neg (fun h => hbad (hiff.mp (of_decide_eq_true h))), if_neg fun h => hbad h.2]

theorem countedVisits_length : (countedVisits raw).length =
    ss.length + if rest.length < 4 ∨ Marker rest then 0 else 1 := by
  have hall : (tableVisits 8 ss []).filter (fun v => decide (v.type ≠ endOfTable ∨
      MalformedVisit (memOf raw) (smbiosTableEnd raw.length (smbiosLength raw)) v)) =
        tableVisits 8 ss [] := by
    rw [List.filter_eq_self]
    intro v hv
    exact decide_eq_true (Or.inl (tableVisits_type hss v hv))
  rw [countedVisits, (smbiosCollect_structures hsize hl hss hrest).2, tableVisits_append,
    List.filter_append, hall, List.length_append, tableVisits_length, tableVisits]
  rcases Nat.lt_or_ge rest.length 4 with h4 | h4
  · rw [if_pos h4, if_pos (Or.inl h4)]
    rfl
  · have hiff := restVisit_malformed_iff hsize hl h4
    have hlong := Nat.not_lt.mpr h4
    rw [if_neg hlong]
    by_cases hmark : Marker rest
    · have hno : ¬(¬HeaderFits rest ∨ Unterminated rest) := by
        intro hor
        rcases hor with hbad | hopen
        · exact hbad hmark.2
        · exact hmark.not_unterminated hopen
      rw [if_pos (Or.inr hmark), List.filter_cons_of_neg]
      · rfl
      · rw [decide_eq_true_eq, hiff, not_or]
        exact ⟨not_not.mpr hmark.1, hno⟩
    · rw [if_neg (not_or.mpr ⟨hlong, hmark⟩), List.filter_cons_of_pos]
      · rfl
      · rw [decide_eq_true_eq, hiff]
        by_cases hty : rest.getD 0 0 = endOfTable
        · exact Or.inr (Or.inl fun hfit => hmark ⟨hty, hfit⟩)
        · exact Or.inl hty

end Split

section Cut
variable (raw : List UInt8) {o : Nat}

theorem memOf_take {i : Nat} (hi : i < o) : memOf (raw.take o) i = memOf raw i := getD_take raw hi

variable (ho : 8 ≤ o)
include ho

theorem smbiosLength_take : smbiosLength (raw.take o) = smbiosLength raw := by
  have hsame : segment (memOf (raw.take o)) 4 4 = segment (memOf raw) 4 4 := by
    apply segment_congr
    intro i _ hi
    exact memOf_take raw (by omega)
  rw [smbiosLength, hsame]
  rfl

theorem smbiosStart_take : smbiosStart (raw.take o) = smbiosStart raw := by
  rw [smbiosStart, memOf_take raw (by omega), memOf_take raw (by omega)]
  rfl

theorem smbiosTable_take : smbiosTable (raw.take o) = (smbiosTable raw).take (o - 8) := by
  rw [smbiosTable, smbiosLength_take raw ho, List.drop_take, smbiosTable, List.take_take,
    List.take_take, Nat.min_comm]

end Cut

theorem finish_countMalformed {out : SmbiosData} (h : out.structuresMalformedSkipped = 0) :
    out.countMalformed.finish = { out.finish with structuresMalformedSkipped := 1 } := by
  rw [SmbiosData.countMalformed, h]
  rfl

section Contract
variable {raw : List UInt8} (hsize : 8 ≤ raw.length)
variable {ss : List SmbiosStructure} {rest : List UInt8}
variable (hl : smbiosTable raw = tableBytes ss ++ rest)
variable (hss : ∀ s ∈ ss, s.type ≠ endOfTable)
include hsize hl hss

theorem smbiosResult_cut : smbiosResult (raw.take (8 + (tableBytes ss).length)) =
    (ss.foldl SmbiosStructure.absorb (smbiosStart raw)).finish := by
  have hroom : 8 + (tableBytes ss).length ≤ raw.length := by
    have hlen := smbiosTable_length raw
    rw [hl, List.length_append] at hlen
    omega
  have hcut : smbiosTable (raw.take (8 + (tableBytes ss).length)) = tableBytes ss ++ [] := by
    rw [smbiosTable_take raw (Nat.le_add_right 8 _), Nat.add_sub_cancel_left, hl, List.take_left,
      List.append_nil]
  rw [smbiosResult_structures (by rw [List.length_take]; omega) hcut hss stuck_nil,
    smbiosStart_take raw (Nat.le_add_right 8 _)]
  rfl

theorem result_counts (hrest : Stuck rest) :
    (smbiosResult raw).structuresParsed =
        ss.length + (if Unterminated rest then 1 else 0) ∧
      (smbiosResult raw).structuresMalformedSkipped =
        if rest.length < 4 ∨ Marker rest ∨ (Unterminated rest ∧ SingleNul rest) then 0
        else 1 := by
  obtain ⟨hparsed, hskipped⟩ := foldl_absorb_counts ss (smbiosStart raw)
  have hparsed' : (ss.foldl SmbiosStructure.absorb (smbiosStart raw)).structuresParsed =
      ss.length := hparsed.trans (Nat.zero_add _)
  rw [smbiosResult_structures hsize hl hss hrest, SmbiosData.finish]
  rcases Nat.lt_or_ge rest.length 4 with h4 | h4
  · have hno : ¬Unterminated rest := fun h => not_headerFits_of_short h4 h.1
    rw [finishTable_short _ h4, if_neg hno, if_pos (Or.inl h4)]
    exact ⟨hparsed', hskipped⟩
  have hlong := Nat.not_lt.mpr h4
  rcases stuck_cases hrest with hbad | hmark | hopen
  · have hno : ¬Unterminated rest := fun h => hbad h.1
    rw [finishTable_bad _ h4 hbad, if_neg hno, if_neg]
    · exact ⟨hparsed', congrArg (· + 1) hskipped⟩
    · intro hor
      rcases hor with hshort | hmark | hopen
      · exact hlong hshort
      · exact hbad hmark.2
      · exact hno hopen.1
  · rw [finishTable_marker _ hmark, if_neg hmark.not_unterminated,
      if_pos (Or.inr (Or.inl hmark))]
    exact ⟨hparsed', hskipped⟩
  · obtain ⟨hheadp, hheads⟩ := absorbHead_counts rest
      (ss.foldl SmbiosStructure.absorb (smbiosStart raw))
    rw [hparsed'] at hheadp
    rw [hskipped] at hheads
    rw [finishTable_unterminated _ hopen, if_pos hopen]
    by_cases hs : SingleNul rest
    · rw [if_pos hs, if_pos (Or.inr (Or.inr ⟨hopen, hs⟩))]
      exact ⟨hheadp, hheads⟩
    · rw [if_neg hs, if_neg]
      · exact ⟨hheadp, congrArg (· + 1) hheads⟩
      · intro hor
        rcases hor with h | h | h
        · exact hlong h
        · exact hopen.2.1 h.1
        · exact hs h.2

theorem neverTrusted_structures (hrest : Stuck rest) :
    NeverTrusted raw ↔ ¬Unterminated rest := by
  obtain ⟨hparsed, hskipped⟩ := result_counts hsize hl hss hrest
  have hcut := smbiosResult_cut hsize hl hss
  have hfirst := firstMalformed_eq hsize hl hss hrest
  have hfold := (foldl_absorb_counts ss (smbiosStart raw)).1
  constructor
  · intro h hopen
    rw [if_pos ⟨hopen.1.four_le, Or.inr hopen⟩] at hfirst
    have hparse := congrArg SmbiosData.structuresParsed (h.cut _ hfirst)
    rw [hcut, hparsed, if_pos hopen] at hparse
    have hzero : (smbiosStart raw).structuresParsed = 0 := rfl
    have hfinish : (ss.foldl SmbiosStructure.absorb (smbiosStart raw)).finish.structuresParsed =
        (ss.foldl SmbiosStructure.absorb (smbiosStart raw)).structuresParsed := rfl
    rw [hfinish] at hparse
    omega
  · intro hno
    refine ⟨fun v hv => ?_, ?_⟩
    · rw [hfirst] at hv
      obtain ⟨⟨h4, hbad⟩, hv⟩ := Option.ite_some_none_eq_some.mp hv
      have hbad := hbad.resolve_right hno
      rw [← hv, hcut, smbiosResult_structures hsize hl hss hrest, finishTable_bad _ h4 hbad]
      exact finish_countMalformed (foldl_absorb_counts ss (smbiosStart raw)).2
    · rw [hparsed, hskipped, countedVisits_length hsize hl hss hrest, if_neg hno, Nat.add_zero]
      simp only [hno, false_and, or_false]

end Contract

theorem smbiosTable_of_small {raw : List UInt8} (h : raw.length < 8) : smbiosTable raw = [] := by
  rw [smbiosTable, List.drop_of_length_le (Nat.le_of_lt h), List.take_nil]

/-- A structure whose string set has no end inside the table is where the contract fails. -/
theorem neverTrusted_iff (raw : List UInt8) :
    NeverTrusted raw ↔ ¬Unterminated (splitTable (smbiosTable raw)).2 := by
  rcases Nat.lt_or_ge raw.length 8 with hsmall | hsize
  · have hnone := smbiosVisits_of_small hsmall
    rw [smbiosTable_of_small hsmall, splitTable_stuck stuck_nil]
    refine iff_of_true ⟨?_, ?_⟩ not_unterminated_nil
    · intro v hv
      rw [firstMalformed, hnone] at hv
      cases hv
    · rw [countedVisits, hnone, smbiosResult_of_small hsmall]
      rfl
  · obtain ⟨hl, hss, hrest⟩ := splitTable_spec (smbiosTable raw)
    exact neverTrusted_structures hsize hl hss hrest

/-- A BIOS structure whose vendor string ends in one NUL, at the end of the table. -/
def unterminatedBios : List UInt8 :=
  [0, 3, 0, 0, 7, 0, 0, 0] ++ [0, 5, 0, 0, 1, 88, 0]

theorem unterminatedBios_trusted : ¬NeverTrusted unterminatedBios := by
  intro h
  have hfirst : firstMalformed unterminatedBios = some ⟨8, 0, 5⟩ := by decide +kernel
  have hbios := congrArg SmbiosData.bios (h.cut _ hfirst)
  revert hbios
  decide +kernel

/-!
## The malformed counter
-/

/-- A run of complete structures up to the end, or up to an end-of-table marker. -/
def WellFormedTable (l : List UInt8) : Prop :=
  ∃ ss tail, l = tableBytes ss ++ tail ∧ TableTail tail

theorem wellFormedTable_iff (l : List UInt8) :
    WellFormedTable l ↔ TableTail (splitTable l).2 := by
  constructor
  · intro hwell
    obtain ⟨ss, tail, rfl, htail⟩ := hwell
    induction ss with
    | nil =>
      rw [tableBytes_nil, List.nil_append, splitTable_stuck htail.stuck]
      exact htail
    | cons s ss ih =>
      rw [tableBytes_cons, List.append_assoc]
      by_cases hs : s.type = endOfTable
      · have hmark : Marker (s.bytes ++ (tableBytes ss ++ tail)) := by
          have hlong := s.four_le
          refine ⟨?_, s.headerFits_bytes _⟩
          rw [s.getD_bytes _ (by omega)]
          exact hs
        rw [splitTable_stuck hmark.stuck]
        exact Or.inr hmark
      · rw [splitTable_bytes hs]
        exact ih
  · intro h
    exact ⟨(splitTable l).1, (splitTable l).2, (splitTable_spec l).1, h⟩

instance (l : List UInt8) : Decidable (WellFormedTable l) :=
  decidable_of_iff _ (wellFormedTable_iff l).symm

/-- The counter is zero on the tables of the grammar and one on all others. -/
def CountsMalformed (raw : List UInt8) : Prop :=
  ((smbiosResult raw).structuresMalformedSkipped = 0 ↔ WellFormedTable (smbiosTable raw)) ∧
    (¬WellFormedTable (smbiosTable raw) →
      (smbiosResult raw).structuresMalformedSkipped = 1)

/-- A rest that ends the walk without being counted: a piece of a header, or a
structure whose string set is one NUL after a formatted area that ends in a NUL. -/
def PassedOver (rest : List UInt8) : Prop :=
  (0 < rest.length ∧ rest.length < 4) ∨ (Unterminated rest ∧ SingleNul rest)

theorem countsMalformed_structures {raw : List UInt8} (hsize : 8 ≤ raw.length)
    {ss : List SmbiosStructure} {rest : List UInt8} (hl : smbiosTable raw = tableBytes ss ++ rest)
    (hss : ∀ s ∈ ss, s.type ≠ endOfTable) (hrest : Stuck rest) :
    CountsMalformed raw ↔ ¬PassedOver rest := by
  have hskipped := (result_counts hsize hl hss hrest).2
  have hgrammar : WellFormedTable (smbiosTable raw) ↔ TableTail rest := by
    rw [wellFormedTable_iff, hl, splitTable_append hss, splitTable_stuck hrest]
  have hzero : (smbiosResult raw).structuresMalformedSkipped = 0 ↔
      rest.length < 4 ∨ Marker rest ∨ (Unterminated rest ∧ SingleNul rest) := by
    rw [hskipped, ite_eq_left_iff, imp_iff_not (Nat.one_ne_zero), not_not]
  have hshort : rest.length < 4 ↔ rest = [] ∨ (0 < rest.length ∧ rest.length < 4) := by
    rw [← List.length_eq_zero_iff]
    omega
  have hapart : PassedOver rest → ¬TableTail rest := by
    intro hover htail
    rcases hover with hpiece | ⟨hopen, _⟩ <;> rcases htail with rfl | hmark
    · exact Nat.lt_irrefl 0 hpiece.1
    · exact not_headerFits_of_short hpiece.2 hmark.2
    · exact not_unterminated_nil hopen
    · exact hopen.2.1 hmark.1
  constructor
  · intro hcounts hover
    obtain ⟨hiff, _⟩ := hcounts
    apply hapart hover
    rw [← hgrammar, ← hiff, hzero, hshort]
    rcases hover with hpiece | hopen
    · exact Or.inl (Or.inr hpiece)
    · exact Or.inr (Or.inr hopen)
  · intro hover
    have hsame : (smbiosResult raw).structuresMalformedSkipped = 0 ↔
        WellFormedTable (smbiosTable raw) := by
      rw [hzero, hgrammar, hshort]
      constructor
      · intro hor
        rcases hor with (hnil | hpiece) | hmark | hopen
        · exact Or.inl hnil
        · exact absurd (Or.inl hpiece) hover
        · exact Or.inr hmark
        · exact absurd (Or.inr hopen) hover
      · intro hor
        rcases hor with hnil | hmark
        · exact Or.inl (Or.inl hnil)
        · exact Or.inr (Or.inl hmark)
    refine ⟨hsame, fun hbad => ?_⟩
    rw [hskipped, if_neg fun h => hbad (hsame.mp (hzero.mpr h))]

/-- The counter agrees with the grammar except on the rests that are passed over. -/
theorem countsMalformed_iff (raw : List UInt8) :
    CountsMalformed raw ↔ ¬PassedOver (splitTable (smbiosTable raw)).2 := by
  rcases Nat.lt_or_ge raw.length 8 with hsmall | hsize
  · have hwell : WellFormedTable [] := ⟨[], [], rfl, Or.inl rfl⟩
    rw [CountsMalformed, smbiosTable_of_small hsmall, smbiosResult_of_small hsmall,
      splitTable_stuck stuck_nil]
    refine iff_of_true ⟨iff_of_true rfl hwell, fun h => absurd hwell h⟩ ?_
    intro hover
    rcases hover with hpiece | ⟨hopen, _⟩
    · exact Nat.lt_irrefl 0 hpiece.1
    · exact not_unterminated_nil hopen
  · obtain ⟨hl, hss, hrest⟩ := splitTable_spec (smbiosTable raw)
    exact countsMalformed_structures hsize hl hss hrest

/-- A structure with a one-byte string set after a formatted area that ends in a NUL. -/
def singleNulTable : List UInt8 := [0, 3, 0, 0, 5, 0, 0, 0] ++ [4, 4, 0, 0, 0]

theorem singleNulTable_uncounted : ¬CountsMalformed singleNulTable := by
  intro h
  have hwell := h.1.mp (by decide +kernel)
  revert hwell
  decide +kernel

end HwMon
