import HwMon.Hv.Atomic
import HwMon.Hv.Segments

/-!
# Selectors of the null descriptor

A selector with index 0 is null whatever its RPL. The code compares the whole
selector with zero, so selectors 1, 2 and 3 get the null descriptor's bytes for
access rights and base.
-/

namespace HwMon
set_option autoImplicit false

/-- Reads of memory at 64-bit addresses. -/
abbrev GdtProbe (α : Type) := Probe UInt64 (fun _ => UInt8) Empty α

/-- `ComputeSegmentBase` with its reads. -/
def segmentBaseReads (gdtBase : UInt64) (selector : UInt16) (isTr : Bool) : GdtProbe UInt64 :=
  if selector = 0 then pure 0
  else do
    let descriptor := descriptorAddress gdtBase selector
    let b2 ← .ask (descriptor + 2)
    let b3 ← .ask (descriptor + 3)
    let b4 ← .ask (descriptor + 4)
    let b7 ← .ask (descriptor + 7)
    let base := b2.toUInt64 ||| (b3.toUInt64 <<< 8) ||| (b4.toUInt64 <<< 16) |||
      (b7.toUInt64 <<< 24)
    if isTr = true then do
      let b8 ← .ask (descriptor + 8)
      let b9 ← .ask (descriptor + 8 + 1)
      let b10 ← .ask (descriptor + 8 + 2)
      let b11 ← .ask (descriptor + 8 + 3)
      pure (base ||| ((UInt32.ofNat (leNat [b8, b9, b10, b11])).toUInt64 <<< 32))
    else pure base

/-- The read is not one of the null descriptor. -/
def OutsideNull (gdtBase : UInt64) : Access UInt64 Empty → Prop
  | .read a => 8 ≤ (a - gdtBase).toNat
  | .note _ => True

/-- Access rights and base of a selector into the GDT as the architecture has them. -/
structure SegmentMatches (e : HvEnv) (gdtBase : UInt64) (selector : UInt16) : Prop where
  unusable : (computeSegmentAccessRights e gdtBase selector).toNat.testBit 16 = true ↔
    selector >>> 3 = 0
  rights : selector >>> 3 ≠ 0 → (computeSegmentAccessRights e gdtBase selector).toNat =
    accessRightsOf (gdtEntry e gdtBase (selector >>> 3) 8)
  nullBase : selector >>> 3 = 0 → ∀ isTr, computeSegmentBase e gdtBase selector isTr = 0
  base : selector >>> 3 ≠ 0 → ∀ isTr, (computeSegmentBase e gdtBase selector isTr).toNat =
    baseOf (gdtEntry e gdtBase (selector >>> 3) (descriptorSize isTr))
  reads : ∀ isTr, (segmentBaseReads gdtBase selector isTr).Always (OutsideNull gdtBase) e.memory

section Reads
variable (e : HvEnv) (gdtBase : UInt64) (selector : UInt16)

theorem segmentBaseReads_val (isTr : Bool) :
    (segmentBaseReads gdtBase selector isTr).val e.memory =
      computeSegmentBase e gdtBase selector isTr := by
  rw [segmentBaseReads, computeSegmentBase, Probe.val_ite]
  split
  · rfl
  · cases isTr with
    | false => rfl
    | true => rfl

variable {selector} in
theorem outsideNull_read (h : selector >>> 3 ≠ 0) {k : UInt64} (hk : k.toNat < 16) :
    OutsideNull gdtBase (.read (descriptorAddress gdtBase selector + k)) := by
  have hsel := selector.toNat_lt
  have hbase := gdtBase.toNat_lt
  have hindex : ¬selector.toNat < 8 := fun hlt => h ((index_eq_zero_iff selector).mpr hlt)
  have hcleared := clearedSelector_toNat selector
  show 8 ≤ (gdtBase + (selector &&& ~~~(0x7 : UInt16)).toUInt64 + k - gdtBase).toNat
  rw [UInt64.toNat_sub, UInt64.toNat_add, UInt64.toNat_add, UInt16.toNat_toUInt64, hcleared]
  omega

variable {selector} in
/-- A selector with an index reads nothing of the null descriptor. -/
theorem always_segmentBaseReads (h : selector >>> 3 ≠ 0) (isTr : Bool) :
    (segmentBaseReads gdtBase selector isTr).Always (OutsideNull gdtBase) e.memory := by
  rw [segmentBaseReads]
  apply Probe.always_ite
  · exact fun _ => Probe.always_pure _
  · intro _
    simp only [Probe.always_bind, Probe.always_ask]
    refine ⟨outsideNull_read gdtBase h (by decide), outsideNull_read gdtBase h (by decide),
      outsideNull_read gdtBase h (by decide), outsideNull_read gdtBase h (by decide), ?_⟩
    apply Probe.always_ite
    · intro _
      simp only [Probe.always_bind, Probe.always_ask, UInt64.add_assoc _ 8]
      exact ⟨outsideNull_read gdtBase h (by decide), outsideNull_read gdtBase h (by decide),
        outsideNull_read gdtBase h (by decide), outsideNull_read gdtBase h (by decide),
        Probe.always_pure _⟩
    · exact fun _ => Probe.always_pure _

theorem zero_matches : SegmentMatches e gdtBase 0 := by
  have hnull : (0 : UInt16) >>> 3 = 0 := rfl
  have hrights : computeSegmentAccessRights e gdtBase 0 = 0x10000 := rfl
  refine ⟨iff_of_true ?_ hnull, fun h => absurd hnull h, fun _ isTr => rfl,
    fun h => absurd hnull h, fun isTr => Probe.always_pure _⟩
  rw [hrights]
  rfl

variable {selector} in
theorem rights_lt (h : selector ≠ 0) :
    (computeSegmentAccessRights e gdtBase selector).toNat < 2 ^ 16 := by
  rw [accessRights_toNat e gdtBase selector h, accessRightsOf]
  omega

variable {selector} in
theorem usable_matches (h : selector >>> 3 ≠ 0) : SegmentMatches e gdtBase selector := by
  have hne : selector ≠ 0 := fun hz => h (by rw [hz]; rfl)
  refine ⟨iff_of_false ?_ h, fun _ => accessRights_toNat e gdtBase selector hne,
    fun hz => absurd hz h, fun _ isTr => segmentBase_toNat e gdtBase selector hne isTr,
    always_segmentBaseReads e gdtBase h⟩
  rw [Nat.testBit_lt_two_pow (rights_lt e gdtBase hne)]
  exact Bool.false_ne_true

variable {selector} in
/-- The selectors of the null descriptor but zero get no unusable marker. -/
theorem not_matches (hnull : selector >>> 3 = 0) (hne : selector ≠ 0) :
    ¬SegmentMatches e gdtBase selector := by
  intro h
  have hbit := h.unusable.mpr hnull
  rw [Nat.testBit_lt_two_pow (rights_lt e gdtBase hne)] at hbit
  exact Bool.false_ne_true hbit

/-- The GDT selectors with index 0 are those below 4. -/
theorem null_gdt_selector (hti : selector &&& 4 = 0) (hnull : selector >>> 3 = 0) :
    selector ∈ ([0, 1, 2, 3] : List UInt16) := by
  have hall : ∀ n < 8, UInt16.ofNat n &&& 4 = 0 →
      UInt16.ofNat n ∈ ([0, 1, 2, 3] : List UInt16) := by
    decide
  have hself : UInt16.ofNat selector.toNat = selector := UInt16.ofNat_toNat
  have hmem := hall selector.toNat ((index_eq_zero_iff selector).mp hnull)
  rw [hself] at hmem
  exact hmem hti

/-- A GDT selector is treated as the architecture has it just when it is none of 1, 2 and 3. -/
theorem segmentMatches_iff :
    (selector &&& 4 = 0 → SegmentMatches e gdtBase selector) ↔
      selector ∉ ([1, 2, 3] : List UInt16) := by
  constructor
  · intro h hmem
    obtain ⟨hti, hnull, hne⟩ : selector &&& 4 = 0 ∧ selector >>> 3 = 0 ∧ selector ≠ 0 := by
      simp only [List.mem_cons, List.not_mem_nil, or_false] at hmem
      rcases hmem with rfl | rfl | rfl
      · decide
      · decide
      · decide
    exact not_matches e gdtBase hnull hne (h hti)
  · intro h hti
    by_cases hnull : selector >>> 3 = 0
    · rcases List.mem_cons.mp (null_gdt_selector selector hti hnull) with rfl | hmem
      · exact zero_matches e gdtBase
      · exact absurd hmem h
    · exact usable_matches e gdtBase hnull

end Reads

/-- Selector 1 is null, but its segment is taken for usable. -/
theorem selectorOne_usable :
    ¬((1 : UInt16) &&& 4 = 0 → SegmentMatches lockedOff lockedOff.gdtr.base 1) := by
  intro h
  exact not_matches lockedOff lockedOff.gdtr.base (by decide) (by decide) (h (by decide))

end HwMon
