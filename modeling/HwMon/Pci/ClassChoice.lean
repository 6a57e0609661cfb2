import HwMon.Pci.ClassCode

/-!
# Which compatible ID gives the class code

On a proper list the string with the most digits decides, the first of them if
there are several, and a list without two digits behind any `CC_` changes nothing.
-/

namespace HwMon
set_option autoImplicit false

/-- The device with the class fields that some digits give. -/
def PciDevice.withClass (dev : PciDevice) (digits : List UInt8) : PciDevice :=
  { dev with
    classInfoAvailable := true
    classCode := UInt8.ofNat (hexValue (digits.take 2))
    subclass := if 4 ≤ digits.length then UInt8.ofNat (hexValue ((digits.drop 2).take 2))
      else dev.subclass
    progIf := if digits.length = 6 then UInt8.ofNat (hexValue ((digits.drop 4).take 2))
      else dev.progIf }

/-- Some non-empty strings and an empty one, each with its NUL, inside the data. -/
structure ProperIds (m : Mem) (totalLen : UInt64) (ids : List (List UInt8)) : Prop where
  strings : ∀ s ∈ ids, s ≠ [] ∧ 0 ∉ s
  inside : (terminated ids).length + 1 ≤ totalLen.toNat
  bytes : segment m 0 ((terminated ids).length + 1) = terminated ids ++ [0]

section Store
variable {digits : List UInt8} (hdigits : ∀ d ∈ digits, isxdigit d = true)
  (hsix : digits.length ≤ 6)
include hdigits hsix

theorem ofDigits_toNat : (ClassBest.ofDigits digits).value.toNat = hexValue digits := by
  have hlt := hexValue_lt hdigits
  have hpow : 16 ^ digits.length ≤ 16 ^ 6 := Nat.pow_le_pow_right (by decide) hsix
  rw [ClassBest.ofDigits, UInt32.toNat_ofNat', Nat.mod_eq_of_lt (by omega)]

/-- The two digits of a pair are a byte of the value. -/
theorem ofDigits_pair {k : Nat} (htwo : 2 ≤ k) (hk : k ≤ digits.length) :
    (ClassBest.ofDigits digits).pair k = UInt8.ofNat (hexValue ((digits.drop (k - 2)).take 2)) := by
  have hfront : ∀ d ∈ digits.take k, isxdigit d = true := fun d hd =>
    hdigits d (List.mem_of_mem_take hd)
  have hlen : (digits.take k).length = k := List.length_take_of_le hk
  have hshift : (UInt32.ofNat ((digits.length - k) * 4)).toNat = 4 * (digits.length - k) := by
    rw [UInt32.toNat_ofNat', Nat.mod_eq_of_lt (by omega), Nat.mul_comm]
  have hvalue : ((ClassBest.ofDigits digits).value >>>
      UInt32.ofNat (((ClassBest.ofDigits digits).digits - k) * 4)).toNat =
        hexValue (digits.take k) := by
    rw [UInt32.toNat_shiftRight, ofDigits_toNat hdigits hsix, ClassBest.ofDigits, hshift,
      Nat.mod_eq_of_lt (by omega), Nat.shiftRight_eq_div_pow, Nat.pow_mul]
    exact hexValue_div hdigits k
  have hpair : hexValue (digits.take k) % 256 = hexValue ((digits.drop (k - 2)).take 2) := by
    have hmod := hexValue_mod hfront (k := 2) (by omega)
    have hcount : k - (k - 2) = 2 := by omega
    rw [hlen, List.drop_take, hcount] at hmod
    exact hmod
  rw [ClassBest.pair, ← UInt8.toNat_inj, UInt32.toNat_toUInt8, UInt32.toNat_and, hvalue,
    UInt8.toNat_ofNat', ← hpair]
  have hmask : hexValue (digits.take k) &&& (0xFF : UInt32).toNat =
      hexValue (digits.take k) % 256 :=
    Nat.and_two_pow_sub_one_eq_mod _ 8
  rw [hmask]

theorem ofDigits_low (hk : digits.length = 6) :
    ((ClassBest.ofDigits digits).value &&& 0xFF).toUInt8 =
      UInt8.ofNat (hexValue ((digits.drop 4).take 2)) := by
  rw [← ofDigits_pair hdigits hsix (k := 6) (by decide) (by omega), ClassBest.pair,
    ClassBest.ofDigits, hk]
  exact congrArg (fun v : UInt32 => (v &&& 0xFF).toUInt8) (UInt32.shiftRight_zero).symm

theorem ofDigits_store (dev : PciDevice) (htwo : 2 ≤ digits.length) :
    (ClassBest.ofDigits digits).store dev = dev.withClass digits := by
  have hclass : (ClassBest.ofDigits digits).pair 2 = UInt8.ofNat (hexValue (digits.take 2)) :=
    ofDigits_pair hdigits hsix (k := 2) (by decide) htwo
  have hcount : (ClassBest.ofDigits digits).digits = digits.length := rfl
  simp only [ClassBest.store, hclass, hcount, PciDevice.withClass]
  by_cases hfour : 4 ≤ digits.length
  · have hsub : (ClassBest.ofDigits digits).pair 4 =
        UInt8.ofNat (hexValue ((digits.drop 2).take 2)) :=
      ofDigits_pair hdigits hsix (k := 4) (by decide) hfour
    by_cases hall : digits.length = 6
    · simp only [if_pos hfour, if_pos hall, if_pos hall.ge, hsub, ofDigits_low hdigits hsix hall]
    · have hless : ¬6 ≤ digits.length := by omega
      simp only [if_pos hfour, if_neg hall, if_neg hless, hsub]
  · have hless : ¬6 ≤ digits.length := by omega
    have hall : ¬digits.length = 6 := by omega
    simp only [if_neg hfour, if_neg hall, if_neg hless]

end Store

theorem ccDigits_isHex (s : List UInt8) : ∀ d ∈ ccDigits s, isxdigit d = true := by
  rw [ccDigits]
  split
  · exact fun d hd => absurd hd List.not_mem_nil
  · exact fun d hd => hexRun_isHex _ d (List.mem_of_mem_take hd)

theorem ccDigits_length (s : List UInt8) : (ccDigits s).length ≤ 6 := by
  rw [ccDigits]
  split
  · exact Nat.zero_le 6
  · exact List.length_take_le 6 _

section Choice
variable {m : Mem} {totalLen : UInt64} {ids : List (List UInt8)}

theorem ProperIds.classLoop_val (h : ProperIds m totalLen ids) :
    (classLoop totalLen.toNat totalLen.toNat 0 {}).val m =
      .ofString (ids.foldl (keepBetter classSize 2) none) := by
  obtain ⟨hbytes, hend, _⟩ := segment_append m h.bytes
  rw [Nat.zero_add] at hend
  have hinside := h.inside
  have hcount := length_le_terminated ids
  obtain ⟨rounds, hrounds⟩ : ∃ n, totalLen.toNat = ids.length + (n + 1) :=
    ⟨totalLen.toNat - ids.length - 1, by omega⟩
  obtain ⟨hval, _⟩ := classLoop_terminated (rounds + 1) none hbytes h.strings
    (by rw [Nat.zero_add]; exact Nat.le_of_succ_le hinside) (Nat.le_of_lt totalLen.toNat_lt)
  rw [← hrounds, Nat.zero_add] at hval
  refine hval.trans ?_
  simp only [classLoop, if_pos (Nat.lt_of_succ_le hinside), ↓Probe.val_bind, Probe.val_ask,
    (List.cons.inj hend).1, if_true, Probe.val_pure]

/-- The class fields come from the first of the strings with the most digits. -/
theorem extractClassCode_choice (h : ProperIds m totalLen ids) (dev : PciDevice) :
    let result := (extractClassCode totalLen dev).val m
    (result.1 = true ↔ ∃ s ∈ ids, 2 ≤ classSize s) ∧
      (result.1 = true →
        ∃ s, FirstLargest classSize ids s ∧ result.2 = dev.withClass (ccDigits s)) ∧
      (result.1 = false → result.2 = dev) := by
  have hbest : ((extractClassCode totalLen dev).val m) =
      if 2 ≤ (ClassBest.ofString (ids.foldl (keepBetter classSize 2) none)).digits then
        (true, (ClassBest.ofString (ids.foldl (keepBetter classSize 2) none)).store dev)
      else (false, dev) := by
    simp only [extractClassCode, ↓Probe.val_bind, h.classLoop_val, ↓Probe.val_ite, Probe.val_pure]
  intro result
  rcases foldl_keepBetter classSize 2 ids with
    ⟨hnone, hall⟩ | ⟨s, hsome, htwo, hfirst⟩
  · rw [hnone] at hbest
    have hresult : result = (false, dev) := hbest
    rw [hresult]
    refine ⟨iff_of_false Bool.false_ne_true ?_, fun hf => absurd hf Bool.false_ne_true,
      fun _ => rfl⟩
    intro hex
    obtain ⟨s, hs, htwo⟩ := hex
    exact absurd (hall s hs) (Nat.not_lt.mpr htwo)
  · rw [hsome] at hbest
    have hresult : result = (true, dev.withClass (ccDigits s)) := by
      have hstore := ofDigits_store (ccDigits_isHex s) (ccDigits_length s) dev htwo
      exact hbest.trans ((if_pos htwo).trans (congrArg (Prod.mk true) hstore))
    rw [hresult]
    exact ⟨iff_of_true rfl ⟨s, hfirst.mem, htwo⟩, fun _ => ⟨s, hfirst, rfl⟩,
      fun hf => absurd hf Bool.noConfusion⟩

end Choice

/-- `CC_03` and `CC_0300`. -/
def displayIds : List (List UInt8) := [[67, 67, 95, 48, 51], [67, 67, 95, 48, 51, 48, 48]]

theorem displayIds_proper : ProperIds (memOf (terminated displayIds ++ [0])) 64 displayIds :=
  ⟨by decide, by decide, by decide⟩

theorem displayIds_choice :
    let result := (extractClassCode 64 {}).val (memOf (terminated displayIds ++ [0]))
    (result.1 = true ↔ ∃ s ∈ displayIds, 2 ≤ classSize s) ∧
      (result.1 = true → ∃ s, FirstLargest classSize displayIds s ∧
        result.2 = PciDevice.withClass {} (ccDigits s)) ∧
      (result.1 = false → result.2 = {}) :=
  extractClassCode_choice displayIds_proper {}

end HwMon
