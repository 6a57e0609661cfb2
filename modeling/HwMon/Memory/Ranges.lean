import HwMon.Memory.Agreement

/-!
# Type 19 ranges as sets of byte addresses

A Type 19 structure declares an inclusive range of addresses, in kilobytes or
in bytes. The code counts its bytes modulo `2 ^ 64` and takes a count of zero
for "no range". The results compare this with the range in natural numbers.
-/

namespace HwMon
set_option autoImplicit false

structure ByteRange where
  first : Nat
  last : Nat

namespace ByteRange

/-- Zero exactly if the range is empty. -/
def count (range : ByteRange) : Nat := range.last + 1 - range.first

def Countable (range : ByteRange) : Prop :=
  range.first ≤ range.last ∧ range.last - range.first + 1 < 2 ^ 64

theorem count_of_le {range : ByteRange} (h : range.first ≤ range.last) :
    range.count = range.last - range.first + 1 := by
  unfold count
  omega

theorem countable_iff (range : ByteRange) :
    range.Countable ↔ 0 < range.count ∧ range.count < 2 ^ 64 := by
  unfold Countable count
  omega

end ByteRange

def declaredRange (f : List UInt8) : Option ByteRange :=
  if fieldDword f 0x04 ≠ 0xFFFFFFFF then
    some ⟨(fieldDword f 0x04).toNat * 1024, ((fieldDword f 0x08).toNat + 1) * 1024 - 1⟩
  else if 0x17 + 8 ≤ f.length then
    some ⟨(fieldQword f 0x0F).toNat, (fieldQword f 0x17).toNat⟩
  else none

/-!
## The two ways to count
-/

theorem extendedRange_count (extStart extEnd : UInt64) :
    (extendedRange extStart extEnd).2.toNat = (extEnd.toNat + 1 - extStart.toNat) % 2 ^ 64 := by
  have hs := extStart.toNat_lt
  have he := extEnd.toNat_lt
  unfold extendedRange
  by_cases h : extEnd ≥ extStart
  · have hle := UInt64.le_iff_toNat_le.mp h
    rw [if_pos h, UInt64.toNat_add, UInt64.toNat_sub_of_le _ _ h]
    have hone : (1 : UInt64).toNat = 1 := rfl
    have hsum : extEnd.toNat - extStart.toNat + 1 = extEnd.toNat + 1 - extStart.toNat := by omega
    rw [hone, hsum]
  · have hlt : extEnd.toNat < extStart.toNat :=
      Nat.lt_of_not_le fun hle => h (UInt64.le_iff_toNat_le.mpr hle)
    have hzero : extEnd.toNat + 1 - extStart.toNat = 0 := by omega
    rw [if_neg h, hzero]
    rfl

/-- All `2 ^ 64` bytes are too many to count. -/
example : extendedRange 0 0xFFFFFFFFFFFFFFFF = (0, 0) := by decide

theorem kilobytes_toNat (k : UInt32) : (k.toUInt64 * 1024).toNat = k.toNat * 1024 := by
  have hk := k.toNat_lt
  have hscale : (1024 : UInt64).toNat = 1024 := rfl
  rw [UInt64.toNat_mul, UInt32.toNat_toUInt64, hscale]
  omega

theorem kilobyteRange_count (startKb endKb : UInt32) :
    (kilobyteRange startKb endKb).2.toNat =
      (endKb.toNat + 1) * 1024 - startKb.toNat * 1024 := by
  have hs := startKb.toNat_lt
  have he := endKb.toNat_lt
  have hbase := kilobytes_toNat startKb
  have hend := kilobytes_toNat endKb
  unfold kilobyteRange
  by_cases h : endKb.toUInt64 * 1024 ≥ startKb.toUInt64 * 1024
  · have hle := UInt64.le_iff_toNat_le.mp h
    have hscale : (1024 : UInt64).toNat = 1024 := rfl
    simp only [if_pos h]
    rw [UInt64.toNat_add, UInt64.toNat_sub_of_le _ _ h, hbase, hend, hscale]
    omega
  · have hlt : ¬startKb.toNat * 1024 ≤ endKb.toNat * 1024 := by
      rw [← hbase, ← hend]
      exact fun hle => h (UInt64.le_iff_toNat_le.mpr hle)
    simp only [if_neg h]
    have hzero : (endKb.toNat + 1) * 1024 - startKb.toNat * 1024 = 0 := by omega
    rw [hzero]
    rfl

/-- What the code computes for a declared range. -/
theorem decodeRange_declared {f : List UInt8} {range : ByteRange}
    (h : declaredRange f = some range) :
    (decodeRange f).1.toNat = range.first ∧
      (decodeRange f).2.toNat = range.count % 2 ^ 64 ∧ range.last < 2 ^ 64 := by
  unfold declaredRange at h
  unfold decodeRange
  by_cases hkb : fieldDword f 0x04 ≠ 0xFFFFFFFF
  · rw [if_pos hkb] at h
    cases h
    have hs := (fieldDword f 0x04).toNat_lt
    have he := (fieldDword f 0x08).toNat_lt
    rw [if_neg fun hext => hkb hext.1, if_pos hkb, kilobyteRange_count]
    refine ⟨kilobytes_toNat _, ?_, ?_⟩
    · simp only [ByteRange.count]
      omega
    · simp only
      omega
  rw [if_neg hkb] at h
  by_cases hfit : 0x17 + 8 ≤ f.length
  · rw [if_pos hfit] at h
    cases h
    rw [if_pos ⟨not_ne_iff.mp hkb, hfit⟩, extendedRange_count]
    exact ⟨rfl, rfl, (fieldQword f 0x17).toNat_lt⟩
  · rw [if_neg hfit] at h
    cases h

/-- The sentinel without the extended fields. -/
theorem decodeRange_undeclared {f : List UInt8} (h : declaredRange f = none) :
    (decodeRange f).2 = 0 := by
  unfold declaredRange at h
  by_cases hkb : fieldDword f 0x04 ≠ 0xFFFFFFFF
  · rw [if_pos hkb] at h
    cases h
  rw [if_neg hkb] at h
  by_cases hfit : 0x17 + 8 ≤ f.length
  · rw [if_pos hfit] at h
    cases h
  · unfold decodeRange
    rw [if_neg fun hext => hfit hext.2, if_neg hkb]

/-- The code counts something exactly for a range that it can count. -/
theorem decodeRange_pos_iff {f : List UInt8} {range : ByteRange}
    (h : declaredRange f = some range) : (decodeRange f).2 > 0 ↔ range.Countable := by
  have hpos : (decodeRange f).2 > 0 ↔ 0 < (decodeRange f).2.toNat := UInt64.lt_iff_toNat_lt
  obtain ⟨-, hcount, hlast⟩ := decodeRange_declared h
  rw [hpos, hcount, range.countable_iff]
  unfold ByteRange.count
  omega

/-!
## The region of a structure
-/

structure MemoryRegion.Describes (r : MemoryRegion) (f : List UInt8) (range : ByteRange) :
    Prop where
  base : r.base.toNat = range.first
  length : r.length.toNat = range.last - range.first + 1
  inside : r.base.toNat + r.length.toNat ≤ 2 ^ 64
  type : r.type = (fieldWord f 0x0C).toUInt32

/-- What is added for a structure is exactly the range it declares. -/
structure ExactRegion (f : List UInt8) (added : Option MemoryRegion) : Prop where
  added_iff : (∃ r, added = some r) ↔ ∃ range, declaredRange f = some range ∧ range.Countable
  describes : ∀ range r, declaredRange f = some range → added = some r → r.Describes f range
  undeclared : declaredRange f = none → added = none

section Region
variable {f : List UInt8} (htype : f.getD 0 0 = 19) (hlong : 0x0F ≤ f.length)
include htype hlong

theorem decodeRegion_eq_some_iff (r : MemoryRegion) :
    decodeRegion f = some r ↔ (decodeRange f).2 > 0 ∧
      r = { base := (decodeRange f).1, length := (decodeRange f).2,
            type := (fieldWord f 0x0C).toUInt32 } := by
  unfold decodeRegion
  by_cases hrange : (decodeRange f).2 > 0
  · rw [if_pos ⟨htype, hlong, hrange⟩, Option.some.injEq]
    exact ⟨fun h => ⟨hrange, h.symm⟩, fun h => h.2.symm⟩
  · rw [if_neg fun h => hrange h.2.2]
    exact ⟨fun h => (nomatch h), fun h => absurd h.1 hrange⟩

theorem decodeRegion_undeclared (hdecl : declaredRange f = none) : decodeRegion f = none := by
  apply Option.eq_none_iff_forall_ne_some.mpr
  intro r hr
  have hgt := ((decodeRegion_eq_some_iff htype hlong r).mp hr).1
  rw [decodeRange_undeclared hdecl] at hgt
  exact absurd hgt (UInt64.lt_irrefl 0)

theorem decodeRegion_describes {range : ByteRange} {r : MemoryRegion}
    (hdecl : declaredRange f = some range) (hadd : decodeRegion f = some r) :
    r.Describes f range := by
  obtain ⟨hbase, hcount, -⟩ := decodeRange_declared hdecl
  obtain ⟨hgt, rfl⟩ := (decodeRegion_eq_some_iff htype hlong r).mp hadd
  have hok := (decodeRange_pos_iff hdecl).mp hgt
  have hle := hok.1
  have hlast := (decodeRange_declared hdecl).2.2
  rw [Nat.mod_eq_of_lt ((range.countable_iff).mp hok).2, ByteRange.count_of_le hle] at hcount
  refine ⟨hbase, hcount, ?_, rfl⟩
  simp only [hbase, hcount]
  omega

theorem decodeRegion_exact : ExactRegion f (decodeRegion f) := by
  refine ⟨⟨?_, ?_⟩, ?_, decodeRegion_undeclared htype hlong⟩
  · intro h
    obtain ⟨r, hr⟩ := h
    cases hdecl : declaredRange f with
    | none =>
      rw [decodeRegion_undeclared htype hlong hdecl] at hr
      cases hr
    | some range =>
      have hgt := ((decodeRegion_eq_some_iff htype hlong r).mp hr).1
      exact ⟨range, rfl, (decodeRange_pos_iff hdecl).mp hgt⟩
  · intro h
    obtain ⟨range, hdecl, hok⟩ := h
    have hgt := (decodeRange_pos_iff hdecl).mpr hok
    exact ⟨_, (decodeRegion_eq_some_iff htype hlong _).mpr ⟨hgt, rfl⟩⟩
  · intro range r hdecl hadd
    exact decodeRegion_describes htype hlong hdecl hadd

end Region

section Run

/-- The loop body, entered with room for a region, on a Type 19 structure. -/
theorem storeRegion_adds {m : Mem} {cur : Nat} {hlen : UInt8} (htype : m cur = 19)
    (hlong : 0x0F ≤ hlen.toNat) {out : Capped MemoryRegion memoryMaxRegions}
    (hroom : out.count < memoryMaxRegions) :
    ∃ added, ((storeRegion (m cur) cur hlen out).val m).items = out.items ++ added.toList ∧
      ExactRegion (segment m cur hlen.toNat) added := by
  refine ⟨decodeRegion (segment m cur hlen.toNat), ?_, ?_⟩
  · rw [storeRegion_val rfl (by omega), Capped.foldl_push_items, List.take_of_length_le]
    have hone := Option.length_toList_le (o := decodeRegion (segment m cur hlen.toNat))
    rw [List.length_append]
    unfold Capped.count at hroom
    omega
  · apply decodeRegion_exact
    · rw [segment_getD m cur hlen.toNat 0 (by omega)]
      exact htype
    · rw [segment_length]
      exact hlong

/-- The regions are the ranges of the structures in table order, up to the
array's size, and each Type 19 structure gives exactly the range it declares. -/
theorem collectRegions_exact (raw : List UInt8) :
    (collectRegionsFromSmbios (some raw)).items =
        ((smbiosVisits raw).filterMap (rawRegionAt raw)).take memoryMaxRegions ∧
      (∀ v : Visit, memOf raw v.offset = 19 → 0x0F ≤ v.hlen.toNat →
        v.offset + v.hlen.toNat ≤ smbiosTableEnd raw.length (smbiosLength raw) →
        ExactRegion (segment (memOf raw) v.offset v.hlen.toNat) (rawRegionAt raw v)) ∧
      ∀ (m : Mem) (cur : Nat) (hlen : UInt8) (out : Capped MemoryRegion memoryMaxRegions),
        m cur = 19 → 0x0F ≤ hlen.toNat → out.count < memoryMaxRegions →
        ∃ added, ((storeRegion (m cur) cur hlen out).val m).items = out.items ++ added.toList ∧
          ExactRegion (segment m cur hlen.toNat) added := by
  refine ⟨memoryRegions_items raw, ?_, fun _ _ _ _ htype hlong hroom =>
    storeRegion_adds htype hlong hroom⟩
  intro v htype hlong hfit
  unfold rawRegionAt
  rw [regionAt_of_fits (by omega) hfit]
  apply decodeRegion_exact
  · rw [segment_getD _ v.offset v.hlen.toNat 0 (by omega)]
    exact htype
  · rw [segment_length]
    exact hlong

end Run
end HwMon
