import HwMon.Smbios.Decode
import Mathlib.Data.Nat.Bitwise

/-!
# Memory devices under the field map

What a Type 17 structure says under the field map of DSP0134, and when the
parser reports just that. The configured speed is a word at `0x20`; the parser
takes the one at `0x24`.
-/

namespace HwMon
set_option autoImplicit false

/-- The capacity of a memory slot. -/
inductive SlotSize where
  | empty
  | unknown
  | kilobytes (n : Nat)
  deriving DecidableEq, Repr

/-- In whole megabytes; zero stands for no module and for no known capacity. -/
def SlotSize.megabytes : SlotSize → Nat
  | empty => 0
  | unknown => 0
  | kilobytes n => n / 1024

/-- A word that the formatted area covers, else zero. -/
def fieldWordOr (f : List UInt8) (off : Nat) : UInt16 :=
  if off + 2 ≤ f.length then fieldWord f off else 0

/-- The capacity that the structure gives. -/
def slotSize (f : List UInt8) : SlotSize :=
  if fieldWordOr f 0x0C = 0 then .empty
  else if fieldWordOr f 0x0C = 0xFFFF then .unknown
  else if fieldWordOr f 0x0C = 0x7FFF then
    if 0x20 ≤ f.length then .kilobytes (1024 * (fieldDword f 0x1C &&& 0x7FFFFFFF).toNat)
    else .unknown
  else if fieldWordOr f 0x0C &&& 0x8000 ≠ 0 then
    .kilobytes (fieldWordOr f 0x0C &&& 0x7FFF).toNat
  else .kilobytes (1024 * (fieldWordOr f 0x0C).toNat)

/-- The device says what the structure says. -/
structure Type17Agrees (f area : List UInt8) (d : SmbiosMemoryDevice) : Prop where
  populated : d.populated = false ↔ slotSize f = .empty
  size : d.sizeMb.toNat = (slotSize f).megabytes
  known : d.sizeMb = 0 → slotSize f = .empty ∨ slotSize f = .unknown
  memoryType : d.memoryType = if 0x12 < f.length then f.getD 0x12 0 else 0
  speed : d.speedMts = (fieldWordOr f 0x15).toUInt32
  configuredSpeed : d.configuredSpeedMts = (fieldWordOr f 0x20).toUInt32
  locator : d.locator = fieldStringOr f area 0x10 .empty
  manufacturer : d.manufacturer = fieldStringOr f area 0x17 .empty
  serial : d.serial = fieldStringOr f area 0x18 .empty
  partNumber : d.partNumber = fieldStringOr f area 0x1A .empty

/-- The words at `0x24` and at `0x20` are the same, a saturated size has an extended one,
and a known capacity is at least one megabyte. -/
structure Type17Plain (f : List UInt8) : Prop where
  configuredSpeed : fieldWordOr f 0x24 = fieldWordOr f 0x20
  extended : fieldWordOr f 0x0C = 0x7FFF → 0x20 ≤ f.length
  megabyte : ∀ n, slotSize f = .kilobytes n → 1024 ≤ n

section Word
variable (w : UInt16)

theorem lowBits_toNat : (w &&& 0x7FFF).toNat = w.toNat % 2 ^ 15 := by
  rw [UInt16.toNat_and]
  exact Nat.and_two_pow_sub_one_eq_mod w.toNat 15

theorem highBit_iff : w &&& 0x8000 ≠ 0 ↔ 2 ^ 15 ≤ w.toNat := by
  have hw := w.toNat_lt
  have hbit : (w &&& 0x8000).toNat = (w.toNat.testBit 15).toNat * 2 ^ 15 := by
    rw [UInt16.toNat_and]
    exact Nat.and_two_pow w.toNat 15
  have hzero : UInt16.toNat 0 = 0 := rfl
  rw [Ne, ← UInt16.toNat_inj, hbit, hzero, Nat.testBit_eq_decide_div_mod_eq]
  by_cases hset : w.toNat / 2 ^ 15 % 2 = 1
  · rw [decide_eq_true hset, Bool.toNat_true]
    omega
  · rw [decide_eq_false hset, Bool.toNat_false]
    omega

theorem saturated_iff : (w &&& 0x7FFF).toUInt32 = 0x7FFF ↔ w = 0x7FFF ∨ w = 0xFFFF := by
  have hw := w.toNat_lt
  rw [← UInt32.toNat_inj, UInt16.toNat_toUInt32, lowBits_toNat, ← UInt16.toNat_inj,
    ← UInt16.toNat_inj]
  have h32 : UInt32.toNat 0x7FFF = 32767 := rfl
  have h16 : UInt16.toNat 0x7FFF = 32767 := rfl
  have hall : UInt16.toNat 0xFFFF = 65535 := rfl
  omega

end Word

section Size
variable {f : List UInt8}

theorem decodeMemorySize_eq (f : List UInt8) : decodeMemorySize f =
    if fieldWordOr f 0x0C = 0 then (false, 0)
    else if fieldWordOr f 0x0C = 0xFFFF then (true, 0)
    else if (fieldWordOr f 0x0C &&& 0x7FFF).toUInt32 = 0x7FFF ∧ 0x20 ≤ f.length then
      (true, fieldDword f 0x1C &&& 0x7FFFFFFF)
    else (true, if fieldWordOr f 0x0C &&& 0x8000 ≠ 0 then
      (fieldWordOr f 0x0C &&& 0x7FFF).toUInt32 / 1024
      else (fieldWordOr f 0x0C &&& 0x7FFF).toUInt32) :=
  rfl

theorem decodeMemorySize_populated (f : List UInt8) :
    (decodeMemorySize f).1 = false ↔ slotSize f = .empty := by
  rw [decodeMemorySize_eq, slotSize]
  split
  · exact iff_of_true rfl rfl
  refine iff_of_false ?_ ?_
  · split
    · exact Bool.noConfusion
    split
    · exact Bool.noConfusion
    · exact Bool.noConfusion
  · split
    · exact SlotSize.noConfusion
    split
    · split
      · exact SlotSize.noConfusion
      · exact SlotSize.noConfusion
    split
    · exact SlotSize.noConfusion
    · exact SlotSize.noConfusion

/-- A saturated size without an extended one is reported as it stands. -/
theorem decodeMemorySize_saturated (hw : fieldWordOr f 0x0C = 0x7FFF) (hshort : f.length < 0x20) :
    (decodeMemorySize f).2 = 0x7FFF ∧ slotSize f = .unknown := by
  have hno : ¬0x20 ≤ f.length := Nat.not_le.mpr hshort
  rw [decodeMemorySize_eq, slotSize, hw]
  simp only [hno, and_false, if_false]
  exact ⟨rfl, rfl⟩

theorem decodeMemorySize_megabytes (h : fieldWordOr f 0x0C = 0x7FFF → 0x20 ≤ f.length) :
    (decodeMemorySize f).2.toNat = (slotSize f).megabytes := by
  rw [decodeMemorySize_eq, slotSize]
  generalize fieldWordOr f 0x0C = w at *
  have hlow := lowBits_toNat w
  have hhigh := highBit_iff w
  split
  · rfl
  split
  · rfl
  rename_i hzero hall
  by_cases hsat : w = 0x7FFF
  · rw [if_pos ⟨(saturated_iff w).mpr (Or.inl hsat), h hsat⟩, if_pos hsat, if_pos (h hsat)]
    exact (Nat.mul_div_cancel_left _ (by decide)).symm
  · have hno : ¬((w &&& 0x7FFF).toUInt32 = 0x7FFF ∧ 0x20 ≤ f.length) := by
      intro hboth
      rcases (saturated_iff w).mp hboth.1 with heq | heq
      · exact hsat heq
      · exact hall heq
    rw [if_neg hno, if_neg hsat]
    split
    · exact UInt32.toNat_div _ _
    · rename_i hclear
      rw [hhigh] at hclear
      have hsmall : w.toNat % 2 ^ 15 = w.toNat := Nat.mod_eq_of_lt (by omega)
      rw [SlotSize.megabytes, Nat.mul_div_cancel_left _ (by decide), UInt16.toNat_toUInt32, hlow,
        hsmall]

end Size

/-- The decoder agrees with the field map just when the structure is a plain one. -/
theorem decodeMemoryDevice_agrees_iff (f area : List UInt8) :
    Type17Agrees f area (decodeMemoryDevice f area) ↔ Type17Plain f := by
  have hword : ∀ off, (if off + 2 ≤ f.length then fieldWord f off else 0) = fieldWordOr f off :=
    fun _ => rfl
  constructor
  · intro h
    have hext : fieldWordOr f 0x0C = 0x7FFF → 0x20 ≤ f.length := by
      intro hw
      by_contra hshort
      obtain ⟨hsize, hunknown⟩ := decodeMemorySize_saturated hw (Nat.lt_of_not_le hshort)
      have hagree := h.size
      rw [hunknown] at hagree
      have hreported : (decodeMemoryDevice f area).sizeMb = 0x7FFF := hsize
      rw [hreported] at hagree
      cases hagree
    refine ⟨?_, hext, ?_⟩
    · exact UInt16.toUInt32_inj.mp h.configuredSpeed
    · intro n hn
      by_contra hfew
      have hsize := h.size
      rw [hn, SlotSize.megabytes, Nat.div_eq_of_lt (Nat.lt_of_not_le hfew)] at hsize
      rcases h.known (UInt32.toNat_inj.mp hsize) with heq | heq
      · rw [hn] at heq
        cases heq
      · rw [hn] at heq
        cases heq
  · intro h
    have hsize := decodeMemorySize_megabytes h.extended
    refine ⟨decodeMemorySize_populated f, hsize, ?_, rfl, rfl, ?_, rfl, rfl, rfl, rfl⟩
    · intro hzero
      have hnone : (slotSize f).megabytes = 0 := hsize.symm.trans (congrArg UInt32.toNat hzero)
      cases hslot : slotSize f with
      | empty => exact Or.inl rfl
      | unknown => exact Or.inr rfl
      | kilobytes n =>
        have hmany := h.megabyte n hslot
        rw [hslot, SlotSize.megabytes] at hnone
        omega
    · exact congrArg UInt16.toUInt32 h.configuredSpeed

/-- Below the cap, `parse_memory_device` appends one device, and it agrees with the field
map just when the structure is a plain one. -/
theorem parseMemoryDevice_agrees_iff (m : Mem) (s stop : Nat) (hlen : UInt8) (data : SmbiosData)
    (hroom : data.memoryDeviceCount < smbiosMaxMemoryDevices) :
    ∃ d, (parseMemoryDevice s hlen stop data).val m =
        { data with memoryDevices := data.memoryDevices.push d } ∧
      (data.memoryDevices.push d).items = data.memoryDevices.items ++ [d] ∧
      (Type17Agrees (segment m s hlen.toNat)
          (segment m (s + hlen.toNat) (stop - (s + hlen.toNat))) d ↔
        Type17Plain (segment m s hlen.toNat)) :=
  ⟨_, parseMemoryDevice_val rfl rfl data, Capped.push_items_of_room hroom _,
    decodeMemoryDevice_agrees_iff _ _⟩

/-- A module of 8192 MB at 2666 MT/s, configured for 2400 MT/s at 1200 mV. -/
def ddr4Module : List UInt8 :=
  [17, 40, 0, 0] ++ List.replicate 8 0 ++ [0x00, 0x20] ++ List.replicate 7 0 ++ [0x6A, 0x0A] ++
    List.replicate 9 0 ++ [0x60, 0x09, 0xB0, 0x04, 0xB0, 0x04, 0xB0, 0x04, 0, 0]

theorem ddr4Module_appended : ∃ d, (parseMemoryDevice 0 40 42 {}).val (memOf ddr4Module) =
      { ({} : SmbiosData) with memoryDevices := ({} : SmbiosData).memoryDevices.push d } ∧
    (({} : SmbiosData).memoryDevices.push d).items = ({} : SmbiosData).memoryDevices.items ++ [d] ∧
    (Type17Agrees (segment (memOf ddr4Module) 0 40) (segment (memOf ddr4Module) 40 2) d ↔
      Type17Plain (segment (memOf ddr4Module) 0 40)) :=
  parseMemoryDevice_agrees_iff (memOf ddr4Module) 0 42 40 {} (by decide)

/-- The voltage at `0x24` is reported as the configured speed. -/
theorem ddr4Module_voltage :
    ((parseMemoryDevice 0 40 42 {}).val (memOf ddr4Module)).memoryDevices.items.map
        SmbiosMemoryDevice.configuredSpeedMts = [1200] ∧
      fieldWordOr ddr4Module 0x20 = 2400 ∧
      ∀ d, ((parseMemoryDevice 0 40 42 {}).val (memOf ddr4Module)).memoryDevices.items = [d] →
        ¬Type17Agrees (ddr4Module.take 40) (ddr4Module.drop 40) d := by
  have hreported : ((parseMemoryDevice 0 40 42 {}).val (memOf ddr4Module)).memoryDevices.items.map
      SmbiosMemoryDevice.configuredSpeedMts = [1200] := by
    decide
  refine ⟨hreported, by decide, ?_⟩
  intro d hd h
  have hspeed := h.configuredSpeed
  rw [hd] at hreported
  have hd' : d.configuredSpeedMts = 1200 := by simpa using hreported
  rw [hd'] at hspeed
  revert hspeed
  decide

end HwMon
