import HwMon.Smbios.Structure

/-!
# What one structure says

The decoders take the formatted area `f` and the bytes `area` that follow it.
Each is the value of the parser function of the same record.
-/

namespace HwMon
set_option autoImplicit false

/-- The string whose number stands at `off`; empty if there is none. -/
def fieldString (f area : List UInt8) (off : Nat) : CStr smbiosStrMax :=
  .ofBytes ((stringAt area (f.getD off 0).toNat).getD [])

/-- A field that the formatted area covers, else what was there before. -/
def fieldStringOr (f area : List UInt8) (off : Nat) (old : CStr smbiosStrMax) :
    CStr smbiosStrMax :=
  if off < f.length then fieldString f area off else old

def decodeBios (f area : List UInt8) (old : SmbiosBiosInfo) : SmbiosBiosInfo where
  available := true
  vendor := fieldStringOr f area 0x04 old.vendor
  version := fieldStringOr f area 0x05 old.version
  releaseDate := fieldStringOr f area 0x08 old.releaseDate

def decodeSystem (major minor : UInt8) (f area : List UInt8) (old : SmbiosSystemInfo) :
    SmbiosSystemInfo where
  available := true
  manufacturer := fieldStringOr f area 0x04 old.manufacturer
  product := fieldStringOr f area 0x05 old.product
  version := fieldStringOr f area 0x06 old.version
  serial := fieldStringOr f area 0x07 old.serial
  uuidAvailable := if 0x18 ≤ f.length then true else old.uuidAvailable
  uuid := if 0x18 ≤ f.length then formatUuid (fieldBytes f 0x08 16) major minor else old.uuid

def decodeBaseboard (f area : List UInt8) (old : SmbiosBaseboardInfo) : SmbiosBaseboardInfo where
  available := true
  manufacturer := fieldStringOr f area 0x04 old.manufacturer
  product := fieldStringOr f area 0x05 old.product
  version := fieldStringOr f area 0x06 old.version
  serial := fieldStringOr f area 0x07 old.serial

def decodeChassis (f area : List UInt8) (old : SmbiosChassisInfo) : SmbiosChassisInfo where
  available := true
  chassisType := if 0x05 < f.length then f.getD 0x05 0 &&& 0x7F else old.chassisType
  manufacturer := fieldStringOr f area 0x04 old.manufacturer
  serial := fieldStringOr f area 0x07 old.serial

def decodeMemorySize (f : List UInt8) : Bool × UInt32 :=
  let sizeWord := if 0x0D < f.length then fieldWord f 0x0C else 0
  if sizeWord = 0 then (false, 0)
  else if sizeWord = 0xFFFF then (true, 0)
  else
    let raw := (sizeWord &&& 0x7FFF).toUInt32
    if raw = 0x7FFF ∧ 0x20 ≤ f.length then
      (true, UInt32.ofNat (leNat (fieldBytes f 0x1C 4)) &&& 0x7FFFFFFF)
    else (true, if sizeWord &&& 0x8000 ≠ 0 then raw / 1024 else raw)

def decodeMemoryDevice (f area : List UInt8) : SmbiosMemoryDevice where
  populated := (decodeMemorySize f).1
  sizeMb := (decodeMemorySize f).2
  memoryType := if 0x12 < f.length then f.getD 0x12 0 else 0
  speedMts := (if 0x17 ≤ f.length then fieldWord f 0x15 else 0).toUInt32
  configuredSpeedMts := (if 0x26 ≤ f.length then fieldWord f 0x24 else 0).toUInt32
  locator := fieldStringOr f area 0x10 .empty
  manufacturer := fieldStringOr f area 0x17 .empty
  serial := fieldStringOr f area 0x18 .empty
  partNumber := fieldStringOr f area 0x1A .empty

def absorbStructure (f area : List UInt8) (out : SmbiosData) : SmbiosData :=
  if f.getD 0 0 = 0 then { out with bios := decodeBios f area out.bios }
  else if f.getD 0 0 = 1 then
    { out with system := decodeSystem out.majorVersion out.minorVersion f area out.system }
  else if f.getD 0 0 = 2 then { out with baseboard := decodeBaseboard f area out.baseboard }
  else if f.getD 0 0 = 3 then { out with chassis := decodeChassis f area out.chassis }
  else if f.getD 0 0 = 17 then
    { out with memoryDevices := out.memoryDevices.push (decodeMemoryDevice f area) }
  else out

section StringLookup
variable {m : Mem} {stop : Nat}

/-- Below the index the counter does not wrap. -/
theorem counter_succ {current index : UInt8} (hle : current.toNat ≤ index.toNat)
    (hne : current ≠ index) : (current + 1).toNat = current.toNat + 1 := by
  have hne' : current.toNat ≠ index.toNat := fun he => hne (UInt8.toNat_inj.mp he)
  have hindex := index.toNat_lt
  rw [UInt8.toNat_add]
  exact Nat.mod_eq_of_lt (by simp; omega)

/-- The address that the lookup returns is that of the string found in the list. -/
theorem smbiosGetStringFrom_val (index : UInt8) (p : Nat) (current : UInt8)
    (h : current ≤ index) :
    ((smbiosGetStringFrom stop index p current).val m).map
        (fun q => (segment m q (stop - q)).takeWhile (· ≠ 0)) =
      nthString (index.toNat - current.toNat) (segment m p (stop - p)) := by
  have hle := UInt8.le_iff_toNat_le.mp h
  fun_induction smbiosGetStringFrom stop index p current with
  | case1 p current hlt maxLen ih =>
    simp only [↓Probe.val_bind, ↓Probe.val_ite, Probe.val_pure, strnlen_val]
    generalize hs : (segment m p (stop - p)).takeWhile (· ≠ 0) = s
    by_cases hend : s.length = stop - p
    · rw [if_pos hend, nthString_of_end hs (Or.inl (by simpa using hend))]
      rfl
    by_cases hempty : s = []
    · rw [if_neg hend, if_pos (by rw [hempty]; rfl), nthString_of_end hs (Or.inr hempty)]
      rfl
    have hcont : ¬(s.length = (segment m p (stop - p)).length ∨ s = []) := by
      rw [segment_length]
      exact not_or.mpr ⟨hend, hempty⟩
    rw [if_neg hend, if_neg (by simpa using hempty)]
    by_cases hidx : current = index
    · rw [if_pos hidx, hidx, Nat.sub_self, Option.map_some, hs, nthString_zero hs hcont]
    · have hslen := (List.takeWhile_prefix (l := segment m p (stop - p)) (· ≠ 0)).length_le
      rw [hs, segment_length] at hslen
      have hne : current.toNat ≠ index.toNat := fun he => hidx (UInt8.toNat_inj.mp he)
      have hnext := counter_succ hle hidx
      have hcount : index.toNat - current.toNat = index.toNat - (current + 1).toNat + 1 := by
        omega
      have hroom : stop - p - (s.length + 1) = stop - (p + s.length + 1) := by omega
      rw [if_neg hidx, ih s.length (UInt8.le_iff_toNat_le.mpr (by omega)) (by omega), hcount,
        nthString_succ hs hcont, segment_drop m p (stop - p) (s.length + 1) (by omega), hroom,
        ← Nat.add_assoc]
  | case2 p current hlt =>
    rw [Nat.sub_eq_zero_of_le (Nat.le_of_not_lt hlt), segment_zero,
      nthString_of_end rfl (Or.inr rfl)]
    rfl

theorem smbiosGetString_val (s len : Nat) (index : UInt8) :
    ((smbiosGetString s len stop index).val m).map
        (fun q => (segment m q (stop - q)).takeWhile (· ≠ 0)) =
      stringAt (segment m (s + len) (stop - (s + len))) index.toNat := by
  simp only [smbiosGetString, stringAt, ↓Probe.val_ite, Probe.val_pure]
  by_cases h0 : index = 0
  · rw [if_pos h0, if_pos (by rw [h0]; rfl)]
    rfl
  · have hne : index.toNat ≠ 0 := fun he => h0 (UInt8.toNat_inj.mp he)
    rw [if_neg h0, if_neg hne]
    exact smbiosGetStringFrom_val index (s + len) 1 (UInt8.le_iff_toNat_le.mpr (by simp; omega))

theorem copyStringField_val (s len : Nat) (index : UInt8) :
    (copyStringField s len stop index smbiosStrMax).val m =
      .ofBytes ((stringAt (segment m (s + len) (stop - (s + len))) index.toNat).getD []) := by
  have hval : ((smbiosGetString s len stop index).val m).map
      (fun q => (segment m q (stop - q)).takeWhile (· ≠ 0)) =
        stringAt (segment m (s + len) (stop - (s + len))) index.toNat :=
    smbiosGetString_val s len index
  simp only [copyStringField, ↓Probe.val_bind]
  rw [← hval]
  cases hq : (smbiosGetString s len stop index).val m with
  | none =>
    apply CStr.ext
    rw [Option.map_none, Option.getD_none, CStr.ofBytes_bytes List.not_mem_nil]
    rfl
  | some q =>
    simp only [↓Probe.val_bind, Probe.val_pure, readBytes_val, strnlen_val, Option.map_some,
      Option.getD_some]
    rw [hq, Option.map_some] at hval
    have hz := (stringAt_mem hval.symm).2
    generalize hs : (segment m q (stop - q)).takeWhile (· ≠ 0) = t at hz ⊢
    have hpre : segment m q t.length = t := by
      obtain ⟨u, hu⟩ := List.takeWhile_prefix (l := segment m q (stop - q)) (· ≠ 0)
      rw [hs] at hu
      exact (segment_append m hu.symm).1
    -- Both sides are cut at 63 bytes, here by the length passed to `memcpy`.
    have hcut : ∀ n, n ≤ t.length → segment m q n = t.take n := by
      intro n hn
      rw [← segment_take m q t.length n hn, hpre]
    apply CStr.ext
    by_cases hlong : smbiosStrMax ≤ t.length
    · have hn : smbiosStrMax - 1 ≤ t.length := by omega
      rw [if_pos hlong, hcut _ hn, CStr.ofBytes_bytes hz,
        CStr.ofBytes_bytes fun hm => hz (List.mem_of_mem_take hm), List.take_take, Nat.min_self]
    · rw [if_neg hlong, hpre]

end StringLookup

section Records
variable {m : Mem} {s stop : Nat} {hlen : UInt8} {f area : List UInt8}
variable (hf : segment m s hlen.toNat = f)
include hf

theorem formatted_length : f.length = hlen.toNat := by
  rw [← hf, segment_length]

theorem getD_formatted {off : Nat} (h : off < hlen.toNat) : f.getD off 0 = m (s + off) := by
  rw [← hf, segment_getD m s hlen.toNat off h]

theorem fieldBytes_formatted {off n : Nat} (h : off + n ≤ hlen.toNat) :
    fieldBytes f off n = segment m (s + off) n := by
  rw [← hf, fieldBytes_segment m s h]

theorem byteField_val {ok : Bool} {off : Nat} (hok : ok = decide (off < hlen.toNat)) :
    (byteField ok (s + off)).val m = if off < f.length then f.getD off 0 else 0 := by
  rw [formatted_length hf]
  by_cases h : off < hlen.toNat
  · rw [hok, decide_eq_true h, if_pos h, getD_formatted hf h]
    rfl
  · rw [hok, decide_eq_false h, if_neg h]
    rfl

theorem byteField_val_fieldOk (off : Nat) :
    (byteField (fieldOk hlen off) (s + off)).val m = if off < f.length then f.getD off 0 else 0 :=
  byteField_val hf rfl

theorem wordField_val {ok : Bool} {off : Nat} (hok : ok = decide (off + 2 ≤ hlen.toNat)) :
    (wordField ok (s + off)).val m = if off + 2 ≤ f.length then fieldWord f off else 0 := by
  rw [formatted_length hf]
  by_cases h : off + 2 ≤ hlen.toNat
  · rw [hok, decide_eq_true h, if_pos h, fieldWord, fieldBytes_formatted hf h]
    exact read16_val m (s + off)
  · rw [hok, decide_eq_false h, if_neg h]
    rfl

theorem wordField_val_fieldOk (off : Nat) :
    (wordField (fieldOk hlen (off + 1)) (s + off)).val m =
      if off + 1 < f.length then fieldWord f off else 0 :=
  wordField_val hf rfl

theorem wordField_val_ge {k : UInt8} {off : Nat} (hk : k.toNat = off + 2) :
    (wordField (hlen ≥ k) (s + off)).val m =
      if off + 2 ≤ f.length then fieldWord f off else 0 := by
  refine wordField_val hf (decide_eq_decide.mpr (UInt8.le_iff_toNat_le.trans ?_))
  omega

theorem memoryDeviceSize_val {sizeWord : UInt16}
    (hw : sizeWord = if 0x0D < f.length then fieldWord f 0x0C else 0) :
    (memoryDeviceSize s hlen sizeWord).val m = decodeMemorySize f := by
  have hlong : hlen ≥ 0x20 ↔ 0x20 ≤ f.length := by
    rw [formatted_length hf]
    exact UInt8.le_iff_toNat_le
  simp only [memoryDeviceSize, decodeMemorySize, ← hw, ↓Probe.val_ite, Probe.val_pure, hlong]
  split
  · rfl
  split
  · rfl
  split
  · rename_i hext
    have hfit := hext.2
    rw [formatted_length hf] at hfit
    rw [fieldBytes_formatted hf (by omega)]
    simp
  · rfl

variable (ha : segment m (s + hlen.toNat) (stop - (s + hlen.toNat)) = area)
include ha

theorem stringField_val {ok : Bool} {off : Nat} (hok : ok = decide (off < hlen.toNat))
    (old : CStr smbiosStrMax) :
    (stringField ok s hlen stop off old).val m = fieldStringOr f area off old := by
  rw [fieldStringOr, formatted_length hf]
  by_cases h : off < hlen.toNat
  · rw [hok, decide_eq_true h, if_pos h, fieldString, getD_formatted hf h, ← ha]
    exact copyStringField_val s hlen.toNat (m (s + off))
  · rw [hok, decide_eq_false h, if_neg h]
    rfl

theorem stringField_val_fieldOk (off : Nat) (old : CStr smbiosStrMax) :
    (stringField (fieldOk hlen off) s hlen stop off old).val m = fieldStringOr f area off old :=
  stringField_val hf ha rfl old

theorem stringField_val_ge {k : UInt8} {off : Nat} (hk : k.toNat = off + 1)
    (old : CStr smbiosStrMax) :
    (stringField (hlen ≥ k) s hlen stop off old).val m = fieldStringOr f area off old := by
  refine stringField_val hf ha (decide_eq_decide.mpr (UInt8.le_iff_toNat_le.trans ?_)) old
  omega

theorem parseBios_val (old : SmbiosBiosInfo) :
    (parseBios s hlen stop old).val m = decodeBios f area old := by
  simp only [parseBios, ↓Probe.val_bind, Probe.val_pure, stringField_val_fieldOk hf ha]
  rfl

theorem parseSystem_val (major minor : UInt8) (old : SmbiosSystemInfo) :
    (parseSystem s hlen stop major minor old).val m = decodeSystem major minor f area old := by
  simp only [parseSystem, ↓Probe.val_bind, ↓Probe.val_ite, Probe.val_pure,
    stringField_val_fieldOk hf ha, readBytes_val, decodeSystem]
  by_cases h : hlen ≥ 0x18
  · have hlong : 0x08 + 16 ≤ hlen.toNat := UInt8.le_iff_toNat_le.mp h
    rw [if_pos h, formatted_length hf, if_pos hlong, if_pos hlong, fieldBytes_formatted hf hlong]
  · have hshort : ¬0x18 ≤ hlen.toNat := fun hle => h (UInt8.le_iff_toNat_le.mpr hle)
    rw [if_neg h, formatted_length hf, if_neg hshort, if_neg hshort]

theorem parseBaseboard_val (old : SmbiosBaseboardInfo) :
    (parseBaseboard s hlen stop old).val m = decodeBaseboard f area old := by
  simp only [parseBaseboard, ↓Probe.val_bind, Probe.val_pure, stringField_val_fieldOk hf ha]
  rfl

theorem parseChassis_val (old : SmbiosChassisInfo) :
    (parseChassis s hlen stop old).val m = decodeChassis f area old := by
  have hok : fieldOk hlen 0x05 = decide (0x05 < f.length) := by
    rw [formatted_length hf]
    rfl
  simp only [parseChassis, ↓Probe.val_bind, Probe.val_pure, stringField_val_fieldOk hf ha,
    byteField_val_fieldOk hf]
  simp only [hok, decide_eq_true_eq, decodeChassis]
  by_cases h : 0x05 < f.length
  · simp only [if_pos h]
  · simp only [if_neg h]

theorem parseMemoryDevice_val (data : SmbiosData) :
    (parseMemoryDevice s hlen stop data).val m =
      { data with memoryDevices := data.memoryDevices.push (decodeMemoryDevice f area) } := by
  simp only [parseMemoryDevice, ↓Probe.val_ite, Probe.val_pure]
  split
  · rename_i hfull
    rw [Capped.push_of_full (Nat.not_lt.mpr hfull)]
  · have hspeed : UInt8.toNat 0x17 = 0x15 + 2 := rfl
    have hconfigured : UInt8.toNat 0x26 = 0x24 + 2 := rfl
    have hmanufacturer : UInt8.toNat 0x18 = 0x17 + 1 := rfl
    have hserial : UInt8.toNat 0x19 = 0x18 + 1 := rfl
    have hpart : UInt8.toNat 0x1B = 0x1A + 1 := rfl
    simp only [↓Probe.val_bind, Probe.val_pure, stringField_val_fieldOk hf ha,
      byteField_val_fieldOk hf, wordField_val_fieldOk hf 0x0C, wordField_val_ge hf hspeed,
      wordField_val_ge hf hconfigured, stringField_val_ge hf ha hmanufacturer,
      stringField_val_ge hf ha hserial, stringField_val_ge hf ha hpart]
    rw [memoryDeviceSize_val hf rfl]
    rfl

theorem parseStructure_val (hlong : 0 < hlen.toNat) (out : SmbiosData) :
    (parseStructure (m s) s hlen stop out).val m = absorbStructure f area out := by
  have htype : m s = f.getD 0 0 := by
    rw [getD_formatted hf hlong]
    rfl
  simp only [parseStructure, absorbStructure, ↓Probe.val_ite, ↓Probe.val_bind, Probe.val_pure,
    parseBios_val hf ha, parseSystem_val hf ha, parseBaseboard_val hf ha, parseChassis_val hf ha,
    parseMemoryDevice_val hf ha, htype]

end Records
end HwMon
