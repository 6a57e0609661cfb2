import HwMon.Pci.Enumerate

/-!
# What the enumeration keeps and what it counts

Each device comes from its own entry. The array takes the first 512 entries that
carry a vendor and a device, and every entry behind them is counted as truncated,
also one that carries neither.
-/

namespace HwMon
set_option autoImplicit false

/-- Buffers that no iteration has written. -/
def PciBuffers.unused : PciBuffers := ⟨memOf [], memOf [], memOf []⟩

/-- The device that an entry gives by itself. -/
def PciEntry.identified (sizes : ResSizes) (e : PciEntry) : Option PciDevice :=
  (enumerateEntry sizes e .unused).1

/-- The entry has a hardware ID with the tokens of a vendor and of a device. -/
def PciEntry.identifiable (e : PciEntry) : Bool :=
  match e.hardwareId with
  | none => false
  | some id =>
    let hwid := id.bytes.takeWhile (· ≠ 0)
    (extractHexToken hwid venKey 0).1 && (extractHexToken hwid devKey 0).1

/-- The entries behind the one that fills the array. -/
def entriesBehind (entries : List PciEntry) : List PciEntry :=
  past PciEntry.identifiable pciMaxDevices entries

/-- The devices are those of the first identifiable entries, and the other ones are counted. -/
structure TruncationExact (sizes : ResSizes) (entries : List PciEntry) (out : PciEnumeration) :
    Prop where
  devices : out.devices.items =
    (entries.filterMap (PciEntry.identified sizes)).take pciMaxDevices
  counted : out.devices.count + out.truncated.toNat = entries.countP PciEntry.identifiable
  nonzero : out.truncated ≠ 0 ↔ pciMaxDevices < entries.countP PciEntry.identifiable

section Entry
variable (sizes : ResSizes) (e : PciEntry)

theorem withCompatible_device (dev : PciDevice) (ids : Option (RegText 1024)) (buf buf' : Mem) :
    (dev.withCompatible ids buf).1 = (dev.withCompatible ids buf').1 := by
  cases ids with
  | none => rfl
  | some ids =>
    have hlen : (UInt64.ofNat ids.bytes.length).toNat = ids.bytes.length := by
      have hfits := ids.fits
      rw [UInt64.toNat_ofNat', Nat.mod_eq_of_lt (by omega)]
    have hdata : segment (ids.into buf) 0 ids.bytes.length = ids.bytes := by
      rw [ids.segment_into buf (Nat.le_refl _), Nat.sub_self, segment_zero, List.append_nil]
    have hsettled :
        EndsSettled (segment (ids.into buf) 0 (UInt64.ofNat ids.bytes.length).toNat) := by
      rw [hlen, hdata]
      exact ids.endsSettled
    have hagree : ∀ i < (UInt64.ofNat ids.bytes.length).toNat,
        ids.into buf i = ids.into buf' i := fun i hi => by
      rw [hlen] at hi
      exact (if_pos hi).trans (if_pos hi).symm
    have hsame := (classCodeConfined_of_settled dev hsettled).same (ids.into buf') hagree
    exact congrArg Prod.snd hsame.symm

theorem withDescription_device (dev : PciDevice) (desc : Option (RegText 128)) (buf buf' : Mem) :
    (dev.withDescription desc buf).1 = (dev.withDescription desc buf').1 := by
  cases desc with
  | none => rfl
  | some desc =>
    have htext : CStr.ofBytes (segment (desc.into buf) 0 128) =
        (CStr.ofBytes (segment (desc.into buf') 0 128) : CStr 128) := by
      apply CStr.ext
      apply congrArg (List.take (128 - 1))
      rw [desc.takeWhile_into buf desc.fits, desc.takeWhile_into buf' desc.fits]
    rw [PciDevice.withDescription, PciDevice.withDescription, htext]
    split
    · rfl
    · rfl

/-- No device depends on what earlier iterations left in the buffers. -/
theorem enumerateEntry_device (bufs : PciBuffers) :
    (enumerateEntry sizes e bufs).1 = e.identified sizes := by
  rw [PciEntry.identified, enumerateEntry, enumerateEntry]
  cases e.hardwareId with
  | none => rfl
  | some id =>
    simp only [id.bufferString_into]
    split
    · rfl
    · simp only [withCompatible_device _ _ bufs.compatMulti PciBuffers.unused.compatMulti,
        withDescription_device _ _ bufs.desc PciBuffers.unused.desc]

theorem identifiable_eq : e.identifiable = (e.identified sizes).isSome := by
  rw [PciEntry.identifiable, PciEntry.identified, enumerateEntry]
  cases e.hardwareId with
  | none => rfl
  | some id =>
    simp only [id.bufferString_into]
    split
    · rename_i hmissing
      rcases hmissing with hven | hdev
      · rw [hven]
        rfl
      · rw [hdev, Bool.and_false]
        rfl
    · rename_i hboth
      obtain ⟨hven, hdev⟩ := not_or.mp hboth
      rw [Bool.eq_true_of_not_eq_false hven, Bool.eq_true_of_not_eq_false hdev]
      rfl

end Entry

section Loop
variable {sizes : ResSizes}

/-- With a full array the loop only counts. -/
theorem enumerateLoop_full (entries : List PciEntry) (bufs : PciBuffers) (out : PciEnumeration)
    (hfull : pciMaxDevices ≤ out.devices.count) : enumerateLoop sizes entries bufs out =
      { out with truncated := out.truncated + UInt32.ofNat entries.length } := by
  have hzero : UInt32.ofNat 0 = 0 := rfl
  induction entries generalizing out with
  | nil => rw [enumerateLoop, List.length_nil, hzero, UInt32.add_zero]
  | cons e entries ih =>
    rw [enumerateLoop, if_pos hfull, ih { out with truncated := out.truncated + 1 } hfull,
      List.length_cons, UInt32.ofNat_add, UInt32.add_comm (UInt32.ofNat entries.length),
      ← UInt32.add_assoc]
    rfl

theorem enumerateLoop_eq (entries : List PciEntry) (bufs : PciBuffers) (out : PciEnumeration) :
    enumerateLoop sizes entries bufs out =
      { devices := Capped.pushAll (PciEntry.identified sizes) out.devices entries
        truncated := out.truncated + UInt32.ofNat
          (past PciEntry.identifiable (pciMaxDevices - out.devices.count) entries).length } := by
  have hzero : UInt32.ofNat 0 = 0 := rfl
  induction entries generalizing bufs out with
  | nil =>
    rw [past_nil, enumerateLoop, List.length_nil, hzero, UInt32.add_zero]
    rfl
  | cons e entries ih =>
    by_cases hfull : pciMaxDevices ≤ out.devices.count
    · rw [enumerateLoop_full _ _ _ hfull, Capped.pushAll_of_full (Nat.not_lt.mpr hfull),
        Nat.sub_eq_zero_of_le hfull, past_zero]
    · have hroom : out.devices.count < pciMaxDevices := Nat.not_le.mp hfull
      obtain ⟨n, hn⟩ : ∃ n, pciMaxDevices - out.devices.count = n + 1 :=
        ⟨pciMaxDevices - out.devices.count - 1, by omega⟩
      rw [enumerateLoop, if_neg hfull, hn, past, identifiable_eq sizes e, Capped.pushAll_cons]
      simp only [enumerateEntry_device]
      cases hdev : e.identified sizes with
      | none =>
        simp only
        rw [ih, hn, Capped.pushAll_none hdev]
        rfl
      | some dev =>
        have hcount : pciMaxDevices - (out.devices.push dev).count = n := by
          rw [Capped.push_count hroom]
          omega
        simp only
        rw [ih, hcount, Capped.pushAll_singleton, hdev]
        rfl

end Loop

section Accounting
variable (sizes : ResSizes) (entries : List PciEntry) (bufs : PciBuffers)

theorem pciEnumerate_devices : (pciEnumerate sizes (some entries) bufs).2.devices.items =
    (entries.filterMap (PciEntry.identified sizes)).take pciMaxDevices := by
  rw [pciEnumerate, enumerateLoop_eq]
  refine (Capped.pushAll_items _ _ _).trans ?_
  rw [Capped.items_empty, List.nil_append]

theorem pciEnumerate_truncated : (pciEnumerate sizes (some entries) bufs).2.truncated.toNat =
    (entriesBehind entries).length % 2 ^ 32 := by
  rw [pciEnumerate, enumerateLoop_eq]
  simp only [UInt32.zero_add, UInt32.toNat_ofNat']
  rfl

theorem identifiable_count : entries.countP PciEntry.identifiable =
    (entries.filterMap (PciEntry.identified sizes)).length := by
  rw [List.length_filterMap_eq_countP]
  exact congrArg (List.countP · entries) (funext (identifiable_eq sizes))

/-- The account is exact just when the entries behind the full array, as many as 32 bits
count of them, are as many as the identifiable ones among them. -/
theorem truncationExact_iff :
    TruncationExact sizes entries (pciEnumerate sizes (some entries) bufs).2 ↔
      (entriesBehind entries).length % 2 ^ 32 =
        (entriesBehind entries).countP PciEntry.identifiable := by
  have hcount : (pciEnumerate sizes (some entries) bufs).2.devices.count =
      min pciMaxDevices (entries.countP PciEntry.identifiable) := by
    rw [identifiable_count sizes, ← List.length_take, ← pciEnumerate_devices sizes entries bufs]
    rfl
  have hbehind : (entriesBehind entries).countP PciEntry.identifiable =
      entries.countP PciEntry.identifiable - pciMaxDevices := countP_past _ pciMaxDevices entries
  have htruncated := pciEnumerate_truncated sizes entries bufs
  constructor
  · intro h
    have hcounted := h.counted
    rw [hcount] at hcounted
    omega
  · intro h
    refine ⟨pciEnumerate_devices sizes entries bufs, ?_, ?_⟩
    · rw [hcount]
      omega
    · rw [ne_eq, ← UInt32.toNat_inj, htruncated, UInt32.toNat_zero]
      omega

end Accounting

/-- A device with nothing but the hardware ID `PCI\VEN_10DE&DEV_2704`. -/
def displayEntry : PciEntry where
  hardwareId := some ⟨[80, 67, 73, 92, 86, 69, 78, 95, 49, 48, 68, 69, 38, 68, 69, 86, 95, 50, 55,
    48, 52, 0], by decide, by decide⟩
  compatibleIds := none
  busNumber := none
  address := none
  deviceDesc := none
  logConf := none
  resDes := []

/-- 512 devices and an entry without a hardware ID. -/
def fullBus : List PciEntry :=
  List.replicate pciMaxDevices displayEntry ++ [{ displayEntry with hardwareId := none }]

/-- An entry that is no device is counted as a truncated one. -/
theorem fullBus_overcounted : ¬TruncationExact ⟨40, 40, 40⟩ fullBus
    (pciEnumerate ⟨40, 40, 40⟩ (some fullBus) .unused).2 := by
  intro h
  have hgood : displayEntry.identifiable = true := by decide
  have hbehind : entriesBehind fullBus = [{ displayEntry with hardwareId := none }] :=
    past_replicate hgood pciMaxDevices _
  have hcount : fullBus.countP PciEntry.identifiable = pciMaxDevices := by
    rw [fullBus, List.countP_append, List.countP_replicate, if_pos hgood]
    rfl
  have htruncated := pciEnumerate_truncated ⟨40, 40, 40⟩ fullBus .unused
  have hnonzero := h.nonzero
  rw [hbehind, List.length_singleton] at htruncated
  rw [ne_eq, ← UInt32.toNat_inj, htruncated, hcount] at hnonzero
  exact absurd (hnonzero.mp (by decide)) (Nat.lt_irrefl _)

end HwMon
