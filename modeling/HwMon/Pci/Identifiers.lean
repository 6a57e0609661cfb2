import HwMon.Pci.Collected
import HwMon.Pci.Truncation

/-!
# The tokens of the hardware IDs

Which tokens `extract_hex_token` reads exactly, and that `pci_enumerate` recovers
the vendor, the device and the revision of an ID in the documented form.
-/

namespace HwMon
set_option autoImplicit false

/-- `PCI\VEN_vvvv&DEV_dddd&SUBSYS_ssssssss&REV_rr` -/
def pciId (ven devid : HexField 4) (subsys : HexField 8) (rev : HexField 2) : List UInt8 :=
  [80, 67, 73, 92] ++ venKey ++ ven.digits ++ [38] ++ devKey ++ devid.digits ++
    [38, 83, 85, 66, 83, 89, 83, 95] ++ subsys.digits ++ [38] ++ revKey ++ rev.digits

/-- The device has the vendor, the device number and the revision of its ID. -/
structure PciDevice.Recovers (dev : PciDevice) (ven devid : HexField 4) (rev : HexField 2) :
    Prop where
  vendor : dev.vendorId.toNat = hexValue ven.digits
  device : dev.deviceId.toNat = hexValue devid.digits
  revision : dev.revision.toNat = hexValue rev.digits

/-- Every entry with an ID in the documented form, where the array has room, gives a device
that recovers it. -/
def RecoversIds : Prop :=
  ∀ (ven devid : HexField 4) (subsys : HexField 8) (rev : HexField 2) (more : List UInt8)
    (sizes : ResSizes) (bufs : PciBuffers) (before after : List PciEntry) (e : PciEntry)
    (id : RegText 512), e.hardwareId = some id →
    id.bytes = pciId ven devid subsys rev ++ 0 :: more →
    before.countP PciEntry.identifiable < pciMaxDevices →
    let out := (pciEnumerate sizes (some (before ++ e :: after)) bufs).2
    ∃ dev, out.devices.items[before.countP PciEntry.identifiable]? = some dev ∧
      dev.Recovers ven devid rev

section Fields
variable {n : Nat} (f : HexField n)

theorem HexField.noSeparator : 95 ∉ f.digits := fun h =>
  (isxdigit_ne (f.isHex 95 h)).2.2.2.2.1 rfl

theorem HexField.noNul : 0 ∉ f.digits := fun h => (isxdigit_ne (f.isHex 0 h)).1 rfl

theorem HexField.value_lt : hexValue f.digits < 16 ^ n := by
  have hlt := hexValue_lt f.isHex
  rwa [f.length_eq] at hlt

theorem suffix_append_iff {k xs ys : List UInt8} (h : k.length ≤ ys.length) :
    k <:+ xs ++ ys ↔ k <:+ ys := by
  constructor
  · intro hk
    exact List.suffix_of_suffix_length_le hk (List.suffix_append xs ys) h
  · intro hk
    exact hk.trans (List.suffix_append xs ys)

/-- Behind a field only its tag decides whether the key ends at the next separator. -/
theorem afterSub_field {k tag : List UInt8} (hk : 95 ∉ k) (htag : 95 ∉ tag)
    (hlen : k.length ≤ tag.length) (r : List UInt8) :
    afterSub (k ++ [95]) (f.digits ++ tag ++ 95 :: r) =
      if k <:+ tag then some r else afterSub (k ++ [95]) r := by
  have hpre : 95 ∉ f.digits ++ tag := by
    rw [List.mem_append]
    exact not_or.mpr ⟨f.noSeparator, htag⟩
  rw [afterSub_separator hk hpre]
  simp only [suffix_append_iff hlen]

/-- A key in front of a field of two to eight digits yields its value. -/
theorem extractHexToken_field {hwid key l : List UInt8} (out : UInt32) (htwo : 2 ≤ n)
    (hfits : n ≤ 8) (hl : ∀ b ∈ l.head?, isxdigit b = false)
    (h : afterSub key hwid = some (f.digits ++ l)) :
    extractHexToken hwid key out = (true, UInt32.ofNat (hexValue f.digits)) := by
  rw [extractHexToken_some out h, strtoul16_field f htwo hfits hl]

end Fields

section Id
variable (ven devid : HexField 4) (subsys : HexField 8) (rev : HexField 2)

/-- The ID cut at its separators. -/
theorem pciId_eq : pciId ven devid subsys rev = [80, 67, 73, 92, 86, 69, 78] ++
    95 :: (ven.digits ++ [38, 68, 69, 86] ++
      95 :: (devid.digits ++ [38, 83, 85, 66, 83, 89, 83] ++
        95 :: (subsys.digits ++ [38, 82, 69, 86] ++ 95 :: rev.digits))) := by
  simp [pciId, venKey, devKey, revKey]

theorem pciId_noNul : 0 ∉ pciId ven devid subsys rev := by
  simp [pciId, venKey, devKey, revKey, HexField.noNul]

theorem pciId_vendor (out : UInt32) : extractHexToken (pciId ven devid subsys rev) venKey out =
    (true, UInt32.ofNat (hexValue ven.digits)) := by
  have hkey : venKey = [86, 69, 78] ++ [95] := rfl
  refine extractHexToken_field ven out (by decide) (by decide)
    (l := [38, 68, 69, 86] ++ 95 :: (devid.digits ++ [38, 83, 85, 66, 83, 89, 83] ++
        95 :: (subsys.digits ++ [38, 82, 69, 86] ++ 95 :: rev.digits))) ?_ ?_
  · simp [isxdigit]
  · rw [pciId_eq, hkey, afterSub_separator (by decide) (by decide), if_pos (by decide),
      List.append_assoc]

theorem pciId_device (out : UInt32) : extractHexToken (pciId ven devid subsys rev) devKey out =
    (true, UInt32.ofNat (hexValue devid.digits)) := by
  have hkey : devKey = [68, 69, 86] ++ [95] := rfl
  refine extractHexToken_field devid out (by decide) (by decide)
    (l := [38, 83, 85, 66, 83, 89, 83] ++
        95 :: (subsys.digits ++ [38, 82, 69, 86] ++ 95 :: rev.digits)) ?_ ?_
  · simp [isxdigit]
  · rw [pciId_eq, hkey, afterSub_separator (by decide) (by decide), if_neg (by decide),
      afterSub_field ven (by decide) (by decide) (by decide), if_pos (by decide),
      List.append_assoc]

theorem pciId_revision (out : UInt32) : extractHexToken (pciId ven devid subsys rev) revKey out =
    (true, UInt32.ofNat (hexValue rev.digits)) := by
  have hkey : revKey = [82, 69, 86] ++ [95] := rfl
  refine extractHexToken_field rev out (by decide) (by decide) (l := []) ?_ ?_
  · simp
  · rw [pciId_eq, hkey, afterSub_separator (by decide) (by decide), if_neg (by decide),
      afterSub_field ven (by decide) (by decide) (by decide), if_neg (by decide),
      afterSub_field devid (by decide) (by decide) (by decide), if_neg (by decide),
      afterSub_field subsys (by decide) (by decide) (by decide), if_pos (by decide),
      List.append_nil]

end Id

/-- What the hardware ID decides of a device. -/
def PciDevice.identity (dev : PciDevice) : UInt16 × UInt16 × UInt8 :=
  (dev.vendorId, dev.deviceId, dev.revision)

section Identity
variable (dev : PciDevice)

theorem extractClassCode_identity (n : UInt64) (m : Mem) :
    ((extractClassCode n dev).val m).2.identity = dev.identity := by
  simp only [extractClassCode, ↓Probe.val_bind, ↓Probe.val_ite, Probe.val_pure]
  split
  · rw [ClassBest.store]
    split
    · split
      · rfl
      · rfl
    · split
      · rfl
      · rfl
  · rfl

theorem withCompatible_identity (ids : Option (RegText 1024)) (buf : Mem) :
    (dev.withCompatible ids buf).1.identity = dev.identity := by
  cases ids with
  | none => rfl
  | some ids => exact extractClassCode_identity dev _ _

theorem withBus_identity (busNumber : Option UInt32) :
    (dev.withBus busNumber).identity = dev.identity := by
  cases busNumber with
  | none => rfl
  | some n => rfl

theorem withAddress_identity (address : Option UInt32) :
    (dev.withAddress address).identity = dev.identity := by
  cases address with
  | none => rfl
  | some n => rfl

theorem withDescription_identity (desc : Option (RegText 128)) (buf : Mem) :
    (dev.withDescription desc buf).1.identity = dev.identity := by
  cases desc with
  | none => rfl
  | some desc =>
    rw [PciDevice.withDescription]
    split
    · rfl
    · rfl

theorem collectResources_identity (sizes : ResSizes) (logConf : Option CmHandle)
    (descs : List ResDes) :
    (collectResources sizes logConf descs dev).1.identity = dev.identity := by
  cases logConf with
  | none => rfl
  | some logConf =>
    have hloop : (resourceLoop sizes logConf logConf dev descs).1.unassigned = dev.unassigned := by
      rw [resourceLoop_eq, foldl_apply_unassigned]
    have hidentity := congrArg PciDevice.identity hloop
    exact hidentity

theorem withRevision_identity (hwid : List UInt8) : (dev.withRevision hwid).identity =
    (dev.vendorId, dev.deviceId, if (extractHexToken hwid revKey 0).1 = true
      then (extractHexToken hwid revKey 0).2.toUInt8 else dev.revision) := by
  rw [PciDevice.withRevision]
  split
  · rfl
  · rfl

end Identity

section Recovery
variable {sizes : ResSizes} {e : PciEntry} {id : RegText 512} {dev : PciDevice}

/-- The identity of a device is what its tokens are cut to. -/
theorem identified_identity (he : e.hardwareId = some id) (h : e.identified sizes = some dev) :
    let hwid := id.bytes.takeWhile (· ≠ 0)
    dev.identity = ((extractHexToken hwid venKey 0).2.toUInt16,
      (extractHexToken hwid devKey 0).2.toUInt16,
      if (extractHexToken hwid revKey 0).1 = true then (extractHexToken hwid revKey 0).2.toUInt8
        else 0) := by
  rw [PciEntry.identified, enumerateEntry, he] at h
  simp only [id.bufferString_into] at h
  split at h
  · cases h
  · obtain rfl := Option.some.inj h
    rw [collectResources_identity, withDescription_identity, withAddress_identity,
      withBus_identity, withCompatible_identity, withRevision_identity]

variable {ven devid : HexField 4} {subsys : HexField 8} {rev : HexField 2} {more : List UInt8}

theorem identified_recovers (sizes : ResSizes) (he : e.hardwareId = some id)
    (hid : id.bytes = pciId ven devid subsys rev ++ 0 :: more) :
    ∃ dev, e.identified sizes = some dev ∧ dev.Recovers ven devid rev := by
  have hstring : id.bytes.takeWhile (· ≠ 0) = pciId ven devid subsys rev := by
    rw [hid, takeWhile_noNul (pciId_noNul ven devid subsys rev)]
  have hsome : (e.identified sizes).isSome = true := by
    rw [← identifiable_eq, PciEntry.identifiable, he]
    simp only [hstring, pciId_vendor, pciId_device, Bool.and_self]
  obtain ⟨dev, hdev⟩ := Option.isSome_iff_exists.mp hsome
  have hidentity := identified_identity he hdev
  simp only [hstring, pciId_vendor, pciId_device, pciId_revision, if_true] at hidentity
  obtain ⟨hvendor, hrest⟩ := Prod.mk.inj hidentity
  obtain ⟨hdevice, hrevision⟩ := Prod.mk.inj hrest
  have hven := ven.value_lt
  have hdid := devid.value_lt
  have hrev := rev.value_lt
  refine ⟨dev, hdev, ?_, ?_, ?_⟩
  · rw [hvendor, UInt32.toNat_toUInt16, UInt32.toNat_ofNat']
    omega
  · rw [hdevice, UInt32.toNat_toUInt16, UInt32.toNat_ofNat']
    omega
  · rw [hrevision, UInt32.toNat_toUInt8, UInt32.toNat_ofNat']
    omega

theorem recoversIds : RecoversIds := by
  intro ven devid subsys rev more sizes bufs before after e id he hid hroom
  obtain ⟨dev, hdev, hrecovers⟩ := identified_recovers sizes he hid
  refine ⟨dev, ?_, hrecovers⟩
  rw [identifiable_count sizes] at hroom ⊢
  rw [pciEnumerate_devices, List.getElem?_take_of_lt hroom, List.filterMap_append,
    List.filterMap_cons_some hdev, List.getElem?_append_right (Nat.le_refl _), Nat.sub_self,
    List.getElem?_cons_zero]

end Recovery

/-- A token is read exactly just when it is absent or plain, and the documented IDs are
recovered. -/
theorem tokens_exact_iff (bits : Nat) (hwid key : List UInt8) (out : UInt32) :
    (TokenExact bits hwid key out ↔ ∀ p ∈ afterSub key hwid, PlainToken bits p) ∧
      RecoversIds := by
  refine ⟨?_, recoversIds⟩
  cases h : afterSub key hwid with
  | none => exact iff_of_true (tokenExact_none h) fun p hp => by cases hp
  | some p =>
    rw [tokenExact_iff_plain h]
    constructor
    · intro hplain q hq
      obtain rfl := Option.some.inj hq
      exact hplain
    · intro hall
      exact hall p rfl

/-- `10DE` -/
def displayVendor : HexField 4 := ⟨[49, 48, 68, 69], List.all_eq_true.mp rfl, rfl⟩

/-- `2704` -/
def displayDevice : HexField 4 := ⟨[50, 55, 48, 52], List.all_eq_true.mp rfl, rfl⟩

/-- `A1` -/
def displayRevision : HexField 2 := ⟨[65, 49], List.all_eq_true.mp rfl, rfl⟩

/-- `PCI\VEN_10DE&DEV_2704&SUBSYS_87131458&REV_A1` -/
def displayId : RegText 512 where
  bytes := pciId displayVendor displayDevice
    ⟨[56, 55, 49, 51, 49, 52, 53, 56], List.all_eq_true.mp rfl, rfl⟩ displayRevision ++ [0]
  ends := by decide
  fits := by decide

theorem displayId_recovered : ∃ dev, (pciEnumerate ⟨40, 40, 40⟩
    (some [{ displayEntry with hardwareId := some displayId }]) .unused).2.devices.items[0]? =
      some dev ∧ dev.Recovers displayVendor displayDevice displayRevision :=
  (tokens_exact_iff 16 displayId.bytes venKey 0).2 displayVendor displayDevice _ displayRevision []
    ⟨40, 40, 40⟩ .unused [] [] _ displayId rfl rfl (by decide)

/-- `VEN_-1` -/
def signedVendor : List UInt8 := venKey ++ [45, 49]

/-- A sign is no digit, but it is accepted. -/
theorem signedVendor_accepted : ¬TokenExact 16 signedVendor venKey 0 := by
  intro h
  obtain ⟨p, hp, hne, _⟩ := h.accepts.mp (by decide)
  obtain rfl : [45, 49] = p := Option.some.inj hp
  exact hne rfl

end HwMon
