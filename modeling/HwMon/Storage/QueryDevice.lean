import HwMon.Lib.Text
import HwMon.Storage.TrimCopy

/-!
# The identity of a drive

`query_device` of `storage_enum_windows.c` over the memory of its buffer for the
storage descriptor. Each string offset is compared with the length of the reply,
and the fixed part that holds the offsets is not.
-/

namespace HwMon
set_option autoImplicit false

inductive StorageBusType where
  | unknown
  | ata
  | sata
  | nvme
  | scsi
  | usb
  | other
  deriving DecidableEq, Repr

structure StorageDevice where
  index : Int32 := 0
  busType : StorageBusType := .unknown
  model : CStr 80 := .empty
  firmwareRevision : CStr 32 := .empty
  serial : CStr 80 := .empty
  capacityAvailable : Bool := false
  capacityBytes : UInt64 := 0
  nvmeIdentifyUsed : Bool := false
  deriving DecidableEq

/-- What the system answers to the calls of `query_device`. -/
structure DriveAnswers where
  /-- `CreateFileW` with no access rights. -/
  opens : Bool
  /-- `IOCTL_STORAGE_QUERY_PROPERTY` with `returned`; none if it fails. -/
  descriptor : Option UInt32
  /-- `IOCTL_DISK_GET_LENGTH_INFO` on the first handle; none if it fails. -/
  lengthInfo : Option UInt64
  /-- `CreateFileW` with `GENERIC_READ`, and the same query on that handle. -/
  opensForRead : Bool
  lengthInfoForRead : Option UInt64
  deriving DecidableEq, Repr

def mapBusType (wbt : UInt32) : StorageBusType :=
  if wbt = 0x03 then .ata
  else if wbt = 0x0B then .sata
  else if wbt = 0x11 then .nvme
  else if wbt = 0x01 then .scsi
  else if wbt = 0x07 then .usb
  else .other

/-- `STORAGE_PROTOCOL_SPECIFIC_DATA` is a type and no macro, so the other branch is compiled. -/
def tryNvmeIdentify (dev : StorageDevice) : Bool × StorageDevice := (false, dev)

abbrev StorageProbe (α : Type) := ByteProbe Empty α

/-- An offset in a reply of `returned` bytes. -/
def InReply (returned off : UInt32) : Prop := off ≠ 0 ∧ off < returned

instance (returned off : UInt32) : Decidable (InReply returned off) :=
  inferInstanceAs (Decidable (_ ∧ _))

/-- The string at an offset, copied to an array of `size` bytes. -/
def copyDescriptorString (size : Nat) [NeZero size] (returned off : UInt32) :
    StorageProbe (CStr size) := do
  let len ← strnlen off.toNat (returned - off).toNat
  let text ← trimCopy size off.toNat len
  pure (.ofBytes text)

/-- `ProductIdOffset`, and `VendorIdOffset` where that leads nowhere. -/
def readModel (returned : UInt32) (dev : StorageDevice) : StorageProbe StorageDevice := do
  let productIdOffset ← read32 16
  if InReply returned productIdOffset then do
    let model ← copyDescriptorString 80 returned productIdOffset
    pure { dev with model }
  else do
    let vendorIdOffset ← read32 12
    if InReply returned vendorIdOffset then do
      let model ← copyDescriptorString 80 returned vendorIdOffset
      pure { dev with model }
    else pure dev

/-- `ProductRevisionOffset` -/
def readRevision (returned : UInt32) (dev : StorageDevice) : StorageProbe StorageDevice := do
  let productRevisionOffset ← read32 20
  if InReply returned productRevisionOffset then do
    let firmwareRevision ← copyDescriptorString 32 returned productRevisionOffset
    pure { dev with firmwareRevision }
  else pure dev

/-- `SerialNumberOffset` -/
def readSerial (returned : UInt32) (dev : StorageDevice) : StorageProbe StorageDevice := do
  let serialNumberOffset ← read32 24
  if InReply returned serialNumberOffset then do
    let serial ← copyDescriptorString 80 returned serialNumberOffset
    pure { dev with serial }
  else pure dev

/-- The branch for a descriptor of `returned` bytes. -/
def readDescriptor (returned : UInt32) (dev : StorageDevice) : StorageProbe StorageDevice := do
  let busType ← read32 28
  let dev ← readModel returned { dev with busType := mapBusType busType }
  let dev ← readRevision returned dev
  readSerial returned dev

def queryDescriptor (a : DriveAnswers) (dev : StorageDevice) : StorageProbe StorageDevice :=
  match a.descriptor with
  | some returned => readDescriptor returned dev
  | none => pure dev

def StorageDevice.withCapacity (dev : StorageDevice) (length : UInt64) : StorageDevice :=
  { dev with capacityAvailable := true, capacityBytes := length }

/-- The length query, with the second handle where the first one does not do. -/
def queryCapacity (a : DriveAnswers) (dev : StorageDevice) : StorageDevice :=
  match a.lengthInfo with
  | some length => dev.withCapacity length
  | none =>
    if a.opensForRead = true then
      match a.lengthInfoForRead with
      | some length => dev.withCapacity length
      | none => dev
    else dev

/-- The result, `*exists` and `*dev` afterwards. -/
def queryDevice (index : Int32) (a : DriveAnswers) (dev : StorageDevice) :
    StorageProbe (Bool × Bool × StorageDevice) :=
  if a.opens = true then do
    let dev ← queryDescriptor a { index }
    let dev := if dev.busType = .nvme then (tryNvmeIdentify dev).2 else dev
    pure (true, true, queryCapacity a dev)
  else pure (false, false, dev)

/-- `memset` of the record and its index. -/
def StorageDevice.blank (index : Int32) : StorageDevice := { index }

/-!
## What the identity depends on
-/

/-- The end of `BusType`, the last field of the descriptor's fixed part that is used. -/
def descriptorFixed : Nat := 32

/-- The length of the reply. -/
def DriveAnswers.replied (a : DriveAnswers) : Nat := (a.descriptor.map UInt32.toNat).getD 0

def StorageDevice.identity (dev : StorageDevice) :
    StorageBusType × CStr 80 × CStr 32 × CStr 80 :=
  (dev.busType, dev.model, dev.firmwareRevision, dev.serial)

/-- The identity depends on the reply only, and nothing behind it is read. -/
structure IdentityConfined (index : Int32) (a : DriveAnswers) (dev : StorageDevice) (buf : Mem) :
    Prop where
  inside : (queryDevice index a dev).Always (ReadsBelow a.replied) buf
  same : ∀ buf' : Mem, (∀ i < a.replied, buf i = buf' i) →
    ((queryDevice index a dev).val buf').2.2.identity =
      ((queryDevice index a dev).val buf).2.2.identity

section Reads
variable {m : Mem} {returned off : UInt32} {n : Nat}

theorem always_copyDescriptorString (size : Nat) [NeZero size] (h : InReply returned off) :
    (copyDescriptorString size returned off).Always (ReadsBelow returned.toNat) m := by
  have hlt := UInt32.lt_iff_toNat_lt.mp h.2
  have hrest : (returned - off).toNat = returned.toNat - off.toNat :=
    UInt32.toNat_sub_of_le _ _ (UInt32.le_of_lt h.2)
  have hlen := strnlen_le (ω := Empty) m off.toNat (returned - off).toNat
  rw [copyDescriptorString, Probe.always_bind, Probe.always_bind]
  refine ⟨?_, ?_, Probe.always_pure _⟩
  · apply always_strnlen
    intro i _ hi
    show i < returned.toNat
    omega
  · apply always_trimCopy
    intro i _ hi
    show i < returned.toNat
    omega

theorem always_read32_below {p : Nat} (h : p + 4 ≤ n) :
    (read32 p : StorageProbe _).Always (ReadsBelow n) m :=
  always_read32 fun _ _ hi => Nat.lt_of_lt_of_le hi h

/-- A string whose offset is read inside the reply, or else what follows. -/
theorem always_readOffset {size p : Nat} [NeZero size] (hp : p + 4 ≤ returned.toNat)
    {store : CStr size → StorageDevice} {rest : StorageProbe StorageDevice}
    (hrest : rest.Always (ReadsBelow returned.toNat) m) :
    (do
      let off ← read32 p
      if InReply returned off then do
        let text ← copyDescriptorString size returned off
        pure (store text)
      else rest : StorageProbe StorageDevice).Always (ReadsBelow returned.toNat) m := by
  rw [Probe.always_bind]
  refine ⟨always_read32_below hp, ?_⟩
  apply Probe.always_ite
  · intro hoffset
    rw [Probe.always_bind]
    exact ⟨always_copyDescriptorString size hoffset, Probe.always_pure _⟩
  · exact fun _ => hrest

variable (hfixed : descriptorFixed ≤ returned.toNat) (dev : StorageDevice)
include hfixed

theorem always_readModel : (readModel returned dev).Always (ReadsBelow returned.toNat) m := by
  rw [descriptorFixed] at hfixed
  apply always_readOffset (by omega)
  apply always_readOffset (by omega)
  exact Probe.always_pure _

theorem always_readRevision :
    (readRevision returned dev).Always (ReadsBelow returned.toNat) m := by
  rw [descriptorFixed] at hfixed
  apply always_readOffset (by omega)
  exact Probe.always_pure _

theorem always_readSerial : (readSerial returned dev).Always (ReadsBelow returned.toNat) m := by
  rw [descriptorFixed] at hfixed
  apply always_readOffset (by omega)
  exact Probe.always_pure _

theorem always_readDescriptor :
    (readDescriptor returned dev).Always (ReadsBelow returned.toNat) m := by
  have hbus : 28 + 4 ≤ returned.toNat := hfixed
  simp only [readDescriptor, Probe.always_bind]
  exact ⟨always_read32_below hbus, always_readModel hfixed _, always_readRevision hfixed _,
    always_readSerial hfixed _⟩

end Reads

theorem readsBelow_of_readDescriptor {m : Mem} {returned : UInt32} {n : Nat} {dev : StorageDevice}
    (h : (readDescriptor returned dev).Always (ReadsBelow n) m) : descriptorFixed ≤ n := by
  rw [readDescriptor, Probe.always_bind] at h
  have hlast : 31 < n := always_read32_iff.mp h.1 31 (by decide) (by decide)
  exact hlast

section Confined
variable (index : Int32) (a : DriveAnswers) (dev : StorageDevice) (buf : Mem)

theorem always_queryDevice_iff : (queryDevice index a dev).Always (ReadsBelow a.replied) buf ↔
    (a.opens = true → ∀ returned ∈ a.descriptor, descriptorFixed ≤ returned.toNat) := by
  rw [queryDevice, DriveAnswers.replied]
  by_cases hopens : a.opens = true
  · rw [if_pos hopens, Probe.always_bind, and_iff_left (Probe.always_pure _),
      queryDescriptor]
    cases a.descriptor with
    | none => exact iff_of_true (Probe.always_pure _) fun _ returned hmem => by cases hmem
    | some returned =>
      constructor
      · rintro h _ returned' hmem
        obtain rfl := Option.some.inj hmem
        exact readsBelow_of_readDescriptor h
      · intro h
        exact always_readDescriptor (h hopens returned rfl) _
  · rw [if_neg hopens]
    exact iff_of_true (Probe.always_pure _) fun h => absurd h hopens

/-- The identity is confined to the reply just when a reply covers the fixed part. -/
theorem identityConfined_iff : IdentityConfined index a dev buf ↔
    (a.opens = true → ∀ returned ∈ a.descriptor, descriptorFixed ≤ returned.toNat) := by
  constructor
  · intro h
    exact (always_queryDevice_iff index a dev buf).mp h.inside
  · intro h
    have hinside := (always_queryDevice_iff index a dev buf).mpr h
    refine ⟨hinside, fun buf' hagree => ?_⟩
    have hrun := Probe.run_congr hinside hagree
    exact congrArg (fun r => r.1.2.2.identity) hrun

end Confined

/-- A drive that replies with nothing but the header of its descriptor. -/
def headerOnly : DriveAnswers where
  opens := true
  descriptor := some 8
  lengthInfo := none
  opensForRead := false
  lengthInfoForRead := none

/-- The bus type comes from a byte behind the reply. -/
theorem headerOnly_leak : (∀ i < 8, memOf [] i = memOf (List.replicate 28 0 ++ [17]) i) ∧
    ((queryDevice 0 headerOnly {}).val (memOf [])).2.2.busType ≠
      ((queryDevice 0 headerOnly {}).val (memOf (List.replicate 28 0 ++ [17]))).2.2.busType := by
  decide

end HwMon
