import HwMon.Lib.Bytes

/-!
# The kernel driver

The functions of `hwmon_driver.c` that serve a device-control request. A request
asks the outside for its input bytes, for model-specific registers, I/O ports,
mappings of physical memory and memory-mapped dwords; everything else it does to
the outside is an event.
-/

namespace HwMon
set_option autoImplicit false

inductive NtStatus where
  | success
  | invalidDeviceRequest
  | bufferTooSmall
  | accessDenied
  | notSupported
  | invalidParameter
  | unsuccessful
  deriving DecidableEq, Repr

inductive DriverRead where
  /-- A byte of the system buffer. -/
  | input (i : Nat)
  | msr (msr : UInt32)
  | port (port : UInt16)
  | map (phys : UInt64) (size : Nat)
  /-- A dword of mapped physical memory. -/
  | mmio (phys : UInt64)
  deriving DecidableEq, Repr

/-- The answers; a register or a dword whose read faults has none. -/
abbrev DriverRead.Answer : DriverRead → Type
  | .input _ => UInt8
  | .msr _ => Option UInt64
  | .port _ => UInt32
  | .map _ _ => Bool
  | .mmio _ => Option UInt32

inductive DriverEvent where
  | acquireLock
  | releaseLock
  | outdword (port : UInt16) (value : UInt32)
  | wrmsr (msr : UInt32) (value : UInt64)
  /-- A mapping that was granted, with the page protection that was asked for. -/
  | mapped (phys : UInt64) (size : Nat) (protect : UInt32)
  | writeMapped (phys : UInt64) (value : UInt32)
  | unmap (phys : UInt64) (size : Nat)
  /-- A write to the system buffer, from its first byte on. -/
  | output (bytes : List UInt8)
  | ioCompleteRequest (status : NtStatus) (information : Nat)
  deriving DecidableEq, Repr

abbrev DriverProbe (α : Type) := Probe DriverRead DriverRead.Answer DriverEvent α

/-- What the outside answers during one request. -/
abbrev Machine := ∀ r : DriverRead, r.Answer

section Outside

/-- `__readmsr`; no answer if it faults. -/
abbrev readmsr (msr : UInt32) : DriverProbe (Option UInt64) := Probe.ask (DriverRead.msr msr)

abbrev indword (port : UInt16) : DriverProbe UInt32 := Probe.ask (DriverRead.port port)

def pageReadOnlyNoCache : UInt32 := 0x02 ||| 0x200

def mmMapIoSpaceEx (phys : UInt64) (size : Nat) (protect : UInt32) : DriverProbe Bool := do
  let granted ← Probe.ask (DriverRead.map phys size)
  if granted = true then do
    .note (.mapped phys size protect)
    pure true
  else pure false

theorem mmMapIoSpaceEx_val (hw : Machine) (phys : UInt64) (size : Nat) (protect : UInt32) :
    (mmMapIoSpaceEx phys size protect).val hw = hw (.map phys size) := by
  simp only [mmMapIoSpaceEx, ↓Probe.val_bind, ↓Probe.val_ite, Probe.val_ask, Probe.val_pure]
  cases hw (.map phys size) <;> rfl

theorem mmMapIoSpaceEx_log (hw : Machine) (phys : UInt64) (size : Nat) (protect : UInt32) :
    (mmMapIoSpaceEx phys size protect).log hw = .read (.map phys size) ::
      if hw (.map phys size) = true then [.note (.mapped phys size protect)] else [] := by
  simp only [mmMapIoSpaceEx, ↓Probe.log_bind, Probe.log_ask, Probe.val_ask, List.singleton_append]
  cases hw (.map phys size) <;> rfl

/-- A read of a mapped dword; no answer if it faults. -/
abbrev readMapped (phys : UInt64) : DriverProbe (Option UInt32) :=
  Probe.ask (DriverRead.mmio phys)

abbrev inputByte (i : Nat) : DriverProbe UInt8 := Probe.ask (DriverRead.input i)

end Outside

structure IoResult where
  status : NtStatus
  information : Nat
  output : List UInt8
  deriving DecidableEq, Repr

def IoResult.error (status : NtStatus) : IoResult := ⟨status, 0, []⟩

def msrWhitelist : List UInt32 := [0x10, 0xE7, 0xE8, 0x198, 0x19C, 0x1A2, 0x1B1]

def msrIsWhitelisted (msr : UInt32) : Bool := msrWhitelist.contains msr

def safeReadMsr (msr : UInt32) : DriverProbe (NtStatus × UInt64) := do
  let value ← readmsr msr
  match value with
  | some value => pure (.success, value)
  | none => pure (.notSupported, 0)

def legacyAddress (bus device function offset : UInt8) : UInt32 :=
  (0x80000000 : UInt32) ||| (bus.toUInt32 <<< 16) ||| ((device &&& 0x1F).toUInt32 <<< 11) |||
    ((function &&& 0x7).toUInt32 <<< 8) ||| (offset &&& 0xFC).toUInt32

def readPciConfigDwordLegacy (bus device function offset : UInt8) : DriverProbe UInt32 := do
  .note .acquireLock
  .note (.outdword 0xCF8 (legacyAddress bus device function offset))
  let value ← indword 0xCFC
  .note .releaseLock
  pure value

def pageSize : Nat := 4096

def ecamAddress (ecamBase : UInt64) (bus device function : UInt8) : UInt64 :=
  ecamBase + ((bus.toUInt64 <<< 20) ||| (device.toUInt64 <<< 15) ||| (function.toUInt64 <<< 12))

def readPcieConfigDwordEcam (ecamBase : UInt64) (bus device function : UInt8) (offset : UInt16) :
    DriverProbe (NtStatus × UInt32) :=
  if offset > 4092 ∨ device &&& ~~~0x1F ≠ 0 ∨ function &&& ~~~0x7 ≠ 0 then
    pure (.invalidParameter, 0)
  else do
    let phys := ecamAddress ecamBase bus device function
    let mapped ← mmMapIoSpaceEx phys pageSize pageReadOnlyNoCache
    if mapped = true then do
      let value ← readMapped (phys + (offset &&& 0xFFC).toUInt64)
      .note (.unmap phys pageSize)
      match value with
      | some value => pure (.success, value)
      | none => pure (.unsuccessful, 0)
    else pure (.unsuccessful, 0)

/-- `RtlCopyMemory` of `n` bytes of the system buffer from byte `i`. -/
def readInput (i : Nat) : Nat → DriverProbe (List UInt8)
  | 0 => pure []
  | n + 1 => do
    let b ← inputByte i
    let bs ← readInput (i + 1) n
    pure (b :: bs)

/-- `RtlCopyMemory` of an output record to the system buffer. -/
def writeOutput (bytes : List UInt8) : DriverProbe IoResult := do
  .note (.output bytes)
  pure ⟨.success, bytes.length, bytes⟩

def ctlCode (deviceType function method access : UInt32) : UInt32 :=
  (deviceType <<< 16) ||| (access <<< 14) ||| (function <<< 2) ||| method

def ioctlReadMsr : UInt32 := ctlCode 0x8000 0x800 0 1

def ioctlReadPciConfig : UInt32 := ctlCode 0x8000 0x801 0 1

def ioctlReadPcieEcam : UInt32 := ctlCode 0x8000 0x802 0 1

structure HwmonReadMsrInput where
  msr : UInt32
  deriving DecidableEq, Repr

structure HwmonReadPciConfigInput where
  bus : UInt8
  device : UInt8
  function : UInt8
  offset : UInt8
  deriving DecidableEq, Repr

structure HwmonReadPcieEcamInput where
  ecamBase : UInt64
  bus : UInt8
  device : UInt8
  function : UInt8
  offset : UInt16
  deriving DecidableEq, Repr

def HwmonReadMsrInput.ofBytes (bs : List UInt8) : HwmonReadMsrInput := ⟨UInt32.ofNat (leNat bs)⟩

def HwmonReadPciConfigInput.ofBytes (bs : List UInt8) : HwmonReadPciConfigInput :=
  ⟨bs.getD 0 0, bs.getD 1 0, bs.getD 2 0, bs.getD 3 0⟩

def HwmonReadPcieEcamInput.ofBytes (bs : List UInt8) : HwmonReadPcieEcamInput where
  ecamBase := UInt64.ofNat (leNat (bs.take 8))
  bus := bs.getD 8 0
  device := bs.getD 9 0
  function := bs.getD 10 0
  offset := UInt16.ofNat (leNat ((bs.drop 11).take 2))

def ioctlMsr (inLen outLen : Nat) : DriverProbe IoResult :=
  if inLen < 4 ∨ outLen < 8 then pure (.error .bufferTooSmall)
  else do
    let bytes ← readInput 0 4
    let input := HwmonReadMsrInput.ofBytes bytes
    if msrIsWhitelisted input.msr = false then pure (.error .accessDenied)
    else do
      let result ← safeReadMsr input.msr
      if result.1 = .success then writeOutput (leBytes 8 result.2.toNat)
      else pure (.error result.1)

def ioctlPciConfig (inLen outLen : Nat) : DriverProbe IoResult :=
  if inLen < 4 ∨ outLen < 4 then pure (.error .bufferTooSmall)
  else do
    let bytes ← readInput 0 4
    let input := HwmonReadPciConfigInput.ofBytes bytes
    let value ← readPciConfigDwordLegacy input.bus input.device input.function input.offset
    writeOutput (leBytes 4 value.toNat)

def ioctlPcieEcam (inLen outLen : Nat) : DriverProbe IoResult :=
  if inLen < 13 ∨ outLen < 4 then pure (.error .bufferTooSmall)
  else do
    let bytes ← readInput 0 13
    let input := HwmonReadPcieEcamInput.ofBytes bytes
    let result ← readPcieConfigDwordEcam input.ecamBase input.bus input.device input.function
      input.offset
    if result.1 = .success then writeOutput (leBytes 4 result.2.toNat)
    else pure (.error result.1)

/-- The `switch` of `HwmonDeviceControl` on the control code. -/
def hwmonDeviceControl (code : UInt32) (inLen outLen : Nat) : DriverProbe IoResult :=
  if code = ioctlReadMsr then ioctlMsr inLen outLen
  else if code = ioctlReadPciConfig then ioctlPciConfig inLen outLen
  else if code = ioctlReadPcieEcam then ioctlPcieEcam inLen outLen
  else pure (.error .invalidDeviceRequest)

/-- `HwmonDeviceControl`: the result goes into the request, which is then completed. -/
def serveDeviceControl (code : UInt32) (inLen outLen : Nat) : DriverProbe IoResult := do
  let result ← hwmonDeviceControl code inLen outLen
  .note (.ioCompleteRequest result.status result.information)
  pure result

end HwMon
