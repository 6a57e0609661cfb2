import HwMon.Lib.Bytes
import HwMon.Smbios.Data

/-!
# The SMBIOS parser

The functions of `smbios.c`. Pointers are addresses in the raw buffer, whose
first eight bytes are the `RawSmbiosHeader`. The events of a run are the
structures that the walk reaches and the writes to fixed-size arrays.
-/

namespace HwMon
set_option autoImplicit false

/-- A structure at which a walk enters its loop body. -/
structure Visit where
  offset : Nat
  type : UInt8
  hlen : UInt8
  deriving DecidableEq, Repr

inductive SmbiosEvent where
  | reach (v : Visit)
  | deviceWrite (slot : Nat)
  /-- Bytes `first` to `first + count - 1` of a `char` array of `size` bytes. -/
  | charWrite (size first count : Nat)
  deriving DecidableEq, Repr

def SmbiosEvent.visit? : SmbiosEvent → Option Visit
  | .reach v => some v
  | _ => none

abbrev SmbiosProbe (α : Type) := ByteProbe SmbiosEvent α

/-- The `while` loop of `smbios_get_string`; `current` is a `uint8_t`. -/
def smbiosGetStringFrom (bufEnd : Nat) (index : UInt8) (p : Nat) (current : UInt8) :
    SmbiosProbe (Option Nat) :=
  if p < bufEnd then do
    let maxLen := bufEnd - p
    let slen ← strnlen p maxLen
    if slen = maxLen then pure none
    else if slen = 0 then pure none
    else if current = index then pure (some p)
    else smbiosGetStringFrom bufEnd index (p + slen + 1) (current + 1)
  else pure none
termination_by bufEnd - p

def smbiosGetString (structPtr formattedLen bufEnd : Nat) (index : UInt8) :
    SmbiosProbe (Option Nat) :=
  if index = 0 then pure none
  else smbiosGetStringFrom bufEnd index (structPtr + formattedLen) 1

def copyStringField (structPtr formattedLen bufEnd : Nat) (index : UInt8) (outSize : Nat)
    [NeZero outSize] : SmbiosProbe (CStr outSize) := do
  .note (.charWrite outSize 0 1)
  let s ← smbiosGetString structPtr formattedLen bufEnd index
  match s with
  | none => pure .empty
  | some s => do
    let slen ← strnlen s (bufEnd - s)
    let slen := if slen ≥ outSize then outSize - 1 else slen
    let text ← readBytes s slen
    .note (.charWrite outSize 0 slen)
    .note (.charWrite outSize slen 1)
    pure (.ofBytes text)

section NextStructure
variable {ω : Type}

/-- The `while` loop that skips a string set, and the test after it. The same
text stands in `smbios.c` and in `memory_info.c`. -/
def skipStringSet (bufEnd : Nat) (p : Nat) : ByteProbe ω (Option Nat) :=
  if p + 1 < bufEnd then do
    let b0 ← .ask p
    if b0 = 0 then do
      let b1 ← .ask (p + 1)
      if b1 = 0 then pure (some (p + 2)) else skipStringSet bufEnd (p + 1)
    else skipStringSet bufEnd (p + 1)
  else if p + 1 = bufEnd then do
    let b0 ← .ask p
    if b0 = 0 then do
      let before ← .ask (p - 1)
      if before = 0 then pure (some bufEnd) else pure none
    else pure none
  else pure none
termination_by bufEnd - p

end NextStructure

def smbiosNextStructure (structPtr formattedLen bufEnd : Nat) : SmbiosProbe (Option Nat) :=
  skipStringSet bufEnd (structPtr + formattedLen)

def fieldOk (hlen : UInt8) (off : Nat) : Bool := decide (hlen.toNat > off)

/-- A string field at `off`, read only if `ok` says that the structure has it. -/
def stringField (ok : Bool) (s : Nat) (hlen : UInt8) (stop off : Nat)
    (old : CStr smbiosStrMax) : SmbiosProbe (CStr smbiosStrMax) :=
  if ok then do
    let index ← .ask (s + off)
    copyStringField s hlen.toNat stop index smbiosStrMax
  else pure old

/-- A number at `p`, zero unless `ok` says that the structure has it. -/
def byteField (ok : Bool) (p : Nat) : SmbiosProbe UInt8 := if ok then .ask p else pure 0

def wordField (ok : Bool) (p : Nat) : SmbiosProbe UInt16 := if ok then read16 p else pure 0

def parseBios (s : Nat) (hlen : UInt8) (stop : Nat) (out : SmbiosBiosInfo) :
    SmbiosProbe SmbiosBiosInfo := do
  let vendor ← stringField (fieldOk hlen 0x04) s hlen stop 0x04 out.vendor
  let version ← stringField (fieldOk hlen 0x05) s hlen stop 0x05 out.version
  let releaseDate ← stringField (fieldOk hlen 0x08) s hlen stop 0x08 out.releaseDate
  pure { available := true, vendor, version, releaseDate }

def hexDigit (n : UInt8) : UInt8 := if n < 10 then 48 + n else 55 + n

def hexByte (b : UInt8) : List UInt8 := [hexDigit (b / 16), hexDigit (b % 16)]

def formatUuid (u : List UInt8) (major minor : UInt8) : CStr 37 :=
  let littleEndianLayout := major > 2 || (major == 2 && minor ≥ 6)
  let order := if littleEndianLayout then
      [[3, 2, 1, 0], [5, 4], [7, 6], [8, 9], [10, 11, 12, 13, 14, 15]]
    else [[0, 1, 2, 3], [4, 5], [6, 7], [8, 9], [10, 11, 12, 13, 14, 15]]
  .ofBytes ([45].intercalate (order.map fun g => g.flatMap fun i => hexByte (u.getD i 0)))

def parseSystem (s : Nat) (hlen : UInt8) (stop : Nat) (major minor : UInt8)
    (out : SmbiosSystemInfo) : SmbiosProbe SmbiosSystemInfo := do
  let manufacturer ← stringField (fieldOk hlen 0x04) s hlen stop 0x04 out.manufacturer
  let product ← stringField (fieldOk hlen 0x05) s hlen stop 0x05 out.product
  let version ← stringField (fieldOk hlen 0x06) s hlen stop 0x06 out.version
  let serial ← stringField (fieldOk hlen 0x07) s hlen stop 0x07 out.serial
  if hlen ≥ 0x18 then do
    let u ← readBytes (s + 0x08) 16
    .note (.charWrite 37 0 37)
    pure { available := true, manufacturer, product, version, serial,
           uuid := formatUuid u major minor, uuidAvailable := true }
  else pure { out with available := true, manufacturer, product, version, serial }

def parseBaseboard (s : Nat) (hlen : UInt8) (stop : Nat) (out : SmbiosBaseboardInfo) :
    SmbiosProbe SmbiosBaseboardInfo := do
  let manufacturer ← stringField (fieldOk hlen 0x04) s hlen stop 0x04 out.manufacturer
  let product ← stringField (fieldOk hlen 0x05) s hlen stop 0x05 out.product
  let version ← stringField (fieldOk hlen 0x06) s hlen stop 0x06 out.version
  let serial ← stringField (fieldOk hlen 0x07) s hlen stop 0x07 out.serial
  pure { available := true, manufacturer, product, version, serial }

def parseChassis (s : Nat) (hlen : UInt8) (stop : Nat) (out : SmbiosChassisInfo) :
    SmbiosProbe SmbiosChassisInfo := do
  let manufacturer ← stringField (fieldOk hlen 0x04) s hlen stop 0x04 out.manufacturer
  let b ← byteField (fieldOk hlen 0x05) (s + 0x05)
  let chassisType := if fieldOk hlen 0x05 then b &&& 0x7F else out.chassisType
  let serial ← stringField (fieldOk hlen 0x07) s hlen stop 0x07 out.serial
  pure { available := true, chassisType, manufacturer, serial }

/-- Size of a memory device from its size word, with the extended size as a
second read that is made only when the word is saturated. -/
def memoryDeviceSize (s : Nat) (hlen : UInt8) (sizeWord : UInt16) :
    SmbiosProbe (Bool × UInt32) :=
  if sizeWord = 0 then pure (false, 0)
  else if sizeWord = 0xFFFF then pure (true, 0)
  else
    let isKb := sizeWord &&& 0x8000 ≠ 0
    let raw := (sizeWord &&& 0x7FFF).toUInt32
    let sizeMb := if isKb then raw / 1024 else raw
    if raw = 0x7FFF ∧ hlen ≥ 0x20 then do
      let ext ← read32 (s + 0x1C)
      pure (true, ext &&& 0x7FFFFFFF)
    else pure (true, sizeMb)

def parseMemoryDevice (s : Nat) (hlen : UInt8) (stop : Nat) (data : SmbiosData) :
    SmbiosProbe SmbiosData :=
  if data.memoryDeviceCount ≥ smbiosMaxMemoryDevices then pure data
  else do
    .note (.deviceWrite data.memoryDeviceCount)
    let sizeWord ← wordField (fieldOk hlen 0x0D) (s + 0x0C)
    let size ← memoryDeviceSize s hlen sizeWord
    let memoryType ← byteField (fieldOk hlen 0x12) (s + 0x12)
    let speed ← wordField (hlen ≥ 0x17) (s + 0x15)
    let cspeed ← wordField (hlen ≥ 0x26) (s + 0x24)
    let locator ← stringField (fieldOk hlen 0x10) s hlen stop 0x10 .empty
    let manufacturer ← stringField (hlen ≥ 0x18) s hlen stop 0x17 .empty
    let serial ← stringField (hlen ≥ 0x19) s hlen stop 0x18 .empty
    let partNumber ← stringField (hlen ≥ 0x1B) s hlen stop 0x1A .empty
    let m : SmbiosMemoryDevice :=
      { populated := size.1, sizeMb := size.2, memoryType, speedMts := speed.toUInt32,
        configuredSpeedMts := cspeed.toUInt32, locator, manufacturer, serial, partNumber }
    pure { data with memoryDevices := data.memoryDevices.push m }

def parseStructure (type : UInt8) (cur : Nat) (hlen : UInt8) (stop : Nat) (out : SmbiosData) :
    SmbiosProbe SmbiosData :=
  if type = 0 then do
    let bios ← parseBios cur hlen stop out.bios
    pure { out with bios }
  else if type = 1 then do
    let system ← parseSystem cur hlen stop out.majorVersion out.minorVersion out.system
    pure { out with system }
  else if type = 2 then do
    let baseboard ← parseBaseboard cur hlen stop out.baseboard
    pure { out with baseboard }
  else if type = 3 then do
    let chassis ← parseChassis cur hlen stop out.chassis
    pure { out with chassis }
  else if type = 17 then parseMemoryDevice cur hlen stop out
  else pure out

def SmbiosData.countMalformed (d : SmbiosData) : SmbiosData :=
  { d with structuresMalformedSkipped := d.structuresMalformedSkipped + 1 }

def SmbiosData.countParsed (d : SmbiosData) : SmbiosData :=
  { d with structuresParsed := d.structuresParsed + 1 }

/-- The `while` loop of `smbios_collect`. -/
def smbiosWalk (stop : Nat) (cur : Nat) (out : SmbiosData) : SmbiosProbe SmbiosData :=
  if cur + 4 ≤ stop then do
    let type ← .ask cur
    let hlen ← .ask (cur + 1)
    .note (.reach ⟨cur, type, hlen⟩)
    if hlen < 4 ∨ cur + hlen.toNat > stop then pure out.countMalformed
    else if type = 127 then pure out
    else do
      let out ← parseStructure type cur hlen stop out
      let out := out.countParsed
      let next ← smbiosNextStructure cur hlen.toNat stop
      match next with
      | none => pure out.countMalformed
      | some next =>
        if next ≤ cur then pure out.countMalformed else smbiosWalk stop next out
  else pure out
termination_by stop - cur

def rawSmbiosHeaderSize : Nat := 8

/-- End of the table: the length field, clamped to what was received. -/
def smbiosTableEnd (rawSize : Nat) (length : UInt32) : Nat :=
  if rawSmbiosHeaderSize + length.toNat > rawSize then rawSize
  else rawSmbiosHeaderSize + length.toNat

def smbiosCollectRaw (rawSize : Nat) : SmbiosProbe (Bool × SmbiosData) :=
  if rawSize < rawSmbiosHeaderSize then pure (false, {})
  else do
    let majorVersion ← .ask 1
    let minorVersion ← .ask 2
    let length ← read32 4
    let out ← smbiosWalk (smbiosTableEnd rawSize length) rawSmbiosHeaderSize
      { majorVersion, minorVersion }
    pure (true, { out with available := decide (out.structuresParsed > 0) })

/-- `smbios_collect`, given what `platform_get_smbios_table` hands out. -/
def smbiosCollect (table : Option (List UInt8)) : Bool × SmbiosData :=
  match table with
  | none => (false, {})
  | some raw => (smbiosCollectRaw raw.length).val (memOf raw)

end HwMon
