import HwMon.Smbios.Parser

/-!
# The memory map from SMBIOS

The functions of `memory_info.c`. The module walks the SMBIOS table once more,
with a loop of its own, for the mapped address ranges of Type 19 structures.
-/

namespace HwMon
set_option autoImplicit false

structure MemoryRegion where
  base : UInt64 := 0
  length : UInt64 := 0
  type : UInt32 := 0
  deriving DecidableEq, Repr

def memoryMaxRegions : Nat := 32

structure MemoryInfo where
  available : Bool := false
  totalPhysicalBytes : UInt64 := 0
  availablePhysicalBytes : UInt64 := 0
  memoryLoadPercent : UInt32 := 0
  regions : Capped MemoryRegion memoryMaxRegions := .empty
  deriving DecidableEq

def MemoryInfo.regionCount (d : MemoryInfo) : Nat := d.regions.count

inductive MemoryEvent where
  | reach (v : Visit)
  | regionWrite (slot : Nat)
  deriving DecidableEq, Repr

def MemoryEvent.visit? : MemoryEvent → Option Visit
  | .reach v => some v
  | .regionWrite _ => none

abbrev MemoryProbe (α : Type) := ByteProbe MemoryEvent α

def nextStructure (structPtr formattedLen bufEnd : Nat) : MemoryProbe (Option Nat) :=
  skipStringSet bufEnd (structPtr + formattedLen)

/-- Base and length of a range in bytes; the length is zero if the end is before the base. -/
def extendedRange (extStart extEnd : UInt64) : UInt64 × UInt64 :=
  (extStart, if extEnd ≥ extStart then extEnd - extStart + 1 else 0)

/-- The same for a range in kilobytes. -/
def kilobyteRange (startKb endKb : UInt32) : UInt64 × UInt64 :=
  let base := startKb.toUInt64 * 1024
  let endBytes := endKb.toUInt64 * 1024
  (base, if endBytes ≥ base then endBytes - base + 1024 else 0)

def mappedRange (cur : Nat) (hlen : UInt8) : MemoryProbe (UInt64 × UInt64) := do
  let startKb ← read32 (cur + 0x04)
  let endKb ← read32 (cur + 0x08)
  if startKb = 0xFFFFFFFF ∧ hlen ≥ 0x1F then do
    let extStart ← read64 (cur + 0x0F)
    let extEnd ← read64 (cur + 0x17)
    pure (extendedRange extStart extEnd)
  else if startKb ≠ 0xFFFFFFFF then pure (kilobyteRange startKb endKb)
  -- The sentinel without the extended fields: no range.
  else pure (0, 0)

/-- The body of the loop between the header tests and the step to the next structure. -/
def storeRegion (type : UInt8) (cur : Nat) (hlen : UInt8)
    (out : Capped MemoryRegion memoryMaxRegions) :
    MemoryProbe (Capped MemoryRegion memoryMaxRegions) :=
  if type = 19 ∧ hlen ≥ 0x0F then do
    let range ← mappedRange cur hlen
    if range.2 > 0 then do
      .note (.regionWrite out.count)
      let handle ← read16 (cur + 0x0C)
      pure (out.push { base := range.1, length := range.2, type := handle.toUInt32 })
    else pure out
  else pure out

/-- The `while` loop of `collect_regions_from_smbios`. -/
def memoryWalk (stop : Nat) (cur : Nat) (out : Capped MemoryRegion memoryMaxRegions) :
    MemoryProbe (Capped MemoryRegion memoryMaxRegions) :=
  if cur + 4 ≤ stop ∧ out.count < memoryMaxRegions then do
    let type ← .ask cur
    let hlen ← .ask (cur + 1)
    .note (.reach ⟨cur, type, hlen⟩)
    if hlen < 4 ∨ cur + hlen.toNat > stop then pure out
    else if type = 127 then pure out
    else do
      let out ← storeRegion type cur hlen out
      let next ← nextStructure cur hlen.toNat stop
      match next with
      | none => pure out
      | some next => if next ≤ cur then pure out else memoryWalk stop next out
  else pure out
termination_by stop - cur

def collectRegionsRaw (rawSize : Nat) : MemoryProbe (Capped MemoryRegion memoryMaxRegions) :=
  if rawSize < rawSmbiosHeaderSize then pure .empty
  else do
    let length ← read32 4
    memoryWalk (smbiosTableEnd rawSize length) rawSmbiosHeaderSize .empty

/-- `collect_regions_from_smbios`, given what `platform_get_smbios_table` hands out. -/
def collectRegionsFromSmbios (table : Option (List UInt8)) :
    Capped MemoryRegion memoryMaxRegions :=
  match table with
  | none => .empty
  | some raw => (collectRegionsRaw raw.length).val (memOf raw)

structure MemoryStatusEx where
  totalPhys : UInt64
  availPhys : UInt64
  memoryLoad : UInt32

/-- `memory_info_collect`, given also what `GlobalMemoryStatusEx` reports. -/
def memoryInfoCollect (status : Option MemoryStatusEx) (table : Option (List UInt8)) :
    Bool × MemoryInfo :=
  let out : MemoryInfo :=
    match status with
    | none => {}
    | some ms =>
      { available := true, totalPhysicalBytes := ms.totalPhys,
        availablePhysicalBytes := ms.availPhys, memoryLoadPercent := ms.memoryLoad }
  let out := { out with regions := collectRegionsFromSmbios table }
  (out.available || decide (out.regionCount > 0), out)

end HwMon
