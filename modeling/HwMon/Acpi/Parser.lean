import HwMon.Lib.Bytes
import HwMon.Acpi.Data

/-!
# The ACPI parser

The functions of `acpi.c`. Every table is fetched into a buffer of its own, with
addresses from zero. The events of a run are the writes to fixed-size arrays and
the calls of the parsers for single tables.
-/

namespace HwMon
set_option autoImplicit false

/-- The records that are filled from a table of their own. -/
inductive AcpiRecord where
  | fadt
  | madt
  | mcfg
  | hpet
  deriving DecidableEq, Repr

inductive AcpiEvent where
  | discoveredWrite (slot : Nat) (summary : AcpiTableSummary)
  | processorWrite (slot : Nat)
  | entryWrite (slot : Nat)
  | fill (record : AcpiRecord)
  deriving DecidableEq, Repr

abbrev AcpiProbe (α : Type) := ByteProbe AcpiEvent α

def acpiRawHeaderSize : Nat := 36

/-- The `for` loop of `checksum_ok`. -/
def sumBytes (p : Nat) : Nat → UInt8 → AcpiProbe UInt8
  | 0, sum => pure sum
  | n + 1, sum => do
    let b ← .ask p
    sumBytes (p + 1) n (sum + b)

def checksumOk (len : Nat) : AcpiProbe Bool := do
  let sum ← sumBytes 0 len 0
  pure (sum == 0)

def fillSummary (actualLen : Nat) (checksumValid : Bool) : AcpiProbe AcpiTableSummary := do
  let signature ← readBytes 0 4
  let oemId ← readBytes 10 6
  let oemTableId ← readBytes 16 8
  let revision ← .ask 8
  pure { signature := signature ++ [0], oemId := oemId ++ [0], oemTableId := oemTableId ++ [0],
         length := UInt32.ofNat actualLen, revision, checksumValid }

def sigIs (sig4 : List UInt8) : AcpiProbe Bool := do
  let signature ← readBytes 0 4
  pure (signature == sig4)

def localApicEntry (p : Nat) (out : Capped AcpiProcessorEntry acpiMaxProcessors) :
    AcpiProbe (Capped AcpiProcessorEntry acpiMaxProcessors) :=
  if out.count < acpiMaxProcessors then do
    .note (.processorWrite out.count)
    let acpiProcessorId ← .ask (p + 2)
    let apicId ← .ask (p + 3)
    let flags ← read32 (p + 4)
    pure (out.push { acpiProcessorId, apicId, enabled := flags &&& 1 != 0,
                     onlineCapable := flags &&& 2 != 0, isX2apic := false })
  else pure out

def localX2apicEntry (p : Nat) (out : Capped AcpiProcessorEntry acpiMaxProcessors) :
    AcpiProbe (Capped AcpiProcessorEntry acpiMaxProcessors) :=
  if out.count < acpiMaxProcessors then do
    .note (.processorWrite out.count)
    let x2apicId ← read32 (p + 4)
    let flags ← read32 (p + 8)
    pure (out.push { x2apicId, enabled := flags &&& 1 != 0,
                     onlineCapable := flags &&& 2 != 0, isX2apic := true })
  else pure out

def madtEntry (entryType : UInt8) (p : Nat) (entryLen : UInt8)
    (out : Capped AcpiProcessorEntry acpiMaxProcessors) :
    AcpiProbe (Capped AcpiProcessorEntry acpiMaxProcessors) :=
  if entryType = 0 ∧ entryLen ≥ 8 then localApicEntry p out
  else if entryType = 9 ∧ entryLen ≥ 16 then localX2apicEntry p out
  else pure out

/-- The `while` loop of `parse_madt`, with its final cursor. -/
def madtLoop (stop : Nat) (p : Nat) (out : Capped AcpiProcessorEntry acpiMaxProcessors) :
    AcpiProbe (Nat × Capped AcpiProcessorEntry acpiMaxProcessors) :=
  if p + 2 ≤ stop then do
    let entryType ← .ask p
    let entryLen ← .ask (p + 1)
    if entryLen < 2 ∨ p + entryLen.toNat > stop then pure (p, out)
    else do
      let out ← madtEntry entryType p entryLen out
      madtLoop stop (p + entryLen.toNat) out
  else pure (p, out)
termination_by stop - p
decreasing_by
  rename_i h
  have hlen : 2 ≤ entryLen.toNat :=
    UInt8.le_iff_toNat_le.mp (UInt8.not_lt.mp fun hlt => h (Or.inl hlt))
  omega

def parseMadt (len : Nat) : AcpiProbe AcpiMadtInfo :=
  if len < acpiRawHeaderSize + 8 then pure {}
  else do
    let localApicAddress ← read32 acpiRawHeaderSize
    let loop ← madtLoop len (acpiRawHeaderSize + 8) .empty
    pure { available := true, localApicAddress, processors := loop.2 }

/-- The `while` loop of `parse_mcfg`, with its final cursor. -/
def mcfgLoop (stop : Nat) (p : Nat) (out : Capped AcpiMcfgEntry acpiMaxMcfgEntries) :
    AcpiProbe (Nat × Capped AcpiMcfgEntry acpiMaxMcfgEntries) :=
  if p + 16 ≤ stop ∧ out.count < acpiMaxMcfgEntries then do
    .note (.entryWrite out.count)
    let baseAddress ← read64 p
    let pciSegmentGroup ← read16 (p + 8)
    let startBus ← .ask (p + 10)
    let endBus ← .ask (p + 11)
    mcfgLoop stop (p + 16) (out.push { baseAddress, pciSegmentGroup, startBus, endBus })
  else pure (p, out)
termination_by stop - p

def parseMcfg (len : Nat) : AcpiProbe AcpiMcfgInfo :=
  if len < acpiRawHeaderSize + 8 then pure {}
  else do
    let loop ← mcfgLoop len (acpiRawHeaderSize + 8) .empty
    pure { available := true, entries := loop.2 }

def parseFadt (len : Nat) : AcpiProbe AcpiFadtInfo :=
  if len < 48 then pure {}
  else do
    let preferredPmProfile ← .ask 45
    let sci ← read16 46
    pure { available := true, preferredPmProfile, sciInterrupt := sci.toUInt32 }

def parseHpet (len : Nat) : AcpiProbe AcpiHpetInfo :=
  if len < 53 then pure {}
  else do
    let baseAddress ← read64 44
    let hpetNumber ← .ask 52
    pure { available := true, baseAddress, hpetNumber }

def sigFacp : List UInt8 := [70, 65, 67, 80]

def sigApic : List UInt8 := [65, 80, 73, 67]

def sigMcfg : List UInt8 := [77, 67, 70, 71]

def sigHpet : List UInt8 := [72, 80, 69, 84]

/-- The parsers for single tables, tried one after the other. -/
def fillRecord (effectiveLen : Nat) (summary : AcpiTableSummary) (out : AcpiData) :
    AcpiProbe AcpiData := do
  let isFacp ← sigIs sigFacp
  if isFacp then do
    .note (.fill .fadt)
    let fadt ← parseFadt effectiveLen
    pure { out with fadt := { fadt with summary } }
  else do
    let isApic ← sigIs sigApic
    if isApic then do
      .note (.fill .madt)
      let madt ← parseMadt effectiveLen
      pure { out with madt := { madt with summary } }
    else do
      let isMcfg ← sigIs sigMcfg
      if isMcfg then do
        .note (.fill .mcfg)
        let mcfg ← parseMcfg effectiveLen
        pure { out with mcfg := { mcfg with summary } }
      else do
        let isHpet ← sigIs sigHpet
        if isHpet then do
          .note (.fill .hpet)
          let hpet ← parseHpet effectiveLen
          pure { out with hpet := { hpet with summary } }
        else pure out

/-- How many bytes of a table are used: the length in its header if that is
positive and not above what was received, else what was received. -/
def acpiEffectiveLen (rawSize : Nat) (length : UInt32) : Nat :=
  if length > 0 ∧ length.toNat ≤ rawSize then length.toNat else rawSize

/-- The body of the loop of `acpi_collect` for a table that was fetched. -/
def collectTable (rawSize : Nat) (out : AcpiData) : AcpiProbe AcpiData :=
  if rawSize < acpiRawHeaderSize then pure out
  else do
    let length ← read32 4
    let effectiveLen := acpiEffectiveLen rawSize length
    let valid ← checksumOk effectiveLen
    let summary ← fillSummary effectiveLen valid
    .note (.discoveredWrite out.discoveredCount summary)
    let out := { out with discovered := out.discovered.push summary }
    if valid then fillRecord effectiveLen summary out else pure out

/-- The result of one round of the loop, given what `platform_get_acpi_table` hands out. -/
def collectFetched (out : AcpiData) : Option (List UInt8) → AcpiData
  | none => out
  | some raw => (collectTable raw.length out).val (memOf raw)

/-- The `for` loop of `acpi_collect`. -/
def acpiLoop (out : AcpiData) : List (Option (List UInt8)) → AcpiData
  | [] => out
  | t :: ts =>
    if out.discoveredCount < acpiMaxDiscoveredTables then acpiLoop (collectFetched out t) ts
    else out

/-- `acpi_collect`, given for each signature that `platform_enum_acpi_signatures`
hands out what `platform_get_acpi_table` hands out. -/
def acpiCollect (tables : Option (List (Option (List UInt8)))) : Bool × AcpiData :=
  match tables with
  | none => (false, {})
  | some ts => (true, acpiLoop {} ts)

end HwMon
