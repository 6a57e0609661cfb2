import HwMon.Lib.Capped

/-!
# The ACPI records

The records of `acpi.h`. Every default value is zero, so `{}` is the record
after `memset`. An array with its counter is a capped list.
-/

namespace HwMon
set_option autoImplicit false

def acpiMaxProcessors : Nat := 512

def acpiMaxMcfgEntries : Nat := 16

def acpiMaxDiscoveredTables : Nat := 64

/-- The `char` arrays are given with their terminator. -/
structure AcpiTableSummary where
  signature : List UInt8 := List.replicate 5 0
  oemId : List UInt8 := List.replicate 7 0
  oemTableId : List UInt8 := List.replicate 9 0
  length : UInt32 := 0
  revision : UInt8 := 0
  checksumValid : Bool := false
  deriving DecidableEq, Repr

structure AcpiProcessorEntry where
  apicId : UInt8 := 0
  acpiProcessorId : UInt8 := 0
  x2apicId : UInt32 := 0
  isX2apic : Bool := false
  enabled : Bool := false
  onlineCapable : Bool := false
  deriving DecidableEq, Repr

structure AcpiMadtInfo where
  available : Bool := false
  summary : AcpiTableSummary := {}
  localApicAddress : UInt32 := 0
  processors : Capped AcpiProcessorEntry acpiMaxProcessors := .empty
  deriving DecidableEq

def AcpiMadtInfo.processorCount (d : AcpiMadtInfo) : Nat := d.processors.count

structure AcpiMcfgEntry where
  baseAddress : UInt64 := 0
  pciSegmentGroup : UInt16 := 0
  startBus : UInt8 := 0
  endBus : UInt8 := 0
  deriving DecidableEq, Repr

structure AcpiMcfgInfo where
  available : Bool := false
  summary : AcpiTableSummary := {}
  entries : Capped AcpiMcfgEntry acpiMaxMcfgEntries := .empty
  deriving DecidableEq

def AcpiMcfgInfo.entryCount (d : AcpiMcfgInfo) : Nat := d.entries.count

structure AcpiFadtInfo where
  available : Bool := false
  summary : AcpiTableSummary := {}
  sciInterrupt : UInt32 := 0
  preferredPmProfile : UInt8 := 0
  deriving DecidableEq

structure AcpiHpetInfo where
  available : Bool := false
  summary : AcpiTableSummary := {}
  hpetNumber : UInt8 := 0
  baseAddress : UInt64 := 0
  deriving DecidableEq

structure AcpiData where
  discovered : Capped AcpiTableSummary acpiMaxDiscoveredTables := .empty
  fadt : AcpiFadtInfo := {}
  madt : AcpiMadtInfo := {}
  mcfg : AcpiMcfgInfo := {}
  hpet : AcpiHpetInfo := {}
  deriving DecidableEq

def AcpiData.discoveredCount (d : AcpiData) : Nat := d.discovered.count

end HwMon
