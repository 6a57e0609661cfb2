import HwMon.Acpi.Data
import HwMon.Cpu.Telemetry
import HwMon.Lib.Printf
import HwMon.Memory.MemoryInfo
import HwMon.Output.Features
import HwMon.Pci.Enumerate
import HwMon.Smbios.Data
import HwMon.Storage.Enumerate

/-!
# The report

`report.c`. Every section prints its record with `printf`, whose formats are those of
the source. Small integers are passed as `unsigned int` after promotion.
-/

namespace HwMon
set_option autoImplicit false

/-- What printing depends on besides its arguments. -/
structure Printer (δ : Type) where
  /-- A `double` with some digits behind the point. -/
  shown : Nat → δ → List UInt8
  /-- `(double)x / 1e9` -/
  perBillion : UInt64 → δ
  /-- `(double)x / (1024.0 * 1024.0 * 1024.0)` -/
  gibibytes : UInt64 → δ
  /-- What the stack holds where `features` is. -/
  stack : Mem

/-- The state is what `stdout` has got. -/
abbrev ReportM (δ α : Type) := Prog (Printer δ) (List UInt8) PrintfFault α

section Sections
variable {δ : Type}

/-- Small integers are promoted. -/
def PrintfArg.byte (v : UInt8) : PrintfArg δ := .uint v.toUInt32

def PrintfArg.word (v : UInt16) : PrintfArg δ := .uint v.toUInt32

/-- A `uint32_t` that the model counts in `Nat`. -/
def PrintfArg.number (n : Nat) : PrintfArg δ := .uint (UInt32.ofNat n)

def printf (format : String) (args : List (PrintfArg δ)) : ReportM δ Unit :=
  ⟨fun e out =>
    match printfText e.shown (charBytes format) args with
    | .ok text => (.ok (), out ++ text)
    | .error x => (.error x, out)⟩

/-- A string literal as an array. -/
def literal (s : String) : List UInt8 := charBytes s ++ [0]

/-- The array of a `CStr` up to its terminator. -/
def CStr.array {size : Nat} (s : CStr size) : List UInt8 := s.bytes ++ [0]

/-- `nz` -/
def nz (s : List UInt8) : List UInt8 := if s.head? ≠ some 0 then s else literal "UNKNOWN"

def printRule : ReportM δ Unit := printf "----------------------------------------\n" []

def reportPrintHeader : ReportM δ Unit := do
  printf "========================================\n" []
  printf " LOW LEVEL HARDWARE MONITOR\n" []
  printf "========================================\n\n" []

/-- `len ? features : "NONE"` -/
def featureArray (f : CpuFeatures) (stack : Mem) : List UInt8 :=
  if (featureBuffer f stack).2 ≠ 0 then
    segment (featureBuffer f stack).1 0 featureBufferSize.toNat
  else literal "NONE"

def printTopology (t : CpuTopology) : ReportM δ Unit :=
  if t.topologyAvailable then
    printf "Topology     : %u logical/package, SMT width %u\n"
      [.uint t.logicalPerPackage, .uint t.smtPerCore]
  else printf "Topology     : UNKNOWN\n" []

/-- `id->brand_string_available ? id->brand_string : "UNKNOWN"` -/
def CpuIdentity.brandArray (id : CpuIdentity) : List UInt8 :=
  if id.brandStringAvailable then id.brandString.bytes else literal "UNKNOWN"

def reportPrintCpuSection (id : CpuIdentity) : ReportM δ Unit := do
  printf "CPU\n" []
  printRule
  printf "Vendor       : %s\n" [.string id.vendorString.bytes]
  printf "Brand        : %s\n" [.string id.brandArray]
  printf "Family       : %u\n" [.uint id.family]
  printf "Model        : %u\n" [.uint id.model]
  printf "Stepping     : %u\n" [.uint id.stepping]
  printf "Max Leaf     : basic=0x%X extended=0x%X\n"
    [.uint id.maxBasicLeaf, .uint id.maxExtendedLeaf]
  printf "Logical CPUs : %u\n" [.uint id.logicalProcessorsSystem]
  printTopology id.topology
  let features ← Prog.env fun e => featureArray id.features e.stack
  printf "Features     : %s\n" [.string features]
  printf "\n" []

def sensorText (available : Bool) : List UInt8 :=
  if available then literal "n/a"
  else literal "UNKNOWN (requires MSR access, unavailable from user mode)"

def printUtilization (tel : CpuTelemetry δ) : ReportM δ Unit :=
  if tel.utilizationAvailable then
    printf "CPU Usage    : %.1f%%\n" [.double tel.utilizationPercent]
  else printf "CPU Usage    : UNKNOWN\n" []

def printFrequency (tel : CpuTelemetry δ) : ReportM δ Unit :=
  if tel.frequencyAvailable then do
    let ghz ← Prog.env fun e => e.perBillion tel.frequencyHz
    printf "Frequency    : %.2f GHz (TSC-calibrated nominal rate)\n" [.double ghz]
  else printf "Frequency    : UNKNOWN\n" []

def reportPrintTelemetrySection (tel : CpuTelemetry δ) : ReportM δ Unit := do
  printf "TELEMETRY\n" []
  printRule
  printUtilization tel
  printFrequency tel
  printf "CPU Temp     : %s\n" [.string (sensorText tel.temperatureAvailable)]
  printf "CPU Power    : %s\n" [.string (sensorText tel.powerAvailable)]
  printf "\n" []

/-- A loop that counts the elements of an array with a property. -/
def countWhere {α : Type} (p : α → Bool) (items : List α) : UInt32 :=
  items.foldl (fun n a => if p a then n + 1 else n) 0

def printMemoryDevice (m : SmbiosMemoryDevice) : ReportM δ Unit :=
  if m.populated = false then pure ()
  else
    printf "  %-12s %4u MB  %4u MT/s  %s %s\n"
      [.string (nz m.locator.array), .uint m.sizeMb, .uint m.speedMts,
        .string (nz m.manufacturer.array), .string (nz m.partNumber.array)]

def SmbiosSystemInfo.uuidArray (system : SmbiosSystemInfo) : List UInt8 :=
  if system.uuidAvailable then system.uuid.array else literal "UNKNOWN"

def reportPrintFirmwareSection (smbios : SmbiosData) : ReportM δ Unit := do
  printf "FIRMWARE (SMBIOS)\n" []
  printRule
  if smbios.available = false then printf "SMBIOS data unavailable.\n\n" []
  else do
    printf "SMBIOS Ver   : %u.%u\n" [.byte smbios.majorVersion, .byte smbios.minorVersion]
    printf "BIOS Vendor  : %s\n" [.string (nz smbios.bios.vendor.array)]
    printf "BIOS Version : %s\n" [.string (nz smbios.bios.version.array)]
    printf "BIOS Date    : %s\n" [.string (nz smbios.bios.releaseDate.array)]
    printf "System       : %s %s\n"
      [.string (nz smbios.system.manufacturer.array), .string (nz smbios.system.product.array)]
    printf "System S/N   : %s\n" [.string (nz smbios.system.serial.array)]
    printf "System UUID  : %s\n" [.string smbios.system.uuidArray]
    printf "Baseboard    : %s %s\n"
      [.string (nz smbios.baseboard.manufacturer.array),
        .string (nz smbios.baseboard.product.array)]
    printf "Chassis Type : %u\n" [.byte smbios.chassis.chassisType]
    printf "Memory Devs  : %u slot(s), %u populated\n"
      [.number smbios.memoryDeviceCount,
        .uint (countWhere SmbiosMemoryDevice.populated smbios.memoryDevices.items)]
    Prog.each printMemoryDevice smbios.memoryDevices.items
    printf "Structures   : %u parsed, %u malformed/skipped\n"
      [.number smbios.structuresParsed, .number smbios.structuresMalformedSkipped]
    printf "\n" []

def printTable (s : AcpiTableSummary) : ReportM δ Unit :=
  printf "  %-4s  len=%-6u rev=%-3u oem=%-6s  checksum=%s\n"
    [.string s.signature, .uint s.length, .byte s.revision, .string s.oemId,
      .string (if s.checksumValid then literal "OK" else literal "INVALID")]

def printMcfgEntry (e : AcpiMcfgEntry) : ReportM δ Unit :=
  printf "  seg=%u base=0x%llX bus[%u-%u]\n"
    [.word e.pciSegmentGroup, .ullong e.baseAddress, .byte e.startBus, .byte e.endBus]

def printFadt (fadt : AcpiFadtInfo) : ReportM δ Unit :=
  if fadt.available then do
    printf "FADT SCI IRQ : %u\n" [.uint fadt.sciInterrupt]
    printf "FADT PM Prof : %u\n" [.byte fadt.preferredPmProfile]
  else pure ()

def printMadt (madt : AcpiMadtInfo) : ReportM δ Unit :=
  if madt.available then do
    printf "MADT LAPIC   : 0x%08X\n" [.uint madt.localApicAddress]
    printf "MADT CPUs    : %u entries\n" [.number madt.processorCount]
    printf "  enabled    : %u\n"
      [.uint (countWhere AcpiProcessorEntry.enabled madt.processors.items)]
  else pure ()

def printMcfg (mcfg : AcpiMcfgInfo) : ReportM δ Unit :=
  if mcfg.available then do
    printf "MCFG Regions : %u\n" [.number mcfg.entryCount]
    Prog.each printMcfgEntry mcfg.entries.items
  else pure ()

def printHpet (hpet : AcpiHpetInfo) : ReportM δ Unit :=
  if hpet.available then
    printf "HPET         : #%u base=0x%llX\n" [.byte hpet.hpetNumber, .ullong hpet.baseAddress]
  else pure ()

def reportPrintAcpiSection (acpi : AcpiData) : ReportM δ Unit := do
  printf "FIRMWARE (ACPI)\n" []
  printRule
  printf "Tables Found : %u\n" [.number acpi.discoveredCount]
  Prog.each printTable acpi.discovered.items
  printFadt acpi.fadt
  printMadt acpi.madt
  printMcfg acpi.mcfg
  printHpet acpi.hpet
  printf "\n" []

def printResource (res : PciResource) : ReportM δ Unit :=
  printf "           %s 0x%016llX len=0x%llX%s\n"
    [.string (if res.isMemory then literal "MEM" else literal "IO "), .ullong res.base,
      .ullong res.length,
      .string (if res.isPrefetchable then literal " (prefetchable)" else literal "")]

def printInterrupt (d : PciDevice) : ReportM δ Unit :=
  if d.interruptAvailable then
    if d.interruptLine ≤ 255 then printf "           IRQ %u\n" [.uint d.interruptLine]
    else
      printf "           IRQ 0x%08X (MSI/MSI-X vector id, not a legacy IRQ line)\n"
        [.uint d.interruptLine]
  else pure ()

/-- The class of a device, and its revision with it. -/
def printClass (d : PciDevice) : ReportM δ Unit :=
  if d.classInfoAvailable then
    printf "  class=%02X:%02X:%02X rev=%02X"
      [.byte d.classCode, .byte d.subclass, .byte d.progIf, .byte d.revision]
  else printf "  class=UNKNOWN" []

def printDescription (description : CStr 128) : ReportM δ Unit :=
  if description.array.head? ≠ some 0 then printf "  %s" [.string description.array] else pure ()

def printPciDevice (d : PciDevice) : ReportM δ Unit := do
  printf "%02X:%02X.%X  %04X:%04X"
    [.byte d.bus, .byte d.device, .byte d.function, .word d.vendorId, .word d.deviceId]
  printClass d
  printDescription d.description
  printf "\n" []
  Prog.each printResource d.resources.items
  printInterrupt d

def reportPrintPciSection (pci : PciEnumeration) : ReportM δ Unit := do
  printf "PCI DEVICES\n" []
  printRule
  printf "Devices      : %u%s\n"
    [.number pci.devices.count,
      .string (if pci.truncated ≠ 0 then literal " (truncated)" else literal "")]
  printf "\n" []
  Prog.each printPciDevice pci.devices.items
  printf "\n" []

def printAperture (res : PciResource) : ReportM δ Unit :=
  if res.isMemory = false then pure ()
  else
    printf "           MEM 0x%016llX len=0x%llX%s\n"
      [.ullong res.base, .ullong res.length,
        .string (if res.isPrefetchable then literal " (prefetchable, likely VRAM aperture)"
          else literal "")]

/-- The loop of the section, with `found`. -/
def gpuLoop : List PciDevice → UInt32 → ReportM δ UInt32
  | [], found => pure found
  | d :: devices, found =>
    if d.classInfoAvailable = false ∨ d.classCode ≠ 0x03 then gpuLoop devices found
    else do
      printf "%02X:%02X.%X  %04X:%04X  %s\n"
        [.byte d.bus, .byte d.device, .byte d.function, .word d.vendorId, .word d.deviceId,
          .string (nz d.description.array)]
      Prog.each printAperture d.resources.items
      gpuLoop devices (found + 1)

def printNoGpu (found : UInt32) : ReportM δ Unit :=
  if found = 0 then printf "No display controllers found via PCI class 03.\n" [] else pure ()

/-- The last two calls of the section. -/
def printNote : ReportM δ Unit := do
  printf "Note: temperature/utilization/VRAM usage are vendor-specific and not exposed via standard PCI configuration space.\n" []
  printf "\n" []

def reportPrintGpuSection (pci : PciEnumeration) : ReportM δ Unit := do
  printf "GPU\n" []
  printRule
  let found ← gpuLoop pci.devices.items 0
  printNoGpu found
  printNote

def printTotals (mem : MemoryInfo) : ReportM δ Unit :=
  if mem.available then do
    let total ← Prog.env fun e => e.gibibytes mem.totalPhysicalBytes
    printf "Total        : %.2f GB\n" [.double total]
    let available ← Prog.env fun e => e.gibibytes mem.availablePhysicalBytes
    printf "Available    : %.2f GB\n" [.double available]
    printf "Load         : %u%%\n" [.uint mem.memoryLoadPercent]
  else printf "Total        : UNKNOWN\n" []

def printRegion (r : MemoryRegion) : ReportM δ Unit := do
  let gb ← Prog.env fun e => e.gibibytes r.length
  printf "  base=0x%016llX len=0x%llX (%.2f GB) array_handle=0x%04X\n"
    [.ullong r.base, .ullong r.length, .double gb, .uint r.type]

def reportPrintMemorySection (mem : MemoryInfo) : ReportM δ Unit := do
  printf "MEMORY\n" []
  printRule
  printTotals mem
  printf "Regions      : %u (SMBIOS Type 19 mapped address ranges)\n" [.number mem.regionCount]
  Prog.each printRegion mem.regions.items
  printf "\n" []

def busName : StorageBusType → List UInt8
  | .nvme => literal "NVMe"
  | .sata => literal "SATA"
  | .ata => literal "ATA"
  | .scsi => literal "SCSI"
  | .usb => literal "USB"
  | .unknown => literal "OTHER"
  | .other => literal "OTHER"

def printCapacity (d : StorageDevice) : ReportM δ Unit :=
  if d.capacityAvailable then do
    let gb ← Prog.env fun e => e.gibibytes d.capacityBytes
    printf "Capacity     : %.2f GB\n" [.double gb]
  else printf "Capacity     : UNKNOWN\n" []

def printDrive (d : StorageDevice) : ReportM δ Unit := do
  printf "PhysicalDrive%d [%s]%s\n"
    [.int d.index, .string (busName d.busType),
      .string (if d.nvmeIdentifyUsed then literal " (via NVMe Identify Controller)"
        else literal "")]
  printf "Model        : %s\n" [.string (nz d.model.array)]
  printf "Firmware     : %s\n" [.string (nz d.firmwareRevision.array)]
  printf "Serial       : %s\n" [.string (nz d.serial.array)]
  printCapacity d
  printf "\n" []

def reportPrintStorageSection (storage : Capped StorageDevice storageMaxDevices) :
    ReportM δ Unit := do
  printf "STORAGE\n" []
  printRule
  if storage.count = 0 then printf "No physical drives found.\n\n" []
  else Prog.each printDrive storage.items

/-- The records that `main` collects. -/
structure Records (δ : Type) where
  cpu : CpuIdentity
  telemetry : CpuTelemetry δ
  memory : MemoryInfo
  smbios : SmbiosData
  acpi : AcpiData
  pci : PciEnumeration
  storage : Capped StorageDevice storageMaxDevices

/-- The calls at the end of `main`. -/
def printReport (r : Records δ) : ReportM δ Unit := do
  reportPrintHeader
  reportPrintCpuSection r.cpu
  reportPrintTelemetrySection r.telemetry
  reportPrintMemorySection r.memory
  reportPrintFirmwareSection r.smbios
  reportPrintAcpiSection r.acpi
  reportPrintPciSection r.pci
  reportPrintGpuSection r.pci
  reportPrintStorageSection r.storage

end Sections

/-!
## No call has a fault
-/

section Printing
variable {δ α β : Type} {e : Printer δ}

/-- The program comes to its end and prints some text behind what there is. -/
def Printing (e : Printer δ) (p : ReportM δ α) : Prop :=
  ∃ a text, ∀ out, p.run e out = (.ok a, out ++ text)

theorem printing_pure (a : α) : Printing e (pure a) :=
  ⟨a, [], fun out => by rw [Prog.run_pure, List.append_nil]⟩

theorem Printing.bind {p : ReportM δ α} {f : α → ReportM δ β} (hp : Printing e p)
    (hf : ∀ a, Printing e (f a)) : Printing e (p >>= f) := by
  obtain ⟨a, text, hrun⟩ := hp
  obtain ⟨b, more, hmore⟩ := hf a
  refine ⟨b, text ++ more, fun out => ?_⟩
  rw [Prog.bind_of_ok (hrun out), hmore, List.append_assoc]

theorem printing_env {f : Printer δ → α} {g : α → ReportM δ β} (hg : Printing e (g (f e))) :
    Printing e (Prog.env f >>= g) := hg

theorem printing_ite {c : Prop} [Decidable c] {p q : ReportM δ α} (hp : c → Printing e p)
    (hq : ¬c → Printing e q) : Printing e (if c then p else q) := by
  split
  · exact hp ‹_›
  · exact hq ‹_›

theorem printing_each {f : α → ReportM δ Unit} {items : List α}
    (hf : ∀ a ∈ items, Printing e (f a)) : Printing e (Prog.each f items) := by
  induction items with
  | nil => exact printing_pure ()
  | cons a items ih =>
    obtain ⟨ha, hitems⟩ := List.forall_mem_cons.mp hf
    exact ha.bind fun _ => ih hitems

theorem printing_printf {format : String} {args : List (PrintfArg δ)}
    (haccepts : Accepts (charBytes format) args) (hstrings : ∀ a ∈ args, a.Terminated) :
    Printing e (printf format args) := by
  obtain ⟨text, htext⟩ := printfText_ok e.shown haccepts hstrings
  refine ⟨(), text, fun out => ?_⟩
  simp only [printf, htext]

theorem printing_call {format : String} {args : List (PrintfArg δ)} {p : ReportM δ α}
    (haccepts : Accepts (charBytes format) args) (hstrings : ∀ a ∈ args, a.Terminated)
    (hp : Printing e p) : Printing e (printf format args >>= fun _ => p) :=
  (printing_printf haccepts hstrings).bind fun _ => hp

end Printing

section Strings
variable {δ : Type}

@[simp] theorem terminated_uint (v : UInt32) : (PrintfArg.uint v : PrintfArg δ).Terminated :=
  trivial

@[simp] theorem terminated_int (v : Int32) : (PrintfArg.int v : PrintfArg δ).Terminated := trivial

@[simp] theorem terminated_ullong (v : UInt64) : (PrintfArg.ullong v : PrintfArg δ).Terminated :=
  trivial

@[simp] theorem terminated_double (x : δ) : (PrintfArg.double x).Terminated := trivial

@[simp] theorem terminated_byte (v : UInt8) : (PrintfArg.byte v : PrintfArg δ).Terminated := trivial

@[simp] theorem terminated_word (v : UInt16) : (PrintfArg.word v : PrintfArg δ).Terminated :=
  trivial

@[simp] theorem terminated_number (n : Nat) : (PrintfArg.number n : PrintfArg δ).Terminated :=
  trivial

@[simp] theorem terminated_string (array : List UInt8) :
    (PrintfArg.string array : PrintfArg δ).Terminated ↔ 0 ∈ array := Iff.rfl

@[simp] theorem zero_mem_literal (s : String) : 0 ∈ literal s :=
  List.mem_append_right _ List.mem_cons_self

@[simp] theorem CStr.zero_mem_array {size : Nat} (s : CStr size) : 0 ∈ s.array :=
  List.mem_append_right _ List.mem_cons_self

@[simp] theorem zero_mem_ite (c : Prop) [Decidable c] {s t : List UInt8} :
    0 ∈ (if c then s else t) ↔ (c → 0 ∈ s) ∧ (¬c → 0 ∈ t) := by
  split
  · simp_all
  · simp_all

theorem zero_mem_nz {s : List UInt8} (h : 0 ∈ s) : 0 ∈ nz s :=
  (zero_mem_ite _).mpr ⟨fun _ => h, fun _ => zero_mem_literal _⟩

@[simp] theorem zero_mem_nz_array {size : Nat} (s : CStr size) : 0 ∈ nz s.array :=
  zero_mem_nz s.zero_mem_array

@[simp] theorem zero_mem_sensorText (available : Bool) : 0 ∈ sensorText available := by
  simp [sensorText]

@[simp] theorem zero_mem_busName (b : StorageBusType) : 0 ∈ busName b := by
  cases b <;> exact zero_mem_literal _

theorem CpuIdentity.zero_mem_brandArray {id : CpuIdentity} (h : 0 ∈ id.brandString.bytes) :
    0 ∈ id.brandArray :=
  (zero_mem_ite _).mpr ⟨fun _ => h, fun _ => zero_mem_literal _⟩

@[simp] theorem SmbiosSystemInfo.zero_mem_uuidArray (system : SmbiosSystemInfo) :
    0 ∈ system.uuidArray :=
  (zero_mem_ite _).mpr ⟨fun _ => system.uuid.zero_mem_array, fun _ => zero_mem_literal _⟩

/-- The buffer of the features has a terminator whatever was on the stack. -/
@[simp] theorem zero_mem_featureArray (f : CpuFeatures) (stack : Mem) :
    0 ∈ featureArray f stack := by
  refine (zero_mem_ite _).mpr ⟨fun _ => ?_, fun _ => zero_mem_literal _⟩
  have hline := featureBuffer_line f stack
  have hlen : (featureLine (presentNames f.listed)).length < featureBufferSize.toNat :=
    Nat.lt_of_le_of_lt (length_intercalate_sublist 32 (presentNames_sublist f.listed))
      allNames_fit
  rw [← Nat.add_sub_cancel' (Nat.succ_le_of_lt hlen), segment_add, hline.line]
  exact List.mem_append_left _ (List.mem_append_right _ List.mem_cons_self)

end Strings

/-- The strings that are no `CStr` have a terminator. -/
structure Records.Proper {δ : Type} (r : Records δ) : Prop where
  vendor : 0 ∈ r.cpu.vendorString.bytes
  brand : 0 ∈ r.cpu.brandString.bytes
  tables : ∀ s ∈ r.acpi.discovered.items, 0 ∈ s.signature ∧ 0 ∈ s.oemId

section NoFault
variable {δ : Type} {e : Printer δ}

theorem printing_rule : Printing e printRule := printing_printf (by rfl) (by simp)

theorem printing_header : Printing e reportPrintHeader := by
  refine printing_call (by rfl) (by simp) ?_
  refine printing_call (by rfl) (by simp) ?_
  exact printing_printf (by rfl) (by simp)

theorem printing_topology (t : CpuTopology) : Printing e (printTopology t) :=
  printing_ite (fun _ => printing_printf (by rfl) (by simp))
    fun _ => printing_printf (by rfl) (by simp)

theorem printing_cpuSection {id : CpuIdentity} (hvendor : 0 ∈ id.vendorString.bytes)
    (hbrand : 0 ∈ id.brandString.bytes) : Printing e (reportPrintCpuSection id) := by
  refine printing_call (by rfl) (by simp) (printing_rule.bind fun _ => ?_)
  refine printing_call (by rfl) (by simp [hvendor]) ?_
  refine printing_call (by rfl) (by simp [CpuIdentity.zero_mem_brandArray hbrand]) ?_
  refine printing_call (by rfl) (by simp) ?_
  refine printing_call (by rfl) (by simp) ?_
  refine printing_call (by rfl) (by simp) ?_
  refine printing_call (by rfl) (by simp) ?_
  refine printing_call (by rfl) (by simp) ?_
  refine (printing_topology id.topology).bind fun _ => printing_env ?_
  refine printing_call (by rfl) (by simp) ?_
  exact printing_printf (by rfl) (by simp)

theorem printing_telemetrySection (tel : CpuTelemetry δ) :
    Printing e (reportPrintTelemetrySection tel) := by
  have husage : Printing e (printUtilization tel) :=
    printing_ite (fun _ => printing_printf (by rfl) (by simp))
      fun _ => printing_printf (by rfl) (by simp)
  have hfrequency : Printing e (printFrequency tel) :=
    printing_ite (fun _ => printing_env (printing_printf (by rfl) (by simp)))
      fun _ => printing_printf (by rfl) (by simp)
  refine printing_call (by rfl) (by simp) (printing_rule.bind fun _ => ?_)
  refine husage.bind fun _ => hfrequency.bind fun _ => ?_
  refine printing_call (by rfl) (by simp) ?_
  refine printing_call (by rfl) (by simp) ?_
  exact printing_printf (by rfl) (by simp)

theorem printing_memorySection (mem : MemoryInfo) :
    Printing e (reportPrintMemorySection mem) := by
  have htotals : Printing e (printTotals mem) := by
    refine printing_ite (fun _ => printing_env ?_) fun _ => printing_printf (by rfl) (by simp)
    refine printing_call (by rfl) (by simp) (printing_env ?_)
    refine printing_call (by rfl) (by simp) ?_
    exact printing_printf (by rfl) (by simp)
  have hregion : ∀ r ∈ mem.regions.items, Printing e (printRegion r) := fun r _ =>
    printing_env (printing_printf (by rfl) (by simp))
  refine printing_call (by rfl) (by simp) (printing_rule.bind fun _ => htotals.bind fun _ => ?_)
  refine printing_call (by rfl) (by simp) ((printing_each hregion).bind fun _ => ?_)
  exact printing_printf (by rfl) (by simp)

theorem printing_firmwareSection (smbios : SmbiosData) :
    Printing e (reportPrintFirmwareSection smbios) := by
  have hdevice : ∀ m ∈ smbios.memoryDevices.items, Printing e (printMemoryDevice m) := fun m _ =>
    printing_ite (fun _ => printing_pure ()) fun _ => printing_printf (by rfl) (by simp)
  refine printing_call (by rfl) (by simp) (printing_rule.bind fun _ => ?_)
  refine printing_ite (fun _ => printing_printf (by rfl) (by simp)) fun _ => ?_
  refine printing_call (by rfl) (by simp) ?_
  refine printing_call (by rfl) (by simp) ?_
  refine printing_call (by rfl) (by simp) ?_
  refine printing_call (by rfl) (by simp) ?_
  refine printing_call (by rfl) (by simp) ?_
  refine printing_call (by rfl) (by simp) ?_
  refine printing_call (by rfl) (by simp) ?_
  refine printing_call (by rfl) (by simp) ?_
  refine printing_call (by rfl) (by simp) ?_
  refine printing_call (by rfl) (by simp) ((printing_each hdevice).bind fun _ => ?_)
  refine printing_call (by rfl) (by simp) ?_
  exact printing_printf (by rfl) (by simp)

theorem printing_madt (madt : AcpiMadtInfo) : Printing e (printMadt madt) := by
  refine printing_ite (fun _ => ?_) fun _ => printing_pure ()
  refine printing_call (by rfl) (by simp) ?_
  refine printing_call (by rfl) (by simp) ?_
  exact printing_printf (by rfl) (by simp)

theorem printing_fadt (fadt : AcpiFadtInfo) : Printing e (printFadt fadt) :=
  printing_ite (fun _ => printing_call (by rfl) (by simp) (printing_printf (by rfl) (by simp)))
    fun _ => printing_pure ()

theorem printing_mcfg (mcfg : AcpiMcfgInfo) : Printing e (printMcfg mcfg) := by
  refine printing_ite (fun _ => ?_) fun _ => printing_pure ()
  refine printing_call (by rfl) (by simp) (printing_each fun entry _ => ?_)
  exact printing_printf (by rfl) (by simp)

theorem printing_hpet (hpet : AcpiHpetInfo) : Printing e (printHpet hpet) :=
  printing_ite (fun _ => printing_printf (by rfl) (by simp)) fun _ => printing_pure ()

theorem printing_acpiSection {acpi : AcpiData}
    (htables : ∀ s ∈ acpi.discovered.items, 0 ∈ s.signature ∧ 0 ∈ s.oemId) :
    Printing e (reportPrintAcpiSection acpi) := by
  have htable : ∀ s ∈ acpi.discovered.items, Printing e (printTable s) := fun s hs =>
    printing_printf (by rfl) (by simp [htables s hs])
  refine printing_call (by rfl) (by simp) (printing_rule.bind fun _ => ?_)
  refine printing_call (by rfl) (by simp) ((printing_each htable).bind fun _ => ?_)
  refine (printing_fadt acpi.fadt).bind fun _ => (printing_madt acpi.madt).bind fun _ => ?_
  refine (printing_mcfg acpi.mcfg).bind fun _ => (printing_hpet acpi.hpet).bind fun _ => ?_
  exact printing_printf (by rfl) (by simp)

theorem printing_pciDevice (d : PciDevice) : Printing e (printPciDevice d) := by
  have hclass : Printing e (printClass d) :=
    printing_ite (fun _ => printing_printf (by rfl) (by simp))
      fun _ => printing_printf (by rfl) (by simp)
  have hdescription : Printing e (printDescription d.description) :=
    printing_ite (fun _ => printing_printf (by rfl) (by simp)) fun _ => printing_pure ()
  have hresource : ∀ res ∈ d.resources.items, Printing e (printResource res) := fun res _ =>
    printing_printf (by rfl) (by simp)
  have hinterrupt : Printing e (printInterrupt d) :=
    printing_ite (fun _ => printing_ite (fun _ => printing_printf (by rfl) (by simp))
      fun _ => printing_printf (by rfl) (by simp)) fun _ => printing_pure ()
  refine printing_call (by rfl) (by simp) (hclass.bind fun _ => hdescription.bind fun _ => ?_)
  refine printing_call (by rfl) (by simp) ((printing_each hresource).bind fun _ => ?_)
  exact hinterrupt

theorem printing_pciSection (pci : PciEnumeration) : Printing e (reportPrintPciSection pci) := by
  refine printing_call (by rfl) (by simp) (printing_rule.bind fun _ => ?_)
  refine printing_call (by rfl) (by simp) ?_
  refine printing_call (by rfl) (by simp) ?_
  refine (printing_each fun d _ => printing_pciDevice d).bind fun _ => ?_
  exact printing_printf (by rfl) (by simp)

theorem printing_gpuLoop (devices : List PciDevice) (found : UInt32) :
    Printing e (gpuLoop devices found) := by
  induction devices generalizing found with
  | nil => exact printing_pure found
  | cons d devices ih =>
    have haperture : ∀ res ∈ d.resources.items, Printing e (printAperture res) := fun res _ =>
      printing_ite (fun _ => printing_pure ()) fun _ => printing_printf (by rfl) (by simp)
    refine printing_ite (fun _ => ih found) fun _ => ?_
    refine printing_call (by rfl) (by simp) ?_
    exact (printing_each haperture).bind fun _ => ih (found + 1)

set_option maxRecDepth 2048 in
theorem printing_note : Printing e printNote :=
  printing_call (by rfl) (by simp) (printing_printf (by rfl) (by simp))

theorem printing_gpuSection (pci : PciEnumeration) : Printing e (reportPrintGpuSection pci) := by
  have hnone : ∀ found, Printing e (printNoGpu found) := fun found =>
    printing_ite (fun _ => printing_printf (by rfl) (by simp)) fun _ => printing_pure ()
  refine printing_call (by rfl) (by simp) (printing_rule.bind fun _ => ?_)
  exact (printing_gpuLoop _ 0).bind fun found => (hnone found).bind fun _ => printing_note

theorem printing_drive (d : StorageDevice) : Printing e (printDrive d) := by
  have hcapacity : Printing e (printCapacity d) :=
    printing_ite (fun _ => printing_env (printing_printf (by rfl) (by simp)))
      fun _ => printing_printf (by rfl) (by simp)
  refine printing_call (by rfl) (by simp) ?_
  refine printing_call (by rfl) (by simp) ?_
  refine printing_call (by rfl) (by simp) ?_
  refine printing_call (by rfl) (by simp) (hcapacity.bind fun _ => ?_)
  exact printing_printf (by rfl) (by simp)

theorem printing_storageSection (storage : Capped StorageDevice storageMaxDevices) :
    Printing e (reportPrintStorageSection storage) := by
  refine printing_call (by rfl) (by simp) (printing_rule.bind fun _ => ?_)
  exact printing_ite (fun _ => printing_printf (by rfl) (by simp))
    fun _ => printing_each fun d _ => printing_drive d

/-- Every call of the report passes what its format asks for. -/
theorem printing_report {r : Records δ} (h : r.Proper) : Printing e (printReport r) := by
  refine printing_header.bind fun _ => (printing_cpuSection h.vendor h.brand).bind fun _ => ?_
  refine (printing_telemetrySection r.telemetry).bind fun _ => ?_
  refine (printing_memorySection r.memory).bind fun _ => ?_
  refine (printing_firmwareSection r.smbios).bind fun _ => ?_
  refine (printing_acpiSection h.tables).bind fun _ => ?_
  refine (printing_pciSection r.pci).bind fun _ => (printing_gpuSection r.pci).bind fun _ => ?_
  exact printing_storageSection r.storage

end NoFault
end HwMon
