import HwMon.Output.Report

/-!
# What the report depends on

Many values of the records come with a flag that says whether they are available.
`vouched` erases a value whose flag is off, and the report is the same without it.
The section on display controllers lists those devices of the section before it that
have the class, with their memory ranges.
-/

namespace HwMon
set_option autoImplicit false

section Erase

def CpuFeatures.vouched (f : CpuFeatures) : CpuFeatures :=
  { f with
    osxsave := false
    avxOsEnabled := (f.avx || f.avx2) && f.avxOsEnabled
    avx512OsEnabled := f.avx512f && f.avx512OsEnabled }

def CpuTopology.vouched (t : CpuTopology) : CpuTopology := if t.topologyAvailable then t else {}

def CpuIdentity.vouched (id : CpuIdentity) : CpuIdentity :=
  { id with
    brandString := if id.brandStringAvailable then id.brandString else .zero 49
    features := id.features.vouched
    topology := id.topology.vouched }

def CpuTelemetry.vouched {δ : Type} (zero : δ) (tel : CpuTelemetry δ) : CpuTelemetry δ :=
  { tel with
    frequencyHz := if tel.frequencyAvailable then tel.frequencyHz else 0
    utilizationPercent := if tel.utilizationAvailable then tel.utilizationPercent else zero }

def MemoryInfo.vouched (mem : MemoryInfo) : MemoryInfo :=
  if mem.available then mem else { regions := mem.regions }

def SmbiosSystemInfo.vouched (system : SmbiosSystemInfo) : SmbiosSystemInfo :=
  { system with uuid := if system.uuidAvailable then system.uuid else .empty }

def SmbiosMemoryDevice.vouched (m : SmbiosMemoryDevice) : SmbiosMemoryDevice :=
  if m.populated then m else {}

def SmbiosData.vouched (smbios : SmbiosData) : SmbiosData :=
  if smbios.available then
    { smbios with
      system := smbios.system.vouched
      memoryDevices := smbios.memoryDevices.map SmbiosMemoryDevice.vouched }
  else {}

def AcpiData.vouched (acpi : AcpiData) : AcpiData where
  discovered := acpi.discovered
  fadt := if acpi.fadt.available then acpi.fadt else {}
  madt := if acpi.madt.available then acpi.madt else {}
  mcfg := if acpi.mcfg.available then acpi.mcfg else {}
  hpet := if acpi.hpet.available then acpi.hpet else {}

/-- The revision goes with the class. -/
def PciDevice.vouched (d : PciDevice) : PciDevice :=
  { d with
    classCode := if d.classInfoAvailable then d.classCode else 0
    subclass := if d.classInfoAvailable then d.subclass else 0
    progIf := if d.classInfoAvailable then d.progIf else 0
    revision := if d.classInfoAvailable then d.revision else 0
    interruptLine := if d.interruptAvailable then d.interruptLine else 0 }

def PciEnumeration.vouched (pci : PciEnumeration) : PciEnumeration :=
  { pci with devices := pci.devices.map PciDevice.vouched }

def StorageDevice.vouched (d : StorageDevice) : StorageDevice :=
  { d with capacityBytes := if d.capacityAvailable then d.capacityBytes else 0 }

def Records.vouched {δ : Type} (zero : δ) (r : Records δ) : Records δ where
  cpu := r.cpu.vouched
  telemetry := r.telemetry.vouched zero
  memory := r.memory.vouched
  smbios := r.smbios.vouched
  acpi := r.acpi.vouched
  pci := r.pci.vouched
  storage := r.storage.map StorageDevice.vouched

end Erase

section Loops
variable {α δ : Type}

theorem each_vouched {f : α → ReportM δ Unit} {vouched : α → α} (h : ∀ a, f (vouched a) = f a)
    (items : List α) : Prog.each f (items.map vouched) = Prog.each f items := by
  induction items with
  | nil => rfl
  | cons a items ih => rw [List.map_cons, Prog.each, h, ih, Prog.each]

theorem countWhere_vouched {p : α → Bool} {vouched : α → α} (h : ∀ a, p (vouched a) = p a)
    (items : List α) : countWhere p (items.map vouched) = countWhere p items := by
  simp only [countWhere, List.foldl_map, h]

end Loops

section Sections
variable {δ : Type}

theorem features_vouched (f : CpuFeatures) : f.vouched.listed = f.listed := by
  have hand : ∀ a b : Bool, (a && !(a && b)) = (a && !b) := by decide
  simp only [CpuFeatures.listed, CpuFeatures.vouched, hand]

theorem featureArray_vouched (f : CpuFeatures) (stack : Mem) :
    featureArray f.vouched stack = featureArray f stack := by
  have hbuffer : featureBuffer f.vouched stack = featureBuffer f stack := by
    rw [featureBuffer, features_vouched]
    rfl
  rw [featureArray, hbuffer]
  rfl

theorem topology_vouched (t : CpuTopology) :
    (printTopology t.vouched : ReportM δ Unit) = printTopology t := by
  cases h : t.topologyAvailable with
  | false => rw [CpuTopology.vouched, h, printTopology, printTopology, h]; rfl
  | true => rw [CpuTopology.vouched, h]; rfl

theorem brandArray_vouched (id : CpuIdentity) : id.vouched.brandArray = id.brandArray := by
  cases h : id.brandStringAvailable with
  | true => simp only [CpuIdentity.brandArray, CpuIdentity.vouched, h, if_true]
  | false =>
    simp only [CpuIdentity.brandArray, CpuIdentity.vouched, h, Bool.false_eq_true, if_false]

theorem cpuSection_vouched (id : CpuIdentity) :
    (reportPrintCpuSection id.vouched : ReportM δ Unit) = reportPrintCpuSection id := by
  have htopology : (printTopology id.vouched.topology : ReportM δ Unit) =
      printTopology id.topology := topology_vouched id.topology
  have hfeatures : ∀ stack, featureArray id.vouched.features stack =
      featureArray id.features stack := featureArray_vouched id.features
  simp only [reportPrintCpuSection, brandArray_vouched, htopology, hfeatures]
  rfl

theorem utilization_vouched (zero : δ) (tel : CpuTelemetry δ) :
    printUtilization (tel.vouched zero) = printUtilization tel := by
  cases h : tel.utilizationAvailable with
  | true => simp only [printUtilization, CpuTelemetry.vouched, h, if_true]
  | false => simp only [printUtilization, CpuTelemetry.vouched, h, Bool.false_eq_true, if_false]

theorem frequency_vouched (zero : δ) (tel : CpuTelemetry δ) :
    printFrequency (tel.vouched zero) = printFrequency tel := by
  cases h : tel.frequencyAvailable with
  | true => simp only [printFrequency, CpuTelemetry.vouched, h, if_true]
  | false => simp only [printFrequency, CpuTelemetry.vouched, h, Bool.false_eq_true, if_false]

theorem telemetrySection_vouched (zero : δ) (tel : CpuTelemetry δ) :
    reportPrintTelemetrySection (tel.vouched zero) = reportPrintTelemetrySection tel := by
  rw [reportPrintTelemetrySection, utilization_vouched, frequency_vouched]
  rfl

theorem memorySection_vouched (mem : MemoryInfo) :
    (reportPrintMemorySection mem.vouched : ReportM δ Unit) = reportPrintMemorySection mem := by
  cases h : mem.available with
  | true => rw [MemoryInfo.vouched, h]; rfl
  | false =>
    have htotals : (printTotals mem.vouched : ReportM δ Unit) = printTotals mem := by
      rw [MemoryInfo.vouched, h, printTotals, printTotals, h]
      rfl
    have hregions : mem.vouched.regions = mem.regions := by
      rw [MemoryInfo.vouched, h]
      rfl
    rw [reportPrintMemorySection, htotals, MemoryInfo.regionCount, hregions]
    rfl

theorem memoryDevice_vouched (m : SmbiosMemoryDevice) :
    (printMemoryDevice m.vouched : ReportM δ Unit) = printMemoryDevice m := by
  cases h : m.populated with
  | true => rw [SmbiosMemoryDevice.vouched, h]; rfl
  | false => rw [SmbiosMemoryDevice.vouched, h, printMemoryDevice, printMemoryDevice, h]; rfl

theorem populated_vouched (m : SmbiosMemoryDevice) : m.vouched.populated = m.populated := by
  cases h : m.populated with
  | true => rw [SmbiosMemoryDevice.vouched, h]; exact h
  | false => rw [SmbiosMemoryDevice.vouched, h]; rfl

theorem uuidArray_vouched (system : SmbiosSystemInfo) :
    system.vouched.uuidArray = system.uuidArray := by
  cases h : system.uuidAvailable with
  | true => simp only [SmbiosSystemInfo.uuidArray, SmbiosSystemInfo.vouched, h, if_true]
  | false =>
    simp only [SmbiosSystemInfo.uuidArray, SmbiosSystemInfo.vouched, h, Bool.false_eq_true,
      if_false]

theorem SmbiosData.vouched_available {smbios : SmbiosData} (h : smbios.available = true) :
    smbios.vouched = { smbios with
      system := smbios.system.vouched
      memoryDevices := smbios.memoryDevices.map SmbiosMemoryDevice.vouched } := by
  rw [SmbiosData.vouched, if_pos h]

theorem firmwareSection_vouched (smbios : SmbiosData) :
    (reportPrintFirmwareSection smbios.vouched : ReportM δ Unit) =
      reportPrintFirmwareSection smbios := by
  cases h : smbios.available with
  | false =>
    rw [SmbiosData.vouched, h, reportPrintFirmwareSection, reportPrintFirmwareSection, h]
    rfl
  | true =>
    have hcount : smbios.vouched.memoryDeviceCount = smbios.memoryDeviceCount := by
      rw [SmbiosData.vouched_available h]
      exact List.length_map _
    have hitems : smbios.vouched.memoryDevices.items =
        smbios.memoryDevices.items.map SmbiosMemoryDevice.vouched := by
      rw [SmbiosData.vouched_available h]
      rfl
    have huuid : smbios.vouched.system.uuidArray = smbios.system.uuidArray := by
      rw [SmbiosData.vouched_available h]
      exact uuidArray_vouched smbios.system
    simp only [reportPrintFirmwareSection, hcount, hitems, huuid,
      countWhere_vouched populated_vouched, each_vouched memoryDevice_vouched]
    rw [SmbiosData.vouched_available h]
    rfl

/-- A part that prints something only if it is available. -/
theorem part_vouched {α : Type} (f : α → ReportM δ Unit) (available : α → Bool) (blank : α)
    (hblank : f blank = pure ()) (hoff : ∀ a, available a = false → f a = pure ()) (a : α) :
    f (if available a then a else blank) = f a := by
  cases h : available a with
  | true => rfl
  | false => exact hblank.trans (hoff a h).symm

theorem acpiSection_vouched (acpi : AcpiData) :
    (reportPrintAcpiSection acpi.vouched : ReportM δ Unit) = reportPrintAcpiSection acpi := by
  have hfadt : (printFadt acpi.vouched.fadt : ReportM δ Unit) = printFadt acpi.fadt :=
    part_vouched printFadt AcpiFadtInfo.available {} rfl (fun _ h => by rw [printFadt, h]; rfl) _
  have hmadt : (printMadt acpi.vouched.madt : ReportM δ Unit) = printMadt acpi.madt :=
    part_vouched printMadt AcpiMadtInfo.available {} rfl (fun _ h => by rw [printMadt, h]; rfl) _
  have hmcfg : (printMcfg acpi.vouched.mcfg : ReportM δ Unit) = printMcfg acpi.mcfg :=
    part_vouched printMcfg AcpiMcfgInfo.available {} rfl (fun _ h => by rw [printMcfg, h]; rfl) _
  have hhpet : (printHpet acpi.vouched.hpet : ReportM δ Unit) = printHpet acpi.hpet :=
    part_vouched printHpet AcpiHpetInfo.available {} rfl (fun _ h => by rw [printHpet, h]; rfl) _
  rw [reportPrintAcpiSection, hfadt, hmadt, hmcfg, hhpet]
  rfl

theorem class_vouched (d : PciDevice) :
    (printClass d.vouched : ReportM δ Unit) = printClass d := by
  cases h : d.classInfoAvailable with
  | true => simp only [printClass, PciDevice.vouched, h, if_true]
  | false => simp only [printClass, PciDevice.vouched, h, Bool.false_eq_true, if_false]

theorem interrupt_vouched (d : PciDevice) :
    (printInterrupt d.vouched : ReportM δ Unit) = printInterrupt d := by
  cases h : d.interruptAvailable with
  | true => simp only [printInterrupt, PciDevice.vouched, h, if_true]
  | false => simp only [printInterrupt, PciDevice.vouched, h, Bool.false_eq_true, if_false]

theorem pciDevice_vouched (d : PciDevice) :
    (printPciDevice d.vouched : ReportM δ Unit) = printPciDevice d := by
  rw [printPciDevice, class_vouched, interrupt_vouched]
  rfl

theorem pciSection_vouched (pci : PciEnumeration) :
    (reportPrintPciSection pci.vouched : ReportM δ Unit) = reportPrintPciSection pci := by
  have hcount : pci.vouched.devices.count = pci.devices.count := List.length_map _
  have hitems : pci.vouched.devices.items = pci.devices.items.map PciDevice.vouched := rfl
  rw [reportPrintPciSection, hcount, hitems, each_vouched pciDevice_vouched]
  rfl

theorem drive_vouched (d : StorageDevice) :
    (printDrive d.vouched : ReportM δ Unit) = printDrive d := by
  have hcapacity : (printCapacity d.vouched : ReportM δ Unit) = printCapacity d := by
    cases h : d.capacityAvailable with
    | true => simp only [printCapacity, StorageDevice.vouched, h, if_true]
    | false => simp only [printCapacity, StorageDevice.vouched, h, Bool.false_eq_true, if_false]
  rw [printDrive, hcapacity]
  rfl

theorem storageSection_vouched (storage : Capped StorageDevice storageMaxDevices) :
    (reportPrintStorageSection (storage.map StorageDevice.vouched) : ReportM δ Unit) =
      reportPrintStorageSection storage := by
  have hcount : (storage.map StorageDevice.vouched).count = storage.count := List.length_map _
  have hitems : (storage.map StorageDevice.vouched).items =
      storage.items.map StorageDevice.vouched := rfl
  rw [reportPrintStorageSection, hcount, hitems, each_vouched drive_vouched]
  rfl

end Sections

/-!
## The display controllers
-/

section Gpu
variable {δ : Type}

def PciDevice.isDisplay (d : PciDevice) : Bool := d.classInfoAvailable && d.classCode == 0x03

def printMemoryRange (res : PciResource) : ReportM δ Unit :=
  printf "           MEM 0x%016llX len=0x%llX%s\n"
    [.ullong res.base, .ullong res.length,
      .string (if res.isPrefetchable then literal " (prefetchable, likely VRAM aperture)"
        else literal "")]

/-- One display controller with its memory ranges. -/
def printDisplay (d : PciDevice) : ReportM δ Unit := do
  printf "%02X:%02X.%X  %04X:%04X  %s\n"
    [.byte d.bus, .byte d.device, .byte d.function, .word d.vendorId, .word d.deviceId,
      .string (nz d.description.array)]
  Prog.each printMemoryRange (d.resources.items.filter PciResource.isMemory)

/-- A loop that skips some elements. -/
theorem each_filter {α : Type} {p : α → Bool} {f g : α → ReportM δ Unit}
    (hskip : ∀ a, p a = false → f a = pure ()) (hsame : ∀ a, p a = true → f a = g a)
    (items : List α) : Prog.each f items = Prog.each g (items.filter p) := by
  induction items with
  | nil => rfl
  | cons a items ih =>
    cases h : p a with
    | true => rw [List.filter_cons_of_pos h, Prog.each, Prog.each, hsame a h, ih]
    | false =>
      rw [List.filter_cons_of_neg (by rw [h]; exact Bool.false_ne_true), Prog.each, hskip a h, ih]
      rfl

theorem apertures_eq (resources : List PciResource) :
    (Prog.each printAperture resources : ReportM δ Unit) =
      Prog.each printMemoryRange (resources.filter PciResource.isMemory) := by
  refine each_filter (fun res h => ?_) (fun res h => ?_) resources
  · rw [printAperture, h]
    rfl
  · rw [printAperture, h]
    rfl

theorem gpuLoop_other {d : PciDevice} (h : d.isDisplay = false) (devices : List PciDevice)
    (found : UInt32) :
    (gpuLoop (d :: devices) found : ReportM δ UInt32) = gpuLoop devices found := by
  refine if_pos ?_
  rwa [PciDevice.isDisplay, Bool.and_eq_false_iff, beq_eq_false_iff_ne] at h

theorem gpuLoop_display {d : PciDevice} (h : d.isDisplay = true) (devices : List PciDevice)
    (found : UInt32) : (gpuLoop (d :: devices) found : ReportM δ UInt32) =
      printDisplay d >>= fun _ => gpuLoop devices (found + 1) := by
  obtain ⟨hinfo, hcode⟩ := Bool.and_eq_true_iff.mp h
  have hneg : ¬(d.classInfoAvailable = false ∨ d.classCode ≠ 0x03) := by
    rintro (hno | hother)
    · exact absurd hinfo (Bool.eq_false_iff.mp hno)
    · exact hother (eq_of_beq hcode)
  refine (if_neg hneg).trans ?_
  rw [apertures_eq, printDisplay, Prog.bind_assoc]

theorem gpuLoop_eq (devices : List PciDevice) (found : UInt32) :
    (gpuLoop devices found : ReportM δ UInt32) =
      Prog.each printDisplay (devices.filter PciDevice.isDisplay) >>= fun _ =>
        pure (found + UInt32.ofNat (devices.filter PciDevice.isDisplay).length) := by
  induction devices generalizing found with
  | nil =>
    rw [List.filter_nil, List.length_nil]
    exact congrArg pure (UInt32.add_zero found).symm
  | cons d devices ih =>
    cases h : d.isDisplay with
    | false =>
      rw [gpuLoop_other h, ih, List.filter_cons_of_neg (by rw [h]; exact Bool.false_ne_true)]
    | true =>
      have hnext : found + 1 + UInt32.ofNat (devices.filter PciDevice.isDisplay).length =
          found + UInt32.ofNat ((devices.filter PciDevice.isDisplay).length + 1) := by
        rw [UInt32.ofNat_add, UInt32.add_assoc, UInt32.add_comm 1]
        rfl
      rw [gpuLoop_display h, ih, List.filter_cons_of_pos h, List.length_cons, hnext, Prog.each,
        Prog.bind_assoc]

def printNoDisplay (displays : List PciDevice) : ReportM δ Unit :=
  if displays.isEmpty then printf "No display controllers found via PCI class 03.\n" [] else pure ()

/-- The section for some display controllers. -/
def displayListing (displays : List PciDevice) : ReportM δ Unit := do
  printf "GPU\n" []
  printRule
  Prog.each printDisplay displays
  printNoDisplay displays
  printNote

theorem found_zero_iff {displays : List PciDevice} (h : displays.length ≤ pciMaxDevices) :
    (0 : UInt32) + UInt32.ofNat displays.length = 0 ↔ displays.isEmpty = true := by
  have hmax : pciMaxDevices = 512 := rfl
  rw [UInt32.zero_add, ← UInt32.toNat_inj, UInt32.toNat_ofNat', Nat.mod_eq_of_lt (by omega),
    List.isEmpty_iff_length_eq_zero]
  rfl

theorem gpuSection_eq (pci : PciEnumeration) : (reportPrintGpuSection pci : ReportM δ Unit) =
    displayListing (pci.devices.items.filter PciDevice.isDisplay) := by
  have hlen : (pci.devices.items.filter PciDevice.isDisplay).length ≤ pciMaxDevices :=
    Nat.le_trans (List.length_filter_le _ _) pci.devices.le_cap
  have hnone : (printNoGpu (0 + UInt32.ofNat
      (pci.devices.items.filter PciDevice.isDisplay).length) : ReportM δ Unit) =
      printNoDisplay (pci.devices.items.filter PciDevice.isDisplay) := by
    simp only [printNoGpu, printNoDisplay, found_zero_iff hlen]
  rw [reportPrintGpuSection, displayListing, gpuLoop_eq, ← hnone, Prog.bind_assoc]
  rfl

theorem isDisplay_vouched (d : PciDevice) : d.vouched.isDisplay = d.isDisplay := by
  cases h : d.classInfoAvailable with
  | true => simp only [PciDevice.isDisplay, PciDevice.vouched, h, if_true]
  | false => simp only [PciDevice.isDisplay, PciDevice.vouched, h, Bool.false_and]

theorem gpuSection_vouched (pci : PciEnumeration) :
    (reportPrintGpuSection pci.vouched : ReportM δ Unit) = reportPrintGpuSection pci := by
  have hfilter : pci.vouched.devices.items.filter PciDevice.isDisplay =
      (pci.devices.items.filter PciDevice.isDisplay).map PciDevice.vouched := by
    change (pci.devices.items.map PciDevice.vouched).filter PciDevice.isDisplay = _
    rw [List.filter_map]
    simp only [Function.comp_def, isDisplay_vouched]
  have hdisplay : ∀ d : PciDevice, (printDisplay d.vouched : ReportM δ Unit) = printDisplay d :=
    fun _ => rfl
  rw [gpuSection_eq, gpuSection_eq, hfilter, displayListing, displayListing, printNoDisplay,
    printNoDisplay, List.isEmpty_map, each_vouched hdisplay]

end Gpu

section Report
variable {δ : Type}

theorem countWhere_toNat {α : Type} {cap : Nat} (p : α → Bool) (c : Capped α cap)
    (hcap : cap < 2 ^ 32) : (countWhere p c.items).toNat = c.items.countP p := by
  have hcount : ∀ (items : List α) (n : UInt32), n.toNat + items.length < 2 ^ 32 →
      (items.foldl (fun n a => if p a then n + 1 else n) n).toNat = n.toNat + items.countP p := by
    intro items
    induction items with
    | nil => exact fun n _ => rfl
    | cons a items ih =>
      intro n hn
      rw [List.length_cons] at hn
      rw [List.foldl_cons, List.countP_cons]
      split
      · have hone : (n + 1).toNat = n.toNat + 1 := by
          rw [UInt32.toNat_add]
          exact Nat.mod_eq_of_lt (by rw [UInt32.toNat_one]; omega)
        rw [ih (n + 1) (by omega), hone, Nat.add_right_comm, Nat.add_assoc]
      · rw [ih n (by omega), Nat.add_zero]
  have hlen := c.le_cap
  rw [countWhere, hcount c.items 0 (by rw [UInt32.toNat_zero]; omega), UInt32.toNat_zero,
    Nat.zero_add]

/-- What a report shows of its records. -/
structure ReportShows (zero : δ) (r : Records δ) : Prop where
  vouched : printReport (r.vouched zero) = printReport r
  displays : (reportPrintGpuSection r.pci : ReportM δ Unit) =
    displayListing (r.pci.devices.items.filter PciDevice.isDisplay)
  populated : (countWhere SmbiosMemoryDevice.populated r.smbios.memoryDevices.items).toNat =
    r.smbios.memoryDevices.items.countP SmbiosMemoryDevice.populated
  enabled : (countWhere AcpiProcessorEntry.enabled r.acpi.madt.processors.items).toNat =
    r.acpi.madt.processors.items.countP AcpiProcessorEntry.enabled

end Report
end HwMon
