import HwMon.Acpi.Collect
import HwMon.Firmware.Collect
import HwMon.Output.LogLines
import HwMon.Output.Report

/-!
# The program

`main.c`: the collectors one after the other, then the report. The heap, the handles of
drives, the calls for the telemetry and `stdout` are parts of one state. A collector that
fails is named in a warning, and the report goes on with an empty record for it.
-/

namespace HwMon
set_option autoImplicit false

/-- Everything that the program runs on. -/
structure Platform (δ : Type) where
  cpu : Cpu
  doubles : Doubles δ
  telemetry : TelemetryOs
  host : HostOs
  resSizes : ResSizes
  /-- What `SetupDiGetClassDevsA` leads to. -/
  devices : Option (List PciEntry)
  pciBuffers : PciBuffers
  drives : DriveOs
  printer : Printer δ
  /-- What the stack holds where the buffer of `log_write` is. -/
  logStack : Mem

structure ProgramState where
  heap : Heap
  drives : Store OpenDrive
  telemetry : List TelemetryCall
  stdout : List UInt8

inductive ProgramFault where
  | heap (fault : HeapFault)
  | handle (fault : HandleFault)
  | printf (fault : PrintfFault)
  deriving DecidableEq, Repr

abbrev MainM (δ α : Type) := Prog (Platform δ) ProgramState ProgramFault α

section Parts
variable {δ α : Type}

def onHeap (p : FirmwareM α) : MainM δ α :=
  p.within Platform.host ProgramState.heap (fun s heap => { s with heap }) .heap

def onDrives (p : DriveM α) : MainM δ α :=
  p.within Platform.drives ProgramState.drives (fun s drives => { s with drives }) .handle

def onSystem (p : TelemetryM α) : MainM δ α :=
  p.within Platform.telemetry ProgramState.telemetry (fun s telemetry => { s with telemetry })
    Empty.elim

def onStdout (p : ReportM δ α) : MainM δ α :=
  p.within Platform.printer ProgramState.stdout (fun s stdout => { s with stdout }) .printf

/-- The logger after the first three calls of `main`. -/
def mainLogger : LoggerState (List UInt8) :=
  loggerSetMinLevel logInfo (loggerSetBackend (some consoleLoggerCreate) {})

def logLine (level : LogLevel) (text : String) : MainM δ Unit :=
  ⟨fun e s => (.ok (), { s with
    stdout := logWrite mainLogger ⟨level, some (charBytes text), e.logStack⟩ s.stdout })⟩

/-- A collector with the warning and the `memset` for the case that it fails. -/
def collectOr (warning : String) (blank : α) (p : MainM δ (Bool × α)) : MainM δ α := do
  let r ← p
  if r.1 = true then pure r.2
  else do
    logLine logWarning warning
    pure blank

def cpuTelemetry (windowMs : UInt32) (invariantTsc : Bool) : MainM δ (Bool × CpuTelemetry δ) := do
  let d ← Prog.env Platform.doubles
  onSystem (cpuTelemetrySample d windowMs invariantTsc)

def main : MainM δ Int32 := do
  let cpu ← Prog.env fun e => cpuIdCollect.val e.cpu
  if cpu.1 = false then do
    logLine logError "CPUID unavailable; cannot continue."
    pure 1
  else do
    let telemetry ← cpuTelemetry 150 cpu.2.features.invariantTsc
    let smbios ← collectOr "SMBIOS table unavailable." {} (onHeap smbiosCollectOnHeap)
    let acpi ← collectOr "ACPI tables unavailable." {} (onHeap acpiCollectOnHeap)
    let pci ← collectOr "PCI enumeration unavailable." {}
      (Prog.env fun e => pciEnumerate e.resSizes e.devices e.pciBuffers)
    let memory ← collectOr "Memory info unavailable." {} (onHeap memoryInfoCollectOnHeap)
    let storage ← collectOr "Storage enumeration unavailable." .empty (onDrives storageEnumerate)
    onStdout (printReport
      { cpu := cpu.2, telemetry := telemetry.2, memory, smbios, acpi, pci, storage })
    pure 0

end Parts

/-!
## A run of the program
-/

/-- The record that is printed for a collector. -/
def settled {α : Type} (blank : α) (r : Bool × α) : α := if r.1 = true then r.2 else blank

/-- What is printed as soon as a collector has failed. -/
def warningFor {α : Type} (warning : String) (r : Bool × α) : List UInt8 :=
  if r.1 = true then [] else levelTag logWarning ++ charBytes warning ++ [newline]

/-- What the collectors returned. -/
structure Collected (δ : Type) where
  telemetry : CpuTelemetry δ
  smbios : Bool × SmbiosData
  acpi : Bool × AcpiData
  pci : Bool × PciEnumeration
  memory : Bool × MemoryInfo
  storage : Bool × Capped StorageDevice storageMaxDevices

namespace Collected
variable {δ : Type} (c : Collected δ)

def records (m : Cpu) : Records δ where
  cpu := (cpuIdCollect.val m).2
  telemetry := c.telemetry
  memory := settled {} c.memory
  smbios := settled {} c.smbios
  acpi := settled {} c.acpi
  pci := settled {} c.pci
  storage := settled .empty c.storage

def warnings : List UInt8 :=
  warningFor "SMBIOS table unavailable." c.smbios ++
    (warningFor "ACPI tables unavailable." c.acpi ++
      (warningFor "PCI enumeration unavailable." c.pci ++
        (warningFor "Memory info unavailable." c.memory ++
          warningFor "Storage enumeration unavailable." c.storage)))

/-- Each record comes from what the platform delivered between two states. -/
structure From (p : Platform δ) (s t : ProgramState) : Prop where
  telemetry : Telemetered p.doubles p.telemetry 150 (cpuIdCollect.val p.cpu).2.features.invariantTsc
    s.telemetry c.telemetry t.telemetry
  smbios : ∃ table, Delivered p.host smbiosContent s.heap t.heap table ∧
    c.smbios = smbiosCollect table
  acpi : ∃ tables, AcpiDelivered p.host s.heap t.heap tables ∧ c.acpi = acpiCollect tables
  pci : c.pci = pciEnumerate p.resSizes p.devices p.pciBuffers
  memory : ∃ n table, (s.heap.calls ≤ n ∧ n ≤ t.heap.calls) ∧
    Delivered p.host smbiosContent s.heap t.heap table ∧
    c.memory = memoryInfoCollect (p.host.memoryStatus n) table
  storage : ∃ ns, Found p.drives 0 storageMaxDevices s.drives t.drives ns ∧
    c.storage.1 = true ∧ c.storage.2.items = p.drives.devices 0 ns

end Collected

/-- A run that ends well: nothing is left allocated or open that was not before, and behind
the warnings stands the report of what the collectors returned. -/
structure MainRun {δ : Type} (p : Platform δ) (s : ProgramState) (status : Int32)
    (t : ProgramState) : Prop where
  status : status = 0
  heap : s.heap.Keeps t.heap
  drives : s.drives.Keeps t.drives
  stdout : ∃ c : Collected δ, c.From p s t ∧ ∃ text,
    (printReport (c.records p.cpu)).run p.printer [] = (.ok (), text) ∧
    t.stdout = s.stdout ++ c.warnings ++ text

section Rules
variable {δ α : Type} {p : Platform δ} {s : ProgramState}

theorem returns_logLine {level : LogLevel} {text : String} (hlevel : ¬level < logInfo)
    (hfits : (levelTag level).length + (charBytes text).length + 1 < logBufferSize) :
    (logLine level text).Returns p s fun _ t =>
      t = { s with stdout := s.stdout ++ (levelTag level ++ charBytes text ++ [newline]) } := by
  refine ⟨(), _, rfl, ?_⟩
  have hwrite : logWrite (loggerTo consoleWrite logInfo)
      ⟨level, some (charBytes text), p.logStack⟩ s.stdout = _ :=
    logWrite_loggerTo _ consoleWrite _ _
  have hcall : LogCall.Fits ⟨level, some (charBytes text), p.logStack⟩ := hfits
  rw [if_neg hlevel, LogCall.message, if_pos hcall] at hwrite
  exact congrArg (fun out => { s with stdout := out }) hwrite

theorem returns_collectOr {warning : String} {blank : α} {q : MainM δ (Bool × α)}
    {R : Bool × α → ProgramState → Prop} (hq : q.Returns p s R)
    (hfits : (levelTag logWarning).length + (charBytes warning).length + 1 < logBufferSize) :
    (collectOr warning blank q).Returns p s fun a t => ∃ r u, R r u ∧ a = settled blank r ∧
      t = { u with stdout := u.stdout ++ warningFor warning r } := by
  refine hq.bind fun r u hr => ?_
  refine Prog.returns_ite (fun hok => ?_) fun hfailed => ?_
  · refine Prog.returns_pure ⟨r, u, hr, (if_pos hok).symm, ?_⟩
    rw [warningFor, if_pos hok, List.append_nil]
  · refine (returns_logLine (by decide) hfits).bind fun _ v hv => ?_
    refine Prog.returns_pure ⟨r, u, hr, (if_neg hfailed).symm, ?_⟩
    rw [warningFor, if_neg hfailed]
    exact hv

end Rules

section Strings

theorem vendorFromLeaf0_terminated (r : CpuidResult) : 0 ∈ (vendorFromLeaf0 r).bytes :=
  List.mem_append_right _ List.mem_cons_self

theorem zero_terminated (size : Nat) : 0 ∈ (CharArray.zero (size + 1)).bytes :=
  List.mem_replicate.mpr ⟨Nat.succ_ne_zero size, rfl⟩

theorem collectBrandString_terminated (m : Cpu) (limit : UInt32) :
    0 ∈ ((collectBrandString limit).val m).2.bytes := by
  rw [collectBrandString, Probe.val_ite]
  split
  · exact zero_terminated 48
  · exact List.mem_append_right _ List.mem_cons_self

/-- The processor is always identified, and both strings are terminated. -/
theorem cpuIdCollect_proper (m : Cpu) : (cpuIdCollect.val m).1 = true ∧
    0 ∈ (cpuIdCollect.val m).2.vendorString.bytes ∧
    0 ∈ (cpuIdCollect.val m).2.brandString.bytes := by
  have hvendor := vendorFromLeaf0_terminated (m (.cpuid 0 0))
  unfold cpuIdCollect
  simp only [↓Probe.val_bind, ↓Probe.val_ite, cpuidAsm_val, Probe.val_pure]
  split
  · exact ⟨rfl, hvendor, zero_terminated 48⟩
  · exact ⟨rfl, hvendor, collectBrandString_terminated m _⟩

theorem acpiCollect_proper (tables : Option (List (Option (List UInt8)))) :
    ∀ s ∈ (settled {} (acpiCollect tables)).discovered.items, 0 ∈ s.signature ∧ 0 ∈ s.oemId := by
  cases tables with
  | none => exact fun s hs => absurd hs List.not_mem_nil
  | some ts =>
    intro s hs
    change s ∈ (acpiLoop {} ts).discovered.items at hs
    rw [acpiLoop_discovered] at hs
    obtain ⟨raw, _, rfl⟩ := List.mem_map.mp hs
    exact ⟨List.mem_append_right _ List.mem_cons_self,
      List.mem_append_right _ List.mem_cons_self⟩

end Strings

section Run
variable {δ : Type} {p : Platform δ} {s t u : ProgramState}

theorem AcpiDelivered.widen {os : HostOs} {h h' t t' : Heap}
    {tables : Option (List (Option (List UInt8)))} (hd : AcpiDelivered os h' t tables)
    (hh : h.calls ≤ h'.calls) (ht : t.calls ≤ t'.calls) : AcpiDelivered os h t' tables := by
  cases tables with
  | none => exact Refused.widen hd hh ht
  | some ts =>
    obtain ⟨n, hn, hne, hlen, hdelivered, hend⟩ := hd
    exact ⟨n, hn.widen hh ht, hne, hlen, fun j table hj => (hdelivered j table hj).widen hh ht,
      hend⟩

theorem records_proper {c : Collected δ} (hacpi : ∃ tables, c.acpi = acpiCollect tables) :
    (c.records p.cpu).Proper := by
  obtain ⟨tables, htables⟩ := hacpi
  obtain ⟨-, hvendor, hbrand⟩ := cpuIdCollect_proper p.cpu
  refine ⟨hvendor, hbrand, ?_⟩
  change ∀ s ∈ (settled {} c.acpi).discovered.items, _
  rw [htables]
  exact acpiCollect_proper tables

theorem returns_report {r : Records δ} (h : r.Proper) :
    (onStdout (printReport r)).Returns p s fun _ t => ∃ text,
      (printReport r).run p.printer [] = (.ok (), text) ∧
      t = { s with stdout := s.stdout ++ text } := by
  obtain ⟨_, text, hrun⟩ := printing_report (e := p.printer) h
  have hreturns : (printReport r).Returns p.printer s.stdout fun _ out => out = s.stdout ++ text :=
    ⟨_, _, hrun s.stdout, rfl⟩
  refine (Prog.returns_within hreturns).mono fun _ t ht => ?_
  obtain ⟨out, rfl, rfl⟩ := ht
  exact ⟨text, hrun [], rfl⟩

theorem returns_cpuTelemetry (windowMs : UInt32) (invariantTsc : Bool) :
    (cpuTelemetry windowMs invariantTsc).Returns p s fun r t => ∃ log,
      t = { s with telemetry := log } ∧ Telemetered p.doubles p.telemetry
        (if windowMs = 0 then 100 else windowMs) invariantTsc s.telemetry r.2 log := by
  refine (Prog.returns_env _).bind fun d _ hd => ?_
  obtain ⟨rfl, rfl⟩ := hd
  refine (Prog.returns_within (returns_cpuTelemetrySample windowMs invariantTsc)).mono
    fun r t ht => ?_
  obtain ⟨log, rfl, -, htelemetered⟩ := ht
  exact ⟨log, rfl, htelemetered⟩

theorem returns_storageEnumerate {os : DriveOs} (h : Store OpenDrive) :
    storageEnumerate.Returns os h fun r t => h.Keeps t ∧ ∃ ns,
      Found os 0 storageMaxDevices h t ns ∧ r.1 = true ∧ r.2.items = os.devices 0 ns := by
  have hroom : (Capped.empty : Capped StorageDevice storageMaxDevices).count +
      storageMaxDevices ≤ storageMaxDevices := by decide
  refine (returns_storageLoop storageMaxDevices hroom h).bind fun out t ht => ?_
  obtain ⟨hkeeps, ns, hns, hitems⟩ := ht
  exact Prog.returns_pure ⟨hkeeps, ns, hns, rfl, hitems⟩

end Run
end HwMon
