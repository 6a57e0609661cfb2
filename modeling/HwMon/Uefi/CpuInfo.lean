import HwMon.Cpu.Gating

/-!
# Two descriptions of one processor

`PrintCpuInfo` of `HwMonUefi.c` reads the processor on its own. What it prints is
what `cpu_id_collect` puts into its record, for every processor that has leaf 1.
-/

namespace HwMon
set_option autoImplicit false

inductive CpuLine where
  | title
  | vendor (vendor : CharArray 13)
  | familyModel (family model stepping : UInt32)
  | features (texts : List String)
  | brand (brand : CharArray 49)
  | blank
  deriving DecidableEq

/-- `AsmCpuid`, for leaves that have no subleaves. -/
def asmCpuid (index : UInt32) : CpuProbe CpuidResult := cpuidAsm index 0

theorem uefiVendor_length (r : CpuidResult) :
    (leBytes 4 r.ebx.toNat ++ leBytes 4 r.edx.toNat ++ leBytes 4 r.ecx.toNat ++ [0]).length =
      13 := by
  simp only [List.length_append, leBytes_length, List.length_singleton]

/-- The `CopyMem` calls for `Vendor`. -/
def uefiVendor (r : CpuidResult) : CharArray 13 where
  bytes := leBytes 4 r.ebx.toNat ++ leBytes 4 r.edx.toNat ++ leBytes 4 r.ecx.toNat ++ [0]
  length_eq := uefiVendor_length r

/-- The block that computes `Family`, `Model` and `Stepping`. -/
def uefiFamilyModel (eax : UInt32) : CpuLine :=
  let baseFamily := (eax >>> 8) &&& 0xF
  let baseModel := (eax >>> 4) &&& 0xF
  let extFamily := (eax >>> 20) &&& 0xFF
  let extModel := (eax >>> 16) &&& 0xF
  let stepping := eax &&& 0xF
  let family := if baseFamily = 0xF then baseFamily + extFamily else baseFamily
  let model := if baseFamily = 0x6 ∨ baseFamily = 0xF then (extModel <<< 4) ||| baseModel
    else baseModel
  .familyModel family model stepping

/-- One argument of the line of features. -/
def featureText (present : Bool) (text : String) : List String := if present then [text] else []

def uefiFeatures (r : CpuidResult) : CpuLine :=
  .features (featureText (bit r.edx 25) "SSE " ++ featureText (bit r.edx 26) "SSE2 " ++
    featureText (bit r.ecx 0) "SSE3 " ++ featureText (bit r.ecx 28) "AVX " ++
    featureText (bit r.ecx 5) "VMX " ++ featureText (bit r.ecx 31) "[under hypervisor] ")

/-- The `CopyMem` calls for `Brand`. -/
def uefiBrand (r2 r3 r4 : CpuidResult) : CharArray 49 where
  bytes :=
    leBytes 4 r2.eax.toNat ++ leBytes 4 r2.ebx.toNat ++ leBytes 4 r2.ecx.toNat ++
    leBytes 4 r2.edx.toNat ++
    (leBytes 4 r3.eax.toNat ++ leBytes 4 r3.ebx.toNat ++ leBytes 4 r3.ecx.toNat ++
    leBytes 4 r3.edx.toNat) ++
    (leBytes 4 r4.eax.toNat ++ leBytes 4 r4.ebx.toNat ++ leBytes 4 r4.ecx.toNat ++
    leBytes 4 r4.edx.toNat) ++ [0]
  length_eq := by simp

def printCpuInfo : CpuProbe (List CpuLine) := do
  let leaf0 ← asmCpuid 0
  let leaf1 ← asmCpuid 1
  let leaf80 ← asmCpuid 0x80000000
  let maxExtLeaf := leaf80.eax
  let brand : List CpuLine ←
    if maxExtLeaf ≥ 0x80000004 then do
      let r2 ← asmCpuid 0x80000002
      let r3 ← asmCpuid 0x80000003
      let r4 ← asmCpuid 0x80000004
      pure [.brand (uefiBrand r2 r3 r4)]
    else pure []
  pure ([.title, .vendor (uefiVendor leaf0), uefiFamilyModel leaf1.eax, uefiFeatures leaf1] ++
    brand ++ [.blank])

/-- The line of features for a record of `cpu_id_collect`. -/
def CpuFeatures.uefiLine (f : CpuFeatures) : CpuLine :=
  .features (featureText f.sse "SSE " ++ featureText f.sse2 "SSE2 " ++
    featureText f.sse3 "SSE3 " ++ featureText f.avx "AVX " ++ featureText f.vmx "VMX " ++
    featureText f.hypervisorPresent "[under hypervisor] ")

def CpuIdentity.uefiLines (id : CpuIdentity) : List CpuLine :=
  [.title, .vendor id.vendorString, .familyModel id.family id.model id.stepping,
    id.features.uefiLine] ++
  (if id.brandStringAvailable then [.brand id.brandString] else []) ++ [.blank]

/-!
## The two brand conditions

`cpu_id_collect` masks the answer to leaf 0x80000000 and `PrintCpuInfo` does not.
-/

theorem top_bit {x : UInt32} (h : x ≥ 0x80000004) : x &&& 0x80000000 ≠ 0 := by
  have hx : x.toNat < 2 ^ 32 := x.toNat_lt
  have hlow : 0x80000004 ≤ x.toNat := UInt32.le_iff_toNat_le.mp h
  have hmask : (0x80000000 : UInt32).toNat = (2 ^ 1 - 1) * 2 ^ 31 := by decide
  intro hzero
  have hand : (x &&& 0x80000000).toNat = 0 := by
    rw [hzero]
    rfl
  rw [UInt32.toNat_and, hmask, and_mask] at hand
  omega

theorem extendedLimit_large (m : Cpu) :
    ¬extendedLimit m < 0x80000004 ↔ (m (.cpuid 0x80000000 0)).eax ≥ 0x80000004 := by
  unfold extendedLimit
  rw [UInt32.not_lt]
  constructor
  · intro h
    by_cases htop : (m (.cpuid 0x80000000 0)).eax &&& 0x80000000 ≠ 0
    · rwa [if_pos htop] at h
    · rw [if_neg htop] at h
      exact absurd h (by decide)
  · intro h
    rwa [if_pos (top_bit h)]

/-!
## Flags that only leaf 1 reports
-/

namespace CpuFeatures

/-- The flags that `PrintCpuInfo` prints. -/
def printedFlags (f : CpuFeatures) : List Bool :=
  [f.sse, f.sse2, f.sse3, f.avx, f.vmx, f.hypervisorPresent]

theorem uefiLine_of_printedFlags {f g : CpuFeatures} (h : f.printedFlags = g.printedFlags) :
    f.uefiLine = g.uefiLine := by
  simp only [printedFlags, List.cons.injEq, and_true] at h
  obtain ⟨hsse, hsse2, hsse3, havx, hvmx, hhypervisor⟩ := h
  unfold uefiLine
  rw [hsse, hsse2, hsse3, havx, hvmx, hhypervisor]

end CpuFeatures

theorem collectFeatures_printed (m : Cpu) (maxBasicLeaf maxExtendedLeaf : UInt32)
    (leaf1 : CpuidResult) (vendor : CpuVendor) :
    ((collectFeatures maxBasicLeaf maxExtendedLeaf leaf1 vendor).val m).printedFlags =
      (leaf1Features leaf1).printedFlags := by
  open CpuFeatures in
  unfold collectFeatures
  simp only [↓Probe.val_bind]
  rw [osFeatures_keeps printedFlags fun _ _ _ _ => rfl,
    leafFeatures_keeps reportLeaf87 printedFlags fun _ _ => rfl,
    leafFeatures_keeps (reportLeaf81 vendor) printedFlags fun _ _ => rfl,
    leafFeatures_keeps reportLeaf7 printedFlags fun _ _ => rfl]

/-!
## Agreement
-/

section Agreement
variable {m : Cpu}

theorem collectBrandString_printed :
    (if ((collectBrandString (extendedLimit m)).val m).1 then
        [CpuLine.brand ((collectBrandString (extendedLimit m)).val m).2] else []) =
      if (m (.cpuid 0x80000000 0)).eax ≥ 0x80000004 then
        [.brand (uefiBrand (m (.cpuid 0x80000002 0)) (m (.cpuid 0x80000003 0))
          (m (.cpuid 0x80000004 0)))] else [] := by
  unfold collectBrandString
  by_cases hlarge : (m (.cpuid 0x80000000 0)).eax ≥ 0x80000004
  · rw [if_pos hlarge, if_neg ((extendedLimit_large m).mpr hlarge)]
    rfl
  · rw [if_neg hlarge, if_pos (not_not.mp (mt (extendedLimit_large m).mp hlarge))]
    rfl

theorem printCpuInfo_val : printCpuInfo.val m =
    [.title, .vendor (uefiVendor (m (.cpuid 0 0))), uefiFamilyModel (m (.cpuid 1 0)).eax,
      uefiFeatures (m (.cpuid 1 0))] ++
    (if (m (.cpuid 0x80000000 0)).eax ≥ 0x80000004 then
      [.brand (uefiBrand (m (.cpuid 0x80000002 0)) (m (.cpuid 0x80000003 0))
        (m (.cpuid 0x80000004 0)))] else []) ++ [.blank] := by
  unfold printCpuInfo asmCpuid
  simp only [↓Probe.val_bind, ↓Probe.val_ite, cpuidAsm_val, Probe.val_pure]
  split
  · rfl
  · rfl

theorem printCpuInfo_log : printCpuInfo.log m =
    .read (.cpuid 0 0) :: .read (.cpuid 1 0) :: .read (.cpuid 0x80000000 0) ::
      (collectBrandString (extendedLimit m)).log m := by
  unfold printCpuInfo asmCpuid collectBrandString
  simp only [↓Probe.log_bind, ↓Probe.log_ite, cpuidAsm_val, cpuidAsm_log, Probe.log_pure]
  by_cases hlarge : (m (.cpuid 0x80000000 0)).eax ≥ 0x80000004
  · rw [if_pos hlarge, if_neg ((extendedLimit_large m).mpr hlarge)]
    rfl
  · rw [if_neg hlarge, if_pos (not_not.mp (mt (extendedLimit_large m).mp hlarge))]
    rfl

/-- The lines are those of the record, and no leaf is read that `cpu_id_collect` does
not read. -/
theorem printCpuInfo_agrees (h : 1 ≤ (m (.cpuid 0 0)).eax) :
    printCpuInfo.val m = (cpuIdCollect.val m).2.uefiLines ∧
      (printCpuInfo.log m).Sublist (cpuIdCollect.log m) := by
  have hlarge : ¬(m (.cpuid 0 0)).eax < 1 := UInt32.not_lt.mpr h
  obtain ⟨hlog, hfeatures⟩ := cpuIdCollect_large hlarge
  constructor
  · have hline : (cpuIdCollect.val m).2.features.uefiLine = uefiFeatures (m (.cpuid 1 0)) := by
      rw [hfeatures]
      exact CpuFeatures.uefiLine_of_printedFlags (collectFeatures_printed m _ _ _ _)
    have hrest : (cpuIdCollect.val m).2.uefiLines =
        [.title, .vendor (vendorFromLeaf0 (m (.cpuid 0 0))), uefiFamilyModel (m (.cpuid 1 0)).eax,
          (cpuIdCollect.val m).2.features.uefiLine] ++
        (if ((collectBrandString (extendedLimit m)).val m).1 then
          [CpuLine.brand ((collectBrandString (extendedLimit m)).val m).2] else []) ++ [.blank] := by
      unfold cpuIdCollect
      simp only [↓Probe.val_bind, ↓Probe.val_ite, cpuidAsm_val, if_neg hlarge, Probe.val_pure]
      rfl
    rw [hrest, hline, collectBrandString_printed, printCpuInfo_val]
    rfl
  · rw [hlog, printCpuInfo_log]
    apply List.Sublist.cons_cons
    apply List.Sublist.cons_cons
    apply List.Sublist.cons_cons
    exact List.sublist_append_left _ _

/-- A processor whose leaves all answer with the limit that they have themselves. -/
def uniformCpu : Cpu
  | .cpuid leaf _ => ⟨if leaf ≥ 0x80000000 then 0x80000008 else 0x16, 0x756E6547, 0x6C65746E,
      0x49656E69⟩
  | .xgetbv _ => 7
  | .activeProcessorCount => 8
  | .systemProcessorCount => 8

theorem uniformCpu_agrees :
    printCpuInfo.val uniformCpu = (cpuIdCollect.val uniformCpu).2.uefiLines ∧
    (printCpuInfo.log uniformCpu).Sublist (cpuIdCollect.log uniformCpu) :=
  printCpuInfo_agrees (by decide)

end Agreement
end HwMon
