import HwMon.Cpu.Topology
import HwMon.Lib.Trace

/-!
# Capabilities are checked before use

`CPUID` is executed for a leaf only within the limits that leaf 0 and leaf
0x80000000 have reported, and `XGETBV` only after leaf 1 has reported OSXSAVE.
A feature flag is set only by the instruction that reports it.
-/

namespace HwMon
set_option autoImplicit false

/-- What must have been reported before an instruction is executed. -/
def Permitted (m : Cpu) (before : List CpuAccess) : CpuAccess → Prop
  | .read (.cpuid leaf _) =>
    leaf = 0 ∨ leaf = 0x80000000 ∨
    (leaf < 0x80000000 ∧ .read (.cpuid 0 0) ∈ before ∧ leaf ≤ (m (.cpuid 0 0)).eax) ∨
    (leaf > 0x80000000 ∧ .read (.cpuid 0x80000000 0) ∈ before ∧
      (m (.cpuid 0x80000000 0)).eax &&& 0x80000000 ≠ 0 ∧ leaf ≤ (m (.cpuid 0x80000000 0)).eax)
  | .read (.xgetbv index) =>
    index = 0 ∧ .read (.cpuid 1 0) ∈ before ∧ bit (m (.cpuid 1 0)).ecx 27 = true
  | _ => True

def isCpuid : CpuAccess → Bool
  | .read (.cpuid _ _) => true
  | _ => false

def isXgetbv : CpuAccess → Bool
  | .read (.xgetbv _) => true
  | _ => false

namespace CpuFeatures
variable (f : CpuFeatures)

def leaf1Flags : List Bool :=
  [f.sse, f.sse2, f.sse3, f.ssse3, f.sse41, f.sse42, f.avx, f.aes, f.fma, f.vmx,
    f.hypervisorPresent, f.osxsave]

def leaf7Flags : List Bool := [f.avx2, f.avx512f, f.bmi1, f.bmi2, f.sha]

def leaf81Flags : List Bool := [f.svm, f.rdtscp]

def leaf87Flags : List Bool := [f.invariantTsc]

def xcr0Flags : List Bool := [f.avxOsEnabled, f.avx512OsEnabled]

end CpuFeatures

/-- The feature flags with the instruction that reports them. -/
def flagSources : List (CpuQuery × (CpuFeatures → List Bool)) :=
  [(.cpuid 1 0, CpuFeatures.leaf1Flags), (.cpuid 7 0, CpuFeatures.leaf7Flags),
    (.cpuid 0x80000001 0, CpuFeatures.leaf81Flags),
    (.cpuid 0x80000007 0, CpuFeatures.leaf87Flags), (.xgetbv 0, CpuFeatures.xcr0Flags)]

/-- Every feature flag has a source. -/
theorem flagSources_cover {f : CpuFeatures} (h : ∀ s ∈ flagSources, ∀ b ∈ s.2 f, b = false) :
    f = {} := by
  simp only [flagSources, CpuFeatures.leaf1Flags, CpuFeatures.leaf7Flags, CpuFeatures.leaf81Flags,
    CpuFeatures.leaf87Flags, CpuFeatures.xcr0Flags, List.forall_mem_cons, List.not_mem_nil,
    false_implies, forall_const, and_true] at h
  cases f
  simp_all

structure CapabilitiesChecked (m : Cpu) (log : List CpuAccess) (f : CpuFeatures) : Prop where
  permitted : Everywhere (fun before a _ => Permitted m before a) log
  xgetbvOnce : log.countP isXgetbv ≤ 1
  cpuidBounded : log.countP isCpuid ≤ 28
  unreported : ∀ s ∈ flagSources, .read s.1 ∉ log → ∀ b ∈ s.2 f, b = false

/-!
## Every instruction is within the limits
-/

/-- Inside the given limits, which are fixed once the first three leaves are read. -/
def Within (maxBasicLeaf maxExtendedLeaf : UInt32) (osxsave : Bool) : CpuAccess → Prop
  | .read (.cpuid leaf _) =>
    (leaf < 0x80000000 ∧ leaf ≤ maxBasicLeaf) ∨ (leaf > 0x80000000 ∧ leaf ≤ maxExtendedLeaf)
  | .read (.xgetbv index) => index = 0 ∧ osxsave = true
  | _ => True

section Limits
variable {m : Cpu} {maxBasicLeaf maxExtendedLeaf : UInt32} {osxsave : Bool}

theorem within_basic {leaf subleaf : UInt32} (hleaf : leaf < 0x80000000)
    (h : leaf ≤ maxBasicLeaf) :
    Within maxBasicLeaf maxExtendedLeaf osxsave (.read (.cpuid leaf subleaf)) :=
  Or.inl ⟨hleaf, h⟩

theorem within_extended {leaf subleaf : UInt32} (hleaf : leaf > 0x80000000)
    (h : leaf ≤ maxExtendedLeaf) :
    Within maxBasicLeaf maxExtendedLeaf osxsave (.read (.cpuid leaf subleaf)) :=
  Or.inr ⟨hleaf, h⟩

theorem collectBrandString_within :
    (collectBrandString maxExtendedLeaf).Always
      (Within maxBasicLeaf maxExtendedLeaf osxsave) m := by
  unfold collectBrandString
  apply Probe.always_ite
  · intro _
    exact Probe.always_pure _
  · intro hsmall
    have hlarge : maxExtendedLeaf ≥ 0x80000004 := UInt32.not_lt.mp hsmall
    simp only [Probe.always_bind, always_cpuidAsm, Probe.always_pure, and_true]
    refine ⟨within_extended (by decide) (UInt32.le_trans (by decide) hlarge),
      within_extended (by decide) (UInt32.le_trans (by decide) hlarge),
      within_extended (by decide) hlarge⟩

theorem leafFeatures_within {limit leaf : UInt32}
    (h : limit ≥ leaf → ∀ subleaf,
      Within maxBasicLeaf maxExtendedLeaf osxsave (.read (.cpuid leaf subleaf)))
    (report : CpuFeatures → CpuidResult → CpuFeatures) (f : CpuFeatures) :
    (leafFeatures limit leaf report f).Always
      (Within maxBasicLeaf maxExtendedLeaf osxsave) m := by
  unfold leafFeatures
  apply Probe.always_ite
  · intro hlimit
    simp only [Probe.always_bind, always_cpuidAsm, Probe.always_pure, and_true]
    exact h hlimit 0
  · intro _
    exact Probe.always_pure _

theorem osFeatures_within (leaf1 : CpuidResult) (f : CpuFeatures) :
    (osFeatures leaf1 f).Always
      (Within maxBasicLeaf maxExtendedLeaf (bit leaf1.ecx 27)) m := by
  unfold osFeatures
  apply Probe.always_ite
  · intro h
    simp only [Probe.always_bind, always_xgetbvAsm, Probe.always_pure, and_true]
    exact ⟨rfl, h⟩
  · intro _
    exact Probe.always_pure _

theorem collectFeatures_within (leaf1 : CpuidResult) (vendor : CpuVendor) :
    (collectFeatures maxBasicLeaf maxExtendedLeaf leaf1 vendor).Always
      (Within maxBasicLeaf maxExtendedLeaf (bit leaf1.ecx 27)) m := by
  unfold collectFeatures
  simp only [Probe.always_bind]
  refine ⟨leafFeatures_within ?_ _ _, leafFeatures_within ?_ _ _, leafFeatures_within ?_ _ _,
    osFeatures_within leaf1 _⟩
  · exact fun h _ => within_basic (by decide) h
  · exact fun h _ => within_extended (by decide) h
  · exact fun h _ => within_extended (by decide) h

theorem topologyLoop_within {leaf : UInt32} (hleaf : leaf < 0x80000000)
    (h : leaf ≤ maxBasicLeaf) (left : Nat) (subleaf : UInt32) (w : UInt32 × UInt32) :
    (topologyLoop leaf left subleaf w).Always
      (Within maxBasicLeaf maxExtendedLeaf osxsave) m := by
  induction left generalizing subleaf w with
  | zero =>
    unfold topologyLoop
    simp only [Probe.always_bind, always_cpuidAsm]
    refine ⟨within_basic hleaf h, Probe.always_ite (fun _ => ?_) fun _ => ?_⟩
    · exact Probe.always_pure _
    · exact Probe.always_pure _
  | succ left ih =>
    unfold topologyLoop
    simp only [Probe.always_bind, always_cpuidAsm]
    refine ⟨within_basic hleaf h, Probe.always_ite (fun _ => ?_) fun _ => ?_⟩
    · exact Probe.always_pure _
    · exact ih _ _

theorem chosenLeaf_bounds {leaf : UInt32} (h : chosenLeaf m maxBasicLeaf = some leaf) :
    leaf < 0x80000000 ∧ leaf ≤ maxBasicLeaf := by
  unfold chosenLeaf at h
  split at h
  · rename_i hfirst
    cases h
    exact ⟨by decide, hfirst.1⟩
  · split at h
    · rename_i hsecond
      cases h
      exact ⟨by decide, hsecond.1⟩
    · cases h

theorem topologyLeaf_within :
    (topologyLeaf maxBasicLeaf).Always (Within maxBasicLeaf maxExtendedLeaf osxsave) m := by
  unfold topologyLeaf
  apply Probe.always_ite
  · intro _
    exact Probe.always_pure _
  · intro hsmall
    have hbasic : maxBasicLeaf ≥ 0x0B := UInt32.not_lt.mp hsmall
    simp only [Probe.always_bind, always_cpuidAsm]
    constructor
    · by_cases hwide : maxBasicLeaf ≥ 0x1F
      · rw [if_pos hwide]
        exact within_basic (by decide) hwide
      · rw [if_neg hwide]
        exact within_basic (by decide) hbasic
    · refine Probe.always_ite (fun _ => ?_) fun _ => Probe.always_pure _
      refine Probe.always_ite (fun _ => ?_) fun _ => Probe.always_pure _
      simp only [Probe.always_bind, always_cpuidAsm]
      refine ⟨within_basic (by decide) hbasic, Probe.always_ite (fun _ => ?_) fun _ => ?_⟩
      · exact Probe.always_pure _
      · exact Probe.always_pure _

theorem collectTopology_within :
    (collectTopology maxBasicLeaf).Always (Within maxBasicLeaf maxExtendedLeaf osxsave) m := by
  unfold collectTopology
  simp only [Probe.always_bind, topologyLeaf_val]
  refine ⟨topologyLeaf_within, ?_⟩
  cases h : chosenLeaf m maxBasicLeaf with
  | none => exact Probe.always_pure _
  | some leaf =>
    obtain ⟨hleaf, hle⟩ := chosenLeaf_bounds h
    simp only [Probe.always_bind]
    refine ⟨topologyLoop_within hleaf hle 16 0 (0, 0), Probe.always_ite (fun _ => ?_) fun _ => ?_⟩
    · exact Probe.always_pure _
    · exact Probe.always_pure _

theorem queryOsLogicalProcessorCount_within :
    queryOsLogicalProcessorCount.Always (Within maxBasicLeaf maxExtendedLeaf osxsave) m := by
  unfold queryOsLogicalProcessorCount getActiveProcessorCount getSystemProcessorCount
  simp only [Probe.always_bind, Probe.always_ask]
  refine ⟨trivial, Probe.always_ite (fun _ => ?_) fun _ => Probe.always_pure _⟩
  exact (Probe.always_ask _).mpr trivial

end Limits

/-!
## How often the instructions are executed
-/

section Counts
variable {m : Cpu} {maxBasicLeaf maxExtendedLeaf : UInt32} {f : CpuAccess → Bool}

/-- One instruction is at most one execution. -/
theorem cpuidAsm_tally_le (leaf subleaf : UInt32) : (cpuidAsm leaf subleaf).tally f m ≤ 1 := by
  unfold cpuidAsm
  rw [Probe.tally_ask]
  split
  · exact Nat.le_refl 1
  · exact Nat.zero_le 1

theorem collectBrandString_tally_le : (collectBrandString maxExtendedLeaf).tally f m ≤ 3 := by
  unfold collectBrandString
  apply Probe.tally_ite_le
  · intro _
    exact Nat.zero_le 3
  · intro _
    apply Probe.tally_bind_le (cpuidAsm_tally_le 0x80000002 0) (by decide)
    apply Probe.tally_bind_le (cpuidAsm_tally_le 0x80000003 0) (by decide)
    apply Probe.tally_bind_le (cpuidAsm_tally_le 0x80000004 0) (by decide)
    exact Nat.le_refl 0

theorem leafFeatures_tally_le (limit leaf : UInt32)
    (report : CpuFeatures → CpuidResult → CpuFeatures) (g : CpuFeatures) :
    (leafFeatures limit leaf report g).tally f m ≤ 1 := by
  unfold leafFeatures
  apply Probe.tally_ite_le
  · intro _
    exact Probe.tally_bind_le (cpuidAsm_tally_le leaf 0) (Nat.le_refl 1) (Nat.le_refl 0)
  · intro _
    exact Nat.zero_le 1

theorem osFeatures_tally_le (leaf1 : CpuidResult) (g : CpuFeatures) :
    (osFeatures leaf1 g).tally isCpuid m = 0 ∧ (osFeatures leaf1 g).tally isXgetbv m ≤ 1 := by
  unfold osFeatures
  refine ⟨Nat.le_zero.mp (Probe.tally_ite_le (fun _ => ?_) fun _ => ?_),
    Probe.tally_ite_le (fun _ => ?_) fun _ => ?_⟩
  · exact Nat.le_refl 0
  · exact Nat.le_refl 0
  · exact Nat.le_refl 1
  · exact Nat.zero_le 1

theorem topologyLoop_tally_le (leaf : UInt32) (left : Nat) (subleaf : UInt32)
    (w : UInt32 × UInt32) : (topologyLoop leaf left subleaf w).tally f m ≤ left + 1 := by
  induction left generalizing subleaf w with
  | zero =>
    unfold topologyLoop
    apply Probe.tally_bind_le (cpuidAsm_tally_le leaf subleaf) (by omega)
    exact Probe.tally_ite_le (fun _ => Nat.le_refl 0) fun _ => Nat.le_refl 0
  | succ left ih =>
    unfold topologyLoop
    apply Probe.tally_bind_le (cpuidAsm_tally_le leaf subleaf) (by omega)
    exact Probe.tally_ite_le (fun _ => Nat.zero_le _) fun _ => ih _ _

theorem topologyLeaf_tally_le : (topologyLeaf maxBasicLeaf).tally f m ≤ 2 := by
  unfold topologyLeaf
  apply Probe.tally_ite_le
  · intro _
    exact Nat.zero_le 2
  · intro _
    apply Probe.tally_bind_le (cpuidAsm_tally_le _ 0) (by decide)
    refine Probe.tally_ite_le (fun _ => ?_) fun _ => Nat.zero_le 1
    refine Probe.tally_ite_le (fun _ => ?_) fun _ => Nat.zero_le 1
    apply Probe.tally_bind_le (cpuidAsm_tally_le 0x0B 0) (by decide)
    exact Probe.tally_ite_le (fun _ => Nat.le_refl 0) fun _ => Nat.le_refl 0

theorem collectTopology_tally_le : (collectTopology maxBasicLeaf).tally f m ≤ 19 := by
  unfold collectTopology
  apply Probe.tally_bind_le topologyLeaf_tally_le (by decide)
  rw [topologyLeaf_val]
  cases chosenLeaf m maxBasicLeaf with
  | none => exact Nat.zero_le 17
  | some leaf =>
    apply Probe.tally_bind_le (topologyLoop_tally_le leaf 16 0 (0, 0)) (by decide)
    exact Probe.tally_ite_le (fun _ => Nat.le_refl 0) fun _ => Nat.le_refl 0

theorem queryOsLogicalProcessorCount_tally :
    queryOsLogicalProcessorCount.tally isCpuid m = 0 ∧
      queryOsLogicalProcessorCount.tally isXgetbv m = 0 := by
  unfold queryOsLogicalProcessorCount
  refine ⟨Nat.le_zero.mp ?_, Nat.le_zero.mp ?_⟩
  · apply Probe.tally_bind_le (Nat.le_refl 0) (Nat.le_refl 0)
    exact Probe.tally_ite_le (fun _ => Nat.le_refl 0) fun _ => Nat.le_refl 0
  · apply Probe.tally_bind_le (Nat.le_refl 0) (Nat.le_refl 0)
    exact Probe.tally_ite_le (fun _ => Nat.le_refl 0) fun _ => Nat.le_refl 0

/-- Without OSXSAVE the limits allow no `XGETBV`. -/
theorem tally_xgetbv_of_within {α : Type} {p : CpuProbe α}
    (h : p.Always (Within maxBasicLeaf maxExtendedLeaf false) m) : p.tally isXgetbv m = 0 := by
  apply Probe.tally_eq_zero h
  intro a ha
  cases a with
  | read q =>
    cases q with
    | xgetbv index => exact absurd ha.2 Bool.false_ne_true
    | cpuid leaf subleaf => rfl
    | activeProcessorCount => rfl
    | systemProcessorCount => rfl
  | note w => rfl

theorem collectFeatures_tally_le (leaf1 : CpuidResult) (vendor : CpuVendor) :
    (collectFeatures maxBasicLeaf maxExtendedLeaf leaf1 vendor).tally isCpuid m ≤ 3 ∧
      (collectFeatures maxBasicLeaf maxExtendedLeaf leaf1 vendor).tally isXgetbv m ≤ 1 := by
  unfold collectFeatures
  simp only [↓Probe.tally_bind]
  generalize hf1 : (leafFeatures maxBasicLeaf 7 reportLeaf7 (leaf1Features leaf1)).val m = f1
  generalize hf2 : (leafFeatures maxExtendedLeaf 0x80000001 (reportLeaf81 vendor) f1).val m = f2
  generalize hf3 : (leafFeatures maxExtendedLeaf 0x80000007 reportLeaf87 f2).val m = f3
  obtain ⟨hos, hxgetbv⟩ := osFeatures_tally_le (m := m) leaf1 f3
  constructor
  · have h7 := leafFeatures_tally_le (m := m) (f := isCpuid) maxBasicLeaf 7 reportLeaf7
      (leaf1Features leaf1)
    have h81 := leafFeatures_tally_le (m := m) (f := isCpuid) maxExtendedLeaf 0x80000001
      (reportLeaf81 vendor) f1
    have h87 := leafFeatures_tally_le (m := m) (f := isCpuid) maxExtendedLeaf 0x80000007
      reportLeaf87 f2
    omega
  · have hleaf : ∀ limit leaf report g,
        (leafFeatures limit leaf report g).tally isXgetbv m = 0 := by
      intro limit leaf report g
      unfold leafFeatures
      exact Nat.le_zero.mp (Probe.tally_ite_le (fun _ => Nat.le_refl 0) fun _ => Nat.le_refl 0)
    rw [hleaf, hleaf, hleaf]
    omega

end Counts

/-!
## Flags of instructions that are not executed
-/

section Flags
variable {m : Cpu} {limit leaf : UInt32} {report : CpuFeatures → CpuidResult → CpuFeatures}
variable {f : CpuFeatures}

theorem leafFeatures_unread (h : .read (.cpuid leaf 0) ∉ (leafFeatures limit leaf report f).log m) :
    (leafFeatures limit leaf report f).val m = f := by
  unfold leafFeatures at h ⊢
  by_cases hlimit : limit ≥ leaf
  · rw [if_pos hlimit] at h
    exact absurd List.mem_cons_self h
  · rw [if_neg hlimit]
    rfl

theorem leafFeatures_keeps (report : CpuFeatures → CpuidResult → CpuFeatures)
    (flags : CpuFeatures → List Bool) (h : ∀ f r, flags (report f r) = flags f) :
    flags ((leafFeatures limit leaf report f).val m) = flags f := by
  unfold leafFeatures
  by_cases hlimit : limit ≥ leaf
  · rw [if_pos hlimit]
    exact h f _
  · rw [if_neg hlimit]
    rfl

theorem osFeatures_unread {leaf1 : CpuidResult}
    (h : .read (.xgetbv 0) ∉ (osFeatures leaf1 f).log m) :
    (osFeatures leaf1 f).val m = { f with osxsave := bit leaf1.ecx 27 } := by
  unfold osFeatures at h ⊢
  by_cases hos : bit leaf1.ecx 27
  · simp only [if_pos hos] at h
    exact absurd List.mem_cons_self h
  · simp only [if_neg hos]
    rfl

theorem osFeatures_keeps {leaf1 : CpuidResult} (flags : CpuFeatures → List Bool)
    (h : ∀ f a b c, flags { f with osxsave := a, avxOsEnabled := b, avx512OsEnabled := c } =
      flags f) : flags ((osFeatures leaf1 f).val m) = flags f := by
  unfold osFeatures
  by_cases hos : bit leaf1.ecx 27
  · simp only [if_pos hos]
    exact h f _ _ _
  · simp only [if_neg hos]
    exact h f _ f.avxOsEnabled f.avx512OsEnabled

section Collect
open CpuFeatures
variable {maxBasicLeaf maxExtendedLeaf : UInt32} {leaf1 : CpuidResult} {vendor : CpuVendor}

theorem collectFeatures_leaf7 (h : .read (.cpuid 7 0) ∉
    (collectFeatures maxBasicLeaf maxExtendedLeaf leaf1 vendor).log m) :
    ((collectFeatures maxBasicLeaf maxExtendedLeaf leaf1 vendor).val m).leaf7Flags =
      leaf7Flags {} := by
  unfold collectFeatures at h ⊢
  simp only [↓Probe.log_bind, ↓Probe.val_bind, List.mem_append, not_or] at h ⊢
  rw [osFeatures_keeps leaf7Flags fun _ _ _ _ => rfl,
    leafFeatures_keeps reportLeaf87 leaf7Flags fun _ _ => rfl,
    leafFeatures_keeps (reportLeaf81 vendor) leaf7Flags fun _ _ => rfl, leafFeatures_unread h.1]
  rfl

theorem collectFeatures_leaf81 (h : .read (.cpuid 0x80000001 0) ∉
    (collectFeatures maxBasicLeaf maxExtendedLeaf leaf1 vendor).log m) :
    ((collectFeatures maxBasicLeaf maxExtendedLeaf leaf1 vendor).val m).leaf81Flags =
      leaf81Flags {} := by
  unfold collectFeatures at h ⊢
  simp only [↓Probe.log_bind, ↓Probe.val_bind, List.mem_append, not_or] at h ⊢
  rw [osFeatures_keeps leaf81Flags fun _ _ _ _ => rfl,
    leafFeatures_keeps reportLeaf87 leaf81Flags fun _ _ => rfl, leafFeatures_unread h.2.1,
    leafFeatures_keeps reportLeaf7 leaf81Flags fun _ _ => rfl]
  rfl

theorem collectFeatures_leaf87 (h : .read (.cpuid 0x80000007 0) ∉
    (collectFeatures maxBasicLeaf maxExtendedLeaf leaf1 vendor).log m) :
    ((collectFeatures maxBasicLeaf maxExtendedLeaf leaf1 vendor).val m).leaf87Flags =
      leaf87Flags {} := by
  unfold collectFeatures at h ⊢
  simp only [↓Probe.log_bind, ↓Probe.val_bind, List.mem_append, not_or] at h ⊢
  rw [osFeatures_keeps leaf87Flags fun _ _ _ _ => rfl, leafFeatures_unread h.2.2.1,
    leafFeatures_keeps (reportLeaf81 vendor) leaf87Flags fun _ _ => rfl,
    leafFeatures_keeps reportLeaf7 leaf87Flags fun _ _ => rfl]
  rfl

theorem collectFeatures_xcr0 (h : .read (.xgetbv 0) ∉
    (collectFeatures maxBasicLeaf maxExtendedLeaf leaf1 vendor).log m) :
    ((collectFeatures maxBasicLeaf maxExtendedLeaf leaf1 vendor).val m).xcr0Flags =
      xcr0Flags {} := by
  have hos : ∀ f : CpuFeatures,
      xcr0Flags { f with osxsave := bit leaf1.ecx 27 } = f.xcr0Flags := fun _ => rfl
  unfold collectFeatures at h ⊢
  simp only [↓Probe.log_bind, ↓Probe.val_bind, List.mem_append, not_or] at h ⊢
  rw [osFeatures_unread h.2.2.2, hos, leafFeatures_keeps reportLeaf87 xcr0Flags fun _ _ => rfl,
    leafFeatures_keeps (reportLeaf81 vendor) xcr0Flags fun _ _ => rfl,
    leafFeatures_keeps reportLeaf7 xcr0Flags fun _ _ => rfl]
  rfl

end Collect
end Flags

/-!
## The whole run
-/

section Run
variable (m : Cpu)

/-- The extended limit: what leaf 0x80000000 reports, if its top bit is set. -/
def extendedLimit : UInt32 :=
  if (m (.cpuid 0x80000000 0)).eax &&& 0x80000000 ≠ 0 then (m (.cpuid 0x80000000 0)).eax else 0

def vendorOf : CpuVendor := classifyVendor (vendorFromLeaf0 (m (.cpuid 0 0)))

/-- The features, as they are collected after the first three leaves. -/
def featuresProbe : CpuProbe CpuFeatures :=
  collectFeatures (m (.cpuid 0 0)).eax (extendedLimit m) (m (.cpuid 1 0)) (vendorOf m)

/-- What happens after the first three leaves. -/
def laterLog : List CpuAccess :=
  (collectBrandString (extendedLimit m)).log m ++ ((featuresProbe m).log m ++
    ((collectTopology (m (.cpuid 0 0)).eax).log m ++ queryOsLogicalProcessorCount.log m))

variable {m}

theorem cpuIdCollect_small (h : (m (.cpuid 0 0)).eax < 1) :
    cpuIdCollect.log m = [.read (.cpuid 0 0)] ∧ (cpuIdCollect.val m).2.features = {} := by
  unfold cpuIdCollect
  simp only [↓Probe.log_bind, ↓Probe.val_bind, ↓Probe.log_ite, ↓Probe.val_ite, cpuidAsm_val,
    cpuidAsm_log, if_pos h]
  exact ⟨rfl, rfl⟩

theorem cpuIdCollect_large (h : ¬(m (.cpuid 0 0)).eax < 1) :
    cpuIdCollect.log m = .read (.cpuid 0 0) :: .read (.cpuid 1 0) ::
        .read (.cpuid 0x80000000 0) :: laterLog m ∧
      (cpuIdCollect.val m).2.features = (featuresProbe m).val m := by
  unfold cpuIdCollect laterLog
  simp only [↓Probe.log_bind, ↓Probe.val_bind, ↓Probe.log_ite, ↓Probe.val_ite, cpuidAsm_val,
    cpuidAsm_log, if_neg h, Probe.log_pure, Probe.val_pure, List.append_nil]
  exact ⟨rfl, rfl⟩

theorem laterLog_within : ∀ a ∈ laterLog m,
    Within (m (.cpuid 0 0)).eax (extendedLimit m) (bit (m (.cpuid 1 0)).ecx 27) a := by
  intro a ha
  unfold laterLog at ha
  rcases List.mem_append.mp ha with ha | ha
  · exact collectBrandString_within a ha
  rcases List.mem_append.mp ha with ha | ha
  · exact collectFeatures_within _ _ a ha
  rcases List.mem_append.mp ha with ha | ha
  · exact collectTopology_within a ha
  · exact queryOsLogicalProcessorCount_within a ha

/-- An instruction within the limits is permitted once the limits are reported. -/
theorem permitted_of_within {a : CpuAccess} {before : List CpuAccess}
    (h : Within (m (.cpuid 0 0)).eax (extendedLimit m) (bit (m (.cpuid 1 0)).ecx 27) a)
    (h0 : .read (.cpuid 0 0) ∈ before) (h1 : .read (.cpuid 1 0) ∈ before)
    (h80 : .read (.cpuid 0x80000000 0) ∈ before) : Permitted m before a := by
  cases a with
  | note w => exact trivial
  | read q =>
    cases q with
    | activeProcessorCount => exact trivial
    | systemProcessorCount => exact trivial
    | xgetbv index => exact ⟨h.1, h1, h.2⟩
    | cpuid leaf subleaf =>
      rcases h with hbasic | hextended
      · exact Or.inr (Or.inr (Or.inl ⟨hbasic.1, h0, hbasic.2⟩))
      · obtain ⟨hleaf, hle⟩ := hextended
        unfold extendedLimit at hle
        split at hle
        · rename_i htop
          exact Or.inr (Or.inr (Or.inr ⟨hleaf, h80, htop, hle⟩))
        · have hpos : (0x80000000 : UInt32) < 0 := UInt32.lt_of_lt_of_le hleaf hle
          exact absurd hpos (by decide)

theorem laterLog_counts :
    (laterLog m).countP isCpuid ≤ 25 ∧ (laterLog m).countP isXgetbv ≤ 1 := by
  have hbrand : ((collectBrandString (extendedLimit m)).log m).countP isCpuid ≤ 3 :=
    collectBrandString_tally_le
  have htopology : ((collectTopology (m (.cpuid 0 0)).eax).log m).countP isCpuid ≤ 19 :=
    collectTopology_tally_le
  have hbrandWithin : (collectBrandString (extendedLimit m)).Always
      (Within 0 (extendedLimit m) false) m := collectBrandString_within
  have htopologyWithin : (collectTopology (m (.cpuid 0 0)).eax).Always
      (Within (m (.cpuid 0 0)).eax 0 false) m := collectTopology_within
  have hbrand' : ((collectBrandString (extendedLimit m)).log m).countP isXgetbv = 0 :=
    tally_xgetbv_of_within hbrandWithin
  have htopology' : ((collectTopology (m (.cpuid 0 0)).eax).log m).countP isXgetbv = 0 :=
    tally_xgetbv_of_within htopologyWithin
  have hfeatures : ((featuresProbe m).log m).countP isCpuid ≤ 3 ∧
      ((featuresProbe m).log m).countP isXgetbv ≤ 1 := collectFeatures_tally_le _ _
  have hcount : (queryOsLogicalProcessorCount.log m).countP isCpuid = 0 ∧
      (queryOsLogicalProcessorCount.log m).countP isXgetbv = 0 :=
    queryOsLogicalProcessorCount_tally
  unfold laterLog
  simp only [List.countP_append]
  omega

theorem mem_laterLog_of_features {a : CpuAccess} (h : a ∈ (featuresProbe m).log m) :
    a ∈ laterLog m := by
  apply List.mem_append_right
  exact List.mem_append_left _ h

/-- The feature flags whose instruction was not executed. -/
theorem cpuIdCollect_unreported : ∀ s ∈ flagSources, .read s.1 ∉ cpuIdCollect.log m →
    ∀ b ∈ s.2 (cpuIdCollect.val m).2.features, b = false := by
  have hempty : ∀ s ∈ flagSources, ∀ b ∈ s.2 {}, b = false := by decide
  by_cases hsmall : (m (.cpuid 0 0)).eax < 1
  · rw [(cpuIdCollect_small hsmall).2]
    exact fun s hs _ => hempty s hs
  obtain ⟨hlog, hfeatures⟩ := cpuIdCollect_large hsmall
  have hlater : ∀ q, .read q ∉ cpuIdCollect.log m → .read q ∉ (featuresProbe m).log m := by
    intro q hq hmem
    rw [hlog] at hq
    apply hq
    apply List.mem_cons_of_mem
    apply List.mem_cons_of_mem
    apply List.mem_cons_of_mem
    exact mem_laterLog_of_features hmem
  rw [hfeatures]
  simp only [flagSources, List.forall_mem_cons] at hempty ⊢
  obtain ⟨_, h7, h81, h87, hxcr0, _⟩ := hempty
  refine ⟨?_, ?_, ?_, ?_, ?_, fun s hs => absurd hs List.not_mem_nil⟩
  · intro h
    rw [hlog] at h
    exact absurd (List.mem_cons_of_mem _ List.mem_cons_self) h
  · intro h
    unfold featuresProbe
    rw [collectFeatures_leaf7 (hlater _ h)]
    exact h7
  · intro h
    unfold featuresProbe
    rw [collectFeatures_leaf81 (hlater _ h)]
    exact h81
  · intro h
    unfold featuresProbe
    rw [collectFeatures_leaf87 (hlater _ h)]
    exact h87
  · intro h
    unfold featuresProbe
    rw [collectFeatures_xcr0 (hlater _ h)]
    exact hxcr0

theorem cpuIdCollect_permitted :
    Everywhere (fun before a _ => Permitted m before a) (cpuIdCollect.log m) := by
  by_cases hsmall : (m (.cpuid 0 0)).eax < 1
  · rw [(cpuIdCollect_small hsmall).1]
    exact Everywhere.cons_iff.mpr ⟨Or.inl rfl, Everywhere.nil⟩
  rw [(cpuIdCollect_large hsmall).1]
  have hone : 1 ≤ (m (.cpuid 0 0)).eax := UInt32.not_lt.mp hsmall
  have hfirst : Permitted m [.read (.cpuid 0 0)] (.read (.cpuid 1 0)) :=
    Or.inr (Or.inr (Or.inl ⟨by decide, List.mem_cons_self, hone⟩))
  rw [Everywhere.cons_iff, Everywhere.cons_iff, Everywhere.cons_iff]
  refine ⟨Or.inl rfl, hfirst, Or.inr (Or.inl rfl), Everywhere.of_forall ?_⟩
  intro a ha before _
  apply permitted_of_within (laterLog_within a ha)
  · exact List.mem_cons_self
  · exact List.mem_cons_of_mem _ List.mem_cons_self
  · exact List.mem_cons_of_mem _ (List.mem_cons_of_mem _ List.mem_cons_self)

theorem cpuIdCollect_counts :
    (cpuIdCollect.log m).countP isXgetbv ≤ 1 ∧ (cpuIdCollect.log m).countP isCpuid ≤ 28 := by
  obtain ⟨hcpuid, hxgetbv⟩ := laterLog_counts (m := m)
  by_cases hsmall : (m (.cpuid 0 0)).eax < 1
  · rw [(cpuIdCollect_small hsmall).1]
    exact ⟨Nat.zero_le 1, Nat.le_add_left 1 27⟩
  · rw [(cpuIdCollect_large hsmall).1]
    simp only [List.countP_cons, isCpuid, isXgetbv, if_true, Bool.false_eq_true, if_false]
    omega

end Run

/-- In every run, whatever the processor answers. -/
theorem cpuIdCollect_checked (m : Cpu) :
    CapabilitiesChecked m (cpuIdCollect.log m) (cpuIdCollect.val m).2.features where
  permitted := cpuIdCollect_permitted
  xgetbvOnce := cpuIdCollect_counts.1
  cpuidBounded := cpuIdCollect_counts.2
  unreported := cpuIdCollect_unreported

end HwMon
