import HwMon.Cpu.Data

/-!
# CPU identification

The functions of `cpu_id.c` over what the processor answers.
-/

namespace HwMon
set_option autoImplicit false

def vendorFromLeaf0 (r : CpuidResult) : CharArray 13 where
  bytes := leBytes 4 r.ebx.toNat ++ leBytes 4 r.edx.toNat ++ leBytes 4 r.ecx.toNat ++ [0]
  length_eq := by simp

def charBytes (s : String) : List UInt8 := s.toList.map fun c => UInt8.ofNat c.toNat

def classifyVendor (vendorString : CharArray 13) : CpuVendor :=
  if vendorString.bytes.take 12 = charBytes "GenuineIntel" then .intel
  else if vendorString.bytes.take 12 = charBytes "AuthenticAMD" then .amd
  else .unknown

/-- Family, model and stepping. -/
def decodeFamilyModelStepping (eax : UInt32) : UInt32 × UInt32 × UInt32 :=
  let baseFamily := (eax >>> 8) &&& 0xF
  let baseModel := (eax >>> 4) &&& 0xF
  let extFamily := (eax >>> 20) &&& 0xFF
  let extModel := (eax >>> 16) &&& 0xF
  (if baseFamily = 0xF then baseFamily + extFamily else baseFamily,
    if baseFamily = 0x6 ∨ baseFamily = 0xF then (extModel <<< 4) ||| baseModel else baseModel,
    eax &&& 0xF)

def CpuidResult.bytes (r : CpuidResult) : List UInt8 :=
  leBytes 4 r.eax.toNat ++ leBytes 4 r.ebx.toNat ++ leBytes 4 r.ecx.toNat ++ leBytes 4 r.edx.toNat

theorem CpuidResult.bytes_length (r : CpuidResult) : r.bytes.length = 16 := by
  simp [CpuidResult.bytes]

def brandFromLeaves (r2 r3 r4 : CpuidResult) : CharArray 49 where
  bytes := r2.bytes ++ r3.bytes ++ r4.bytes ++ [0]
  length_eq := by simp [CpuidResult.bytes_length]

/-- The array is all zeros on entry, so an unavailable string leaves it so. -/
def collectBrandString (maxExtendedLeaf : UInt32) : CpuProbe (Bool × CharArray 49) :=
  if maxExtendedLeaf < 0x80000004 then pure (false, .zero 49)
  else do
    let r2 ← cpuidAsm 0x80000002 0
    let r3 ← cpuidAsm 0x80000003 0
    let r4 ← cpuidAsm 0x80000004 0
    pure (true, brandFromLeaves r2 r3 r4)

def bit (x i : UInt32) : Bool := decide ((x >>> i) &&& 1 ≠ 0)

def leaf1Features (leaf1 : CpuidResult) : CpuFeatures where
  sse := bit leaf1.edx 25
  sse2 := bit leaf1.edx 26
  sse3 := bit leaf1.ecx 0
  ssse3 := bit leaf1.ecx 9
  sse41 := bit leaf1.ecx 19
  sse42 := bit leaf1.ecx 20
  aes := bit leaf1.ecx 25
  avx := bit leaf1.ecx 28
  fma := bit leaf1.ecx 12
  vmx := bit leaf1.ecx 5
  rdtscp := false
  hypervisorPresent := bit leaf1.ecx 31

/-- What a leaf reports is taken over if the leaf is within the limit. -/
def leafFeatures (limit leaf : UInt32) (report : CpuFeatures → CpuidResult → CpuFeatures)
    (f : CpuFeatures) : CpuProbe CpuFeatures :=
  if limit ≥ leaf then do
    let r ← cpuidAsm leaf 0
    pure (report f r)
  else pure f

def reportLeaf7 (f : CpuFeatures) (r7 : CpuidResult) : CpuFeatures :=
  { f with
    bmi1 := bit r7.ebx 3
    avx2 := bit r7.ebx 5
    bmi2 := bit r7.ebx 8
    avx512f := bit r7.ebx 16
    sha := bit r7.ebx 29 }

def reportLeaf81 (vendor : CpuVendor) (f : CpuFeatures) (r81 : CpuidResult) : CpuFeatures :=
  { f with
    rdtscp := bit r81.edx 27
    svm := if vendor = .amd then bit r81.ecx 2 else f.svm }

def reportLeaf87 (f : CpuFeatures) (r87 : CpuidResult) : CpuFeatures :=
  { f with invariantTsc := bit r87.edx 8 }

def bit64 (x i : UInt64) : Bool := decide ((x >>> i) &&& 1 ≠ 0)

/-- `XGETBV` faults unless the operating system has set `CR4.OSXSAVE`. -/
def osFeatures (leaf1 : CpuidResult) (f : CpuFeatures) : CpuProbe CpuFeatures :=
  let f := { f with osxsave := bit leaf1.ecx 27 }
  if f.osxsave then do
    let xcr0 ← xgetbvAsm 0
    let avxOsEnabled := bit64 xcr0 0 && bit64 xcr0 1 && bit64 xcr0 2
    pure { f with
      avxOsEnabled := avxOsEnabled
      avx512OsEnabled := avxOsEnabled && bit64 xcr0 5 && bit64 xcr0 6 && bit64 xcr0 7 }
  else pure f

def collectFeatures (maxBasicLeaf maxExtendedLeaf : UInt32) (leaf1 : CpuidResult)
    (vendor : CpuVendor) : CpuProbe CpuFeatures := do
  let f ← leafFeatures maxBasicLeaf 7 reportLeaf7 (leaf1Features leaf1)
  let f ← leafFeatures maxExtendedLeaf 0x80000001 (reportLeaf81 vendor) f
  let f ← leafFeatures maxExtendedLeaf 0x80000007 reportLeaf87 f
  osFeatures leaf1 f

def levelType (r : CpuidResult) : UInt32 := (r.ecx >>> 8) &&& 0xFF

def logicalAtLevel (r : CpuidResult) : UInt32 := r.ebx &&& 0xFFFF

/-- The widths of the SMT level and of the widest level, after one more level. -/
def nextWidths (widths : UInt32 × UInt32) (r : CpuidResult) : UInt32 × UInt32 :=
  (if levelType r = 1 then logicalAtLevel r else widths.1, logicalAtLevel r)

/-- The `for` loop of `collect_topology`, with `left` equal to `16 - subleaf`: after
subleaf 16 the loop breaks. -/
def topologyLoop (leaf : UInt32) : Nat → UInt32 → UInt32 × UInt32 → CpuProbe (UInt32 × UInt32)
  | 0, subleaf, widths => do
    let r ← cpuidAsm leaf subleaf
    if levelType r = 0 then pure widths else pure (nextWidths widths r)
  | left + 1, subleaf, widths => do
    let r ← cpuidAsm leaf subleaf
    if levelType r = 0 then pure widths
    else topologyLoop leaf left (subleaf + 1) (nextWidths widths r)

/-- The leaf with the extended topology, if one is implemented. -/
def topologyLeaf (maxBasicLeaf : UInt32) : CpuProbe (Option UInt32) :=
  if maxBasicLeaf < 0x0B then pure none
  else do
    let leaf : UInt32 := if maxBasicLeaf ≥ 0x1F then 0x1F else 0x0B
    let r0 ← cpuidAsm leaf 0
    if levelType r0 = 0 then
      if leaf = 0x1F then do
        let r0 ← cpuidAsm 0x0B 0
        if levelType r0 = 0 then pure none else pure (some 0x0B)
      else pure none
    else pure (some leaf)

def collectTopology (maxBasicLeaf : UInt32) : CpuProbe CpuTopology := do
  let leaf ← topologyLeaf maxBasicLeaf
  match leaf with
  | none => pure {}
  | some leaf => do
    let widths ← topologyLoop leaf 16 0 (0, 0)
    if widths.2 > 0 then
      pure { smtPerCore := widths.1, logicalPerPackage := widths.2, topologyAvailable := true }
    else pure {}

def queryOsLogicalProcessorCount : CpuProbe UInt32 := do
  let count ← getActiveProcessorCount
  if count = 0 then getSystemProcessorCount else pure count

/-- `cpu_id_collect` with a record to fill: its result and the record. -/
def cpuIdCollect : CpuProbe (Bool × CpuIdentity) := do
  let leaf0 ← cpuidAsm 0 0
  let vendorString := vendorFromLeaf0 leaf0
  let vendor := classifyVendor vendorString
  let out : CpuIdentity :=
    { maxBasicLeaf := leaf0.eax, vendorString := vendorString, vendor := vendor }
  if leaf0.eax < 1 then pure (true, out)
  else do
    let leaf1 ← cpuidAsm 1 0
    let signature := decodeFamilyModelStepping leaf1.eax
    let leaf80 ← cpuidAsm 0x80000000 0
    let maxExtendedLeaf := if leaf80.eax &&& 0x80000000 ≠ 0 then leaf80.eax else 0
    let brand ← collectBrandString maxExtendedLeaf
    let features ← collectFeatures leaf0.eax maxExtendedLeaf leaf1 vendor
    let topology ← collectTopology leaf0.eax
    let count ← queryOsLogicalProcessorCount
    pure (true, { out with
      family := signature.1
      model := signature.2.1
      stepping := signature.2.2
      maxExtendedLeaf := maxExtendedLeaf
      brandStringAvailable := brand.1
      brandString := brand.2
      features := features
      topology := topology
      logicalProcessorsSystem := count })

end HwMon
