import HwMon.Lib.Probe
import HwMon.Lib.Bytes

/-!
# Data of the CPU identification

The records of `cpu_id.h`. The processor and the operating system are asked
questions: `CPUID` for a leaf and a subleaf, `XGETBV` for a register, and the
two ways to count processors.
-/

namespace HwMon
set_option autoImplicit false

structure CpuidResult where
  eax : UInt32
  ebx : UInt32
  ecx : UInt32
  edx : UInt32
  deriving DecidableEq, Repr

/-- A `char` array with all its bytes. -/
structure CharArray (size : Nat) where
  bytes : List UInt8
  length_eq : bytes.length = size
  deriving DecidableEq

def CharArray.zero (size : Nat) : CharArray size := ⟨List.replicate size 0, List.length_replicate⟩

inductive CpuVendor where
  | unknown
  | intel
  | amd
  deriving DecidableEq, Repr

structure CpuFeatures where
  sse : Bool := false
  sse2 : Bool := false
  sse3 : Bool := false
  ssse3 : Bool := false
  sse41 : Bool := false
  sse42 : Bool := false
  avx : Bool := false
  avx2 : Bool := false
  avx512f : Bool := false
  aes : Bool := false
  bmi1 : Bool := false
  bmi2 : Bool := false
  fma : Bool := false
  sha : Bool := false
  vmx : Bool := false
  svm : Bool := false
  rdtscp : Bool := false
  invariantTsc : Bool := false
  hypervisorPresent : Bool := false
  osxsave : Bool := false
  avxOsEnabled : Bool := false
  avx512OsEnabled : Bool := false
  deriving DecidableEq, Repr

structure CpuTopology where
  smtPerCore : UInt32 := 0
  logicalPerPackage : UInt32 := 0
  topologyAvailable : Bool := false
  deriving DecidableEq, Repr

structure CpuIdentity where
  vendor : CpuVendor := .unknown
  vendorString : CharArray 13 := .zero 13
  brandString : CharArray 49 := .zero 49
  brandStringAvailable : Bool := false
  family : UInt32 := 0
  model : UInt32 := 0
  stepping : UInt32 := 0
  maxBasicLeaf : UInt32 := 0
  maxExtendedLeaf : UInt32 := 0
  logicalProcessorsSystem : UInt32 := 0
  features : CpuFeatures := {}
  topology : CpuTopology := {}
  deriving DecidableEq

inductive CpuQuery where
  | cpuid (leaf subleaf : UInt32)
  | xgetbv (index : UInt32)
  | activeProcessorCount
  | systemProcessorCount
  deriving DecidableEq, Repr

abbrev CpuQuery.Answer : CpuQuery → Type
  | .cpuid _ _ => CpuidResult
  | .xgetbv _ => UInt64
  | .activeProcessorCount => UInt32
  | .systemProcessorCount => UInt32

/-- What a processor answers to each question. -/
abbrev Cpu := ∀ q : CpuQuery, q.Answer

abbrev CpuAccess := Access CpuQuery Empty

abbrev CpuProbe (α : Type) := Probe CpuQuery CpuQuery.Answer Empty α

def cpuidAsm (leaf subleaf : UInt32) : CpuProbe CpuidResult :=
  .ask (CpuQuery.cpuid leaf subleaf)

def xgetbvAsm (index : UInt32) : CpuProbe UInt64 := .ask (CpuQuery.xgetbv index)

def getActiveProcessorCount : CpuProbe UInt32 := .ask CpuQuery.activeProcessorCount

/-- `dwNumberOfProcessors` of `GetSystemInfo`. -/
def getSystemProcessorCount : CpuProbe UInt32 := .ask CpuQuery.systemProcessorCount

section Primitives
variable (m : Cpu) (leaf subleaf index : UInt32)

@[simp] theorem cpuidAsm_val : (cpuidAsm leaf subleaf).val m = m (.cpuid leaf subleaf) := rfl

@[simp] theorem cpuidAsm_log : (cpuidAsm leaf subleaf).log m = [.read (.cpuid leaf subleaf)] := rfl

variable {m} {leaf subleaf index}

@[simp] theorem always_cpuidAsm {P : CpuAccess → Prop} :
    (cpuidAsm leaf subleaf).Always P m ↔ P (.read (.cpuid leaf subleaf)) := Probe.always_ask _

@[simp] theorem always_xgetbvAsm {P : CpuAccess → Prop} :
    (xgetbvAsm index).Always P m ↔ P (.read (.xgetbv index)) := Probe.always_ask _

end Primitives
end HwMon
