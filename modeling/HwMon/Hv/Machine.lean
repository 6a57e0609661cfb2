import HwMon.Lib.Prog
import HwMon.Cpu.Data
import HwMon.Hv.Fields

/-!
# The processor under the hypervisor skeleton

One call of `HvTryLaunch` runs against an environment, which fixes what the
processor and the kernel answer, and a state. A VMX instruction that is executed
in non-root operation is not carried out: it ends in a VM exit.
-/

namespace HwMon
set_option autoImplicit false

inductive VmxMode where
  | off
  | root
  | nonRoot
  deriving DecidableEq, Repr

structure HvDescriptorTableRegister where
  limit : UInt16
  base : UInt64
  deriving DecidableEq, Repr

structure HvContext where
  rsp : UInt64
  rip : UInt64
  eFlags : UInt32
  deriving DecidableEq, Repr

inductive VmlaunchResult where
  /-- The guest runs. -/
  | enters
  /-- VM entry fails on the guest state, which is a VM exit with the given reason. -/
  | entryFails (reason : UInt64)
  /-- VMLAUNCH returns with a VM-instruction error. -/
  | refused (error : UInt64)
  deriving DecidableEq, Repr

structure HvEnv where
  cpuid : UInt32 → UInt32 → CpuidResult
  msr : UInt32 → UInt64
  cr0 : UInt64
  cr3 : UInt64
  es : UInt16
  cs : UInt16
  ss : UInt16
  ds : UInt16
  fs : UInt16
  gs : UInt16
  ldtr : UInt16
  tr : UInt16
  gdtr : HvDescriptorTableRegister
  idtr : HvDescriptorTableRegister
  memory : UInt64 → UInt8
  /-- `MmAllocateContiguousMemory`; zero if it fails. -/
  allocation : UInt64
  physical : UInt64 → UInt64
  context : HvContext
  /-- The result codes of VMXON, VMCLEAR and VMPTRLD for a physical address. -/
  vmxOnResult : UInt64 → UInt8
  vmclearResult : UInt64 → UInt8
  vmptrldResult : UInt64 → UInt8
  vmlaunchResult : VmlaunchResult
  exitHandler : UInt64

inductive HvEvent where
  | dbgPrint (format : String) (args : List UInt64)
  | allocate (block : UInt64)
  | free (block : UInt64)
  | zeroMemory (address : UInt64) (size : Nat)
  | writeDword (address : UInt64) (value : UInt32)
  | writecr4 (value : UInt64)
  | vmxOn (phys : UInt64)
  | vmclear (phys : UInt64)
  | vmptrld (phys : UInt64)
  | vmwrite (field : UInt32) (value : UInt64)
  | vmread (field : UInt32)
  | vmlaunch
  /-- VMXOFF, with the mode in which it is executed. -/
  | vmxOff (mode : VmxMode)
  deriving DecidableEq, Repr

structure HvState where
  cr4 : UInt64
  mode : VmxMode
  gHvState : UInt64
  vmcs : UInt32 → UInt64
  log : List HvEvent

/-- Why the code of `HvTryLaunch` does not go on. -/
inductive HvStop where
  /-- VM entry: the guest goes on at the RIP of the VMCS. -/
  | launched
  /-- VM exit: the host goes on in `HvExitHandler`. -/
  | vmExit
  deriving DecidableEq, Repr

abbrev HvM (α : Type) := Prog HvEnv HvState HvStop α

namespace HvState

def note (w : HvEvent) (s : HvState) : HvState := { s with log := s.log ++ [w] }

def setField (field : UInt32) (value : UInt64) (s : HvState) : HvState :=
  { s with vmcs := fun f => if f = field then value else s.vmcs f }

/-- A VM exit for the given basic reason. -/
def exit (reason : UInt64) (s : HvState) : HvState :=
  { s.setField vmcsVmExitReason reason with mode := .root }

end HvState

def hvNote (w : HvEvent) : HvM Unit := .modify (HvState.note w)

def dbgPrint (format : String) (args : List UInt64) : HvM Unit := hvNote (.dbgPrint format args)

def cpuidex (leaf subleaf : UInt32) : HvM CpuidResult := .env fun e => e.cpuid leaf subleaf

def readMsr (msr : UInt32) : HvM UInt64 := .env fun e => e.msr msr

def readcr4 : HvM UInt64 := .get HvState.cr4

def writecr4 (value : UInt64) : HvM Unit := do
  hvNote (.writecr4 value)
  .modify fun s => { s with cr4 := value }

/-- In non-root operation a VMX instruction causes a VM exit, there being no VMCS shadowing. -/
def vmxInstruction {α : Type} (reason : UInt64) (body : HvM α) : HvM α := do
  let mode ← .get HvState.mode
  if mode = .nonRoot then .stop .vmExit (HvState.exit reason) else body

def vmxOn (phys : UInt64) : HvM UInt8 := vmxInstruction 27 do
  hvNote (.vmxOn phys)
  let result ← .env fun e => e.vmxOnResult phys
  if result = 0 then do
    .modify fun s => { s with mode := .root }
    pure result
  else pure result

def vmclear (phys : UInt64) : HvM UInt8 := vmxInstruction 19 do
  hvNote (.vmclear phys)
  .env fun e => e.vmclearResult phys

def vmptrld (phys : UInt64) : HvM UInt8 := vmxInstruction 21 do
  hvNote (.vmptrld phys)
  .env fun e => e.vmptrldResult phys

def vmwrite (field : UInt32) (value : UInt64) : HvM Unit := vmxInstruction 25 do
  hvNote (.vmwrite field value)
  .modify (HvState.setField field value)

def vmread (field : UInt32) : HvM UInt64 := vmxInstruction 23 do
  hvNote (.vmread field)
  .get fun s => s.vmcs field

def vmlaunch : HvM Unit := vmxInstruction 20 do
  hvNote .vmlaunch
  let result ← .env HvEnv.vmlaunchResult
  match result with
  | .enters => .stop .launched fun s => { s with mode := .nonRoot }
  | .entryFails reason => .stop .vmExit (HvState.exit reason)
  | .refused error => .modify (HvState.setField vmcsVmInstructionError error)

def vmxOff : HvM Unit := vmxInstruction 26 do
  let mode ← .get HvState.mode
  hvNote (.vmxOff mode)
  .modify fun s => { s with mode := .off }

end HwMon
