import HwMon.Hv.Guest
import HwMon.Lib.X64

/-!
# The VM-exit handler

`HvExitHandler` saves the general-purpose registers of the guest, calls
`HvHandleVmExit` on the saved block and restores them for VMRESUME. The pushes, the
fields of `HV_GUEST_REGISTERS` and the pops are three lists that have to mirror one
another.
-/

namespace HwMon
set_option autoImplicit false

inductive HvCallee where
  | hvHandleVmExit
  deriving DecidableEq, Repr

inductive HvLabel where
  | hvExitBail
  deriving DecidableEq, Repr

/-- The instructions at which the handler is left; `int 3` traps. -/
inductive HvLeave where
  | vmresume
  | int3
  deriving DecidableEq, Repr

abbrev HvInstr := Instr HvCallee HvLabel HvLeave

abbrev HostCpu := X64State HvState

def hvExitHandler : List HvInstr :=
  [.op (.push .rax),
   .op (.push .rcx),
   .op (.push .rdx),
   .op (.push .rbx),
   .op (.push .rbp),
   .op (.push .rsi),
   .op (.push .rdi),
   .op (.push .r8),
   .op (.push .r9),
   .op (.push .r10),
   .op (.push .r11),
   .op (.push .r12),
   .op (.push .r13),
   .op (.push .r14),
   .op (.push .r15),
   .op (.mov .rcx .rsp),
   .op (.sub .rsp 0x20),
   .call .hvHandleVmExit,
   .op (.add .rsp 0x20),
   .op (.testLow .rax),
   .jnz .hvExitBail,
   .op (.pop .r15),
   .op (.pop .r14),
   .op (.pop .r13),
   .op (.pop .r12),
   .op (.pop .r11),
   .op (.pop .r10),
   .op (.pop .r9),
   .op (.pop .r8),
   .op (.pop .rdi),
   .op (.pop .rsi),
   .op (.pop .rbp),
   .op (.pop .rbx),
   .op (.pop .rdx),
   .op (.pop .rcx),
   .op (.pop .rax),
   .leave .vmresume,
   .leave .int3]

def hvExitBail : List HvInstr := [.leave .int3]

def hvCode : HvLabel → List HvInstr
  | .hvExitBail => hvExitBail

namespace HvGuestRegisters
variable (regs : HvGuestRegisters)

/-- The fields in memory, in the order of their declaration. -/
def toQwords : List UInt64 :=
  [regs.r15, regs.r14, regs.r13, regs.r12, regs.r11, regs.r10, regs.r9, regs.r8, regs.rdi, regs.rsi,
    regs.rbp, regs.rbx, regs.rdx, regs.rcx, regs.rax]

/-- The registers of a processor that runs with these and the given RSP. -/
def registers (rsp : UInt64) : Reg64 → UInt64
  | .rax => regs.rax
  | .rcx => regs.rcx
  | .rdx => regs.rdx
  | .rbx => regs.rbx
  | .rsp => rsp
  | .rbp => regs.rbp
  | .rsi => regs.rsi
  | .rdi => regs.rdi
  | .r8 => regs.r8
  | .r9 => regs.r9
  | .r10 => regs.r10
  | .r11 => regs.r11
  | .r12 => regs.r12
  | .r13 => regs.r13
  | .r14 => regs.r14
  | .r15 => regs.r15

end HvGuestRegisters

/-- `HvHandleVmExit` gets the block at RCX and changes it in place; AL is its result. The
volatile registers and the rest of the memory may be anything afterwards. -/
def hvCalls (e : HvEnv) : HvCallee → HostCpu → HostCpu → Prop
  | .hvHandleVmExit, s, t => ∃ regs al regs',
    qwords s.mem (s.reg .rcx) 15 = regs.toQwords ∧
      (hvHandleVmExit regs).run e s.outside = (.ok (al, regs'), t.outside) ∧
      qwords t.mem (s.reg .rcx) 15 = regs'.toQwords ∧ (t.reg .rax).toUInt8 = al ∧
      KeepsNonvolatile s t

/-- The host just after a VM exit: the processor loads RSP and leaves the other
general-purpose registers of the guest in place. -/
def exitEntry (guest : HvGuestRegisters) (mem : UInt64 → UInt8) (zf : Bool) (s : HvState)
    (reason : UInt64) : HostCpu where
  reg := guest.registers (s.vmcs vmcsHostRsp)
  mem := mem
  zf := zf
  touched := []
  outside := s.exit reason

section Layout

/-- The saved registers in the order of the pushes. -/
def savedRegs : List Reg64 :=
  [.rax, .rcx, .rdx, .rbx, .rbp, .rsi, .rdi, .r8, .r9, .r10, .r11, .r12, .r13, .r14, .r15]

def prologue : List Op := savedRegs.map .push ++ [.mov .rcx .rsp, .sub .rsp 0x20]

def afterCall : List Op := [.add .rsp 0x20, .testLow .rax]

/-- The pops are the pushes backwards. -/
theorem hvExitHandler_eq : hvExitHandler =
    prologue.map .op ++ .call .hvHandleVmExit :: (afterCall.map .op ++ .jnz .hvExitBail ::
      ((savedRegs.reverse.map .pop).map .op ++ [.leave .vmresume, .leave .int3])) := rfl

theorem rsp_not_saved : Reg64.rsp ∉ savedRegs := by decide

theorem mem_savedRegs {r : Reg64} (h : r ≠ .rsp) : r ∈ savedRegs := by
  revert h
  cases r <;> decide

theorem rsp_not_restored : Reg64.rsp ∉ savedRegs.reverse := by decide

theorem restored_nodup : savedRegs.reverse.Nodup := by decide

/-- The block that the pushes leave is the C structure. -/
theorem saved_toQwords (regs : HvGuestRegisters) (rsp : UInt64) :
    (savedRegs.map (regs.registers rsp)).reverse = regs.toQwords := rfl

theorem restored_registers {regs : HvGuestRegisters} {rsp : UInt64} {f : Reg64 → UInt64}
    (h : savedRegs.reverse.map f = regs.toQwords) (hrsp : f .rsp = rsp) :
    f = regs.registers rsp := by
  rw [← saved_toQwords regs rsp, ← List.map_reverse] at h
  funext r
  by_cases hr : r = .rsp
  · rw [hr, hrsp]
    rfl
  · exact List.map_inj_left.mp h r (List.mem_reverse.mpr (mem_savedRegs hr))

theorem toQwords_inj {regs regs' : HvGuestRegisters} (h : regs.toQwords = regs'.toQwords) :
    regs = regs' := by
  cases regs
  cases regs'
  simpa [HvGuestRegisters.toQwords, and_comm, and_left_comm, and_assoc] using h

end Layout

section Callee
variable {e : HvEnv} {s : HvState}

/-- The registers with the answer of CPUID. -/
def cpuidAnswer (e : HvEnv) (regs : HvGuestRegisters) : HvGuestRegisters :=
  let result := e.cpuid regs.rax.toUInt32 regs.rcx.toUInt32
  { regs with
    rax := result.eax.toUInt64
    rbx := result.ebx.toUInt64
    rcx := result.ecx.toUInt64
    rdx := result.edx.toUInt64 }

/-- RIP has moved over the instruction. -/
def HvState.advanced (s : HvState) : HvState :=
  (((s.note (.vmread vmcsVmExitReason)).note (.vmread vmcsVmExitInstructionLen)).note
    (.vmread vmcsGuestRip)).write
      [(vmcsGuestRip, s.vmcs vmcsGuestRip + s.vmcs vmcsVmExitInstructionLen)]

theorem advanced_rip : s.advanced.vmcs vmcsGuestRip =
    s.vmcs vmcsGuestRip + s.vmcs vmcsVmExitInstructionLen :=
  write_vmcs_of_mem (List.pairwise_singleton _ _) List.mem_cons_self

theorem advanced_other {f : UInt32} (h : f ≠ vmcsGuestRip) : s.advanced.vmcs f = s.vmcs f :=
  write_vmcs_of_not_mem (by simpa using h)

theorem hvHandleVmExit_cpuid (hmode : s.mode ≠ .nonRoot)
    (h : s.vmcs vmcsVmExitReason &&& 0xFFFF = exitReasonCpuid) (regs : HvGuestRegisters) :
    (hvHandleVmExit regs).run e s = (.ok (0, cpuidAnswer e regs), s.advanced) := by
  rw [hvHandleVmExit, Prog.bind_of_ok (vmread_run hmode _), if_neg (not_not.mpr h), cpuidex,
    Prog.bind_of_ok (Prog.run_env _)]
  dsimp only
  rw [Prog.bind_of_ok (vmread_run (s := s.note _) hmode _),
    Prog.bind_of_ok (vmread_run (s := (s.note _).note _) hmode _),
    Prog.bind_of_ok (vmwrite_root (s := ((s.note _).note _).note _) hmode _ _)]
  rfl

theorem hvHandleVmExit_other (hmode : s.mode ≠ .nonRoot)
    (h : s.vmcs vmcsVmExitReason &&& 0xFFFF ≠ exitReasonCpuid) (regs : HvGuestRegisters) :
    (hvHandleVmExit regs).run e s = (.ok (1, regs), s.note (.vmread vmcsVmExitReason)) := by
  rw [hvHandleVmExit, Prog.bind_of_ok (vmread_run hmode _), if_pos h]
  rfl

end Callee

section Handler
variable {e : HvEnv} {s t : HostCpu}

/-- What the stub has done when it calls `HvHandleVmExit`. -/
structure AtCall (s c : HostCpu) : Prop where
  rcx : c.reg .rcx = s.reg .rsp - 120
  rsp : c.reg .rsp = s.reg .rsp - 120 - 0x20
  block : qwords c.mem (c.reg .rcx) 15 = (savedRegs.map s.reg).reverse
  touched : ∀ a ∈ c.touched, a ∈ s.touched ∨
    ∃ k < 15, a = s.reg .rsp - UInt64.ofNat (8 * (k + 1))
  outside : c.outside = s.outside

theorem prologue_atCall (s : HostCpu) : AtCall s (s.applyAll prologue) := by
  have hpushed := pushAll_pushed (s := s) rsp_not_saved
  rw [prologue, applyAll_append]
  generalize s.applyAll (savedRegs.map .push) = p at hpushed
  have hrsp : p.reg .rsp = s.reg .rsp - 120 := hpushed.rsp
  have hrcx : (p.applyAll [.mov .rcx .rsp, .sub .rsp 0x20]).reg .rcx = p.reg .rsp :=
    (sub_other (s := (Op.mov .rcx .rsp).apply p) (by decide)).trans mov_self
  refine ⟨hrcx.trans hrsp, ?_, ?_, hpushed.touched, hpushed.outside⟩
  · refine (sub_self (s := (Op.mov .rcx .rsp).apply p)).trans ?_
    rw [mov_other (by decide), hrsp]
  · rw [hrcx]
    exact hpushed.saved (by decide)

/-- The rest of the stub, from the return of `HvHandleVmExit`. -/
structure AfterCall (c t u : HostCpu) : Prop where
  rsp : u.reg .rsp = c.reg .rsp + 0x20
  mem : u.mem = t.mem
  zf : u.zf = ((t.reg .rax).toUInt8 == 0)
  touched : u.touched = c.touched ++ [c.reg .rsp - 8]
  outside : u.outside = t.outside

theorem afterCall_spec {c : HostCpu} (hkept : KeepsNonvolatile c t) :
    AfterCall c t ((c.returnFrom t).applyAll afterCall) := by
  have hrsp : t.reg .rsp = c.reg .rsp := hkept .rsp (by decide)
  refine ⟨?_, rfl, ?_, rfl, rfl⟩
  · rw [← hrsp]
    change ((Op.add .rsp 0x20).apply (c.returnFrom t)).reg .rsp = _
    exact add_self
  · refine testLow_zf.trans ?_
    rw [add_other (by decide)]
    rfl

theorem afterCall_rsp (hkept : KeepsNonvolatile (s.applyAll prologue) t) :
    (((s.applyAll prologue).returnFrom t).applyAll afterCall).reg .rsp = s.reg .rsp - 120 := by
  rw [(afterCall_spec hkept).rsp, (prologue_atCall s).rsp, UInt64.sub_add_cancel]

/-- Leaving the stub at VMRESUME or, if the result of the callee is not zero, at a trap. -/
theorem exec_iff {out : HvLeave × HostCpu} :
    Exec hvCode (hvCalls e) hvExitHandler s out ↔
      ∃ t, hvCalls e .hvHandleVmExit (s.applyAll prologue) t ∧
        out = if (t.reg .rax).toUInt8 = 0 then
          (.vmresume, (((s.applyAll prologue).returnFrom t).applyAll afterCall).applyAll
            (savedRegs.reverse.map .pop))
        else (.int3, ((s.applyAll prologue).returnFrom t).applyAll afterCall) := by
  rw [hvExitHandler_eq, exec_ops, exec_call]
  refine exists_congr fun t => and_congr_right fun hcall => ?_
  obtain ⟨-, -, -, -, -, -, -, hkept⟩ := hcall
  have hafter := afterCall_spec hkept
  rw [exec_ops, exec_jnz, hafter.zf]
  by_cases hal : (t.reg .rax).toUInt8 = 0
  · rw [if_pos (beq_iff_eq.mpr hal), if_pos hal, exec_ops, exec_leave]
  · rw [if_neg (fun h => hal (beq_iff_eq.mp h)), if_neg hal]
    exact exec_leave

/-- What the guest sees of an exit for CPUID when it is resumed in `t`. -/
structure CpuidServed (e : HvEnv) (guest : HvGuestRegisters) (s t : HostCpu) : Prop where
  rax : t.reg .rax = (e.cpuid guest.rax.toUInt32 guest.rcx.toUInt32).eax.toUInt64
  rbx : t.reg .rbx = (e.cpuid guest.rax.toUInt32 guest.rcx.toUInt32).ebx.toUInt64
  rcx : t.reg .rcx = (e.cpuid guest.rax.toUInt32 guest.rcx.toUInt32).ecx.toUInt64
  rdx : t.reg .rdx = (e.cpuid guest.rax.toUInt32 guest.rcx.toUInt32).edx.toUInt64
  kept : ∀ r ∉ [Reg64.rax, .rbx, .rcx, .rdx], t.reg r = s.reg r
  rip : t.outside.vmcs vmcsGuestRip =
    s.outside.vmcs vmcsGuestRip + s.outside.vmcs vmcsVmExitInstructionLen
  fields : ∀ f ≠ vmcsGuestRip, t.outside.vmcs f = s.outside.vmcs f

/-- The saved registers and the VMCS are those at the exit. -/
structure GuestUntouched (guest : HvGuestRegisters) (s t : HostCpu) : Prop where
  saved : qwords t.mem (s.reg .rsp - 120) 15 = guest.toQwords
  vmcs : t.outside.vmcs = s.outside.vmcs

/-- The stub runs to its end, and it resumes the guest exactly after CPUID. -/
def TransparentExit (e : HvEnv) (guest : HvGuestRegisters) (s : HostCpu) (reason : UInt64) :
    Prop :=
  (∃ out, Exec hvCode (hvCalls e) hvExitHandler s out) ∧
    ∀ out, Exec hvCode (hvCalls e) hvExitHandler s out →
      if reason &&& 0xFFFF = exitReasonCpuid then
        out.1 = .vmresume ∧ CpuidServed e guest s out.2
      else out.1 = .int3 ∧ GuestUntouched guest s out.2

/-- A callee that returns `regs'` in place exists. -/
theorem exists_return {c : HostCpu} {regs regs' : HvGuestRegisters} {al : UInt8} {t' : HvState}
    (hblock : qwords c.mem (c.reg .rcx) 15 = regs.toQwords)
    (hrun : (hvHandleVmExit regs).run e c.outside = (.ok (al, regs'), t')) :
    ∃ t, hvCalls e .hvHandleVmExit c t := by
  -- the memory is that after a push of the new values below the end of the block
  let w : HostCpu := { c with reg := regs'.registers (c.reg .rcx + 120) }
  have hpushed := pushAll_pushed (s := w) rsp_not_saved
  have hrsp : (w.applyAll (savedRegs.map .push)).reg .rsp = c.reg .rcx := by
    rw [hpushed.rsp]
    exact UInt64.add_sub_cancel _ _
  refine ⟨{ c.write .rax al.toUInt64 with
    mem := (w.applyAll (savedRegs.map .push)).mem, outside := t' }, regs, al, regs', hblock, hrun,
    ?_, ?_, ?_⟩
  · rw [← hrsp]
    exact (hpushed.saved (by decide)).trans (saved_toQwords regs' _)
  · change ((c.write .rax al.toUInt64).reg .rax).toUInt8 = al
    rw [write_same]
    exact UInt8.toUInt8_toUInt64 al
  · intro r hr
    apply write_other
    intro h
    subst h
    exact absurd hr (by decide)

end Handler

section Exit
variable {e : HvEnv} {s : HostCpu} {guest : HvGuestRegisters}

/-- The call on the saved block, for a callee whose run is known. -/
theorem calls_eq {al : UInt8} {regs' : HvGuestRegisters} {t' : HvState} {t : HostCpu}
    (hregs : s.reg = guest.registers (s.reg .rsp))
    (hrun : (hvHandleVmExit guest).run e s.outside = (.ok (al, regs'), t'))
    (hcall : hvCalls e .hvHandleVmExit (s.applyAll prologue) t) :
    (t.reg .rax).toUInt8 = al ∧ qwords t.mem (s.reg .rsp - 120) 15 = regs'.toQwords ∧
      t.outside = t' ∧ KeepsNonvolatile (s.applyAll prologue) t := by
  obtain ⟨regs, al', regs'', hblock, hrun', hblock', hal, hkept⟩ := hcall
  have hatCall := prologue_atCall s
  rw [hatCall.block, hregs, saved_toQwords] at hblock
  obtain rfl := toQwords_inj hblock
  rw [hatCall.outside, hrun] at hrun'
  cases hrun'
  rw [hatCall.rcx] at hblock'
  exact ⟨hal, hblock', rfl, hkept⟩

theorem handler_runs {al : UInt8} {regs' : HvGuestRegisters} {t' : HvState}
    (hregs : s.reg = guest.registers (s.reg .rsp))
    (hrun : (hvHandleVmExit guest).run e s.outside = (.ok (al, regs'), t')) :
    ∃ out, Exec hvCode (hvCalls e) hvExitHandler s out := by
  have hatCall := prologue_atCall s
  have hblock := hatCall.block
  rw [hregs, saved_toQwords] at hblock
  rw [← hatCall.outside] at hrun
  obtain ⟨t, hcall⟩ := exists_return hblock hrun
  exact ⟨_, exec_iff.mpr ⟨t, hcall, rfl⟩⟩

/-- The registers at VMRESUME are those in the block, and RSP is as at the exit. -/
theorem resumed_registers {t : HostCpu} {regs : HvGuestRegisters}
    (hkept : KeepsNonvolatile (s.applyAll prologue) t)
    (hblock : qwords t.mem (s.reg .rsp - 120) 15 = regs.toQwords) :
    let u := ((s.applyAll prologue).returnFrom t).applyAll afterCall
    (u.applyAll (savedRegs.reverse.map .pop)).reg = regs.registers (s.reg .rsp) ∧
      (u.applyAll (savedRegs.reverse.map .pop)).outside = t.outside := by
  intro u
  have hafter : AfterCall (s.applyAll prologue) t u := afterCall_spec hkept
  have hpopped := popAll_popped (s := u) rsp_not_restored restored_nodup
  have hrsp : u.reg .rsp = s.reg .rsp - 120 := afterCall_rsp hkept
  refine ⟨restored_registers ?_ ?_, hpopped.outside.trans hafter.outside⟩
  · refine hpopped.restored.trans ?_
    rw [hrsp, hafter.mem]
    exact hblock
  · refine hpopped.rsp.trans ?_
    rw [hrsp]
    exact UInt64.sub_add_cancel _ 120

theorem cpuid_served {reason : UInt64} (hregs : s.reg = guest.registers (s.reg .rsp))
    (hmode : s.outside.mode ≠ .nonRoot) (hreason : s.outside.vmcs vmcsVmExitReason = reason)
    (h : reason &&& 0xFFFF = exitReasonCpuid) : TransparentExit e guest s reason := by
  rw [← hreason] at h
  have hrun := hvHandleVmExit_cpuid (e := e) hmode h guest
  rw [TransparentExit, ← hreason]
  constructor
  · exact handler_runs hregs hrun
  · intro out hexec
    obtain ⟨t, hcall, rfl⟩ := exec_iff.mp hexec
    obtain ⟨hal, hblock, houtside, hkept⟩ := calls_eq hregs hrun hcall
    obtain ⟨hreg, hout⟩ := resumed_registers hkept hblock
    rw [if_pos h, if_pos hal]
    refine ⟨rfl, ?_⟩
    rw [houtside] at hout
    constructor
    case kept =>
      intro r hr
      refine (congrFun hreg r).trans ?_
      rw [congrFun hregs r]
      cases r
      all_goals first | rfl | exact absurd hr (by decide)
    case rip => exact (congrArg (fun t => t.vmcs vmcsGuestRip) hout).trans advanced_rip
    case fields =>
      intro f hf
      exact (congrArg (fun t => t.vmcs f) hout).trans (advanced_other hf)
    all_goals exact congrFun hreg _

theorem other_untouched {reason : UInt64} (hregs : s.reg = guest.registers (s.reg .rsp))
    (hmode : s.outside.mode ≠ .nonRoot) (hreason : s.outside.vmcs vmcsVmExitReason = reason)
    (h : reason &&& 0xFFFF ≠ exitReasonCpuid) : TransparentExit e guest s reason := by
  rw [← hreason] at h
  have hrun := hvHandleVmExit_other (e := e) hmode h guest
  rw [TransparentExit, ← hreason]
  constructor
  · exact handler_runs hregs hrun
  · intro out hexec
    obtain ⟨t, hcall, rfl⟩ := exec_iff.mp hexec
    obtain ⟨hal, hblock, houtside, hkept⟩ := calls_eq hregs hrun hcall
    have hafter := afterCall_spec hkept
    rw [if_neg h, hal, if_neg (by decide)]
    refine ⟨rfl, ?_, ?_⟩
    · rw [hafter.mem]
      exact hblock
    · rw [hafter.outside, houtside]
      rfl

/-- Every VM exit for CPUID is transparent to the guest, and no other one resumes it. -/
theorem exit_transparent (e : HvEnv) (guest : HvGuestRegisters) (mem : UInt64 → UInt8) (zf : Bool)
    (s : HvState) (reason : UInt64) :
    TransparentExit e guest (exitEntry guest mem zf s reason) reason := by
  have hmode : (s.exit reason).mode ≠ .nonRoot := VmxMode.noConfusion
  have hreason : (s.exit reason).vmcs vmcsVmExitReason = reason := rfl
  by_cases h : reason &&& 0xFFFF = exitReasonCpuid
  · exact cpuid_served rfl hmode hreason h
  · exact other_untouched rfl hmode hreason h

end Exit
end HwMon
