import HwMon.Hv.ExitStack
import HwMon.Lib.Lockstep

/-!
# A guest under the hypervisor

The guest runs on the processor until an instruction causes a VM exit, then the stub
runs and resumes it or traps. Instruction by instruction the guest is where it would be
on the bare processor, up to the first VM exit that is not for CPUID, and there the stub
stops with the registers of the guest saved.
-/

namespace HwMon
set_option autoImplicit false

/-- The guest: the registers that the stub saves, RIP, and the rest of its state, which the
processor keeps over a VM exit. -/
structure GuestCpu (ρ : Type) where
  regs : HvGuestRegisters
  rip : UInt64
  rest : ρ

/-- The instruction at RIP, with what it leaves on the bare processor. -/
inductive GuestInstr (ρ : Type) where
  /-- The guest carries it out itself. -/
  | plain (after : GuestCpu ρ)
  | cpuid (length : UInt64)
  /-- Any other instruction that causes a VM exit. -/
  | exiting (length : UInt64) (after : GuestCpu ρ)

/-- A processor that runs the guest. -/
structure GuestedCpu (ρ : Type) where
  guest : GuestCpu ρ
  mem : UInt64 → UInt8
  host : HvState

inductive VmState (ρ : Type) where
  | running (m : GuestedCpu ρ)
  /-- The stub has come to `int 3` in `t` on an exit of `guest`. -/
  | trapped (guest : GuestCpu ρ) (t : HostCpu)

namespace HvGuestRegisters

def ofRegisters (f : Reg64 → UInt64) : HvGuestRegisters where
  r15 := f .r15
  r14 := f .r14
  r13 := f .r13
  r12 := f .r12
  r11 := f .r11
  r10 := f .r10
  r9 := f .r9
  r8 := f .r8
  rdi := f .rdi
  rsi := f .rsi
  rbp := f .rbp
  rbx := f .rbx
  rdx := f .rdx
  rcx := f .rcx
  rax := f .rax

theorem ofRegisters_registers (regs : HvGuestRegisters) (rsp : UInt64) :
    ofRegisters (regs.registers rsp) = regs := rfl

end HvGuestRegisters

section Run
variable {ρ : Type} (e : HvEnv) (code : GuestCpu ρ → GuestInstr ρ)

/-- One instruction on the bare processor. -/
def bareStep (g : GuestCpu ρ) : GuestCpu ρ :=
  match code g with
  | .plain after => after
  | .cpuid length => { g with regs := cpuidAnswer e g.regs, rip := g.rip + length }
  | .exiting _ after => after

/-- The VM exits that an instruction can cause: its length and the exit reason. -/
inductive ExitsFor : GuestInstr ρ → UInt64 → UInt64 → Prop
  | cpuid {length reason : UInt64} (h : reason &&& 0xFFFF = exitReasonCpuid) :
      ExitsFor (.cpuid length) length reason
  | exiting {length reason : UInt64} {after : GuestCpu ρ}
      (h : reason &&& 0xFFFF ≠ exitReasonCpuid) : ExitsFor (.exiting length after) length reason

namespace GuestedCpu

/-- The processor saves RIP and the length of the instruction, loads the host state, which
clears the flags, and enters the stub. -/
def exit (m : GuestedCpu ρ) (length reason : UInt64) : HostCpu :=
  exitEntry m.guest.regs m.mem false
    ((m.host.setField vmcsGuestRip m.guest.rip).setField vmcsVmExitInstructionLen length) reason

/-- VMRESUME in `t`. -/
def resume (m : GuestedCpu ρ) (t : HostCpu) : GuestedCpu ρ where
  guest := ⟨.ofRegisters t.reg, t.outside.vmcs vmcsGuestRip, m.guest.rest⟩
  mem := t.mem
  host := { t.outside with mode := .nonRoot }

end GuestedCpu

/-- One instruction of the guest; memory may change meanwhile, also that of the host. -/
inductive VmStep : VmState ρ → VmState ρ → Prop
  | plain {m : GuestedCpu ρ} {after : GuestCpu ρ} (h : code m.guest = .plain after)
      (mem : UInt64 → UInt8) :
      VmStep (.running m) (.running { m with guest := after, mem := mem })
  | resumed {m : GuestedCpu ρ} {length reason : UInt64} {t : HostCpu}
      (h : ExitsFor (code m.guest) length reason)
      (hexec : Exec hvCode (hvCalls e) hvExitHandler (m.exit length reason) (.vmresume, t)) :
      VmStep (.running m) (.running (m.resume t))
  | trapped {m : GuestedCpu ρ} {length reason : UInt64} {t : HostCpu}
      (h : ExitsFor (code m.guest) length reason)
      (hexec : Exec hvCode (hvCalls e) hvExitHandler (m.exit length reason) (.int3, t)) :
      VmStep (.running m) (.trapped m.guest t)

/-- What the exits of a run leave alone. -/
structure HostIntact (s t : HvState) : Prop where
  cr4 : t.cr4 = s.cr4
  block : t.gHvState = s.gHvState
  fields : ∀ f ∉ [vmcsGuestRip, vmcsVmExitReason, vmcsVmExitInstructionLen], t.vmcs f = s.vmcs f

/-- The guest is `g`, and the host is as it was in `s`. -/
def RunsAs (s : HvState) : VmState ρ → GuestCpu ρ → Prop
  | .running m, g => m.guest = g ∧ HostIntact s m.host
  | .trapped _ _, _ => False

/-- The stub has trapped on an instruction of `g` other than CPUID, with the registers of
`g` on its stack and RIP in the VMCS. -/
def TrapsAt (s : HvState) : VmState ρ → GuestCpu ρ → Prop
  | .running _, _ => False
  | .trapped guest t, g => guest = g ∧ (∃ length after, code g = .exiting length after) ∧
      qwords t.mem (s.vmcs vmcsHostRsp - 120) 15 = g.regs.toQwords ∧
      t.outside.vmcs vmcsGuestRip = g.rip

end Run

section Exits
variable {e : HvEnv} {s : HostCpu} {guest : HvGuestRegisters} {out : HvLeave × HostCpu}

/-- The whole state at VMRESUME after an exit for CPUID. -/
theorem cpuid_resumed (hregs : s.reg = guest.registers (s.reg .rsp))
    (hmode : s.outside.mode ≠ .nonRoot)
    (h : s.outside.vmcs vmcsVmExitReason &&& 0xFFFF = exitReasonCpuid)
    (hexec : Exec hvCode (hvCalls e) hvExitHandler s out) :
    out.1 = .vmresume ∧ out.2.reg = (cpuidAnswer e guest).registers (s.reg .rsp) ∧
      out.2.outside = s.outside.advanced := by
  have hrun := hvHandleVmExit_cpuid (e := e) hmode h guest
  obtain ⟨t, hcall, rfl⟩ := exec_iff.mp hexec
  obtain ⟨hal, hblock, houtside, hkept⟩ := calls_eq hregs hrun hcall
  obtain ⟨hreg, hout⟩ := resumed_registers hkept hblock
  rw [if_pos hal]
  exact ⟨rfl, hreg, hout.trans houtside⟩

/-- The state at the trap after any other exit. -/
theorem other_trapped (hregs : s.reg = guest.registers (s.reg .rsp))
    (hmode : s.outside.mode ≠ .nonRoot)
    (h : s.outside.vmcs vmcsVmExitReason &&& 0xFFFF ≠ exitReasonCpuid)
    (hexec : Exec hvCode (hvCalls e) hvExitHandler s out) :
    out.1 = .int3 ∧ qwords out.2.mem (s.reg .rsp - 120) 15 = guest.toQwords ∧
      out.2.outside.vmcs = s.outside.vmcs := by
  have hrun := hvHandleVmExit_other (e := e) hmode h guest
  obtain ⟨t, hcall, rfl⟩ := exec_iff.mp hexec
  obtain ⟨hal, hblock, houtside, hkept⟩ := calls_eq hregs hrun hcall
  have hafter := afterCall_spec hkept
  rw [hal, if_neg (by decide)]
  refine ⟨rfl, ?_, ?_⟩
  · rw [hafter.mem]
    exact hblock
  · rw [hafter.outside, houtside]
    rfl

end Exits

section Saved
variable {ρ : Type} (m : GuestedCpu ρ) (length reason : UInt64)

theorem exit_reg : (m.exit length reason).reg =
    m.guest.regs.registers ((m.exit length reason).reg .rsp) := rfl

theorem exit_mode : (m.exit length reason).outside.mode ≠ .nonRoot := VmxMode.noConfusion

theorem exit_length :
    (m.exit length reason).outside.vmcs vmcsVmExitInstructionLen = length := rfl

theorem exit_rip : (m.exit length reason).outside.vmcs vmcsGuestRip = m.guest.rip := rfl

theorem exit_other {f : UInt32}
    (h : f ∉ [vmcsGuestRip, vmcsVmExitReason, vmcsVmExitInstructionLen]) :
    (m.exit length reason).outside.vmcs f = m.host.vmcs f := by
  simp only [List.mem_cons, List.not_mem_nil, or_false, not_or] at h
  obtain ⟨hrip, hreason, hlength⟩ := h
  refine (if_neg hreason).trans ?_
  refine (if_neg hlength).trans ?_
  exact if_neg hrip

end Saved

section Follows
variable {ρ : Type} {e : HvEnv} {code : GuestCpu ρ → GuestInstr ρ} {s : HvState}
  {m : GuestedCpu ρ} {length reason : UInt64} {t : HostCpu}

theorem HostIntact.resumed (h : HostIntact s m.host)
    (ht : t.outside = (m.exit length reason).outside.advanced) :
    HostIntact s (m.resume t).host := by
  have hhost : (m.resume t).host = { t.outside with mode := .nonRoot } := rfl
  rw [hhost, ht]
  refine ⟨h.cr4, h.block, ?_⟩
  intro f hf
  have hrip : f ≠ vmcsGuestRip := fun heq => hf (heq ▸ List.mem_cons_self)
  refine (advanced_other hrip).trans ?_
  rw [exit_other m length reason hf]
  exact h.fields f hf

/-- The stub resumes the guest after CPUID, where it would be on the bare processor. -/
theorem resumed_bare (h : ExitsFor (code m.guest) length reason)
    (hexec : Exec hvCode (hvCalls e) hvExitHandler (m.exit length reason) (.vmresume, t)) :
    (m.resume t).guest = bareStep e code m.guest ∧
      t.outside = (m.exit length reason).outside.advanced := by
  cases hcode : code m.guest with
  | plain after =>
    rw [hcode] at h
    cases h
  | exiting length' after =>
    rw [hcode] at h
    cases h with
    | exiting hreason =>
      have htrap := other_trapped (exit_reg m _ _) (exit_mode m _ _) hreason hexec
      cases htrap.1
  | cpuid length' =>
    rw [hcode] at h
    cases h with
    | cpuid hreason =>
      obtain ⟨-, hreg, hout⟩ :=
        cpuid_resumed (exit_reg m _ _) (exit_mode m _ _) hreason hexec
      refine ⟨?_, hout⟩
      have hbare : bareStep e code m.guest =
          ⟨cpuidAnswer e m.guest.regs, m.guest.rip + length, m.guest.rest⟩ := by
        unfold bareStep
        rw [hcode]
      have hrip : t.outside.vmcs vmcsGuestRip = m.guest.rip + length := by
        rw [hout, advanced_rip, exit_rip, exit_length]
      have hregs : HvGuestRegisters.ofRegisters t.reg = cpuidAnswer e m.guest.regs := by
        rw [hreg, HvGuestRegisters.ofRegisters_registers]
      rw [hbare, GuestedCpu.resume, hregs, hrip]

/-- The stub traps on everything else, with the guest saved. -/
theorem trapped_saved (hintact : HostIntact s m.host)
    (h : ExitsFor (code m.guest) length reason)
    (hexec : Exec hvCode (hvCalls e) hvExitHandler (m.exit length reason) (.int3, t)) :
    TrapsAt code s (.trapped m.guest t) m.guest := by
  cases hcode : code m.guest with
  | plain after =>
    rw [hcode] at h
    cases h
  | cpuid length' =>
    rw [hcode] at h
    cases h with
    | cpuid hreason =>
      have hresume := cpuid_resumed (exit_reg m _ _) (exit_mode m _ _) hreason hexec
      cases hresume.1
  | exiting length' after =>
    rw [hcode] at h
    cases h with
    | exiting hreason =>
      obtain ⟨-, hblock, hvmcs⟩ :=
        other_trapped (exit_reg m _ _) (exit_mode m _ _) hreason hexec
      have hfield : vmcsHostRsp ∉ [vmcsGuestRip, vmcsVmExitReason, vmcsVmExitInstructionLen] := by
        decide
      have hrsp : (m.exit length reason).reg .rsp = s.vmcs vmcsHostRsp :=
        Eq.trans (exit_other m length reason hfield) (hintact.fields vmcsHostRsp hfield)
      refine ⟨rfl, ⟨_, _, hcode⟩, ?_, ?_⟩
      · rw [← hrsp]
        exact hblock
      · rw [hvmcs]
        exact exit_rip m length reason

/-- The stub comes to its end on every exit. -/
theorem exit_step (h : ExitsFor (code m.guest) length reason) :
    ∃ x, VmStep e code (.running m) x := by
  have hend : ∃ out, Exec hvCode (hvCalls e) hvExitHandler (m.exit length reason) out := by
    by_cases hreason : reason &&& 0xFFFF = exitReasonCpuid
    · exact handler_runs (exit_reg m _ _) (hvHandleVmExit_cpuid (exit_mode m _ _) hreason _)
    · exact handler_runs (exit_reg m _ _) (hvHandleVmExit_other (exit_mode m _ _) hreason _)
  obtain ⟨⟨leave, t⟩, hexec⟩ := hend
  cases leave with
  | vmresume => exact ⟨_, .resumed h hexec⟩
  | int3 => exact ⟨_, .trapped h hexec⟩

theorem vmStep_lockstep (s : HvState) :
    Lockstep (VmStep e code) (bareStep e code) (RunsAs s) (TrapsAt code s) := by
  refine ⟨?_, ?_, ?_⟩
  · intro x y g hx hstep
    cases hstep with
    | @plain m after hcode mem =>
      obtain ⟨rfl, hintact⟩ := hx
      left
      refine ⟨?_, hintact⟩
      unfold bareStep
      rw [hcode]
    | resumed hexits hexec =>
      obtain ⟨rfl, hintact⟩ := hx
      obtain ⟨hguest, hout⟩ := resumed_bare hexits hexec
      exact .inl ⟨hguest, hintact.resumed hout⟩
    | trapped hexits hexec =>
      obtain ⟨rfl, hintact⟩ := hx
      exact .inr (trapped_saved hintact hexits hexec)
  · intro x y g hx hstep
    cases hstep with
    | plain => exact hx
    | resumed => exact hx
    | trapped => exact hx
  · intro x g hx
    cases x with
    | trapped guest t => exact absurd hx id
    | running m =>
      cases hcode : code m.guest with
      | plain after => exact ⟨_, .plain hcode m.mem⟩
      | cpuid length =>
        have hexits : ExitsFor (code m.guest) length exitReasonCpuid := by
          rw [hcode]
          exact .cpuid (by decide)
        exact exit_step hexits
      | exiting length after =>
        have hexits : ExitsFor (code m.guest) length 12 := by
          rw [hcode]
          exact .exiting (by decide)
        exact exit_step hexits

end Follows

section Runs
variable {ρ : Type} (e : HvEnv) (code : GuestCpu ρ → GuestInstr ρ)

/-- Every run of `n` instructions is the run on the bare processor, or ends in a trap on an
instruction before the last one; there is a run of `n` instructions unless one traps. -/
structure TransparentRun (m : GuestedCpu ρ) (n : Nat) : Prop where
  follows : ∀ x, StepsIn (VmStep e code) n (.running m) x →
    RunsAs m.host x ((bareStep e code)^[n] m.guest) ∨
      ∃ k, n = k + 1 ∧ TrapsAt code m.host x ((bareStep e code)^[k] m.guest)
  exists_run : (∀ k < n, ∀ length after,
      code ((bareStep e code)^[k] m.guest) ≠ .exiting length after) →
    ∃ m', StepsIn (VmStep e code) n (.running m) (.running m') ∧
      m'.guest = (bareStep e code)^[n] m.guest

end Runs

section Stack
variable {ρ : Type} (e : HvEnv) (l : SetupLocals) (s : HvState) (g : GuestCpu ρ)
  (mem : UInt64 → UInt8)

/-- The guest starts when `SetupVmcsFields` has written the fields for the state block of `s`. -/
def launchedGuest : GuestedCpu ρ :=
  ⟨g, mem, { s.write (setupFields e l s.cr4 s.gHvState) with mode := .nonRoot }⟩

variable {e l s g mem} {code : GuestCpu ρ → GuestInstr ρ}

theorem HostIntact.exit_rsp (guest : HvGuestRegisters)
    {m : GuestedCpu ρ} (h : HostIntact (launchedGuest e l s g mem).host m.host)
    (length reason : UInt64) :
    (m.exit length reason).reg .rsp = (setupExit e l guest mem false s reason).reg .rsp := by
  have hfield : vmcsHostRsp ∉ [vmcsGuestRip, vmcsVmExitReason, vmcsVmExitInstructionLen] := by
    decide
  have hrsp : (m.exit length reason).reg .rsp = m.host.vmcs vmcsHostRsp :=
    exit_other m length reason hfield
  rw [hrsp, h.fields vmcsHostRsp hfield]
  rfl

variable (e l s g mem code) in
/-- Whatever exit comes after whatever run, the stub touches the host stack only. -/
def StackConfined : Prop :=
  ∀ (n : Nat) (m : GuestedCpu ρ),
    StepsIn (VmStep e code) n (.running (launchedGuest e l s g mem)) (.running m) →
    ∀ (length reason : UInt64) (out : HvLeave × HostCpu),
      Exec hvCode (hvCalls e) hvExitHandler (m.exit length reason) out →
      ∀ a ∈ out.2.touched, InHostStack s.gHvState a ∧
        OutsidePage (s.gHvState + hvVmxonRegion) a ∧ OutsidePage (s.gHvState + hvVmcsRegion) a

variable (e l s g mem code) in
/-- However long the guest runs, every exit starts at the same RSP. -/
theorem guestRun_stackConfined (hfits : s.gHvState.toNat + sizeofHvState ≤ 2 ^ 64) :
    StackConfined e l s g mem code := by
  intro n m hrun length reason out hexec
  have hlockstep : Lockstep (VmStep e code) (bareStep e code)
      (RunsAs (launchedGuest e l s g mem).host) (TrapsAt code (launchedGuest e l s g mem).host) :=
    vmStep_lockstep _
  have hstart : RunsAs (launchedGuest e l s g mem).host (.running (launchedGuest e l s g mem)) g :=
    ⟨rfl, rfl, rfl, fun _ _ => rfl⟩
  have hintact : HostIntact (launchedGuest e l s g mem).host m.host := by
    rcases hlockstep.run hstart hrun with hm | ⟨k, -, hm⟩
    · exact hm.2
    · exact absurd hm id
  intro a ha
  obtain ⟨k, hk, rfl⟩ := exec_touched rfl hexec a ha
  have hvalue : (UInt64.ofNat (24544 - 8 * (k + 1))).toNat = 24544 - 8 * (k + 1) := by
    rw [UInt64.toNat_ofNat', Nat.mod_eq_of_lt (by omega)]
  have hsize : sizeofHvState = 24576 := rfl
  rw [HostIntact.exit_rsp m.guest.regs hintact length reason,
    setupExit_slot e l m.guest.regs mem false s reason hk]
  exact inside_of_offset hfits (by omega) (by omega)

theorem blockPlaced_stackConfined : StackConfined lockedOff lockedOff.locals blockPlaced
    (⟨zeroRegisters, 0, ()⟩ : GuestCpu Unit) (fun _ => 0) fun _ => .cpuid 2 :=
  guestRun_stackConfined lockedOff lockedOff.locals blockPlaced ⟨zeroRegisters, 0, ()⟩ (fun _ => 0)
    (fun _ => .cpuid 2) (by decide)

end Stack
end HwMon
