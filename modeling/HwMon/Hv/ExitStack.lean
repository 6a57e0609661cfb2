import HwMon.Hv.ExitHandler

/-!
# The stack of the VM-exit handler

HOST_RSP is 32 bytes below the end of the host stack. Fifteen pushes and the shadow
space move RSP by 152 bytes, so that it is eight bytes off the alignment of the calling
convention at the call, wherever the state block lies.
-/

namespace HwMon
set_option autoImplicit false

section Touched
variable {e : HvEnv} {s : HostCpu}

/-- Up to the test of the result: the saved registers and the return address. -/
theorem afterCall_touched {t : HostCpu} (hstart : s.touched = [])
    (hkept : KeepsNonvolatile (s.applyAll prologue) t) :
    ∀ a ∈ (((s.applyAll prologue).returnFrom t).applyAll afterCall).touched,
      ∃ k < 20, a = s.reg .rsp - UInt64.ofNat (8 * (k + 1)) := by
  have hatCall := prologue_atCall s
  intro a ha
  rw [(afterCall_spec hkept).touched] at ha
  rcases List.mem_append.mp ha with ha | ha
  · rcases hatCall.touched a ha with hold | ⟨k, hk, hslot⟩
    · rw [hstart] at hold
      exact absurd hold List.not_mem_nil
    · exact ⟨k, by omega, hslot⟩
  · refine ⟨19, by omega, ?_⟩
    rw [List.mem_singleton.mp ha, hatCall.rsp]
    change s.reg .rsp - 120 - 0x20 - 8 = s.reg .rsp - 160
    grind

/-- The stub touches the twenty slots below its RSP and no others. -/
theorem exec_touched {out : HvLeave × HostCpu} (hstart : s.touched = [])
    (h : Exec hvCode (hvCalls e) hvExitHandler s out) :
    ∀ a ∈ out.2.touched, ∃ k < 20, a = s.reg .rsp - UInt64.ofNat (8 * (k + 1)) := by
  obtain ⟨t, hcall, rfl⟩ := exec_iff.mp h
  obtain ⟨-, -, -, -, -, -, -, hkept⟩ := hcall
  have hcallee := afterCall_touched hstart hkept
  by_cases hal : (t.reg .rax).toUInt8 = 0
  · rw [if_pos hal]
    intro a ha
    have hpopped := popAll_popped (s := ((s.applyAll prologue).returnFrom t).applyAll afterCall)
      rsp_not_restored restored_nodup
    rcases hpopped.touched a ha with hold | ⟨k, hk, hslot⟩
    · exact hcallee a hold
    · have hlt : k < 15 := hk
      refine ⟨14 - k, by omega, ?_⟩
      have hsum : UInt64.ofNat (8 * (14 - k + 1)) + UInt64.ofNat (8 * k) = 120 := by
        rw [← UInt64.ofNat_add, (by omega : 8 * (14 - k + 1) + 8 * k = 120)]
        rfl
      rw [hslot, afterCall_rsp hkept, ← hsum]
      grind
  · rw [if_neg hal]
    exact hcallee

end Touched

section Abi
variable (e : HvEnv) (base : UInt64) (s : HostCpu)

/-- The qword at `a` lies in `HostStack`. -/
def InHostStack (a : UInt64) : Prop :=
  base.toNat + hvHostStack.toNat ≤ a.toNat ∧
    a.toNat + 8 ≤ base.toNat + hvHostStack.toNat + hvHostStackSize.toNat

/-- The qword at `a` and the page at `region` have no byte in common. -/
def OutsidePage (region a : UInt64) : Prop :=
  a.toNat + 8 ≤ region.toNat ∨ region.toNat + hvPageSize.toNat ≤ a.toNat

/-- The shadow space lies below the saved block, and every slot that the stub touches in any
run lies in the host stack. -/
structure StackInside : Prop where
  shadow : ((s.applyAll prologue).reg .rsp).toNat + 32 ≤ ((s.applyAll prologue).reg .rcx).toNat
  slots : ∀ out, Exec hvCode (hvCalls e) hvExitHandler s out → ∀ a ∈ out.2.touched,
    InHostStack base a ∧ OutsidePage (base + hvVmxonRegion) a ∧ OutsidePage (base + hvVmcsRegion) a

/-- The calling convention at the call of `HvHandleVmExit`. -/
structure AbiStack : Prop extends StackInside e base s where
  aligned : 16 ∣ ((s.applyAll prologue).reg .rsp).toNat

end Abi

section Setup
variable (e : HvEnv) (l : SetupLocals) (guest : HvGuestRegisters) (mem : UInt64 → UInt8)
  (zf : Bool) (s : HvState) (reason : UInt64)

/-- A VM exit when `SetupVmcsFields` has written the fields for the state block of `s`. -/
def setupExit : HostCpu :=
  exitEntry guest mem zf (s.write (setupFields e l s.cr4 s.gHvState)) reason

theorem setupExit_rsp : (setupExit e l guest mem zf s reason).reg .rsp = s.gHvState + 24544 := by
  have hmem : (vmcsHostRsp, s.gHvState + hvHostStack + hvHostStackSize - 0x20) ∈
      setupFields e l s.cr4 s.gHvState := by
    simp [setupFields, hostFields]
  have hsize : hvHostStack + hvHostStackSize - 0x20 = 24544 := by decide
  refine (setupFields_vmcs (s := s) hmem).trans ?_
  rw [← hsize]
  grind

theorem setupExit_callRsp :
    ((setupExit e l guest mem zf s reason).applyAll prologue).reg .rsp = s.gHvState + 24392 := by
  rw [(prologue_atCall _).rsp, setupExit_rsp]
  grind

/-- Wherever the state block lies, RSP is eight bytes off at the call. -/
theorem callRsp_mod (hbase : 4096 ∣ s.gHvState.toNat) :
    (((setupExit e l guest mem zf s reason).applyAll prologue).reg .rsp).toNat % 16 = 8 := by
  have hsum : (s.gHvState + 24392).toNat = (s.gHvState.toNat + 24392) % 2 ^ 64 :=
    UInt64.toNat_add _ _
  rw [setupExit_callRsp, hsum]
  omega

section Inside
variable {s}

theorem block_offset (hfits : s.gHvState.toNat + sizeofHvState ≤ 2 ^ 64) {k : UInt64}
    (hk : k.toNat < sizeofHvState) : (s.gHvState + k).toNat = s.gHvState.toNat + k.toNat := by
  rw [UInt64.toNat_add, Nat.mod_eq_of_lt (by omega)]

/-- The qwords between the VMCS and the end of the block are in the host stack. -/
theorem inside_of_offset (hfits : s.gHvState.toNat + sizeofHvState ≤ 2 ^ 64) {k : UInt64}
    (hlow : 8192 ≤ k.toNat) (hhigh : k.toNat + 8 ≤ sizeofHvState) :
    InHostStack s.gHvState (s.gHvState + k) ∧
      OutsidePage (s.gHvState + hvVmxonRegion) (s.gHvState + k) ∧
      OutsidePage (s.gHvState + hvVmcsRegion) (s.gHvState + k) := by
  have hsize : sizeofHvState = 24576 := rfl
  have hstack : hvHostStack.toNat = 8192 := rfl
  have hlength : hvHostStackSize.toNat = 16384 := rfl
  have hpage : hvPageSize.toNat = 4096 := rfl
  have hvmxon : (s.gHvState + hvVmxonRegion).toNat = s.gHvState.toNat :=
    block_offset hfits (by decide)
  have hvmcs : (s.gHvState + hvVmcsRegion).toNat = s.gHvState.toNat + 4096 :=
    block_offset hfits (by decide)
  unfold InHostStack OutsidePage
  rw [block_offset hfits (by omega), hstack, hlength, hpage, hvmxon, hvmcs]
  omega

end Inside

/-- The slots by their offsets from the start of the block. -/
theorem setupExit_slot {k : Nat} (hk : k < 20) :
    (setupExit e l guest mem zf s reason).reg .rsp - UInt64.ofNat (8 * (k + 1)) =
      s.gHvState + UInt64.ofNat (24544 - 8 * (k + 1)) := by
  have hsum : UInt64.ofNat (24544 - 8 * (k + 1)) + UInt64.ofNat (8 * (k + 1)) = 24544 := by
    rw [← UInt64.ofNat_add, Nat.sub_add_cancel (by omega)]
    rfl
  rw [setupExit_rsp, ← hsum]
  grind

/-- Apart from the alignment the stack is as the convention has it. -/
theorem setupExit_inside (hfits : s.gHvState.toNat + sizeofHvState ≤ 2 ^ 64) :
    StackInside e s.gHvState (setupExit e l guest mem zf s reason) := by
  constructor
  · have hblock : ((setupExit e l guest mem zf s reason).applyAll prologue).reg .rcx =
        s.gHvState + 24424 := by
      rw [(prologue_atCall _).rcx, setupExit_rsp]
      grind
    rw [setupExit_callRsp, hblock, block_offset hfits (by decide), block_offset hfits (by decide)]
    exact Nat.le_refl _
  · intro out hexec a ha
    obtain ⟨k, hk, rfl⟩ := exec_touched rfl hexec a ha
    have hvalue : (UInt64.ofNat (24544 - 8 * (k + 1))).toNat = 24544 - 8 * (k + 1) := by
      rw [UInt64.toNat_ofNat', Nat.mod_eq_of_lt (by omega)]
    have hsize : sizeofHvState = 24576 := rfl
    rw [setupExit_slot e l guest mem zf s reason hk]
    exact inside_of_offset hfits (by omega) (by omega)

theorem not_abiStack (hbase : 4096 ∣ s.gHvState.toNat) :
    ¬AbiStack e s.gHvState (setupExit e l guest mem zf s reason) := by
  intro h
  have hmod := callRsp_mod e l guest mem zf s reason hbase
  have haligned := h.aligned
  omega

/-- The convention is met for no page-aligned state block, by the alignment alone. -/
theorem exitStack_misaligned (hbase : 4096 ∣ s.gHvState.toNat) :
    ¬AbiStack e s.gHvState (setupExit e l guest mem zf s reason) ∧
      (s.gHvState.toNat + sizeofHvState ≤ 2 ^ 64 →
        StackInside e s.gHvState (setupExit e l guest mem zf s reason)) :=
  ⟨not_abiStack e l guest mem zf s reason hbase, setupExit_inside e l guest mem zf s reason⟩

end Setup

/-- The state block of `poweredOn`, at address `10000h`. -/
def blockPlaced : HvState := { poweredOn with gHvState := 0x10000 }

def zeroRegisters : HvGuestRegisters := ⟨0, 0, 0, 0, 0, 0, 0, 0, 0, 0, 0, 0, 0, 0, 0⟩

theorem blockPlaced_misaligned :
    ¬AbiStack lockedOff 0x10000
      (setupExit lockedOff lockedOff.locals zeroRegisters (fun _ => 0) false blockPlaced 10) :=
  (exitStack_misaligned lockedOff lockedOff.locals zeroRegisters (fun _ => 0) false blockPlaced 10
    (by decide)).1

theorem blockPlaced_breaksConvention :
    ¬∀ (e : HvEnv) (s : HvState), 4096 ∣ s.gHvState.toNat →
      AbiStack e s.gHvState (setupExit e e.locals zeroRegisters (fun _ => 0) false s 10) := by
  intro h
  exact not_abiStack lockedOff lockedOff.locals zeroRegisters (fun _ => 0) false blockPlaced 10
    (by decide) (h lockedOff blockPlaced (by decide))

end HwMon
