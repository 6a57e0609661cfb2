import HwMon.Hv.Setup

/-!
# Launching the hypervisor

`HvTryLaunch`, cut at the points that later results refer to, and the C part of
the VM-exit handler.
-/

namespace HwMon
set_option autoImplicit false

def vmxIsSupportedByCpuid : HvM Bool := do
  let regs ← cpuidex 1 0
  pure (regs.ecx &&& ((1 : UInt32) <<< 5) != 0)

def vmxIsEnabledByBios : HvM Bool := do
  let featureControl ← readMsr ia32FeatureControlMsr
  let locked := featureControl &&& 1 != 0
  let vmxOutsideSmx := featureControl &&& ((1 : UInt64) <<< 2) != 0
  pure (locked && vmxOutsideSmx)

def mmAllocateContiguousMemory : HvM UInt64 := do
  let block ← .env HvEnv.allocation
  if block = 0 then pure 0
  else do
    hvNote (.allocate block)
    pure block

/-- `MmFreeContiguousMemory(g_HvState); g_HvState = NULL;` -/
def freeHvState : HvM Unit := do
  let block ← .get HvState.gHvState
  hvNote (.free block)
  .modify fun s => { s with gHvState := 0 }

/-- A failure exit before VMXON: the block is freed. -/
def giveUp (format : String) (args : List UInt64) : HvM Bool := do
  dbgPrint format args
  freeHvState
  pure false

/-- A failure exit after VMXON: VMX operation is left and the block is freed. -/
def giveUpVmx (format : String) (args : List UInt64) : HvM Bool := do
  dbgPrint format args
  vmxOff
  freeHvState
  pure false

/-- `HvTryLaunch` from the return of `SetupVmcsFields` on. -/
def launchAfterSetup (ok : Bool) : HvM Bool :=
  if ok = false then giveUpVmx "hwmon_hv: VMCS field setup failed.\n" []
  else do
    vmlaunch
    let errorCode ← vmread vmcsVmInstructionError
    giveUpVmx "hwmon_hv: VMLAUNCH failed, VM-instruction error %llu.\n" [errorCode]

/-- `HvTryLaunch` in VMX operation. -/
def launchInVmx (block : UInt64) : HvM Bool := do
  let physAddr ← .env fun e => e.physical (block + hvVmcsRegion)
  let cleared ← vmclear physAddr
  if cleared ≠ 0 then giveUpVmx "hwmon_hv: VMCLEAR failed.\n" []
  else do
    let loaded ← vmptrld physAddr
    if loaded ≠ 0 then giveUpVmx "hwmon_hv: VMPTRLD failed.\n" []
    else do
      let ok ← setupVmcsFields
      launchAfterSetup ok

/-- `HvTryLaunch` from an aligned block on. -/
def launchWithBlock (block : UInt64) : HvM Bool := do
  let vmxBasic ← readMsr ia32VmxBasicMsr
  let revisionId := vmxBasic.toUInt32
  hvNote (.writeDword (block + hvVmxonRegion) revisionId)
  hvNote (.writeDword (block + hvVmcsRegion) revisionId)
  let cr4 ← readcr4
  writecr4 (cr4 ||| ((1 : UInt64) <<< 13))
  let physAddr ← .env fun e => e.physical (block + hvVmxonRegion)
  let vmxOnResult ← vmxOn physAddr
  if vmxOnResult ≠ 0 then giveUp "hwmon_hv: VMXON failed, code %d.\n" [vmxOnResult.toUInt64]
  else launchInVmx block

def hvTryLaunch : HvM Bool := do
  let supported ← vmxIsSupportedByCpuid
  if supported = false then do
    dbgPrint "hwmon_hv: CPUID does not report VMX support.\n" []
    pure false
  else do
    let enabled ← vmxIsEnabledByBios
    if enabled = false then do
      dbgPrint "hwmon_hv: VMX not locked-enabled by firmware (IA32_FEATURE_CONTROL).\n" []
      pure false
    else do
      let block ← mmAllocateContiguousMemory
      .modify fun s => { s with gHvState := block }
      if block = 0 then do
        dbgPrint "hwmon_hv: failed to allocate HV_STATE.\n" []
        pure false
      else do
        hvNote (.zeroMemory block sizeofHvState)
        if (block + hvVmxonRegion) % hvPageSize ≠ 0 ∨ (block + hvVmcsRegion) % hvPageSize ≠ 0 then
          giveUp "hwmon_hv: VMXON/VMCS region not page-aligned; aborting.\n" []
        else launchWithBlock block

structure HvGuestRegisters where
  r15 : UInt64
  r14 : UInt64
  r13 : UInt64
  r12 : UInt64
  r11 : UInt64
  r10 : UInt64
  r9 : UInt64
  r8 : UInt64
  rdi : UInt64
  rsi : UInt64
  rbp : UInt64
  rbx : UInt64
  rdx : UInt64
  rcx : UInt64
  rax : UInt64
  deriving DecidableEq, Repr

/-- The result, zero to resume the guest, and the registers. -/
def hvHandleVmExit (regs : HvGuestRegisters) : HvM (UInt8 × HvGuestRegisters) := do
  let exitReason ← vmread vmcsVmExitReason
  if exitReason &&& 0xFFFF ≠ exitReasonCpuid then pure (1, regs)
  else do
    let result ← cpuidex regs.rax.toUInt32 regs.rcx.toUInt32
    let regs := { regs with rax := result.eax.toUInt64, rbx := result.ebx.toUInt64,
                            rcx := result.ecx.toUInt64, rdx := result.edx.toUInt64 }
    let instrLen ← vmread vmcsVmExitInstructionLen
    let rip ← vmread vmcsGuestRip
    vmwrite vmcsGuestRip (rip + instrLen)
    pure (0, regs)

section Checks
variable (e : HvEnv)

def HvEnv.Supported : Prop := (e.cpuid 1 0).ecx &&& ((1 : UInt32) <<< 5) ≠ 0

def HvEnv.Enabled : Prop :=
  e.msr ia32FeatureControlMsr &&& 1 ≠ 0 ∧
    e.msr ia32FeatureControlMsr &&& ((1 : UInt64) <<< 2) ≠ 0

def HvEnv.Aligned : Prop :=
  (e.allocation + hvVmxonRegion) % hvPageSize = 0 ∧ (e.allocation + hvVmcsRegion) % hvPageSize = 0

/-- One of the four checks before CR4 is written fails. -/
def HvEnv.StopsEarly : Prop := ¬e.Supported ∨ ¬e.Enabled ∨ e.allocation = 0 ∨ ¬e.Aligned

instance : Decidable e.Supported := inferInstanceAs (Decidable (_ ≠ _))

instance : Decidable e.Enabled := inferInstanceAs (Decidable (_ ∧ _))

instance : Decidable e.Aligned := inferInstanceAs (Decidable (_ ∧ _))

instance : Decidable e.StopsEarly := inferInstanceAs (Decidable (_ ∨ _))

/-- Every step before VMLAUNCH succeeds. -/
structure HvEnv.ReachesLaunch : Prop where
  checked : ¬e.StopsEarly
  vmxOn : e.vmxOnResult (e.physical (e.allocation + hvVmxonRegion)) = 0
  vmclear : e.vmclearResult (e.physical (e.allocation + hvVmcsRegion)) = 0
  vmptrld : e.vmptrldResult (e.physical (e.allocation + hvVmcsRegion)) = 0

instance : Decidable e.ReachesLaunch :=
  decidable_of_iff (¬e.StopsEarly ∧
    e.vmxOnResult (e.physical (e.allocation + hvVmxonRegion)) = 0 ∧
    e.vmclearResult (e.physical (e.allocation + hvVmcsRegion)) = 0 ∧
    e.vmptrldResult (e.physical (e.allocation + hvVmcsRegion)) = 0)
    ⟨fun h => ⟨h.1, h.2.1, h.2.2.1, h.2.2.2⟩, fun h => ⟨h.checked, h.vmxOn, h.vmclear, h.vmptrld⟩⟩

def VmlaunchResult.isRefused : VmlaunchResult → Bool
  | .refused _ => true
  | _ => false

/-- Some step of the launch fails and reports it. -/
def HvEnv.Fails : Prop := ¬e.ReachesLaunch ∨ e.vmlaunchResult.isRefused = true

instance : Decidable e.Fails := inferInstanceAs (Decidable (_ ∨ _))

end Checks

def HvEnv.locals (e : HvEnv) : SetupLocals :=
  { gdtr := e.gdtr, idtr := e.idtr, tr := e.tr, ctx := e.context }

def HvState.allocated (e : HvEnv) (s : HvState) : HvState :=
  HvState.note (.zeroMemory e.allocation sizeofHvState)
    { s.note (.allocate e.allocation) with gHvState := e.allocation }

def HvState.vmxEnabled (e : HvEnv) (block : UInt64) (s : HvState) : HvState :=
  let revisionId := (e.msr ia32VmxBasicMsr).toUInt32
  let cr4 := s.cr4 ||| ((1 : UInt64) <<< 13)
  { ((s.note (.writeDword (block + hvVmxonRegion) revisionId)).note
      (.writeDword (block + hvVmcsRegion) revisionId)).note (.writecr4 cr4) with cr4 := cr4 }

def HvState.loaded (e : HvEnv) (phys : UInt64) (s : HvState) : HvState :=
  ((s.note (.vmclear phys)).note (.vmptrld phys)).write
    (setupFields e e.locals s.cr4 s.gHvState)

section Runs
variable {e : HvEnv} {s : HvState}

theorem vmread_run (h : s.mode ≠ .nonRoot) (field : UInt32) :
    (vmread field).run e s = (.ok (s.vmcs field), s.note (.vmread field)) :=
  vmxInstruction_root h

theorem vmlaunch_run (h : s.mode ≠ .nonRoot) : vmlaunch.run e s =
    match e.vmlaunchResult with
    | .enters => (.error .launched, { s.note .vmlaunch with mode := .nonRoot })
    | .entryFails reason => (.error .vmExit, (s.note .vmlaunch).exit reason)
    | .refused error => (.ok (), (s.note .vmlaunch).setField vmcsVmInstructionError error) := by
  refine (vmxInstruction_root h).trans ?_
  have hnote : (hvNote .vmlaunch).run e s = (.ok (), s.note .vmlaunch) := rfl
  rw [Prog.bind_of_ok hnote, Prog.run_bind, Prog.run_env]
  cases e.vmlaunchResult <;> rfl

theorem launchAfterSetup_launched (h : s.mode ≠ .nonRoot) (hlaunch : e.vmlaunchResult = .enters) :
    (launchAfterSetup true).run e s =
      (.error .launched, { s.note .vmlaunch with mode := .nonRoot }) := by
  have hrun := vmlaunch_run (e := e) h
  rw [hlaunch] at hrun
  rw [launchAfterSetup, if_neg Bool.noConfusion, Prog.bind_of_error hrun]

theorem launchAfterSetup_entryFails (h : s.mode ≠ .nonRoot) {reason : UInt64}
    (hlaunch : e.vmlaunchResult = .entryFails reason) :
    (launchAfterSetup true).run e s = (.error .vmExit, (s.note .vmlaunch).exit reason) := by
  have hrun := vmlaunch_run (e := e) h
  rw [hlaunch] at hrun
  rw [launchAfterSetup, if_neg Bool.noConfusion, Prog.bind_of_error hrun]

theorem setupVmcsFields_root (h : s.mode ≠ .nonRoot) : setupVmcsFields.run e s =
    (.ok true, s.write (setupFields e e.locals s.cr4 s.gHvState)) := by
  rw [← setupAfterCapture_root h e.locals, setupVmcsFields]
  simp only [Prog.run_bind, Prog.run_env, HvEnv.locals]

theorem launchInVmx_run (h : s.mode ≠ .nonRoot) {block phys : UInt64}
    (hphys : e.physical (block + hvVmcsRegion) = phys) :
    (launchInVmx block).run e s =
      if e.vmclearResult phys ≠ 0 then
        (giveUpVmx "hwmon_hv: VMCLEAR failed.\n" []).run e (s.note (.vmclear phys))
      else if e.vmptrldResult phys ≠ 0 then
        (giveUpVmx "hwmon_hv: VMPTRLD failed.\n" []).run e
          ((s.note (.vmclear phys)).note (.vmptrld phys))
      else (launchAfterSetup true).run e (s.loaded e phys) := by
  subst hphys
  have hphys : (Prog.env fun e => e.physical (block + hvVmcsRegion) : HvM UInt64).run e s =
      (.ok (e.physical (block + hvVmcsRegion)), s) := rfl
  generalize e.physical (block + hvVmcsRegion) = phys at hphys ⊢
  have hclear : (vmclear phys).run e s = (.ok (e.vmclearResult phys), s.note (.vmclear phys)) :=
    vmxInstruction_root h
  rw [launchInVmx, Prog.bind_of_ok hphys, Prog.bind_of_ok hclear]
  split
  · rfl
  · have hload : (vmptrld phys).run e (s.note (.vmclear phys)) =
        (.ok (e.vmptrldResult phys), (s.note (.vmclear phys)).note (.vmptrld phys)) :=
      vmxInstruction_root h
    rw [Prog.bind_of_ok hload]
    split
    · rfl
    · have hsetup := setupVmcsFields_root (e := e)
        (s := (s.note (.vmclear phys)).note (.vmptrld phys)) h
      rw [Prog.bind_of_ok hsetup]
      rfl

theorem vmxOn_entered (h : s.mode ≠ .nonRoot) {phys : UInt64} (hresult : e.vmxOnResult phys = 0) :
    (vmxOn phys).run e s = (.ok 0, { s.note (.vmxOn phys) with mode := .root }) := by
  refine (vmxInstruction_root h).trans ?_
  have hnote : (hvNote (.vmxOn phys)).run e s = (.ok (), s.note (.vmxOn phys)) := rfl
  simp only [Prog.bind_of_ok hnote, Prog.run_bind, Prog.run_env, hresult, if_true,
    Prog.run_modify, Prog.run_pure]

theorem vmxOn_failed (h : s.mode ≠ .nonRoot) {phys : UInt64} (hresult : e.vmxOnResult phys ≠ 0) :
    (vmxOn phys).run e s = (.ok (e.vmxOnResult phys), s.note (.vmxOn phys)) := by
  refine (vmxInstruction_root h).trans ?_
  have hnote : (hvNote (.vmxOn phys)).run e s = (.ok (), s.note (.vmxOn phys)) := rfl
  simp only [Prog.bind_of_ok hnote, Prog.run_bind, Prog.run_env, hresult, if_false,
    Prog.run_pure]

theorem launchWithBlock_run (block : UInt64) : (launchWithBlock block).run e s =
    (vmxOn (e.physical (block + hvVmxonRegion)) >>= fun vmxOnResult =>
      if vmxOnResult ≠ 0 then
        giveUp "hwmon_hv: VMXON failed, code %d.\n" [vmxOnResult.toUInt64]
      else launchInVmx block).run e (s.vmxEnabled e block) := rfl

theorem launchWithBlock_entered (h : s.mode ≠ .nonRoot) {block phys : UInt64}
    (hphys : e.physical (block + hvVmxonRegion) = phys) (hresult : e.vmxOnResult phys = 0) :
    (launchWithBlock block).run e s = (launchInVmx block).run e
      { (s.vmxEnabled e block).note (.vmxOn phys) with mode := .root } := by
  have hon := vmxOn_entered (s := s.vmxEnabled e block) h hresult
  rw [launchWithBlock_run, hphys, Prog.bind_of_ok hon, if_neg (not_not.mpr rfl)]

theorem launchWithBlock_failed (h : s.mode ≠ .nonRoot) {block phys : UInt64}
    (hphys : e.physical (block + hvVmxonRegion) = phys) (hresult : e.vmxOnResult phys ≠ 0) :
    (launchWithBlock block).run e s =
      (giveUp "hwmon_hv: VMXON failed, code %d.\n" [(e.vmxOnResult phys).toUInt64]).run e
        ((s.vmxEnabled e block).note (.vmxOn phys)) := by
  have hon := vmxOn_failed (s := s.vmxEnabled e block) h hresult
  rw [launchWithBlock_run, hphys, Prog.bind_of_ok hon, if_pos hresult]

theorem supported_run : vmxIsSupportedByCpuid.run e s = (.ok (decide e.Supported), s) := by
  have hbit : ((e.cpuid 1 0).ecx &&& ((1 : UInt32) <<< 5) != 0) = decide e.Supported :=
    (decide_not (p := _ = _)).symm
  rw [← hbit]
  rfl

theorem enabled_run : vmxIsEnabledByBios.run e s = (.ok (decide e.Enabled), s) := by
  have hbits : ((e.msr ia32FeatureControlMsr &&& 1 != 0) &&
      (e.msr ia32FeatureControlMsr &&& ((1 : UInt64) <<< 2) != 0)) = decide e.Enabled := by
    rw [Bool.eq_iff_iff, Bool.and_eq_true, bne_iff_ne, bne_iff_ne, decide_eq_true_iff]
    rfl
  rw [← hbits]
  rfl

theorem allocate_zero (h : e.allocation = 0) :
    mmAllocateContiguousMemory.run e s = (.ok 0, s) := by
  simp only [mmAllocateContiguousMemory, Prog.run_bind, Prog.run_env, h, if_true, Prog.run_pure]

theorem allocate_block (h : e.allocation ≠ 0) : mmAllocateContiguousMemory.run e s =
    (.ok e.allocation, s.note (.allocate e.allocation)) := by
  have hnote : (hvNote (.allocate e.allocation)).run e s =
      (.ok (), s.note (.allocate e.allocation)) := rfl
  simp only [mmAllocateContiguousMemory, Prog.run_bind, Prog.run_env, h, if_false, hnote,
    Prog.run_pure]

theorem hvTryLaunch_run : hvTryLaunch.run e s =
    if ¬e.Supported then
      (.ok false, s.note (.dbgPrint "hwmon_hv: CPUID does not report VMX support.\n" []))
    else if ¬e.Enabled then
      (.ok false, s.note (.dbgPrint
        "hwmon_hv: VMX not locked-enabled by firmware (IA32_FEATURE_CONTROL).\n" []))
    else if e.allocation = 0 then
      (.ok false, HvState.note (.dbgPrint "hwmon_hv: failed to allocate HV_STATE.\n" [])
        { s with gHvState := 0 })
    else if ¬e.Aligned then
      (giveUp "hwmon_hv: VMXON/VMCS region not page-aligned; aborting.\n" []).run e (s.allocated e)
    else (launchWithBlock e.allocation).run e (s.allocated e) := by
  rw [hvTryLaunch, Prog.bind_of_ok supported_run]
  rcases Decidable.em e.Supported with hsupported | hsupported
  case inr => simp only [hsupported, decide_false, if_true, not_false_iff, dbgPrint, hvNote]; rfl
  rw [if_neg (not_not.mpr hsupported), decide_eq_true hsupported, if_neg Bool.noConfusion,
    Prog.bind_of_ok enabled_run]
  rcases Decidable.em e.Enabled with henabled | henabled
  case inr => simp only [henabled, decide_false, if_true, not_false_iff, dbgPrint, hvNote]; rfl
  rw [if_neg (not_not.mpr henabled), decide_eq_true henabled, if_neg Bool.noConfusion]
  rcases Decidable.em (e.allocation = 0) with hblock | hblock
  · rw [Prog.bind_of_ok (allocate_zero hblock), if_pos hblock]
    rfl
  · rw [Prog.bind_of_ok (allocate_block hblock), if_neg hblock]
    have hstore : (Prog.modify fun s => { s with gHvState := e.allocation } : HvM Unit).run e
        (s.note (.allocate e.allocation)) =
          (.ok (), { s.note (.allocate e.allocation) with gHvState := e.allocation }) := rfl
    have hzero : (hvNote (.zeroMemory e.allocation sizeofHvState)).run e
        { s.note (.allocate e.allocation) with gHvState := e.allocation } =
          (.ok (), s.allocated e) := rfl
    have halign : ¬e.Aligned ↔ (e.allocation + hvVmxonRegion) % hvPageSize ≠ 0 ∨
        (e.allocation + hvVmcsRegion) % hvPageSize ≠ 0 := not_and_or
    rw [Prog.bind_of_ok hstore, if_neg hblock, Prog.bind_of_ok hzero, Prog.run_ite]
    simp only [halign]

theorem not_stopsEarly : ¬e.StopsEarly ↔
    e.Supported ∧ e.Enabled ∧ e.allocation ≠ 0 ∧ e.Aligned := by
  simp only [HvEnv.StopsEarly, not_or, not_not, ne_eq]

theorem hvTryLaunch_checked (h : ¬e.StopsEarly) :
    hvTryLaunch.run e s = (launchWithBlock e.allocation).run e (s.allocated e) := by
  obtain ⟨hsupported, henabled, hblock, haligned⟩ := not_stopsEarly.mp h
  rw [hvTryLaunch_run, if_neg (not_not.mpr hsupported), if_neg (not_not.mpr henabled),
    if_neg hblock, if_neg (not_not.mpr haligned)]

/-- The state in which VMLAUNCH is executed, if every step before it succeeds. -/
def HvState.ready (e : HvEnv) (s : HvState) : HvState :=
  HvState.loaded e (e.physical (e.allocation + hvVmcsRegion))
    { ((s.allocated e).vmxEnabled e e.allocation).note
        (.vmxOn (e.physical (e.allocation + hvVmxonRegion))) with mode := .root }

theorem hvTryLaunch_reaches (h : s.mode ≠ .nonRoot) (hall : e.ReachesLaunch) :
    hvTryLaunch.run e s = (launchAfterSetup true).run e (s.ready e) := by
  rw [hvTryLaunch_checked hall.checked,
    launchWithBlock_entered (s := s.allocated e) h rfl hall.vmxOn,
    launchInVmx_run VmxMode.noConfusion rfl, if_neg (not_not.mpr hall.vmclear),
    if_neg (not_not.mpr hall.vmptrld)]
  rfl

/-- What a call does that one of the four checks stops. -/
theorem hvTryLaunch_stopped (h : e.StopsEarly) : ∃ format args,
    hvTryLaunch.run e s = (.ok false, s.note (.dbgPrint format args)) ∨
      hvTryLaunch.run e s =
        (.ok false, HvState.note (.dbgPrint format args) { s with gHvState := 0 }) ∨
      hvTryLaunch.run e s = (giveUp format args).run e (s.allocated e) := by
  rw [hvTryLaunch_run]
  split
  case isTrue => exact ⟨_, _, .inl rfl⟩
  case isFalse hsupported =>
  split
  case isTrue => exact ⟨_, _, .inl rfl⟩
  case isFalse henabled =>
  split
  case isTrue => exact ⟨_, _, .inr (.inl rfl)⟩
  case isFalse hblock =>
  split
  case isTrue => exact ⟨_, _, .inr (.inr rfl)⟩
  case isFalse haligned =>
    rw [not_not] at hsupported henabled haligned
    exact absurd h (not_stopsEarly.mpr ⟨hsupported, henabled, hblock, haligned⟩)

end Runs
end HwMon
