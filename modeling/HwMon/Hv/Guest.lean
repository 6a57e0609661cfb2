import HwMon.Hv.Atomic

/-!
# The guest after a successful launch

The context is captured before the first VMWRITE, so VM entry goes back to the
code that fills the VMCS. In non-root operation its first VMWRITE is a VM exit,
and the handler gives up on every exit but CPUID.
-/

namespace HwMon
set_option autoImplicit false

/-- The rest of `HvTryLaunch` after `RtlCaptureContext`, in either pass. -/
def afterCapture (l : SetupLocals) : HvM Bool := do
  let ok ← setupAfterCapture l
  launchAfterSetup ok

/-- The code at the captured RIP. The local variables are what the stack then holds. -/
def codeAt (e : HvEnv) (l : SetupLocals) (rip : UInt64) : Option (HvM Bool) :=
  if rip = e.context.rip then some (afterCapture l) else none

/-- The handler does not resume the guest. -/
def Bails (e : HvEnv) (s : HvState) : Prop :=
  ∀ regs, ((hvHandleVmExit regs).run e s).1 = .ok (1, regs)

/-- The guest that starts in `s` reaches the return of `HvTryLaunch`. An exit for CPUID is
resumed and so is no event; every other one stops the run. -/
def ReturnsAsGuest (e : HvEnv) (l : SetupLocals) (s : HvState) : Prop :=
  ∃ code ∈ codeAt e l (s.vmcs vmcsGuestRip), ∃ ok, (code.run e s).1 = .ok ok

/-- The guest that starts in `s` reaches an exit from which the handler does not resume it. -/
def BailsAsGuest (e : HvEnv) (l : SetupLocals) (s : HvState) : Prop :=
  ∃ code ∈ codeAt e l (s.vmcs vmcsGuestRip), ∃ t, code.run e s = (.error .vmExit, t) ∧ Bails e t

section Fields
variable {s : HvState} {f : UInt32} {v : UInt64} {ws : List (UInt32 × UInt64)}

theorem write_cons (w : UInt32 × UInt64) (ws : List (UInt32 × UInt64)) :
    s.write (w :: ws) = (s.write [w]).write ws :=
  (write_write [w] ws).symm

theorem write_vmcs_of_not_mem (h : f ∉ ws.map Prod.fst) : (s.write ws).vmcs f = s.vmcs f := by
  induction ws generalizing s with
  | nil => rw [write_nil]
  | cons w ws ih =>
    rw [List.map_cons, List.mem_cons, not_or] at h
    rw [write_cons, ih h.2]
    exact if_neg h.1

theorem write_vmcs_of_mem (hnodup : (ws.map Prod.fst).Nodup) (hmem : (f, v) ∈ ws) :
    (s.write ws).vmcs f = v := by
  induction ws generalizing s with
  | nil => exact absurd hmem List.not_mem_nil
  | cons w ws ih =>
    rw [List.map_cons, List.nodup_cons] at hnodup
    rw [write_cons]
    rcases List.mem_cons.mp hmem with rfl | hmem
    · rw [write_vmcs_of_not_mem hnodup.1]
      exact if_pos rfl
    · exact ih hnodup.2 hmem

/-- No field is written twice. -/
theorem setupFields_nodup (e : HvEnv) (l : SetupLocals) (cr4 gHvState : UInt64) :
    ((setupFields e l cr4 gHvState).map Prod.fst).Nodup := by
  -- the fields do not depend on the values, so a fixed environment will do
  have hfields : (setupFields e l cr4 gHvState).map Prod.fst =
      (setupFields lockedOff lockedOff.locals 0 0).map Prod.fst := by
    simp only [setupFields, guestFields, hostFields, controlFields, List.map_append,
      List.map_cons, List.map_nil]
  rw [hfields]
  decide

theorem setupFields_vmcs {e : HvEnv} {l : SetupLocals} {cr4 gHvState : UInt64}
    (hmem : (f, v) ∈ setupFields e l cr4 gHvState) :
    (s.write (setupFields e l cr4 gHvState)).vmcs f = v :=
  write_vmcs_of_mem (setupFields_nodup e l cr4 gHvState) hmem

theorem rip_mem (e : HvEnv) (l : SetupLocals) (cr4 : UInt64) :
    (vmcsGuestRip, l.ctx.rip) ∈ guestFields e l cr4 := by
  simp [guestFields]

theorem rsp_mem (e : HvEnv) (l : SetupLocals) (cr4 : UInt64) :
    (vmcsGuestRsp, l.ctx.rsp) ∈ guestFields e l cr4 := by
  simp [guestFields]

theorem mem_setupFields_of_guest {e : HvEnv} {l : SetupLocals} {cr4 gHvState : UInt64}
    (hmem : (f, v) ∈ guestFields e l cr4) : (f, v) ∈ setupFields e l cr4 gHvState :=
  List.mem_append_left _ (List.mem_append_left _ (List.mem_append_left _ hmem))

end Fields

section Guest
variable {e : HvEnv} {s : HvState}

/-- The first pass runs the same code, on the local variables it has just stored. -/
theorem setup_then_launch_run :
    (setupVmcsFields >>= launchAfterSetup).run e s = (afterCapture e.locals).run e s := by
  rw [setupVmcsFields, afterCapture]
  simp only [Prog.run_bind, Prog.run_env, HvEnv.locals]

theorem afterCapture_nonRoot (h : s.mode = .nonRoot) (l : SetupLocals) :
    (afterCapture l).run e s = (.error .vmExit, s.exit 25) :=
  Prog.bind_of_error (setupAfterCapture_nonRoot h l) _

theorem exit_bails {reason : UInt64} (h : reason &&& 0xFFFF ≠ exitReasonCpuid) (s : HvState) :
    Bails e (s.exit reason) := by
  intro regs
  have hread : (vmread vmcsVmExitReason).run e (s.exit reason) =
      (.ok reason, (s.exit reason).note (.vmread vmcsVmExitReason)) :=
    vmread_run VmxMode.noConfusion _
  rw [hvHandleVmExit, Prog.bind_of_ok hread, if_pos h]
  rfl

theorem launchInVmx_entered_inv (hmode : s.mode = .root) {block : UInt64}
    (h : ((launchInVmx block).run e s).1 = .error .launched) :
    e.vmclearResult (e.physical (block + hvVmcsRegion)) = 0 ∧
      e.vmptrldResult (e.physical (block + hvVmcsRegion)) = 0 ∧ e.vmlaunchResult = .enters := by
  generalize hphys : e.physical (block + hvVmcsRegion) = phys
  by_cases hfail : ¬(e.vmclearResult phys = 0 ∧ e.vmptrldResult phys = 0) ∨
      e.vmlaunchResult.isRefused = true
  · obtain ⟨t, hrun, _⟩ := launchInVmx_ended hmode hphys hfail
    rw [hrun] at h
    cases h
  · obtain ⟨hloaded, hrefused⟩ := not_or.mp hfail
    obtain ⟨hclear, hload⟩ := not_not.mp hloaded
    refine ⟨hclear, hload, ?_⟩
    rw [launchInVmx_run (ne_nonRoot hmode) hphys, if_neg (not_not.mpr hclear),
      if_neg (not_not.mpr hload)] at h
    cases hlaunch : e.vmlaunchResult with
    | enters => rfl
    | entryFails reason =>
      rw [launchAfterSetup_entryFails (ne_nonRoot (s := s.loaded e phys) hmode) hlaunch] at h
      cases h
    | refused error =>
      rw [hlaunch] at hrefused
      exact absurd rfl hrefused

theorem hvTryLaunch_entered_inv (h : (hvTryLaunch.run e s).1 = .error .launched) :
    s.mode ≠ .nonRoot ∧ e.ReachesLaunch ∧ e.vmlaunchResult = .enters := by
  by_cases hearly : e.StopsEarly
  case pos =>
    obtain ⟨format, args, hrun | hrun | hrun⟩ := hvTryLaunch_stopped (s := s) hearly
    all_goals
      rw [hrun] at h
      cases h
  rw [hvTryLaunch_checked hearly] at h
  by_cases hmode : s.mode = .nonRoot
  case pos =>
    have hon : (vmxOn (e.physical (e.allocation + hvVmxonRegion))).run e
        ((s.allocated e).vmxEnabled e e.allocation) =
          (.error .vmExit, ((s.allocated e).vmxEnabled e e.allocation).exit 27) :=
      vmxInstruction_nonRoot hmode
    rw [launchWithBlock_run, Prog.bind_of_error hon] at h
    cases h
  generalize hphys : e.physical (e.allocation + hvVmxonRegion) = phys
  by_cases hresult : e.vmxOnResult phys = 0
  case neg =>
    rw [launchWithBlock_failed (s := s.allocated e) hmode hphys hresult] at h
    cases h
  rw [launchWithBlock_entered (s := s.allocated e) hmode hphys hresult] at h
  obtain ⟨hclear, hload, hlaunch⟩ := launchInVmx_entered_inv rfl h
  rw [← hphys] at hresult
  exact ⟨hmode, ⟨hearly, hresult, hclear, hload⟩, hlaunch⟩

theorem hvTryLaunch_launched (h : (hvTryLaunch.run e s).1 = .error .launched) :
    hvTryLaunch.run e s =
      (.error .launched, { (s.ready e).note .vmlaunch with mode := .nonRoot }) := by
  obtain ⟨hmode, hreach, hlaunch⟩ := hvTryLaunch_entered_inv h
  rw [hvTryLaunch_reaches hmode hreach, launchAfterSetup_launched VmxMode.noConfusion hlaunch]

theorem ready_vmcs {f : UInt32} {v : UInt64} (h : ∀ cr4, (f, v) ∈ guestFields e e.locals cr4) :
    (s.ready e).vmcs f = v :=
  setupFields_vmcs (mem_setupFields_of_guest (h _))

theorem launched_context (h : (hvTryLaunch.run e s).1 = .error .launched) :
    (hvTryLaunch.run e s).2.vmcs vmcsGuestRip = e.context.rip ∧
      (hvTryLaunch.run e s).2.vmcs vmcsGuestRsp = e.context.rsp := by
  rw [hvTryLaunch_launched h]
  exact ⟨ready_vmcs (s := s) (rip_mem e e.locals), ready_vmcs (s := s) (rsp_mem e e.locals)⟩

theorem launched_code (h : (hvTryLaunch.run e s).1 = .error .launched) (l : SetupLocals) :
    codeAt e l ((hvTryLaunch.run e s).2.vmcs vmcsGuestRip) = some (afterCapture l) :=
  if_pos (launched_context h).1

theorem launched_run (h : (hvTryLaunch.run e s).1 = .error .launched) (l : SetupLocals) :
    (afterCapture l).run e (hvTryLaunch.run e s).2 =
      (.error .vmExit, (hvTryLaunch.run e s).2.exit 25) := by
  apply afterCapture_nonRoot
  rw [hvTryLaunch_launched h]

theorem not_returnsAsGuest (h : (hvTryLaunch.run e s).1 = .error .launched) (l : SetupLocals) :
    ¬ReturnsAsGuest e l (hvTryLaunch.run e s).2 := by
  intro ⟨code, hmem, ok, hreturn⟩
  rw [launched_code h] at hmem
  obtain rfl := Option.some.inj hmem
  rw [launched_run h] at hreturn
  cases hreturn

/-- No launched guest reaches the return of `HvTryLaunch`: it exits for VMWRITE before. -/
theorem launchedGuest_neverReturns (e : HvEnv) (s : HvState) (l : SetupLocals)
    (h : (hvTryLaunch.run e s).1 = .error .launched) :
    ¬ReturnsAsGuest e l (hvTryLaunch.run e s).2 ∧ BailsAsGuest e l (hvTryLaunch.run e s).2 :=
  ⟨not_returnsAsGuest h l, afterCapture l, launched_code h l, _, launched_run h l,
    exit_bails (by decide) _⟩

end Guest

/-- A processor and firmware on which every step of the launch succeeds. -/
def allSucceed : HvEnv := { lockedOff with msr := fun _ => 5 }

theorem allSucceed_neverReturns :
    ¬ReturnsAsGuest allSucceed allSucceed.locals (hvTryLaunch.run allSucceed poweredOn).2 ∧
      BailsAsGuest allSucceed allSucceed.locals (hvTryLaunch.run allSucceed poweredOn).2 :=
  launchedGuest_neverReturns allSucceed poweredOn allSucceed.locals (by decide)

theorem allSucceed_exitsForVmwrite :
    ¬∀ (e : HvEnv) (s : HvState), (hvTryLaunch.run e s).1 = .error .launched →
      ReturnsAsGuest e e.locals (hvTryLaunch.run e s).2 ∧
        ¬BailsAsGuest e e.locals (hvTryLaunch.run e s).2 := by
  intro h
  have hlaunched : (hvTryLaunch.run allSucceed poweredOn).1 = .error .launched := by
    decide
  exact not_returnsAsGuest hlaunched allSucceed.locals (h allSucceed poweredOn hlaunched).1

end HwMon
