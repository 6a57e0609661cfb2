import HwMon.Hv.Guest

/-!
# The VMX controls of a launch

A word adjusted to its capability MSR has the bits that must be one and none that
must be zero. A requested bit that is not allowed is dropped without a word, and
the launch goes on.
-/

namespace HwMon
set_option autoImplicit false

/-- Every bit of `a` is set in `b`. -/
def BitsIn (a b : UInt32) : Prop := a &&& b = a

instance (a b : UInt32) : Decidable (BitsIn a b) := inferInstanceAs (Decidable (_ = _))

/-- The bits that must be one. -/
def allowed0 (value : UInt64) : UInt32 := value.toUInt32

/-- The bits that may be one. -/
def allowed1 (value : UInt64) : UInt32 := (value >>> 32).toUInt32

structure HvControl where
  field : UInt32
  msr : UInt32
  desired : UInt32
  deriving DecidableEq, Repr

/-- The controls of `SetupVmcsFields` with what it requests of them. -/
def hvControls : List HvControl :=
  [⟨vmcsPinBasedControls, ia32VmxPinbasedCtlsMsr, 0⟩,
   ⟨vmcsProcBasedControls, ia32VmxProcbasedCtlsMsr, 0⟩,
   ⟨vmcsExitControls, ia32VmxExitCtlsMsr, (1 : UInt32) <<< 9⟩,
   ⟨vmcsEntryControls, ia32VmxEntryCtlsMsr, (1 : UInt32) <<< 9⟩]

/-- The requested bits are allowed. -/
def HvControl.Allowed (c : HvControl) (e : HvEnv) : Prop :=
  BitsIn c.desired (allowed1 (e.msr c.msr))

instance (c : HvControl) (e : HvEnv) : Decidable (c.Allowed e) :=
  inferInstanceAs (Decidable (BitsIn _ _))

/-- A control word as it must be for a capability and a request. -/
structure ControlWord (value : UInt64) (desired word : UInt32) : Prop where
  mustBeOne : BitsIn (allowed0 value) word
  mustBeZero : BitsIn word (allowed1 value)
  requested : BitsIn desired word

/-- The status is TRUE just when the result has all requested bits. -/
def AdjustReports (e : HvEnv) (s : HvState) (msr desired : UInt32) : Prop :=
  ∃ status out, (adjustControlValue msr desired).run e s = (.ok (status, out), s) ∧
    (status = true ↔ BitsIn desired out)

/-- The log of a call in which VMLAUNCH needs proper controls. -/
structure LaunchClosed (e : HvEnv) (log : List HvEvent) : Prop where
  words : HvEvent.vmlaunch ∈ log → ∀ c ∈ hvControls, ∀ v, HvEvent.vmwrite c.field v ∈ log →
    ∃ word : UInt32, v = word.toUInt64 ∧ ControlWord (e.msr c.msr) c.desired word
  abandoned : (∃ c ∈ hvControls, ¬c.Allowed e) → HvEvent.vmlaunch ∉ log

section Bits
variable {a b c : UInt32}

theorem bitsIn_iff : BitsIn a b ↔
    ∀ i, a.toBitVec.getLsbD i = true → b.toBitVec.getLsbD i = true := by
  rw [BitsIn, ← UInt32.toBitVec_inj, UInt32.toBitVec_and]
  constructor
  · intro h i hi
    rw [← h, BitVec.getLsbD_and] at hi
    exact (Bool.and_eq_true_iff.mp hi).2
  · intro h
    apply BitVec.eq_of_getLsbD_eq
    intro i _
    rw [BitVec.getLsbD_and]
    cases ha : a.toBitVec.getLsbD i with
    | false => rfl
    | true => rw [h i ha, Bool.and_true]

theorem BitsIn.trans (hab : BitsIn a b) (hbc : BitsIn b c) : BitsIn a c := by
  rw [bitsIn_iff] at hab hbc ⊢
  intro i hi
  exact hbc i (hab i hi)

theorem bitsIn_and : BitsIn a (b &&& c) ↔ BitsIn a b ∧ BitsIn a c := by
  simp only [bitsIn_iff, UInt32.toBitVec_and, BitVec.getLsbD_and, Bool.and_eq_true]
  exact ⟨fun h => ⟨fun i hi => (h i hi).1, fun i hi => (h i hi).2⟩,
    fun h i hi => ⟨h.1 i hi, h.2 i hi⟩⟩

theorem bitsIn_or_left (a b : UInt32) : BitsIn a (a ||| b) := by
  rw [bitsIn_iff]
  intro i hi
  rw [UInt32.toBitVec_or, BitVec.getLsbD_or, hi, Bool.true_or]

theorem bitsIn_or_right (a b : UInt32) : BitsIn b (a ||| b) := by
  rw [bitsIn_iff]
  intro i hi
  rw [UInt32.toBitVec_or, BitVec.getLsbD_or, hi, Bool.or_true]

theorem and_bitsIn (a b : UInt32) : BitsIn (a &&& b) b := by
  rw [bitsIn_iff]
  intro i hi
  rw [UInt32.toBitVec_and, BitVec.getLsbD_and] at hi
  exact (Bool.and_eq_true_iff.mp hi).2

end Bits

section Adjusted
variable {value : UInt64} {desired : UInt32}

theorem adjustedControl_eq (value : UInt64) (desired : UInt32) :
    adjustedControl value desired = (desired ||| allowed0 value) &&& allowed1 value := rfl

theorem requested_iff : BitsIn desired (adjustedControl value desired) ↔
    BitsIn desired (allowed1 value) := by
  rw [adjustedControl_eq, bitsIn_and, and_iff_right (bitsIn_or_left _ _)]

/-- The adjusted word is as it must be just when the request is allowed. -/
theorem controlWord_iff (hcaps : BitsIn (allowed0 value) (allowed1 value)) :
    ControlWord value desired (adjustedControl value desired) ↔
      BitsIn desired (allowed1 value) := by
  constructor
  · intro h
    exact requested_iff.mp h.requested
  · intro h
    refine ⟨?_, and_bitsIn _ _, requested_iff.mpr h⟩
    rw [adjustedControl_eq, bitsIn_and]
    exact ⟨bitsIn_or_right _ _, hcaps⟩

theorem adjustReports_iff (e : HvEnv) (s : HvState) (msr desired : UInt32) :
    AdjustReports e s msr desired ↔ BitsIn desired (allowed1 (e.msr msr)) := by
  rw [← requested_iff]
  constructor
  · rintro ⟨status, out, hrun, hstatus⟩
    obtain ⟨rfl, rfl⟩ := Prod.mk.inj (Except.ok.inj (congrArg Prod.fst hrun))
    exact hstatus.mp rfl
  · intro h
    exact ⟨true, _, rfl, iff_of_true rfl h⟩

end Adjusted

/-!
## The VMCS writes of a call
-/

def HvEvent.isVmcsStep : HvEvent → Bool
  | .vmwrite _ _ => true
  | .vmlaunch => true
  | _ => false

/-- The writes to the VMCS and VMLAUNCH. -/
def HvState.vmcsSteps (s : HvState) : List HvEvent := s.log.filter HvEvent.isVmcsStep

section Steps
variable {e : HvEnv} {s : HvState}

theorem note_vmcsSteps {w : HvEvent} (h : w.isVmcsStep = false) (s : HvState) :
    (s.note w).vmcsSteps = s.vmcsSteps := by
  rw [HvState.vmcsSteps, HvState.note, List.filter_append, List.filter_singleton, h, cond_false,
    List.append_nil]
  rfl

theorem write_vmcsSteps (ws : List (UInt32 × UInt64)) (s : HvState) :
    (s.write ws).vmcsSteps = s.vmcsSteps ++ ws.map fun w => .vmwrite w.1 w.2 := by
  have hall : (ws.map fun w => HvEvent.vmwrite w.1 w.2).filter HvEvent.isVmcsStep =
      ws.map fun w => HvEvent.vmwrite w.1 w.2 := by
    apply List.filter_eq_self.mpr
    intro a ha
    obtain ⟨w, _, rfl⟩ := List.mem_map.mp ha
    rfl
  rw [HvState.write, HvState.vmcsSteps, List.filter_append, hall]
  rfl

theorem giveUp_vmcsSteps (format : String) (args : List UInt64) :
    ((giveUp format args).run e s).2.vmcsSteps = s.vmcsSteps := by
  refine (note_vmcsSteps (w := .free s.gHvState) rfl (s.note (.dbgPrint format args))).trans ?_
  exact note_vmcsSteps rfl s

theorem giveUpVmx_vmcsSteps (h : s.mode ≠ .nonRoot) (format : String) (args : List UInt64) :
    ((giveUpVmx format args).run e s).2.vmcsSteps = s.vmcsSteps := by
  have hprint : (dbgPrint format args).run e s = (.ok (), s.note (.dbgPrint format args)) := rfl
  have hoff : vmxOff.run e (s.note (.dbgPrint format args)) = (.ok (),
      { (s.note (.dbgPrint format args)).note (.vmxOff s.mode) with mode := .off }) :=
    vmxInstruction_root h
  rw [giveUpVmx, Prog.bind_of_ok hprint, Prog.bind_of_ok hoff]
  refine (note_vmcsSteps (w := .free s.gHvState) rfl
    { (s.note (.dbgPrint format args)).note (.vmxOff s.mode) with mode := .off }).trans ?_
  refine (note_vmcsSteps (w := .vmxOff s.mode) rfl (s.note (.dbgPrint format args))).trans ?_
  exact note_vmcsSteps rfl s

theorem vmlaunch_vmcsSteps (s : HvState) :
    (s.note .vmlaunch).vmcsSteps = s.vmcsSteps ++ [.vmlaunch] :=
  List.filter_append _ _

theorem launchAfterSetup_vmcsSteps (h : s.mode ≠ .nonRoot) :
    ((launchAfterSetup true).run e s).2.vmcsSteps = s.vmcsSteps ++ [.vmlaunch] := by
  rw [← vmlaunch_vmcsSteps]
  cases hlaunch : e.vmlaunchResult with
  | enters =>
    rw [launchAfterSetup_launched h hlaunch]
    rfl
  | entryFails reason =>
    rw [launchAfterSetup_entryFails h hlaunch]
    rfl
  | refused error =>
    have hrun := vmlaunch_run (e := e) h
    rw [hlaunch] at hrun
    have hread := vmread_run (e := e)
      (s := (s.note .vmlaunch).setField vmcsVmInstructionError error) h vmcsVmInstructionError
    rw [launchAfterSetup, if_neg Bool.noConfusion, Prog.bind_of_ok hrun, Prog.bind_of_ok hread]
    refine (giveUpVmx_vmcsSteps ?_ _ _).trans ?_
    · exact h
    · exact note_vmcsSteps rfl ((s.note .vmlaunch).setField vmcsVmInstructionError error)

theorem allocated_vmcsSteps (s : HvState) : (s.allocated e).vmcsSteps = s.vmcsSteps :=
  (note_vmcsSteps (w := .zeroMemory e.allocation sizeofHvState) rfl
    { s.note (.allocate e.allocation) with gHvState := e.allocation }).trans
      (note_vmcsSteps (w := .allocate e.allocation) rfl s)

theorem vmxEnabled_vmcsSteps (block : UInt64) (s : HvState) :
    (s.vmxEnabled e block).vmcsSteps = s.vmcsSteps :=
  (note_vmcsSteps (w := .writecr4 _) rfl _).trans
    ((note_vmcsSteps (w := .writeDword _ _) rfl _).trans
      (note_vmcsSteps (w := .writeDword _ _) rfl s))

/-- What `SetupVmcsFields` writes in a call that reaches VMLAUNCH. -/
def HvEnv.launchFields (e : HvEnv) (cr4 : UInt64) : List (UInt32 × UInt64) :=
  setupFields e e.locals (cr4 ||| ((1 : UInt64) <<< 13)) e.allocation

theorem ready_vmcsSteps (s : HvState) : (s.ready e).vmcsSteps =
    s.vmcsSteps ++ (e.launchFields s.cr4).map fun w => .vmwrite w.1 w.2 := by
  have henabled := vmxEnabled_vmcsSteps (e := e) e.allocation (s.allocated e)
  rw [allocated_vmcsSteps] at henabled
  refine (write_vmcsSteps _ _).trans ?_
  refine congrArg (· ++ _) ?_
  refine (note_vmcsSteps (w := .vmptrld _) rfl _).trans ?_
  refine (note_vmcsSteps (w := .vmclear _) rfl _).trans ?_
  exact (note_vmcsSteps (w := .vmxOn _) rfl _).trans henabled

/-- A call that reaches VMLAUNCH has written the fields once. -/
theorem hvTryLaunch_reached (h : s.mode ≠ .nonRoot) (hall : e.ReachesLaunch) :
    (hvTryLaunch.run e s).2.vmcsSteps =
      s.vmcsSteps ++ (e.launchFields s.cr4).map (fun w => .vmwrite w.1 w.2) ++ [.vmlaunch] := by
  rw [hvTryLaunch_reaches h hall, launchAfterSetup_vmcsSteps VmxMode.noConfusion, ready_vmcsSteps]

theorem launchInVmx_unloaded (hmode : s.mode = .root) {block phys : UInt64}
    (hphys : e.physical (block + hvVmcsRegion) = phys)
    (hfail : ¬(e.vmclearResult phys = 0 ∧ e.vmptrldResult phys = 0)) :
    ((launchInVmx block).run e s).2.vmcsSteps = s.vmcsSteps := by
  rw [launchInVmx_run (ne_nonRoot hmode) hphys]
  have hclear := note_vmcsSteps (w := .vmclear phys) rfl s
  have hload := (note_vmcsSteps (w := .vmptrld phys) rfl (s.note (.vmclear phys))).trans hclear
  split
  case isTrue =>
    refine (giveUpVmx_vmcsSteps (s := s.note (.vmclear phys)) ?_ _ _).trans hclear
    exact ne_nonRoot hmode
  case isFalse hcleared =>
    split
    case isTrue =>
      refine (giveUpVmx_vmcsSteps (s := (s.note (.vmclear phys)).note (.vmptrld phys)) ?_ _ _).trans
        hload
      exact ne_nonRoot hmode
    case isFalse hloaded =>
      rw [not_not] at hcleared hloaded
      exact absurd ⟨hcleared, hloaded⟩ hfail

/-- A call that does not reach VMLAUNCH writes nothing to the VMCS. -/
theorem hvTryLaunch_unreached (h : ¬(s.mode ≠ .nonRoot ∧ e.ReachesLaunch)) :
    (hvTryLaunch.run e s).2.vmcsSteps = s.vmcsSteps := by
  by_cases hearly : e.StopsEarly
  · obtain ⟨format, args, hrun | hrun | hrun⟩ := hvTryLaunch_stopped (s := s) hearly
    · rw [hrun]
      exact note_vmcsSteps rfl s
    · rw [hrun]
      exact note_vmcsSteps rfl { s with gHvState := 0 }
    · rw [hrun, giveUp_vmcsSteps, allocated_vmcsSteps]
  have henabled := vmxEnabled_vmcsSteps (e := e) e.allocation (s.allocated e)
  rw [allocated_vmcsSteps] at henabled
  rw [hvTryLaunch_checked hearly]
  by_cases hmode : s.mode = .nonRoot
  · have hon : (vmxOn (e.physical (e.allocation + hvVmxonRegion))).run e
        ((s.allocated e).vmxEnabled e e.allocation) =
          (.error .vmExit, ((s.allocated e).vmxEnabled e e.allocation).exit 27) :=
      vmxInstruction_nonRoot hmode
    rw [launchWithBlock_run, Prog.bind_of_error hon]
    exact henabled
  generalize hphys : e.physical (e.allocation + hvVmxonRegion) = phys
  have hon := (note_vmcsSteps (w := .vmxOn phys) rfl
    ((s.allocated e).vmxEnabled e e.allocation)).trans henabled
  by_cases hresult : e.vmxOnResult phys = 0
  · rw [launchWithBlock_entered (s := s.allocated e) hmode hphys hresult]
    refine (launchInVmx_unloaded rfl rfl ?_).trans hon
    intro hloaded
    rw [← hphys] at hresult
    exact h ⟨hmode, hearly, hresult, hloaded.1, hloaded.2⟩
  · rw [launchWithBlock_failed (s := s.allocated e) hmode hphys hresult, giveUp_vmcsSteps]
    exact hon

end Steps

section Closed
variable {e : HvEnv} {s : HvState}

theorem mem_log_of_vmcsStep {w : HvEvent} (h : w.isVmcsStep = true) (s : HvState) :
    w ∈ s.log ↔ w ∈ s.vmcsSteps := by
  rw [HvState.vmcsSteps, List.mem_filter, and_iff_left h]

theorem control_mem {c : HvControl} (hc : c ∈ hvControls) (cr4 : UInt64) :
    (c.field, (adjustedControl (e.msr c.msr) c.desired).toUInt64) ∈ e.launchFields cr4 := by
  have hwords : (c.field, (adjustedControl (e.msr c.msr) c.desired).toUInt64) ∈
      hvControls.map fun c => (c.field, (adjustedControl (e.msr c.msr) c.desired).toUInt64) :=
    List.mem_map_of_mem hc
  rw [HvEnv.launchFields, setupFields]
  exact List.mem_append_left _ (List.mem_append_right _ hwords)

/-- The control words of a call are the adjusted ones. -/
theorem control_written {c : HvControl} (hc : c ∈ hvControls) {cr4 v : UInt64}
    (h : (c.field, v) ∈ e.launchFields cr4) :
    v = (adjustedControl (e.msr c.msr) c.desired).toUInt64 :=
  (setupFields_vmcs (s := poweredOn) h).symm.trans (setupFields_vmcs (control_mem hc cr4))

/-- A launch is closed just when VMLAUNCH is not reached or every request is allowed. -/
theorem launchClosed_iff
    (hcaps : ∀ c ∈ hvControls, BitsIn (allowed0 (e.msr c.msr)) (allowed1 (e.msr c.msr))) :
    LaunchClosed e (hvTryLaunch.run e { s with log := [] }).2.log ↔
      (s.mode ≠ .nonRoot → e.ReachesLaunch → ∀ c ∈ hvControls, c.Allowed e) := by
  by_cases hreach : s.mode ≠ .nonRoot ∧ e.ReachesLaunch
  · have hsteps := hvTryLaunch_reached (s := { s with log := [] }) hreach.1 hreach.2
    have hlaunch : HvEvent.vmlaunch ∈ (hvTryLaunch.run e { s with log := [] }).2.log := by
      rw [mem_log_of_vmcsStep rfl, hsteps]
      exact List.mem_append_right _ (List.mem_singleton.mpr rfl)
    constructor
    · intro h _ _ c hc
      by_contra hdropped
      exact h.abandoned ⟨c, hc, hdropped⟩ hlaunch
    · intro h
      have hall := h hreach.1 hreach.2
      refine ⟨?_, ?_⟩
      · intro _ c hc v hv
        rw [mem_log_of_vmcsStep rfl, hsteps] at hv
        have hwritten : (c.field, v) ∈ e.launchFields s.cr4 := by
          rcases List.mem_append.mp hv with hv | hv
          · obtain ⟨w, hw, heq⟩ := List.mem_map.mp hv
            obtain ⟨hfield, hvalue⟩ := HvEvent.vmwrite.inj heq
            rw [← hfield, ← hvalue]
            exact hw
          · cases List.mem_singleton.mp hv
        refine ⟨_, control_written hc hwritten, ?_⟩
        exact (controlWord_iff (hcaps c hc)).mpr (hall c hc)
      · rintro ⟨c, hc, hdropped⟩
        exact absurd (hall c hc) hdropped
  · have hnone : HvEvent.vmlaunch ∉ (hvTryLaunch.run e { s with log := [] }).2.log := by
      rw [mem_log_of_vmcsStep rfl, hvTryLaunch_unreached (s := { s with log := [] }) hreach]
      exact List.not_mem_nil
    refine iff_of_true ⟨fun hlaunch => absurd hlaunch hnone, fun _ => hnone⟩ ?_
    intro hmode hall
    exact absurd ⟨hmode, hall⟩ hreach

/-- The status is right just for the requests that are allowed, and a launch is closed just
when it makes no other. -/
theorem controls_failClosed_iff (e : HvEnv) (s : HvState)
    (hcaps : ∀ c ∈ hvControls, BitsIn (allowed0 (e.msr c.msr)) (allowed1 (e.msr c.msr))) :
    (∀ msr desired, AdjustReports e s msr desired ↔ BitsIn desired (allowed1 (e.msr msr))) ∧
      (LaunchClosed e (hvTryLaunch.run e { s with log := [] }).2.log ↔
        (s.mode ≠ .nonRoot → e.ReachesLaunch → ∀ c ∈ hvControls, c.Allowed e)) :=
  ⟨adjustReports_iff e s, launchClosed_iff hcaps⟩

end Closed

/-- VMX can be used, and every control but those of one MSR may have any bits. -/
def controlsLocked (msr : UInt32) : HvEnv :=
  { lockedOff with msr := fun m =>
      if m = ia32FeatureControlMsr then 5 else if m = msr then 0 else 0xFFFFFFFF00000000 }

/-- Where the pin-based controls have no bits, no request is lost. -/
theorem pinControlsLocked_closed :
    LaunchClosed (controlsLocked ia32VmxPinbasedCtlsMsr)
      (hvTryLaunch.run (controlsLocked ia32VmxPinbasedCtlsMsr) poweredOn).2.log :=
  (controls_failClosed_iff (controlsLocked ia32VmxPinbasedCtlsMsr) poweredOn
    (by decide)).2.mpr fun _ _ => by decide

/-- VMLAUNCH is executed with a 64-bit host that the exit controls do not provide. -/
theorem exitControlsLocked_launched :
    ¬LaunchClosed (controlsLocked ia32VmxExitCtlsMsr)
      (hvTryLaunch.run (controlsLocked ia32VmxExitCtlsMsr) poweredOn).2.log := by
  intro h
  have hdropped : ∃ c ∈ hvControls, ¬c.Allowed (controlsLocked ia32VmxExitCtlsMsr) :=
    ⟨⟨vmcsExitControls, ia32VmxExitCtlsMsr, (1 : UInt32) <<< 9⟩, by decide, by decide⟩
  exact h.abandoned hdropped (by set_option maxRecDepth 8000 in decide)

end HwMon
