import HwMon.Hv.Launch

/-!
# What a failed launch leaves behind

Every failure exit frees the block and leaves VMX operation if it was entered.
None restores CR4, so a launch that fails after the write to CR4 leaves
CR4.VMXE set.
-/

namespace HwMon
set_option autoImplicit false

/-- The event is about the block or ends VMX operation. -/
def HvEvent.lifecycle : HvEvent → Bool
  | .allocate _ => true
  | .free _ => true
  | .vmxOff _ => true
  | _ => false

def HvState.life (s : HvState) : List HvEvent := s.log.filter HvEvent.lifecycle

/-- The state at a failure exit, with the value of CR4 and the lifecycle events since `s`. -/
structure Ended (s t : HvState) (cr4 : UInt64) (events : List HvEvent) : Prop where
  cr4 : t.cr4 = cr4
  mode : t.mode = .off
  gHvState : t.gHvState = 0
  life : t.life = s.life ++ events

/-- Nothing of what a failure exit has to undo has changed from `s` to `s'`. -/
structure Quiet (s s' : HvState) : Prop where
  cr4 : s'.cr4 = s.cr4
  mode : s'.mode = s.mode
  gHvState : s'.gHvState = s.gHvState
  life : s'.life = s.life

theorem Quiet.trans {s t u : HvState} (h : Quiet s t) (h' : Quiet t u) : Quiet s u :=
  ⟨h'.cr4.trans h.cr4, h'.mode.trans h.mode, h'.gHvState.trans h.gHvState, h'.life.trans h.life⟩

theorem Ended.prepend {s s' t : HvState} {cr4 : UInt64} {before events : List HvEvent}
    (h : Ended s' t cr4 events) (hlife : s'.life = s.life ++ before) :
    Ended s t cr4 (before ++ events) := by
  refine ⟨h.cr4, h.mode, h.gHvState, ?_⟩
  rw [h.life, hlife, List.append_assoc]

theorem Quiet.ended {s s' t : HvState} {events : List HvEvent} (h : Quiet s s')
    (ht : Ended s' t s'.cr4 events) : Ended s t s.cr4 events := by
  rw [h.cr4] at ht
  exact ht.prepend (h.life.trans (List.append_nil _).symm)

section Steps
variable {e : HvEnv} {s : HvState}

theorem ne_nonRoot (h : s.mode = .root) : s.mode ≠ .nonRoot := by
  rw [h]
  exact VmxMode.noConfusion

theorem ne_nonRoot_of_off (h : s.mode = .off) : s.mode ≠ .nonRoot := by
  rw [h]
  exact VmxMode.noConfusion

theorem note_life (w : HvEvent) (s : HvState) :
    (s.note w).life = s.life ++ [w].filter HvEvent.lifecycle :=
  List.filter_append _ _

theorem note_quiet {w : HvEvent} (h : w.lifecycle = false) (s : HvState) : Quiet s (s.note w) := by
  refine ⟨rfl, rfl, rfl, ?_⟩
  rw [note_life, List.filter_singleton, h, cond_false, List.append_nil]

theorem setField_quiet (field : UInt32) (value : UInt64) (s : HvState) :
    Quiet s (s.setField field value) :=
  ⟨rfl, rfl, rfl, rfl⟩

theorem write_quiet (ws : List (UInt32 × UInt64)) (s : HvState) : Quiet s (s.write ws) := by
  have hnone : (ws.map fun w => HvEvent.vmwrite w.1 w.2).filter HvEvent.lifecycle = [] := by
    apply List.filter_eq_nil_iff.mpr
    intro a ha
    obtain ⟨w, _, rfl⟩ := List.mem_map.mp ha
    exact Bool.false_ne_true
  refine ⟨rfl, rfl, rfl, ?_⟩
  rw [HvState.write, HvState.life, List.filter_append, hnone, List.append_nil]
  rfl

theorem giveUp_ended (hmode : s.mode = .off) (format : String) (args : List UInt64) :
    ∃ t, (giveUp format args).run e s = (.ok false, t) ∧
      Ended s t s.cr4 [.free s.gHvState] := by
  have hquiet := note_quiet (w := .dbgPrint format args) rfl s
  refine ⟨_, rfl, rfl, hmode, rfl, ?_⟩
  exact (note_life (.free s.gHvState) _).trans (congrArg (· ++ _) hquiet.life)

theorem vmxOff_run (hmode : s.mode = .root) :
    vmxOff.run e s = (.ok (), { s.note (.vmxOff .root) with mode := .off }) := by
  rw [← hmode]
  exact vmxInstruction_root (ne_nonRoot hmode)

theorem giveUpVmx_ended (hmode : s.mode = .root) (format : String) (args : List UInt64) :
    ∃ t, (giveUpVmx format args).run e s = (.ok false, t) ∧
      Ended s t s.cr4 [.vmxOff .root, .free s.gHvState] := by
  have hquiet := note_quiet (w := .dbgPrint format args) rfl s
  have hprint : (dbgPrint format args).run e s = (.ok (), s.note (.dbgPrint format args)) := rfl
  have hoff := vmxOff_run (e := e) (hquiet.mode.trans hmode)
  rw [giveUpVmx, Prog.bind_of_ok hprint, Prog.bind_of_ok hoff]
  refine ⟨_, rfl, rfl, rfl, rfl, ?_⟩
  have hlife := note_life (.vmxOff .root) (s.note (.dbgPrint format args))
  rw [hquiet.life] at hlife
  refine (note_life (.free s.gHvState) _).trans ?_
  exact (congrArg (· ++ _) hlife).trans (List.append_assoc _ _ _)

theorem launchAfterSetup_ended (hmode : s.mode = .root) {error : UInt64}
    (hfail : e.vmlaunchResult = .refused error) :
    ∃ t, (launchAfterSetup true).run e s = (.ok false, t) ∧
      Ended s t s.cr4 [.vmxOff .root, .free s.gHvState] := by
  have hlaunch : Quiet s ((s.note .vmlaunch).setField vmcsVmInstructionError error) :=
    (note_quiet rfl s).trans (setField_quiet _ _ _)
  have hread := hlaunch.trans (note_quiet (w := .vmread vmcsVmInstructionError) rfl _)
  have hvmlaunch := vmlaunch_run (e := e) (ne_nonRoot hmode)
  rw [hfail] at hvmlaunch
  obtain ⟨t, hrun, hended⟩ := giveUpVmx_ended (e := e) (hread.mode.trans hmode)
    "hwmon_hv: VMLAUNCH failed, VM-instruction error %llu.\n"
    [((s.note .vmlaunch).setField vmcsVmInstructionError error).vmcs vmcsVmInstructionError]
  refine ⟨t, ?_, ?_⟩
  · rw [launchAfterSetup, if_neg Bool.noConfusion, Prog.bind_of_ok hvmlaunch,
      Prog.bind_of_ok (vmread_run (ne_nonRoot (hlaunch.mode.trans hmode)) _)]
    exact hrun
  · rw [hread.gHvState] at hended
    exact hread.ended hended

/-- A failure exit in VMX operation, after steps that change nothing. -/
theorem Quiet.exit {s s' : HvState} {p : HvM Bool} (h : Quiet s s')
    (hp : ∃ t, p.run e s' = (.ok false, t) ∧
      Ended s' t s'.cr4 [.vmxOff .root, .free s'.gHvState]) :
    ∃ t, p.run e s' = (.ok false, t) ∧ Ended s t s.cr4 [.vmxOff .root, .free s.gHvState] := by
  obtain ⟨t, hrun, hended⟩ := hp
  rw [h.gHvState] at hended
  exact ⟨t, hrun, h.ended hended⟩

theorem loaded_quiet (phys : UInt64) (s : HvState) : Quiet s (s.loaded e phys) :=
  ((note_quiet rfl s).trans (note_quiet rfl _)).trans (write_quiet _ _)

theorem isRefused_iff {result : VmlaunchResult} :
    result.isRefused = true ↔ ∃ error, result = .refused error := by
  cases result with
  | refused error => exact iff_of_true rfl ⟨error, rfl⟩
  | _ => exact iff_of_false Bool.noConfusion (by simp)

theorem launchInVmx_ended (hmode : s.mode = .root) {block phys : UInt64}
    (hphys : e.physical (block + hvVmcsRegion) = phys)
    (hfail : ¬(e.vmclearResult phys = 0 ∧ e.vmptrldResult phys = 0) ∨
      e.vmlaunchResult.isRefused = true) :
    ∃ t, (launchInVmx block).run e s = (.ok false, t) ∧
      Ended s t s.cr4 [.vmxOff .root, .free s.gHvState] := by
  rw [launchInVmx_run (ne_nonRoot hmode) hphys]
  have hclear := note_quiet (w := .vmclear phys) rfl s
  have hload := hclear.trans (note_quiet (w := .vmptrld phys) rfl _)
  split
  case isTrue => exact hclear.exit (giveUpVmx_ended (hclear.mode.trans hmode) _ _)
  case isFalse hcleared =>
    split
    case isTrue => exact hload.exit (giveUpVmx_ended (hload.mode.trans hmode) _ _)
    case isFalse hloaded =>
      rw [not_not] at hcleared hloaded
      have hrefused := hfail.resolve_left (not_not.mpr ⟨hcleared, hloaded⟩)
      obtain ⟨error, hlaunch⟩ := isRefused_iff.mp hrefused
      have hquiet := loaded_quiet (e := e) phys s
      exact hquiet.exit (launchAfterSetup_ended (hquiet.mode.trans hmode) hlaunch)

theorem vmxEnabled_life (block : UInt64) (s : HvState) : (s.vmxEnabled e block).life = s.life :=
  (note_quiet (w := .writecr4 _) rfl _).life.trans
    ((note_quiet (w := .writeDword _ _) rfl _).life.trans
      (note_quiet (w := .writeDword _ _) rfl s).life)

theorem launchWithBlock_ended (hmode : s.mode = .off) (hearly : ¬e.StopsEarly)
    (hfail : e.Fails) :
    ∃ t events, (launchWithBlock e.allocation).run e s = (.ok false, t) ∧
      Ended s t (s.cr4 ||| ((1 : UInt64) <<< 13)) events ∧
      (events = [.free s.gHvState] ∨ events = [.vmxOff .root, .free s.gHvState]) := by
  have hroot := ne_nonRoot_of_off hmode
  generalize hphys : e.physical (e.allocation + hvVmxonRegion) = phys
  have hlife : ((s.vmxEnabled e e.allocation).note (.vmxOn phys)).life = s.life ++ [] := by
    rw [(note_quiet rfl _).life, vmxEnabled_life, List.append_nil]
  rcases eq_or_ne (e.vmxOnResult phys) 0 with hresult | hresult
  · have hrest : ¬(e.vmclearResult (e.physical (e.allocation + hvVmcsRegion)) = 0 ∧
        e.vmptrldResult (e.physical (e.allocation + hvVmcsRegion)) = 0) ∨
        e.vmlaunchResult.isRefused = true := by
      rw [← hphys] at hresult
      refine hfail.imp_left ?_
      intro hreach h
      exact hreach ⟨hearly, hresult, h.1, h.2⟩
    obtain ⟨t, hrun, hended⟩ := launchInVmx_ended
      (s := { (s.vmxEnabled e e.allocation).note (.vmxOn phys) with mode := .root }) rfl rfl hrest
    refine ⟨t, _, ?_, hended.prepend hlife, .inr rfl⟩
    rw [launchWithBlock_entered hroot hphys hresult, hrun]
  · obtain ⟨t, hrun, hended⟩ := giveUp_ended (e := e)
      (s := (s.vmxEnabled e e.allocation).note (.vmxOn phys)) hmode
      "hwmon_hv: VMXON failed, code %d.\n" [(e.vmxOnResult phys).toUInt64]
    refine ⟨t, _, ?_, hended.prepend hlife, .inl rfl⟩
    rw [launchWithBlock_failed hroot hphys hresult, hrun]

theorem allocated_life (s : HvState) :
    (s.allocated e).life = s.life ++ [.allocate e.allocation] := by
  refine (note_quiet (w := .zeroMemory e.allocation sizeofHvState) rfl _).life.trans ?_
  exact note_life (.allocate e.allocation) s

/-- The lifecycle events of a call that returns FALSE. -/
def CallEvents (block : UInt64) (events : List HvEvent) : Prop :=
  events = [] ∨ events = [.allocate block, .free block] ∨
    events = [.allocate block, .vmxOff .root, .free block]

theorem Quiet.stopped {t : HvState} (h : Quiet s t) (hmode : s.mode = .off)
    (hstate : s.gHvState = 0) : Ended s t s.cr4 [] :=
  ⟨h.cr4, h.mode.trans hmode, h.gHvState.trans hstate, h.life.trans (List.append_nil _).symm⟩

/-- A call that stops at one of the first four checks leaves CR4 alone. -/
theorem hvTryLaunch_early (hmode : s.mode = .off) (hstate : s.gHvState = 0)
    (hearly : e.StopsEarly) :
    ∃ t events, hvTryLaunch.run e s = (.ok false, t) ∧ Ended s t s.cr4 events ∧
      CallEvents e.allocation events := by
  obtain ⟨format, args, hrun | hrun | hrun⟩ := hvTryLaunch_stopped (s := s) hearly
  · exact ⟨_, [], hrun, (note_quiet rfl s).stopped hmode hstate, .inl rfl⟩
  · have hzero : Quiet s { s with gHvState := 0 } := ⟨rfl, rfl, hstate.symm, rfl⟩
    exact ⟨_, [], hrun, (hzero.trans (note_quiet rfl _)).stopped hmode hstate, .inl rfl⟩
  · obtain ⟨t, hgive, hended⟩ := giveUp_ended (e := e) (s := s.allocated e) hmode format args
    exact ⟨t, _, hrun.trans hgive, hended.prepend (allocated_life s), .inr (.inl rfl)⟩

/-- Past the checks a call that returns FALSE has set CR4.VMXE. -/
theorem hvTryLaunch_late (hmode : s.mode = .off) (hearly : ¬e.StopsEarly) (hfail : e.Fails) :
    ∃ t events, hvTryLaunch.run e s = (.ok false, t) ∧
      Ended s t (s.cr4 ||| ((1 : UInt64) <<< 13)) events ∧ CallEvents e.allocation events := by
  rw [hvTryLaunch_checked hearly]
  obtain ⟨t, events, hrun, hended, hevents⟩ :=
    launchWithBlock_ended (s := s.allocated e) hmode hearly hfail
  refine ⟨t, _, hrun, hended.prepend (allocated_life s), ?_⟩
  rcases hevents with rfl | rfl
  · exact .inr (.inl rfl)
  · exact .inr (.inr rfl)

end Steps

structure AsBefore (s t : HvState) : Prop where
  cr4 : t.cr4 = s.cr4
  mode : t.mode = s.mode
  gHvState : t.gHvState = s.gHvState

/-- Block and VMX operation at the end of a call whose log is that of `t`. -/
structure CleanedUp (t : HvState) : Prop where
  mode : t.mode = .off
  vmxOff : ∀ mode, HvEvent.vmxOff mode ∈ t.log → mode ≠ .off
  gHvState : t.gHvState = 0
  freed : ∀ block, HvEvent.allocate block ∈ t.log → t.log.count (.free block) = 1
  allocated : ∀ block, HvEvent.free block ∈ t.log → HvEvent.allocate block ∈ t.log

/-- What a call from `s` that returns FALSE in `t` promises. -/
structure FailedAtomically (s t : HvState) : Prop extends CleanedUp t where
  cr4 : t.cr4 = s.cr4

/-- Call after call, each with a log of its own, up to the first that does not return FALSE;
the states before and after each. -/
def failedCalls : List HvEnv → HvState → List (HvState × HvState)
  | [], _ => []
  | e :: es, s =>
    match hvTryLaunch.run e { s with log := [] } with
    | (.ok false, t) => (s, t) :: failedCalls es t
    | _ => []

/-- Each call of the row that returns FALSE does so atomically, so that any number of them
leaves the processor as it was. -/
def AttemptsAtomic (es : List HvEnv) (s : HvState) : Prop :=
  ∀ c ∈ failedCalls es s, FailedAtomically c.1 c.2 ∧ AsBefore s c.2

theorem vmxe_or_eq_iff (c : UInt64) :
    c ||| ((1 : UInt64) <<< 13) = c ↔ c &&& ((1 : UInt64) <<< 13) ≠ 0 := by
  have hbit : ((1 : UInt64) <<< 13).toBitVec = BitVec.twoPow 64 13 := rfl
  have hone : ∀ i, (BitVec.twoPow 64 13).getLsbD i = decide (i = 13) := by
    intro i
    rw [BitVec.getLsbD_twoPow]
    simp [eq_comm]
  rw [ne_eq, ← UInt64.toBitVec_inj, ← UInt64.toBitVec_inj, UInt64.toBitVec_or,
    UInt64.toBitVec_and, hbit, BitVec.and_twoPow]
  constructor
  · intro h hzero
    have h13 := congrArg (fun b => b.getLsbD 13) h
    simp only [BitVec.getLsbD_or, hone, decide_true, Bool.or_true] at h13
    rw [if_pos h13.symm] at hzero
    exact absurd hzero (by decide)
  · intro h
    have h13 : c.toBitVec.getLsbD 13 = true := by
      by_contra hc
      rw [if_neg hc] at h
      exact h rfl
    apply BitVec.eq_of_getLsbD_eq
    intro i _
    rw [BitVec.getLsbD_or, hone]
    rcases eq_or_ne i 13 with rfl | hi
    · rw [h13, Bool.true_or]
    · rw [decide_eq_false hi, Bool.or_false]

section Calls
variable {e : HvEnv} {s t : HvState}

theorem mem_log_iff {w : HvEvent} (h : w.lifecycle = true) (t : HvState) :
    w ∈ t.log ↔ w ∈ t.life := by
  rw [HvState.life, List.mem_filter, and_iff_left h]

theorem count_log {w : HvEvent} (h : w.lifecycle = true) (t : HvState) :
    t.log.count w = t.life.count w :=
  (List.count_filter h).symm

section Events
variable {block b : UInt64} {events : List HvEvent}

theorem CallEvents.vmxOff (h : CallEvents block events) {mode : VmxMode}
    (hmem : HvEvent.vmxOff mode ∈ events) : mode = .root := by
  rcases h with rfl | rfl | rfl
  · exact absurd hmem List.not_mem_nil
  · simp at hmem
  · simpa using hmem

theorem CallEvents.allocated (h : CallEvents block events) (hmem : HvEvent.free b ∈ events) :
    HvEvent.allocate b ∈ events := by
  rcases h with rfl | rfl | rfl
  · exact absurd hmem List.not_mem_nil
  · simpa using hmem
  · simpa using hmem

theorem CallEvents.count_free (h : CallEvents block events)
    (hmem : HvEvent.allocate b ∈ events) : events.count (.free b) = 1 := by
  rcases h with rfl | rfl | rfl
  · exact absurd hmem List.not_mem_nil
  · obtain rfl : b = block := by simpa using hmem
    simp
  · obtain rfl : b = block := by simpa using hmem
    simp

end Events

theorem Ended.cleanedUp {cr4 : UInt64} {events : List HvEvent} {block : UInt64}
    (h : Ended { s with log := [] } t cr4 events) (hevents : CallEvents block events) :
    CleanedUp t := by
  have hlife : t.life = events := h.life
  refine ⟨h.mode, ?_, h.gHvState, ?_, ?_⟩
  · intro mode hmem
    rw [mem_log_iff rfl, hlife] at hmem
    rw [hevents.vmxOff hmem]
    exact VmxMode.noConfusion
  · intro b hmem
    rw [mem_log_iff rfl, hlife] at hmem
    rw [count_log rfl, hlife]
    exact hevents.count_free hmem
  · intro b hmem
    rw [mem_log_iff rfl, hlife] at hmem ⊢
    exact hevents.allocated hmem

/-- A failed call cleans up but leaves CR4.VMXE set, unless a check fails before it. -/
theorem hvTryLaunch_failed (hmode : s.mode = .off) (hstate : s.gHvState = 0)
    (hfail : e.Fails) :
    ∃ t, hvTryLaunch.run e { s with log := [] } = (.ok false, t) ∧ CleanedUp t ∧
      t.cr4 = if e.StopsEarly then s.cr4 else s.cr4 ||| ((1 : UInt64) <<< 13) := by
  rcases Decidable.em e.StopsEarly with hearly | hearly
  · obtain ⟨t, events, hrun, hended, hevents⟩ :=
      hvTryLaunch_early (s := { s with log := [] }) hmode hstate hearly
    exact ⟨t, hrun, hended.cleanedUp hevents, (if_pos hearly).symm ▸ hended.cr4⟩
  · obtain ⟨t, events, hrun, hended, hevents⟩ :=
      hvTryLaunch_late (s := { s with log := [] }) hmode hearly hfail
    exact ⟨t, hrun, hended.cleanedUp hevents, (if_neg hearly).symm ▸ hended.cr4⟩

/-- A call in which VMLAUNCH does not return ends the row. -/
theorem failedCalls_stop (hmode : s.mode = .off) (hall : ¬e.Fails) (es : List HvEnv) :
    failedCalls (e :: es) s = [] := by
  obtain ⟨hreach, hrefused⟩ := not_or.mp hall
  have hrun := hvTryLaunch_reaches (s := { s with log := [] }) (ne_nonRoot_of_off hmode)
    (not_not.mp hreach)
  rw [failedCalls, hrun]
  cases hlaunch : e.vmlaunchResult with
  | enters => rw [launchAfterSetup_launched VmxMode.noConfusion hlaunch]
  | entryFails reason => rw [launchAfterSetup_entryFails VmxMode.noConfusion hlaunch]
  | refused error =>
    rw [hlaunch] at hrefused
    exact absurd rfl hrefused

theorem failedCalls_failed (hrun : hvTryLaunch.run e { s with log := [] } = (.ok false, t))
    (es : List HvEnv) : failedCalls (e :: es) s = (s, t) :: failedCalls es t := by
  rw [failedCalls, hrun]

theorem attemptsAtomic_cons (hmode : s.mode = .off) (hstate : s.gHvState = 0)
    (hrun : hvTryLaunch.run e { s with log := [] } = (.ok false, t)) (hclean : CleanedUp t)
    (es : List HvEnv) :
    AttemptsAtomic (e :: es) s ↔ t.cr4 = s.cr4 ∧ AttemptsAtomic es t := by
  have hoff : t.mode = s.mode := hclean.mode.trans hmode.symm
  have hnull : t.gHvState = s.gHvState := hclean.gHvState.trans hstate.symm
  rw [AttemptsAtomic, failedCalls_failed hrun, List.forall_mem_cons]
  constructor
  · intro ⟨⟨hfirst, _⟩, hrest⟩
    refine ⟨hfirst.cr4, ?_⟩
    intro c hc
    obtain ⟨hatomic, hbefore⟩ := hrest c hc
    exact ⟨hatomic, hbefore.cr4.trans hfirst.cr4.symm, hbefore.mode.trans hoff.symm,
      hbefore.gHvState.trans hnull.symm⟩
  · intro ⟨hcr4, hrest⟩
    refine ⟨⟨⟨hclean, hcr4⟩, hcr4, hoff, hnull⟩, ?_⟩
    intro c hc
    obtain ⟨hatomic, hbefore⟩ := hrest c hc
    exact ⟨hatomic, hbefore.cr4.trans hcr4, hbefore.mode.trans hoff, hbefore.gHvState.trans hnull⟩

/-- In a row of calls every failed one is atomic exactly if CR4.VMXE was set before the first,
or every call before the first that does not return stops at a check. -/
theorem attemptsAtomic_iff (es : List HvEnv) (s : HvState) (hmode : s.mode = .off)
    (hstate : s.gHvState = 0) :
    AttemptsAtomic es s ↔
      s.cr4 &&& ((1 : UInt64) <<< 13) ≠ 0 ∨
        ∀ e ∈ es.takeWhile (fun e => decide e.Fails), e.StopsEarly := by
  induction es generalizing s with
  | nil => simp [AttemptsAtomic, failedCalls]
  | cons e es ih =>
    rcases Decidable.em e.Fails with hfail | hall
    case inr =>
      rw [AttemptsAtomic, failedCalls_stop hmode hall]
      simp [hall]
    case inl =>
      obtain ⟨t, hrun, hclean, hcr4⟩ := hvTryLaunch_failed hmode hstate hfail
      have hkeeps : t.cr4 = s.cr4 ↔ e.StopsEarly ∨ s.cr4 &&& ((1 : UInt64) <<< 13) ≠ 0 := by
        rw [hcr4]
        split
        case isTrue hearly => exact iff_of_true rfl (.inl hearly)
        case isFalse hearly => rw [vmxe_or_eq_iff, or_iff_right hearly]
      rw [attemptsAtomic_cons hmode hstate hrun hclean, hkeeps,
        ih t hclean.mode hclean.gHvState, List.takeWhile_cons_of_pos (by simpa using hfail),
        List.forall_mem_cons]
      constructor
      · intro ⟨hfirst, hrest⟩
        have hsame := hkeeps.mpr hfirst
        rw [hsame] at hrest
        rcases hfirst with hearly | hset
        · exact hrest.imp_right (⟨hearly, ·⟩)
        · exact .inl hset
      · intro h
        have hfirst : e.StopsEarly ∨ s.cr4 &&& ((1 : UInt64) <<< 13) ≠ 0 :=
          h.symm.imp_left And.left
        rw [hkeeps.mpr hfirst]
        exact ⟨hfirst, h.imp_right And.right⟩

/-- Firmware that locks VMX off. -/
def lockedOff : HvEnv where
  cpuid _ _ := ⟨0, 0, 0x20, 0⟩
  msr _ := 1
  cr0 := 0x80050033
  cr3 := 0x1AD000
  es := 0x2B
  cs := 0x10
  ss := 0x18
  ds := 0x2B
  fs := 0x53
  gs := 0x2B
  ldtr := 0
  tr := 0x40
  gdtr := ⟨0x57, 0xFFFFF80000001000⟩
  idtr := ⟨0xFFF, 0xFFFFF80000002000⟩
  memory _ := 0
  allocation := 0xFFFFF80000010000
  physical virtual := virtual &&& 0xFFFFFFF
  context := ⟨0xFFFFF80000008000, 0xFFFFF80000400000, 0x246⟩
  vmxOnResult _ := 0
  vmclearResult _ := 0
  vmptrldResult _ := 0
  vmlaunchResult := .enters
  exitHandler := 0xFFFFF80000401000

/-- VMX can be used, but VMXON fails with the given code. -/
def vmxOnFails (code : UInt8) : HvEnv :=
  { lockedOff with msr := fun _ => 5, vmxOnResult := fun _ => code }

def poweredOn : HvState :=
  { cr4 := 0x506F8, mode := .off, gHvState := 0, vmcs := fun _ => 0, log := [] }

theorem lockedOff_asBefore : AttemptsAtomic [lockedOff, lockedOff] poweredOn :=
  (attemptsAtomic_iff [lockedOff, lockedOff] poweredOn rfl rfl).mpr (.inr (by decide))

/-- CR4 is 506F8h before the call and 526F8h after it. -/
theorem vmxOnFails_leavesVmxe : ¬AttemptsAtomic [vmxOnFails 2] poweredOn := by
  intro h
  have hafter : (0x526F8 : UInt64) ∈ (failedCalls [vmxOnFails 2] poweredOn).map fun c => c.2.cr4 := by
    decide
  obtain ⟨c, hc, hcr4⟩ := List.mem_map.mp hafter
  have hbefore := (h c hc).2.cr4
  rw [hcr4] at hbefore
  exact absurd hbefore (by decide)

end Calls
end HwMon
