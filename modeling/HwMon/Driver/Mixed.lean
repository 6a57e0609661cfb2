import HwMon.Driver.Tasks
import HwMon.Driver.Trace
import HwMon.Lib.Mutex

/-!
# Any mix of concurrent requests

Requests with all control codes run at once, in any interleaving. Each of them does what
the sequential driver does on a machine whose data port answers with the dword of the
request's own address word, because the two configuration ports are a register behind
the spin lock.
-/

namespace HwMon
set_option autoImplicit false

/-- The spin lock, the word in port `0xCF8`, and the accesses that need the lock. -/
def portMonitor : Monitor DriverAccess UInt32 where
  op
    | .note .acquireLock => .acquire
    | .note .releaseLock => .release
    | _ => .other
  write
    | .note (.outdword p w) => if p = 0xCF8 then some w else none
    | _ => none
  guarded
    | .note (.outdword p _) => p == 0xCF8
    | .read (.port p) => p == 0xCFC
    | _ => false
  writes_guarded := by
    intro a h
    match a with
    | .note (.outdword p w) =>
      have hwrite : (if p = 0xCF8 then some w else none).isSome := h
      by_cases hp : p = 0xCF8
      · exact beq_iff_eq.mpr hp
      · rw [if_neg hp] at hwrite
        cases hwrite

/-- The two dwords of configuration mechanism 1. -/
def PortAccess (a : DriverAccess) : Prop := portMonitor.guarded a = true

section Log
variable {hw : Machine} {code : UInt32} {inLen outLen : Nat}

/-- The accesses of a legacy configuration read. -/
def configAccesses (address : UInt32) : List DriverAccess :=
  [.note .acquireLock, .note (.outdword 0xCF8 address), .read (.port 0xCFC), .note .releaseLock]

/-- The address word that the first input bytes of a request make. -/
def inputAddress (hw : Machine) : UInt32 :=
  legacyAddress (hw (.input 0)) (hw (.input 1)) (hw (.input 2)) (hw (.input 3))

/-- Only what a legacy configuration read does is of concern to the ports. -/
def PortShape (hw : Machine) (l : List DriverAccess) : Prop :=
  ∃ front core back, l = front ++ (core ++ back) ∧
    (core = [] ∨ core = configAccesses (inputAddress hw)) ∧
    (∀ a ∈ front, portMonitor.Quiet a) ∧ ∀ a ∈ back, portMonitor.Quiet a

theorem portShape_of_quiet {l : List DriverAccess} (h : ∀ a ∈ l, portMonitor.Quiet a) :
    PortShape hw l :=
  ⟨l, [], [], (List.append_nil l).symm, .inl rfl, h, fun _ ha => absurd ha List.not_mem_nil⟩

theorem readInput_quiet (n : Nat) : (readInput 0 n).Always portMonitor.Quiet hw := by
  intro a ha
  rw [readInput_inputLog] at ha
  obtain ⟨i, -, rfl⟩ := inputLog_mem ha
  exact ⟨rfl, rfl⟩

theorem reply_quiet (status : NtStatus) (bytes : List UInt8) :
    (if status = .success then writeOutput bytes
      else pure (.error status)).Always portMonitor.Quiet hw := by
  refine Probe.always_ite (fun _ => ?_) fun _ => Probe.always_pure _
  simp only [writeOutput, Probe.always_bind, Probe.always_note, Probe.always_pure, and_true]
  exact ⟨rfl, rfl⟩

theorem ioctlMsr_quiet : (ioctlMsr inLen outLen).Always portMonitor.Quiet hw := by
  refine Probe.always_ite (fun _ => Probe.always_pure _) fun _ => ?_
  rw [Probe.always_bind]
  refine ⟨readInput_quiet 4, Probe.always_ite (fun _ => Probe.always_pure _) fun _ => ?_⟩
  rw [Probe.always_bind]
  refine ⟨?_, reply_quiet _ _⟩
  intro a ha
  rw [safeReadMsr_log] at ha
  rw [List.mem_singleton.mp ha]
  exact ⟨rfl, rfl⟩

theorem ecamRead_quiet (r : HwmonReadPcieEcamInput) : r.read.Always portMonitor.Quiet hw := by
  intro a ha
  by_cases h : r.Accepted
  · rw [read_log hw h] at ha
    rcases List.mem_cons.mp ha with rfl | ha
    · exact ⟨rfl, rfl⟩
    split at ha
    · simp only [List.mem_cons, List.not_mem_nil, or_false] at ha
      rcases ha with rfl | rfl | rfl <;> exact ⟨rfl, rfl⟩
    · exact absurd ha List.not_mem_nil
  · rw [read_of_not_accepted h] at ha
    exact absurd ha List.not_mem_nil

theorem ioctlPcieEcam_quiet : (ioctlPcieEcam inLen outLen).Always portMonitor.Quiet hw := by
  refine Probe.always_ite (fun _ => Probe.always_pure _) fun _ => ?_
  rw [Probe.always_bind]
  refine ⟨readInput_quiet 13, ?_⟩
  rw [Probe.always_bind]
  exact ⟨ecamRead_quiet _, reply_quiet _ _⟩

theorem ioctlPciConfig_shape : PortShape hw ((ioctlPciConfig inLen outLen).log hw) := by
  rw [ioctlPciConfig]
  split
  · exact portShape_of_quiet fun _ ha => absurd ha List.not_mem_nil
  · have hinputs : ∀ a ∈ inputLog 4, portMonitor.Quiet a := by
      rw [← readInput_inputLog hw]
      exact readInput_quiet 4
    refine ⟨inputLog 4, configAccesses (inputAddress hw),
      [.note (.output (leBytes 4 (hw (.port 0xCFC)).toNat))], ?_, .inr rfl, hinputs, ?_⟩
    · simp only [↓Probe.log_bind, readInput_inputLog]
      rfl
    · intro a ha
      rw [List.mem_singleton.mp ha]
      exact ⟨rfl, rfl⟩

/-- The ports in the log of any request. -/
theorem serve_shape (hw : Machine) (code : UInt32) (inLen outLen : Nat) :
    PortShape hw ((serveDeviceControl code inLen outLen).log hw) := by
  have hdispatch : PortShape hw ((hwmonDeviceControl code inLen outLen).log hw) := by
    rw [hwmonDeviceControl]
    split
    · exact portShape_of_quiet ioctlMsr_quiet
    split
    · exact ioctlPciConfig_shape
    split
    · exact portShape_of_quiet ioctlPcieEcam_quiet
    · exact portShape_of_quiet fun _ ha => absurd ha List.not_mem_nil
  obtain ⟨front, core, back, hlog, hcore, hfront, hback⟩ := hdispatch
  let result := (hwmonDeviceControl code inLen outLen).val hw
  refine ⟨front, core, back ++ [.note (.ioCompleteRequest result.status result.information)], ?_,
    hcore, hfront, ?_⟩
  · rw [serveDeviceControl, Probe.log_bind, hlog, List.append_assoc, List.append_assoc]
    rfl
  · intro a ha
    rcases List.mem_append.mp ha with ha | ha
    · exact hback a ha
    · rw [List.mem_singleton.mp ha]
      exact ⟨rfl, rfl⟩

variable {l : List DriverAccess}

/-- What holds at every point of the four accesses and of quiet ones holds throughout. -/
theorem PortShape.along {C : Option (Option UInt32) → DriverAccess → Prop} (h : PortShape hw l)
    (hquiet : ∀ s a, portMonitor.Quiet a → C s a)
    (hcore : portMonitor.Along C none (configAccesses (inputAddress hw))) :
    portMonitor.Along C none l := by
  obtain ⟨front, core, back, rfl, hcases, hfront, hback⟩ := h
  apply Monitor.along_quiet hfront (hquiet none)
  have htail : portMonitor.Along C none back := by
    rw [← List.append_nil back]
    exact Monitor.along_quiet hback (hquiet none) (Monitor.along_nil C none)
  rcases hcases with rfl | rfl
  · exact htail
  · exact Monitor.along_append.mpr ⟨hcore, htail⟩

theorem PortShape.disciplined (h : PortShape hw l) : portMonitor.Disciplined l := by
  apply h.along fun s a ha => ha.allows s
  simp only [configAccesses, Monitor.along_cons]
  exact ⟨rfl, fun _ => rfl, fun _ => rfl, fun _ => rfl, Monitor.along_nil _ _⟩

/-- The data port is read when the address word of the request has been written. -/
theorem PortShape.data (h : PortShape hw l) :
    portMonitor.Along
      (fun s a => a = .read (.port 0xCFC) → s = some (some (inputAddress hw))) none l := by
  apply h.along
  · intro s a ha heq
    subst heq
    cases ha.2
  · simp only [configAccesses, Monitor.along_cons]
    refine ⟨fun h => (nomatch h), fun h => (nomatch h), fun _ => rfl, fun h => (nomatch h), ?_⟩
    exact Monitor.along_nil _ _

theorem PortShape.released (h : PortShape hw l) : portMonitor.own l = none := by
  obtain ⟨front, core, back, rfl, hcases, hfront, hback⟩ := h
  rw [Monitor.own, List.foldl_append, List.foldl_append, Monitor.own_quiet hfront]
  have hcore : core.foldl portMonitor.stepOwn none = none := by
    rcases hcases with rfl | rfl <;> rfl
  rw [hcore, Monitor.own_quiet hback]

end Log

/-- A device-control request with any control code. -/
structure DriverIrp extends ConfigIrp where
  code : UInt32

def DriverIrp.task (r : DriverIrp) : DriverTask IoResult :=
  serveDeviceControlTask r.code r.inLen r.outLen

section Requests
variable {τ : Type} (irps : τ → DriverIrp) (space : Nat → UInt32 → UInt32)
  (elsewhere : τ → Nat → Machine) (latch : UInt32)

def driverWorld : World τ DriverRead DriverRead.Answer DriverEvent (PortState τ) :=
  portWorld (fun t => (irps t).toConfigIrp) space elsewhere

/-- All requests are at their start and nobody holds the lock. -/
def DriverPool.start : ConfigPool τ :=
  { task := fun t => (irps t).task, shared := ⟨none, latch⟩, trace := [] }

/-- The lock and the address port in terms of the accesses so far. -/
def PortsTracked (s : PortState τ) (log : PortTrace τ) : Prop :=
  s.owner = portMonitor.holder log ∧ s.latch = portMonitor.register latch log ∧
    portMonitor.Exclusive log

/-- The answers of the machine: the data port selects by the word in the address port. -/
def Answered (pre : PortTrace τ) (t : τ) : ∀ q : DriverRead, q.Answer → Prop
  | .input i, b => b = (irps t).input i
  | .port p, v => p = 0xCFC → v = space pre.length (portMonitor.register latch pre)
  | _, _ => True

variable {irps space elsewhere latch}

theorem portsTracked_tracks :
    (driverWorld irps space elsewhere).Tracks (PortsTracked latch) := by
  refine ⟨?_, ?_⟩
  · intro t i s log h
    obtain ⟨howner, hlatch, hex⟩ := h
    refine ⟨?_, ?_, hex.append fun h => (nomatch h)⟩
    · rw [Monitor.holder_append]
      exact howner
    · rw [Monitor.register_append]
      exact hlatch
  · intro t w s s' log h heffect
    obtain ⟨howner, hlatch, hex⟩ := h
    unfold PortsTracked
    rw [Monitor.holder_append, Monitor.register_append]
    cases w with
    | acquireLock =>
      obtain ⟨hfree, rfl⟩ := acquire_iff.mp heffect
      exact ⟨rfl, hlatch, hex.append fun _ => howner ▸ hfree⟩
    | releaseLock =>
      cases heffect
      exact ⟨rfl, hlatch, hex.append fun h => (nomatch h)⟩
    | outdword p v =>
      cases heffect
      refine ⟨?_, ?_, hex.append fun h => (nomatch h)⟩
      · by_cases hp : p = 0xCF8
        · rw [if_pos hp]
          exact howner
        · rw [if_neg hp]
          exact howner
      · change _ = (if p = 0xCF8 then some v else none).getD _
        by_cases hp : p = 0xCF8
        · rw [if_pos hp, if_pos hp]
          rfl
        · rw [if_neg hp, if_neg hp]
          exact hlatch
    | _ =>
      cases heffect
      exact ⟨howner, hlatch, hex.append fun h => (nomatch h)⟩

theorem driverWorld_answered (t : τ) (s : PortState τ) (log : PortTrace τ) (q : DriverRead)
    (h : PortsTracked latch s log) :
    Answered irps space latch log t q
      ((driverWorld irps space elsewhere).answer t log.length s q) := by
  cases q with
  | input i => exact rfl
  | port p =>
    intro hp
    rw [← h.2.1]
    exact if_pos hp
  | _ => exact trivial

/-- Only an acquisition has to wait, and only while the lock is held. -/
theorem effect_of_free {t : τ} {s : PortState τ} {w : DriverEvent}
    (h : portMonitor.op (.note w) = .acquire → s.owner = none) :
    ∃ s', (driverWorld irps space elsewhere).effect t s w = some s' := by
  cases w with
  | acquireLock => exact ⟨_, acquire_iff.mpr ⟨h rfl, rfl⟩⟩
  | _ => exact ⟨_, rfl⟩

section Runs
variable [DecidableEq τ]

variable (irps space latch) in
/-- What the requests do is what each does alone on a machine of its own. -/
def Driven (c : ConfigPool τ) : Prop :=
  PortsTracked latch c.shared c.trace ∧ ∀ t, ∃ hw,
    Pool.AloneOn (Answered irps space latch) ((irps t).toConfigIrp.machine 0) hw (irps t).task t
      (c.task t) c.trace

theorem run_driven (schedule : List τ) :
    Driven irps space latch
      ((DriverPool.start irps latch).run (driverWorld irps space elsewhere) schedule) := by
  have hstart : PortsTracked latch (DriverPool.start irps latch).shared [] :=
    ⟨rfl, rfl, Everywhere.nil⟩
  refine ⟨Pool.run_tracks portsTracked_tracks hstart schedule, ?_⟩
  intro t
  exact Pool.run_alone (fun t => (irps t).toConfigIrp.machine 0) portsTracked_tracks
    driverWorld_answered rfl hstart (fun t => serveDeviceControlTask_asksOnce _ _ _) schedule t

variable {c : ConfigPool τ} {t : τ} {hw : Machine}

/-- The log of a request that runs without a stop. -/
def DriverIrp.alone (r : DriverIrp) (hw : Machine) : List DriverAccess :=
  (serveDeviceControl r.code r.inLen r.outLen).log hw

theorem aloneOn_front
    (h : Pool.AloneOn (Answered irps space latch) ((irps t).toConfigIrp.machine 0) hw (irps t).task
      t (c.task t) c.trace) :
    (irps t).alone hw = ownTrace t c.trace ++ (c.task t).toProbe.log hw := by
  have hlog := h.reaches.log
  rwa [DriverIrp.task, serveDeviceControlTask_toProbe] at hlog

theorem Driven.disciplined (h : Driven irps space latch c) (t : τ) :
    portMonitor.Disciplined (ownTrace t c.trace) := by
  obtain ⟨hw, halone⟩ := h.2 t
  have hshape : PortShape hw ((irps t).alone hw) := serve_shape hw _ _ _
  rw [aloneOn_front halone] at hshape
  exact hshape.disciplined.before

theorem aloneOn_input
    (h : Pool.AloneOn (Answered irps space latch) ((irps t).toConfigIrp.machine 0) hw (irps t).task
      t (c.task t) c.trace) (i : Nat) : hw (.input i) = (irps t).input i := by
  by_cases hasked : .read (.input i) ∈ ownTrace t c.trace
  · obtain ⟨n, hn⟩ := List.getElem?_of_mem (mem_ownTrace.mp hasked)
    exact h.answers n (.input i) hn
  · exact h.elsewhere (.input i) hasked

theorem ownTrace_place {pre post : PortTrace τ} {a : DriverAccess} :
    ownTrace t (pre ++ (t, a) :: post) = ownTrace t pre ++ a :: ownTrace t post := by
  rw [ownTrace_append]
  simp [ownTrace]

section Place
variable {pre post : PortTrace τ} {a : DriverAccess} (h : Driven irps space latch c)
  (hplace : c.trace = pre ++ (t, a) :: post)
include h hplace

theorem Driven.agrees (u : τ) : portMonitor.Agrees latch pre u := by
  have hex := h.1.2.2
  have hdisc := h.disciplined
  rw [hplace] at hex hdisc
  exact Monitor.agrees_before hex hdisc latch u

/-- Whoever touches the configuration ports holds the lock. -/
theorem Driven.guarded (ha : PortAccess a) : portMonitor.holder pre = some t := by
  have hdisc := h.disciplined t
  rw [hplace, ownTrace_place] at hdisc
  have hallows : portMonitor.Allows (portMonitor.own (ownTrace t pre)) a :=
    hdisc (ownTrace t pre) a (ownTrace t post) rfl
  have hop : portMonitor.op a ≠ .acquire := by
    intro hop
    match a with
    | .note .acquireLock => cases ha
  rw [Monitor.Allows, if_neg hop] at hallows
  exact (h.agrees hplace t).holder (hallows (.inr ha))

/-- The data port answers for the address word of the request that reads it. -/
theorem Driven.data
    (halone : Pool.AloneOn (Answered irps space latch) ((irps t).toConfigIrp.machine 0) hw
      (irps t).task t (c.task t) c.trace) (ha : a = .read (.port 0xCFC)) :
    hw (.port 0xCFC) = space pre.length (irps t).address := by
  subst ha
  have hshape : PortShape hw ((irps t).alone hw) := serve_shape hw _ _ _
  rw [aloneOn_front halone, hplace, ownTrace_place] at hshape
  have hown := hshape.data.before (ownTrace t pre) _ _ rfl rfl
  have hregister : portMonitor.register latch pre = inputAddress hw :=
    (h.agrees hplace t).register hown
  have haddress : inputAddress hw = (irps t).address := by
    simp only [inputAddress, ConfigIrp.address, aloneOn_input halone]
  have hn : c.trace[pre.length]? = some (t, .read (.port 0xCFC)) := by
    rw [hplace, List.getElem?_append_right (Nat.le_refl _), Nat.sub_self]
    rfl
  have hvalue := halone.answers pre.length _ hn rfl
  rw [hplace, List.take_left, hregister, haddress] at hvalue
  exact hvalue

end Place

/-- A request that is done has its own whole log behind it, and its own result. -/
theorem aloneOn_done
    (h : Pool.AloneOn (Answered irps space latch) ((irps t).toConfigIrp.machine 0) hw (irps t).task
      t (c.task t) c.trace) {result : IoResult} (hdone : c.task t = .done result) :
    ownTrace t c.trace = (irps t).alone hw ∧
      result = (serveDeviceControl (irps t).code (irps t).inLen (irps t).outLen).val hw := by
  have hreaches := h.reaches
  rw [hdone] at hreaches
  obtain ⟨hlog, hval⟩ := hreaches.done
  rw [DriverIrp.task, serveDeviceControlTask_toProbe] at hlog hval
  exact ⟨hlog.symm, hval.symm⟩

theorem step_grows {p : DriverTask IoResult} (htask : c.task t = p)
    (hrest : ∀ result, p ≠ .done result)
    (hfree : ∀ w k, p = .note w k → portMonitor.op (.note w) = .acquire → c.shared.owner = none) :
    (c.step (driverWorld irps space elsewhere) t).trace.length = c.trace.length + 1 := by
  cases p with
  | done result => exact absurd rfl (hrest result)
  | ask i k => exact progress_of_ask htask
  | note w k =>
    obtain ⟨s', heffect⟩ := effect_of_free (t := t) (hfree w k rfl)
    exact progress_of_effect htask heffect

/-- The holder of the lock has not finished and does not wait. -/
theorem Driven.holder_grows (h : Driven irps space latch c)
    (howner : c.shared.owner = some t) :
    (c.step (driverWorld irps space elsewhere) t).trace.length = c.trace.length + 1 := by
  have hagrees : portMonitor.Agrees latch c.trace t :=
    Monitor.agrees h.1.2.2 h.disciplined latch t
  have hown : portMonitor.own (ownTrace t c.trace) ≠ none := by
    intro hnone
    unfold Monitor.Agrees at hagrees
    rw [hnone] at hagrees
    exact hagrees (h.1.1 ▸ howner)
  obtain ⟨hw, halone⟩ := h.2 t
  have hshape : PortShape hw ((irps t).alone hw) := serve_shape hw _ _ _
  apply step_grows rfl
  · intro result hdone
    rw [← (aloneOn_done halone hdone).1] at hshape
    exact hown hshape.released
  · intro w k htask hop
    rw [aloneOn_front halone, htask, Task.toProbe, Probe.log_bind, Probe.log_note] at hshape
    have hallows : portMonitor.Allows (portMonitor.own (ownTrace t c.trace)) (.note w) :=
      hshape.disciplined (ownTrace t c.trace) _ _ rfl
    rw [Monitor.Allows, if_pos hop] at hallows
    exact absurd hallows hown

theorem Driven.progress (h : Driven irps space latch c) (hrest : ∀ result, c.task t ≠ .done result) :
    ∃ u, (c.step (driverWorld irps space elsewhere) u).trace.length = c.trace.length + 1 := by
  cases howner : c.shared.owner with
  | none => exact ⟨t, step_grows rfl hrest fun _ _ _ _ => howner⟩
  | some u => exact ⟨u, h.holder_grows howner⟩

variable (irps space) in
/-- What request `t` has done is the front of its log on the machine `hw`, whose data port
answers for the request's own address word. -/
structure ServedAlone (c : ConfigPool τ) (t : τ) (hw : Machine) : Prop where
  input : ∀ i, hw (.input i) = (irps t).input i
  data : ∀ n, c.trace[n]? = some (t, .read (.port 0xCFC)) →
    hw (.port 0xCFC) = space n (irps t).address
  begun : ownTrace t c.trace <+: (irps t).alone hw
  result : ∀ result, c.task t = .done result →
    ownTrace t c.trace = (irps t).alone hw ∧
      result = (serveDeviceControl (irps t).code (irps t).inLen (irps t).outLen).val hw

variable (irps space elsewhere) in
/-- Every request is served as if it were alone, the ports are touched by the holder of the
lock only, some request can always go on, and none makes more than nineteen accesses. -/
structure SequentialServing (c : ConfigPool τ) : Prop where
  served : ∀ t, ∃ hw, ServedAlone irps space c t hw
  guarded : ∀ pre t a post, c.trace = pre ++ (t, a) :: post → PortAccess a →
    portMonitor.holder pre = some t
  progress : ∀ t, (∀ result, c.task t ≠ .done result) →
    ∃ u, (c.step (driverWorld irps space elsewhere) u).trace.length = c.trace.length + 1
  bounded : ∀ t, Pool.ownAccesses t c.trace ≤ 19

theorem Driven.served (h : Driven irps space latch c) (t : τ) :
    ∃ hw, ServedAlone irps space c t hw := by
  obtain ⟨hw, halone⟩ := h.2 t
  refine ⟨hw, aloneOn_input halone, ?_, ?_, fun _ => aloneOn_done halone⟩
  · intro n hn
    obtain ⟨hlt, hget⟩ := List.getElem?_eq_some_iff.mp hn
    have hplace : c.trace = c.trace.take n ++ (t, .read (.port 0xCFC)) :: c.trace.drop (n + 1) := by
      rw [← hget, ← List.drop_eq_getElem_cons hlt, List.take_append_drop]
    have hdata := h.data hplace halone rfl
    rwa [List.length_take_of_le (Nat.le_of_lt hlt)] at hdata
  · exact ⟨_, (aloneOn_front halone).symm⟩

variable (irps space elsewhere) in
/-- No schedule makes a difference to what a request does, whatever the mix of requests. -/
theorem concurrent_requests_sequential (latch : UInt32) (schedule : List τ) :
    SequentialServing irps space elsewhere
      ((DriverPool.start irps latch).run (driverWorld irps space elsewhere) schedule) := by
  have hrun : Driven irps space latch
      ((DriverPool.start irps latch).run (driverWorld irps space elsewhere) schedule) :=
    run_driven schedule
  refine ⟨hrun.served, ?_, fun t => hrun.progress, ?_⟩
  · intro pre t a post hplace ha
    exact hrun.guarded hplace ha
  · intro t
    exact Pool.ownAccesses_run_le rfl (fun u => serveDeviceControlTask_within _ _ _) t schedule

/-- What an access does to the machine, whatever comes before and after it. -/
def ReadsOnly : DriverAccess → Prop
  | .read (.msr msr) => msrIsWhitelisted msr = true
  | .note (.outdword port value) => port = 0xCF8 ∧ ConfigAddress value
  | .note (.mapped _ size protect) => size = pageSize ∧ protect = pageReadOnlyNoCache
  | .note (.wrmsr _ _) => False
  | .note (.writeMapped _ _) => False
  | _ => True

theorem ReadOnlyBalanced.readsOnly {pre post : List DriverAccess} {a : DriverAccess}
    (h : ReadOnlyBalanced pre a post) : ReadsOnly a := by
  cases a with
  | read q => cases q <;> exact h
  | note w =>
    cases w with
    | outdword port value => exact ⟨h.1, h.2.1⟩
    | mapped phys size protect => exact ⟨h.1, h.2.1⟩
    | wrmsr msr value => exact h
    | writeMapped phys value => exact h
    | _ => exact trivial

/-- The machine is only read, and a request that is done has taken its mapping back and was
completed once, after everything else it did. -/
structure ReadOnlyRun (c : ConfigPool τ) : Prop where
  accesses : ∀ t a, (t, a) ∈ c.trace → ReadsOnly a
  balanced : ∀ t result, c.task t = .done result →
    Everywhere ReadOnlyBalanced (ownTrace t c.trace) ∧ CompletedOnce (ownTrace t c.trace)

variable (irps space elsewhere) in
/-- The whole machine trace of any mix of requests in any interleaving. -/
theorem concurrent_requests_readOnly (latch : UInt32) (schedule : List τ) :
    ReadOnlyRun ((DriverPool.start irps latch).run (driverWorld irps space elsewhere) schedule) := by
  have hrun : Driven irps space latch
      ((DriverPool.start irps latch).run (driverWorld irps space elsewhere) schedule) :=
    run_driven schedule
  constructor
  · intro t a ha
    obtain ⟨hw, hserved⟩ := hrun.served t
    obtain ⟨rest, hlog⟩ := hserved.begun
    obtain ⟨pre, post, hplace⟩ := List.append_of_mem (mem_ownTrace.mpr ha)
    have hbalanced := (DriverRequest.mk (irps t).code (irps t).inLen (irps t).outLen hw).trace_balanced
    apply ReadOnlyBalanced.readsOnly
    apply hbalanced pre a (post ++ rest)
    change (irps t).alone hw = _
    rw [← hlog, hplace, List.append_assoc, List.cons_append]
  · intro t result hdone
    obtain ⟨hw, hserved⟩ := hrun.served t
    rw [(hserved.result result hdone).1]
    let r := DriverRequest.mk (irps t).code (irps t).inLen (irps t).outLen hw
    exact ⟨r.trace_balanced, r.trace_completedOnce⟩

end Runs
end Requests
end HwMon
