import HwMon.Driver.Trace
import HwMon.Lib.Prog

/-!
# The lifetime of the driver

`DriverEntry`, `HwmonUnload` and the dispatch table. The I/O manager loads the driver,
sends it requests while it is loaded and unloads it, any number of times and in any
order. The device and its link are there exactly while the driver is loaded.
-/

namespace HwMon
set_option autoImplicit false

/-- `NT_SUCCESS` -/
def ntSuccess (status : Int32) : Bool := decide (0 ≤ status)

def doBufferedIo : UInt32 := 0x00000004

def doDeviceInitializing : UInt32 := 0x00000080

inductive LifeEvent where
  | initializeSpinLock
  | createDevice
  | deleteDevice
  | createSymbolicLink
  | deleteSymbolicLink
  /-- What a request does. -/
  | access (a : DriverAccess)
  deriving DecidableEq

inductive MajorFunction where
  | create
  | close
  | deviceControl
  | other
  deriving DecidableEq, Repr

inductive DispatchRoutine where
  | hwmonCreateClose
  | hwmonDeviceControl
  deriving DecidableEq, Repr

/-- The driver object, and the objects that have the names of the driver. -/
structure DriverObject where
  /-- The flags of `DeviceObject`. -/
  device : Option UInt32 := none
  symlink : Bool := false
  majorFunction : MajorFunction → Option DispatchRoutine := fun _ => none
  driverUnload : Bool := false
  log : List LifeEvent := []

/-- What must not happen: an object that is created twice, or deleted without being there. -/
inductive LifeFault where
  | deviceExists
  | noDevice
  | noLink
  deriving DecidableEq, Repr

/-- What the system answers while the driver is loaded. -/
structure LoadAnswers where
  deviceStatus : Int32
  deviceFlags : UInt32
  linkStatus : Int32

abbrev LifeM (α : Type) := Prog LoadAnswers DriverObject LifeFault α

section Code

def happens (e : LifeEvent) : LifeM Unit :=
  Prog.modify fun o => { o with log := o.log ++ [e] }

def ioCreateDevice : LifeM Int32 := do
  let status ← Prog.env LoadAnswers.deviceStatus
  if ntSuccess status = false then pure status
  else do
    let flags ← Prog.env LoadAnswers.deviceFlags
    let device ← Prog.get DriverObject.device
    match device with
    | some _ => Prog.stop .deviceExists id
    | none => do
      Prog.modify fun o => { o with device := some flags }
      happens .createDevice
      pure status

def ioDeleteDevice : LifeM Unit := do
  let device ← Prog.get DriverObject.device
  match device with
  | none => Prog.stop .noDevice id
  | some _ => do
    Prog.modify fun o => { o with device := none }
    happens .deleteDevice

def ioCreateSymbolicLink : LifeM Int32 := do
  let status ← Prog.env LoadAnswers.linkStatus
  if ntSuccess status = false then pure status
  else do
    Prog.modify fun o => { o with symlink := true }
    happens .createSymbolicLink
    pure status

def ioDeleteSymbolicLink : LifeM Unit := do
  let symlink ← Prog.get DriverObject.symlink
  if symlink = false then Prog.stop .noLink id
  else do
    Prog.modify fun o => { o with symlink := false }
    happens .deleteSymbolicLink

def dispatchTable : MajorFunction → Option DispatchRoutine
  | .create => some .hwmonCreateClose
  | .close => some .hwmonCreateClose
  | .deviceControl => some .hwmonDeviceControl
  | .other => none

/-- The assignments at the end of `DriverEntry`. -/
def DriverObject.setUp (o : DriverObject) : DriverObject :=
  { o with
    majorFunction := dispatchTable
    driverUnload := true
    device := o.device.map fun flags => (flags ||| doBufferedIo) &&& ~~~doDeviceInitializing }

def driverEntry : LifeM Int32 := do
  happens .initializeSpinLock
  let status ← ioCreateDevice
  if ntSuccess status = false then pure status
  else do
    let status ← ioCreateSymbolicLink
    if ntSuccess status = false then do
      ioDeleteDevice
      pure status
    else do
      Prog.modify DriverObject.setUp
      pure 0

def hwmonUnload : LifeM Unit := do
  ioDeleteSymbolicLink
  let device ← Prog.get DriverObject.device
  if device.isSome then ioDeleteDevice else pure ()

/-- `HwmonCreateClose` -/
def createCloseTrace : List DriverAccess := [.note (.ioCompleteRequest .success 0)]

/-- What the I/O manager does where the table has no routine. -/
def invalidRequestTrace : List DriverAccess := [.note (.ioCompleteRequest .invalidDeviceRequest 0)]

inductive Irp where
  | create
  | close
  | deviceControl (r : DriverRequest)
  | other

def Irp.majorFunction : Irp → MajorFunction
  | create => .create
  | close => .close
  | deviceControl _ => .deviceControl
  | other => .other

/-- What a routine does with a request. -/
def Irp.trace (irp : Irp) : Option DispatchRoutine → List DriverAccess
  | none => invalidRequestTrace
  | some .hwmonCreateClose => createCloseTrace
  | some .hwmonDeviceControl =>
    match irp with
    | .deviceControl r => r.trace
    | _ => invalidRequestTrace

def DriverObject.serve (o : DriverObject) (irp : Irp) : DriverObject :=
  { o with log := o.log ++ (irp.trace (o.majorFunction irp.majorFunction)).map .access }

inductive LifeStep where
  | load (answers : LoadAnswers)
  | request (irp : Irp)
  | unload

structure Life where
  loaded : Bool := false
  driver : DriverObject := {}
  /-- The requests that have been sent. -/
  sent : Nat := 0

/-- A driver is loaded with a new driver object. -/
def DriverObject.renewed (o : DriverObject) : DriverObject :=
  { o with majorFunction := fun _ => none, driverUnload := false }

/-- What the I/O manager does; none if the driver does what it must not. -/
def Life.step (l : Life) : LifeStep → Option Life
  | .load answers =>
    if l.loaded then some l
    else
      match driverEntry.run answers l.driver.renewed with
      | (.ok status, driver) => some { l with loaded := ntSuccess status, driver }
      | (.error _, _) => none
  | .request irp =>
    if l.loaded then some { l with driver := l.driver.serve irp, sent := l.sent + 1 } else some l
  | .unload =>
    if l.loaded && l.driver.driverUnload then
      match hwmonUnload.run ⟨0, 0, 0⟩ l.driver with
      | (.ok _, driver) => some { l with loaded := false, driver }
      | (.error _, _) => none
    else some l

def Life.run (l : Life) : List LifeStep → Option Life
  | [] => some l
  | s :: steps => (l.step s).bind fun l' => l'.run steps

end Code

/-!
## What one load and one unload do
-/

section Runs
variable {answers : LoadAnswers} {o : DriverObject}

/-- The three ways that `DriverEntry` can go. -/
theorem driverEntry_run (hdevice : o.device = none) : driverEntry.run answers o =
    if ntSuccess answers.deviceStatus = false then
      (.ok answers.deviceStatus, { o with log := o.log ++ [.initializeSpinLock] })
    else if ntSuccess answers.linkStatus = false then
      (.ok answers.linkStatus,
        { o with log := o.log ++ [.initializeSpinLock, .createDevice, .deleteDevice] })
    else (.ok 0, DriverObject.setUp { o with
      device := some answers.deviceFlags
      symlink := true
      log := o.log ++ [.initializeSpinLock, .createDevice, .createSymbolicLink] }) := by
  obtain ⟨device, symlink, majorFunction, driverUnload, log⟩ := o
  cases hdevice
  cases hd : ntSuccess answers.deviceStatus with
  | false => simp [driverEntry, ioCreateDevice, happens, Prog.run_bind, hd]
  | true =>
    cases hl : ntSuccess answers.linkStatus with
    | false =>
      simp [driverEntry, ioCreateDevice, ioCreateSymbolicLink, ioDeleteDevice, happens,
        Prog.run_bind, hd, hl]
    | true =>
      simp [driverEntry, ioCreateDevice, ioCreateSymbolicLink, happens, Prog.run_bind, hd, hl]

theorem hwmonUnload_run (hdevice : o.device.isSome = true) (hlink : o.symlink = true) :
    hwmonUnload.run answers o = (.ok (), { o with
      device := none
      symlink := false
      log := o.log ++ [.deleteSymbolicLink, .deleteDevice] }) := by
  obtain ⟨device, symlink, majorFunction, driverUnload, log⟩ := o
  cases hlink
  cases device with
  | none => cases hdevice
  | some flags =>
    simp [hwmonUnload, ioDeleteSymbolicLink, ioDeleteDevice, happens, Prog.run_bind]

end Runs

/-!
## Any run
-/

def LifeEvent.access? : LifeEvent → Option DriverAccess
  | access a => some a
  | _ => none

def accesses (log : List LifeEvent) : List DriverAccess := log.filterMap LifeEvent.access?

/-- How many more devices, or links, were created than deleted is `n`. -/
def Created (log : List LifeEvent) (n : Nat) : Prop :=
  log.count .createDevice = log.count .deleteDevice + n

def Linked (log : List LifeEvent) (n : Nat) : Prop :=
  log.count .createSymbolicLink = log.count .deleteSymbolicLink + n

/-- What may happen behind `pre`: there is at most one device with its link, and a request
finds the device and the spin lock that was set up for it. -/
def Orderly (pre : List LifeEvent) : LifeEvent → Prop
  | .initializeSpinLock => Created pre 0 ∧ Linked pre 0
  | .createDevice => Created pre 0
  | .deleteDevice => Created pre 1
  | .createSymbolicLink => Created pre 1 ∧ Linked pre 0
  | .deleteSymbolicLink => Linked pre 1
  | .access _ => Created pre 1 ∧ Linked pre 1 ∧ .initializeSpinLock ∈ pre

def isCompletion : DriverAccess → Bool
  | .note (.ioCompleteRequest _ _) => true
  | _ => false

/-- The driver between two steps of the I/O manager. -/
structure Lived (l : Life) : Prop where
  device : l.driver.device.isSome = l.loaded
  symlink : l.driver.symlink = l.loaded
  flags : ∀ flags ∈ l.driver.device,
    flags &&& doBufferedIo = doBufferedIo ∧ flags &&& doDeviceInitializing = 0
  routines : l.loaded = true →
    l.driver.majorFunction = dispatchTable ∧ l.driver.driverUnload = true
  created : Created l.driver.log l.loaded.toNat
  linked : Linked l.driver.log l.loaded.toNat
  lock : l.loaded = true → .initializeSpinLock ∈ l.driver.log
  orderly : Everywhere (fun pre e _ => Orderly pre e) l.driver.log
  readOnly : Everywhere ReadOnlyBalanced (accesses l.driver.log)
  completed : (accesses l.driver.log).countP isCompletion = l.sent

section Steps

/-- A condition on what came before goes from two pieces of a trace to the whole. -/
theorem Everywhere.append_past {α : Type} {P : List α → α → Prop} {l r : List α}
    (hl : Everywhere (fun pre a _ => P pre a) l)
    (hr : Everywhere (fun pre a _ => P (l ++ pre) a) r) :
    Everywhere (fun pre a _ => P pre a) (l ++ r) := by
  intro pre a post h
  rcases List.append_eq_append_iff.mp h with ⟨mid, rfl, hmid⟩ | ⟨mid, rfl, hmid⟩
  · exact hr mid a post hmid
  · cases mid with
    | nil =>
      have hfirst := hr [] a post hmid.symm
      rwa [List.append_nil, List.append_nil] at hfirst
    | cons b mid =>
      obtain ⟨rfl, rfl⟩ := List.cons.inj hmid
      exact hl pre a mid rfl

theorem or_and_absorb (x y : UInt32) : (x ||| y) &&& y = y := by
  apply UInt32.eq_of_toBitVec_eq
  apply BitVec.eq_of_getLsbD_eq
  intro i _
  simp only [UInt32.toBitVec_and, UInt32.toBitVec_or, BitVec.getLsbD_and, BitVec.getLsbD_or]
  cases x.toBitVec.getLsbD i <;> cases y.toBitVec.getLsbD i <;> rfl

theorem flags_ready (flags : UInt32) :
    ((flags ||| doBufferedIo) &&& ~~~doDeviceInitializing) &&& doBufferedIo = doBufferedIo ∧
      ((flags ||| doBufferedIo) &&& ~~~doDeviceInitializing) &&& doDeviceInitializing = 0 := by
  have hkeep : ~~~doDeviceInitializing &&& doBufferedIo = doBufferedIo := by decide
  have hclear : ~~~doDeviceInitializing &&& doDeviceInitializing = 0 := by decide
  constructor
  · rw [UInt32.and_assoc, hkeep, or_and_absorb]
  · rw [UInt32.and_assoc, hclear, UInt32.and_zero]

theorem accesses_append (l r : List LifeEvent) : accesses (l ++ r) = accesses l ++ accesses r :=
  List.filterMap_append

theorem accesses_map (l : List DriverAccess) : accesses (l.map .access) = l := by
  induction l with
  | nil => rfl
  | cons a l ih =>
    change a :: accesses (l.map .access) = a :: l
    rw [ih]

theorem isCompletion_iff (a : DriverAccess) : isCompletion a = true ↔ a.Completes := by
  constructor
  · intro h
    cases a with
    | read q => cases h
    | note w =>
      cases w with
      | ioCompleteRequest status information => exact ⟨status, information, rfl⟩
      | _ => cases h
  · rintro ⟨status, information, rfl⟩
    rfl

theorem countP_completedOnce {l : List DriverAccess} (h : CompletedOnce l) :
    l.countP isCompletion = 1 := by
  obtain ⟨front, a, rfl, ha, hfront⟩ := h
  have hnone : front.countP isCompletion = 0 :=
    List.countP_eq_zero.mpr fun b hb => mt (isCompletion_iff b).mp (hfront b hb)
  rw [List.countP_append, hnone, Nat.zero_add]
  exact List.countP_eq_length.mpr fun b hb => by
    rw [List.mem_singleton.mp hb]
    exact (isCompletion_iff a).mpr ha

theorem completion_trace (status : NtStatus) :
    Everywhere ReadOnlyBalanced [.note (.ioCompleteRequest status 0)] ∧
      CompletedOnce [.note (.ioCompleteRequest status 0)] :=
  ⟨completes_balanced ⟨status, 0, rfl⟩,
    [], _, rfl, ⟨status, 0, rfl⟩, fun _ hb => absurd hb List.not_mem_nil⟩

/-- Whatever routine a request is given to, it is read-only and completed once. -/
theorem Irp.trace_served (irp : Irp) (routine : Option DispatchRoutine) :
    Everywhere ReadOnlyBalanced (irp.trace routine) ∧ CompletedOnce (irp.trace routine) := by
  cases routine with
  | none => exact completion_trace .invalidDeviceRequest
  | some routine =>
    cases routine with
    | hwmonCreateClose => exact completion_trace .success
    | hwmonDeviceControl =>
      cases irp with
      | deviceControl r => exact ⟨r.trace_balanced, r.trace_completedOnce⟩
      | _ => exact completion_trace .invalidDeviceRequest

theorem count_accesses {e : LifeEvent} (he : e.access? = none) (log : List LifeEvent)
    (l : List DriverAccess) : (log ++ l.map LifeEvent.access).count e = log.count e := by
  have hnone : (l.map LifeEvent.access).count e = 0 := by
    refine List.count_eq_zero.mpr fun hmem => ?_
    obtain ⟨a, _, rfl⟩ := List.mem_map.mp hmem
    cases he
  rw [List.count_append, hnone, Nat.add_zero]

theorem created_accesses {log : List LifeEvent} {n : Nat} (h : Created log n)
    (l : List DriverAccess) : Created (log ++ l.map .access) n := by
  rw [Created, count_accesses rfl, count_accesses rfl]
  exact h

theorem linked_accesses {log : List LifeEvent} {n : Nat} (h : Linked log n)
    (l : List DriverAccess) : Linked (log ++ l.map .access) n := by
  rw [Linked, count_accesses rfl, count_accesses rfl]
  exact h

/-- The start, before the driver was ever loaded. -/
theorem lived_start : Lived {} where
  device := rfl
  symlink := rfl
  flags _ h := absurd h (Option.not_mem_none _)
  routines h := nomatch h
  created := rfl
  linked := rfl
  lock h := nomatch h
  orderly := Everywhere.nil
  readOnly := Everywhere.nil
  completed := rfl

theorem lived_request {l : Life} (h : Lived l) (hloaded : l.loaded = true) (irp : Irp) :
    Lived { l with driver := l.driver.serve irp, sent := l.sent + 1 } := by
  obtain ⟨hreadOnly, honce⟩ := irp.trace_served (l.driver.majorFunction irp.majorFunction)
  have hcreated := h.created
  have hlinked := h.linked
  rw [hloaded] at hcreated hlinked
  constructor
  · exact h.device
  · exact h.symlink
  · exact h.flags
  · exact h.routines
  · exact created_accesses h.created _
  · exact linked_accesses h.linked _
  · intro _
    exact List.mem_append_left _ (h.lock hloaded)
  · refine h.orderly.append_past fun pre e post hsplit => ?_
    obtain ⟨front, back, htrace, rfl, hback⟩ := List.map_eq_append_iff.mp hsplit
    obtain ⟨a, rest, rfl, rfl, _⟩ := List.map_eq_cons_iff.mp hback
    exact ⟨created_accesses hcreated front, linked_accesses hlinked front,
      List.mem_append_left _ (h.lock hloaded)⟩
  · change Everywhere ReadOnlyBalanced (accesses (l.driver.log ++ _))
    rw [accesses_append, accesses_map]
    exact h.readOnly.append readOnlyBalanced_extends hreadOnly
  · change (accesses (l.driver.log ++ _)).countP isCompletion = l.sent + 1
    rw [accesses_append, accesses_map, List.countP_append, h.completed, countP_completedOnce honce]

theorem created_events {log : List LifeEvent} {n : Nat} (h : Created log n)
    (events : List LifeEvent) {m : Nat}
    (hevents : n + events.count .createDevice = events.count .deleteDevice + m) :
    Created (log ++ events) m := by
  unfold Created at h ⊢
  rw [List.count_append, List.count_append]
  omega

theorem linked_events {log : List LifeEvent} {n : Nat} (h : Linked log n)
    (events : List LifeEvent) {m : Nat}
    (hevents : n + events.count .createSymbolicLink = events.count .deleteSymbolicLink + m) :
    Linked (log ++ events) m := by
  unfold Linked at h ⊢
  rw [List.count_append, List.count_append]
  omega

/-- Events that are no accesses, each in order behind those before it. -/
theorem lived_events {l : Life} (h : Lived l) (events : List LifeEvent)
    (hevents : accesses events = [])
    (horderly : Everywhere (fun pre e _ => Orderly (l.driver.log ++ pre) e) events) :
    Everywhere (fun pre e _ => Orderly pre e) (l.driver.log ++ events) ∧
      Everywhere ReadOnlyBalanced (accesses (l.driver.log ++ events)) ∧
      (accesses (l.driver.log ++ events)).countP isCompletion = l.sent := by
  rw [accesses_append, hevents, List.append_nil]
  exact ⟨h.orderly.append_past horderly, h.readOnly, h.completed⟩

/-- While the driver is not loaded, nothing of it is there. -/
theorem lived_gone {l : Life} (h : Lived l) (hloaded : l.loaded = false) :
    l.driver.device = none ∧ l.driver.symlink = false ∧ Created l.driver.log 0 ∧
      Linked l.driver.log 0 := by
  have hdevice := h.device
  have hsymlink := h.symlink
  have hcreated := h.created
  have hlinked := h.linked
  rw [hloaded] at hdevice hsymlink hcreated hlinked
  exact ⟨Option.not_isSome_iff_eq_none.mp (Bool.eq_false_iff.mp hdevice), hsymlink, hcreated,
    hlinked⟩

/-- After some events the driver is not loaded. -/
theorem lived_unloaded {l : Life} (h : Lived l) (events : List LifeEvent) (driver : DriverObject)
    (hdevice : driver.device = none) (hsymlink : driver.symlink = false)
    (hlog : driver.log = l.driver.log ++ events) (hevents : accesses events = [])
    (horderly : Everywhere (fun pre e _ => Orderly (l.driver.log ++ pre) e) events)
    (hcreated : Created (l.driver.log ++ events) 0) (hlinked : Linked (l.driver.log ++ events) 0) :
    Lived { l with loaded := false, driver } := by
  obtain ⟨horderly, hreadOnly, hcompleted⟩ := lived_events h events hevents horderly
  rw [← hlog] at horderly hreadOnly hcompleted hcreated hlinked
  refine ⟨?_, hsymlink, ?_, (nomatch ·), hcreated, hlinked, (nomatch ·), horderly, hreadOnly,
    hcompleted⟩
  · change driver.device.isSome = false
    rw [hdevice]
    rfl
  · intro flags hflags
    change flags ∈ driver.device at hflags
    rw [hdevice] at hflags
    cases hflags

theorem lived_load {l : Life} (h : Lived l) (hloaded : l.loaded = false)
    (answers : LoadAnswers) : ∃ status driver,
      driverEntry.run answers l.driver.renewed = (.ok status, driver) ∧
        Lived { l with loaded := ntSuccess status, driver } := by
  obtain ⟨hdevice, hsymlink, hcreated, hlinked⟩ := lived_gone h hloaded
  have hrenewed : l.driver.renewed.device = none := hdevice
  have hfirst : Orderly (l.driver.log ++ []) .initializeSpinLock :=
    ⟨created_events hcreated [] rfl, linked_events hlinked [] rfl⟩
  have hsecond : Orderly (l.driver.log ++ [.initializeSpinLock]) .createDevice :=
    created_events hcreated [.initializeSpinLock] rfl
  rw [driverEntry_run hrenewed]
  split
  · have hfailed : ntSuccess answers.deviceStatus = false := ‹_›
    refine ⟨_, _, rfl, ?_⟩
    rw [hfailed]
    exact lived_unloaded h [.initializeSpinLock] _ hdevice hsymlink rfl rfl
      (Everywhere.cons_iff.mpr ⟨hfirst, Everywhere.nil⟩) (created_events hcreated _ rfl)
      (linked_events hlinked _ rfl)
  · split
    · have hfailed : ntSuccess answers.linkStatus = false := ‹_›
      have hthird : Orderly (l.driver.log ++ [.initializeSpinLock, .createDevice]) .deleteDevice :=
        created_events hcreated [.initializeSpinLock, .createDevice] rfl
      refine ⟨_, _, rfl, ?_⟩
      rw [hfailed]
      exact lived_unloaded h [.initializeSpinLock, .createDevice, .deleteDevice] _ hdevice hsymlink
        rfl rfl (Everywhere.cons_iff.mpr ⟨hfirst, Everywhere.cons_iff.mpr ⟨hsecond,
          Everywhere.cons_iff.mpr ⟨hthird, Everywhere.nil⟩⟩⟩) (created_events hcreated _ rfl)
        (linked_events hlinked _ rfl)
    · have hthird : Orderly (l.driver.log ++ [.initializeSpinLock, .createDevice])
          .createSymbolicLink :=
        ⟨created_events hcreated [.initializeSpinLock, .createDevice] rfl,
          linked_events hlinked [.initializeSpinLock, .createDevice] rfl⟩
      obtain ⟨horderly, hreadOnly, hcompleted⟩ := lived_events h
        [.initializeSpinLock, .createDevice, .createSymbolicLink] rfl
        (Everywhere.cons_iff.mpr ⟨hfirst, Everywhere.cons_iff.mpr ⟨hsecond,
          Everywhere.cons_iff.mpr ⟨hthird, Everywhere.nil⟩⟩⟩)
      refine ⟨_, _, rfl, ?_⟩
      refine ⟨rfl, rfl, ?_, fun _ => ⟨rfl, rfl⟩, created_events hcreated _ rfl,
        linked_events hlinked _ rfl, ?_, horderly, hreadOnly, hcompleted⟩
      · intro flags hflags
        cases hflags
        exact flags_ready answers.deviceFlags
      · intro _
        exact List.mem_append_right _ List.mem_cons_self

theorem lived_unload {l : Life} (h : Lived l) (hloaded : l.loaded = true) (answers : LoadAnswers) :
    ∃ driver, hwmonUnload.run answers l.driver = (.ok (), driver) ∧
      Lived { l with loaded := false, driver } := by
  have hcreated := h.created
  have hlinked := h.linked
  rw [hloaded] at hcreated hlinked
  refine ⟨_, hwmonUnload_run (h.device.trans hloaded) (h.symlink.trans hloaded), ?_⟩
  have hfirst : Orderly (l.driver.log ++ []) .deleteSymbolicLink := linked_events hlinked [] rfl
  have hsecond : Orderly (l.driver.log ++ [.deleteSymbolicLink]) .deleteDevice :=
    created_events hcreated [.deleteSymbolicLink] rfl
  exact lived_unloaded h [.deleteSymbolicLink, .deleteDevice] _ rfl rfl rfl rfl
    (Everywhere.cons_iff.mpr ⟨hfirst, Everywhere.cons_iff.mpr ⟨hsecond, Everywhere.nil⟩⟩)
    (created_events hcreated _ rfl) (linked_events hlinked _ rfl)

/-- Whatever the I/O manager does next. -/
theorem lived_step {l : Life} (h : Lived l) (s : LifeStep) :
    ∃ l', l.step s = some l' ∧ Lived l' := by
  cases s with
  | load answers =>
    cases hloaded : l.loaded with
    | true => exact ⟨l, by rw [Life.step, hloaded]; rfl, h⟩
    | false =>
      obtain ⟨status, driver, hrun, hlived⟩ := lived_load h hloaded answers
      exact ⟨_, by rw [Life.step, hloaded, hrun]; rfl, hlived⟩
  | request irp =>
    cases hloaded : l.loaded with
    | true => exact ⟨_, by rw [Life.step, hloaded]; rfl, lived_request h hloaded irp⟩
    | false => exact ⟨l, by rw [Life.step, hloaded]; rfl, h⟩
  | unload =>
    cases hloaded : l.loaded with
    | true =>
      obtain ⟨driver, hrun, hlived⟩ := lived_unload h hloaded ⟨0, 0, 0⟩
      have hroutine := (h.routines hloaded).2
      exact ⟨_, by rw [Life.step, hloaded, hroutine, hrun]; rfl, hlived⟩
    | false => exact ⟨l, by rw [Life.step, hloaded]; rfl, h⟩

theorem lived_run (steps : List LifeStep) {l : Life} (h : Lived l) :
    ∃ l', l.run steps = some l' ∧ Lived l' := by
  induction steps generalizing l with
  | nil => exact ⟨l, rfl, h⟩
  | cons s steps ih =>
    obtain ⟨next, hstep, hnext⟩ := lived_step h s
    obtain ⟨l', hrun, hlived⟩ := ih hnext
    exact ⟨l', by rw [Life.run, hstep]; exact hrun, hlived⟩

/-- In every run, from the first load on, the driver does nothing that it must not. -/
theorem driver_lived (steps : List LifeStep) : ∃ l, Life.run {} steps = some l ∧ Lived l :=
  lived_run steps lived_start

end Steps
end HwMon
