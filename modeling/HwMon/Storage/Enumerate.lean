import HwMon.Lib.Capped
import HwMon.Lib.Store
import HwMon.Storage.QueryDevice

/-!
# The drives and their handles

`storage_enumerate` with the handles that it opens: one without access for each
drive, and a second one for reading where the first does not give the capacity.
Whatever the system answers, every handle is closed once, none is used after
that, and the drives are listed from the first on until one does not exist.
-/

namespace HwMon
set_option autoImplicit false

inductive DriveAccess where
  | none
  | genericRead
  deriving DecidableEq, Repr

/-- What a handle stands for. -/
structure OpenDrive where
  index : Int32
  access : DriveAccess
  deriving DecidableEq, Repr

inductive HandleFault where
  | invalidHandle (h : Nat)
  deriving DecidableEq, Repr

/-- The system under the program. Its answers may differ from call to call. -/
structure DriveOs where
  opens : Nat → OpenDrive → Bool
  /-- The bytes that `IOCTL_STORAGE_QUERY_PROPERTY` puts into the buffer. -/
  reply : Nat → OpenDrive → Option (List UInt8)
  lengthInfo : Nat → OpenDrive → Option UInt64
  /-- What the buffer on the stack holds before the reply. -/
  stack : Nat → Mem

abbrev DriveM (α : Type) := StoreM DriveOs OpenDrive HandleFault α

def createFile (d : OpenDrive) : DriveM (Option Nat) :=
  request (fun os n => os.opens n d) d

def closeHandle (h : Nat) : DriveM Unit := giveBack (.invalidHandle h) h

/-- `DeviceIoControl` with the answer that is asked for. -/
def deviceIoControl {α : Type} (h : Nat) (ask : DriveOs → Nat → OpenDrive → α) : DriveM α := do
  let d ← access (.invalidHandle h) h fun d => .ok (d, some d)
  outside fun os n => ask os n d

/-- The length of the reply and the buffer behind the call. -/
def DriveOs.property (os : DriveOs) (n : Nat) (d : OpenDrive) : Option (UInt32 × Mem) :=
  (os.reply n d).map fun bytes => (UInt32.ofNat bytes.length, store (os.stack n) 0 bytes)

/-- The second attempt at the length, with a handle of its own. -/
def capacityForRead (index : Int32) (dev : StorageDevice) : DriveM StorageDevice := do
  let h2 ← createFile ⟨index, .genericRead⟩
  match h2 with
  | none => pure dev
  | some h2 => do
    let length ← deviceIoControl h2 DriveOs.lengthInfo
    closeHandle h2
    match length with
    | some length => pure (dev.withCapacity length)
    | none => pure dev

def readProperty (index : Int32) : Option (UInt32 × Mem) → StorageDevice
  | some (returned, buf) => (readDescriptor returned (.blank index)).val buf
  | none => .blank index

/-- What `query_device` knows of the drive before it asks for the capacity. -/
def describeDrive (index : Int32) (property : Option (UInt32 × Mem)) : StorageDevice :=
  let dev := readProperty index property
  if dev.busType = .nvme then (tryNvmeIdentify dev).2 else dev

/-- `query_device`: the result, `*exists` and `*dev` afterwards. -/
def queryDeviceOnHandles (index : Int32) (dev : StorageDevice) :
    DriveM (Bool × Bool × StorageDevice) := do
  let h ← createFile ⟨index, .none⟩
  match h with
  | none => pure (false, false, dev)
  | some h => do
    let property ← deviceIoControl h DriveOs.property
    let dev := describeDrive index property
    let length ← deviceIoControl h DriveOs.lengthInfo
    let dev ← match length with
      | some length => pure (dev.withCapacity length)
      | none => capacityForRead index dev
    closeHandle h
    pure (true, true, dev)

def storageMaxDevices : Nat := 32

/-- The `for` loop of `storage_enumerate` in its last `rounds` rounds. -/
def storageLoop : Nat → Nat → Capped StorageDevice storageMaxDevices →
    DriveM (Capped StorageDevice storageMaxDevices)
  | 0, _, out => pure out
  | rounds + 1, i, out => do
    let r ← queryDeviceOnHandles (Int32.ofNat i) (.blank 0)
    if r.2.1 = true then storageLoop rounds (i + 1) (out.push r.2.2) else pure out

def storageEnumerate : DriveM (Bool × Capped StorageDevice storageMaxDevices) := do
  let out ← storageLoop storageMaxDevices 0 .empty
  pure (true, out)

/-!
## One drive
-/

/-- What the system answers about a drive if the first call for it is call `n`. -/
def DriveOs.answers (os : DriveOs) (n : Nat) (index : Int32) : DriveAnswers where
  opens := os.opens n ⟨index, .none⟩
  descriptor := (os.property (n + 1) ⟨index, .none⟩).map Prod.fst
  lengthInfo := os.lengthInfo (n + 2) ⟨index, .none⟩
  opensForRead := os.opens (n + 3) ⟨index, .genericRead⟩
  lengthInfoForRead := os.lengthInfo (n + 4) ⟨index, .genericRead⟩

def DriveOs.buffer (os : DriveOs) (n : Nat) (index : Int32) : Mem :=
  ((os.property (n + 1) ⟨index, .none⟩).map Prod.snd).getD (os.stack n)

section Calls
variable {os : DriveOs} {h t : Store OpenDrive} {d : OpenDrive}

theorem returns_deviceIoControl {α : Type} {p : Nat} (hp : t.cells p = some d)
    (ask : DriveOs → Nat → OpenDrive → α) :
    (deviceIoControl p ask).Returns os t fun a u =>
      a = ask os t.calls d ∧ u.cells = t.cells ∧ u.calls = t.calls + 1 := by
  refine (returns_access_same hp rfl).bind fun d' u hu => ?_
  obtain ⟨rfl, hub, huc⟩ := hu
  refine (returns_outside _).mono fun a v hv => ?_
  obtain ⟨rfl, hvb, hvc⟩ := hv
  rw [huc] at hvc ⊢
  exact ⟨rfl, hvb.trans hub, hvc⟩

/-- The capacity by the second handle, if the first call for it is call `n`. -/
def DriveOs.capacityForRead (os : DriveOs) (n : Nat) (index : Int32) (dev : StorageDevice) :
    StorageDevice :=
  if os.opens n ⟨index, .genericRead⟩ = true then
    match os.lengthInfo (n + 1) ⟨index, .genericRead⟩ with
    | some length => dev.withCapacity length
    | none => dev
  else dev

theorem returns_capacityForRead (index : Int32) (dev : StorageDevice) :
    (capacityForRead index dev).Returns os h fun dev' t =>
      h.Keeps t ∧ dev' = os.capacityForRead h.calls index dev := by
  refine (returns_request _ _).bind fun r t ht => ?_
  obtain ⟨htc, hr⟩ := ht
  cases r with
  | none =>
    obtain ⟨hcells, hopens⟩ := hr
    refine Prog.returns_pure ⟨⟨hcells, by omega⟩, ?_⟩
    rw [DriveOs.capacityForRead, if_neg (Bool.eq_false_iff.mp hopens)]
  | some p =>
    obtain ⟨hopens, hwith⟩ := hr
    refine (returns_deviceIoControl hwith.self _).bind fun length u hu => ?_
    obtain ⟨rfl, hub, huc⟩ := hu
    refine (returns_giveBack (hwith.keeps hub)).bind fun _ v hv => ?_
    obtain ⟨hvb, hvc⟩ := hv
    rw [DriveOs.capacityForRead, if_pos hopens, ← htc]
    have hkeeps : h.Keeps v := ⟨hvb, by omega⟩
    cases os.lengthInfo t.calls ⟨index, .genericRead⟩ with
    | none => exact Prog.returns_pure ⟨hkeeps, rfl⟩
    | some length => exact Prog.returns_pure ⟨hkeeps, rfl⟩

theorem describeDrive_eq (n : Nat) (index : Int32) :
    describeDrive index (os.property (n + 1) ⟨index, .none⟩) =
      (queryDescriptor (os.answers n index) (.blank index)).val (os.buffer n index) := by
  have hnvme : describeDrive index (os.property (n + 1) ⟨index, .none⟩) =
      readProperty index (os.property (n + 1) ⟨index, .none⟩) := ite_self _
  rw [hnvme, queryDescriptor, DriveOs.answers, DriveOs.buffer]
  cases os.property (n + 1) ⟨index, .none⟩ with
  | none => rfl
  | some r => rfl

theorem queryDevice_val {index : Int32} {a : DriveAnswers} (hopens : a.opens = true)
    (dev : StorageDevice) (buf : Mem) : (queryDevice index a dev).val buf =
      (true, true, queryCapacity a ((queryDescriptor a (.blank index)).val buf)) := by
  have hnvme : ∀ d : StorageDevice,
      (if d.busType = .nvme then (tryNvmeIdentify d).2 else d) = d := fun d => ite_self d
  simp only [queryDevice, if_pos hopens, ↓Probe.val_bind, Probe.val_pure, hnvme]
  rfl

theorem queryCapacity_answers (n : Nat) (index : Int32) (dev : StorageDevice) :
    queryCapacity (os.answers n index) dev =
      match os.lengthInfo (n + 2) ⟨index, .none⟩ with
      | some length => dev.withCapacity length
      | none => os.capacityForRead (n + 3) index dev :=
  rfl

/-- The outcome is that of the code over the answers to the calls that were made. -/
theorem returns_queryDeviceOnHandles (index : Int32) (dev : StorageDevice) :
    (queryDeviceOnHandles index dev).Returns os h fun r t =>
      h.Keeps t ∧ h.calls < t.calls ∧
        r = (queryDevice index (os.answers h.calls index) dev).val (os.buffer h.calls index) := by
  refine (returns_request _ _).bind fun r t ht => ?_
  obtain ⟨htc, hr⟩ := ht
  cases r with
  | none =>
    obtain ⟨hcells, hopens⟩ := hr
    have hopens : ¬(os.answers h.calls index).opens = true := Bool.eq_false_iff.mp hopens
    refine Prog.returns_pure ⟨⟨hcells, by omega⟩, by omega, ?_⟩
    rw [queryDevice, if_neg hopens, Probe.val_pure]
  | some p =>
    obtain ⟨hopens, hwith⟩ := hr
    have hopens : (os.answers h.calls index).opens = true := hopens
    refine (returns_deviceIoControl hwith.self _).bind fun property u hu => ?_
    obtain ⟨rfl, hub, huc⟩ := hu
    have hp : u.cells p = some ⟨index, .none⟩ := (congrFun hub p).trans hwith.self
    refine (returns_deviceIoControl hp _).bind fun length v hv => ?_
    obtain ⟨rfl, hvb, hvc⟩ := hv
    rw [htc, describeDrive_eq, huc, htc]
    rw [queryDevice_val hopens, queryCapacity_answers]
    generalize (queryDescriptor (os.answers h.calls index) (.blank index)).val _ = dev'
    have hv : h.With p ⟨index, .none⟩ v := hwith.keeps (hvb.trans hub)
    cases hlength : os.lengthInfo (h.calls + 2) ⟨index, .none⟩ with
    | some length =>
      refine (returns_giveBack hv).bind fun _ w hw => ?_
      obtain ⟨hwb, hwc⟩ := hw
      exact Prog.returns_pure ⟨⟨hwb, by omega⟩, by omega, rfl⟩
    | none =>
      refine (returns_capacityForRead index dev').bind fun dev'' w hw => ?_
      obtain ⟨⟨hwb, hwc⟩, rfl⟩ := hw
      refine (returns_giveBack (hv.keeps hwb)).bind fun _ x hx => ?_
      obtain ⟨hxb, hxc⟩ := hx
      have hcalls : v.calls = h.calls + 3 := by omega
      rw [hcalls]
      exact Prog.returns_pure ⟨⟨hxb, by omega⟩, by omega, rfl⟩

end Calls

/-!
## All drives
-/

section Drives
variable {os : DriveOs} {h t : Store OpenDrive}

/-- The record of a drive for which the calls start with call `n`. -/
def DriveOs.device (os : DriveOs) (i n : Nat) : StorageDevice :=
  ((queryDevice (Int32.ofNat i) (os.answers n (Int32.ofNat i)) (.blank 0)).val
    (os.buffer n (Int32.ofNat i))).2.2

def DriveOs.exists? (os : DriveOs) (i n : Nat) : Bool := os.opens n ⟨Int32.ofNat i, .none⟩

/-- The records of the drives from drive `i` on, given the calls that each starts with. -/
def DriveOs.devices (os : DriveOs) : Nat → List Nat → List StorageDevice
  | _, [] => []
  | i, n :: ns => os.device i n :: os.devices (i + 1) ns

/-- The drives from drive `i` on that were found between two stores: each existed
when it was asked for, and the next one did not, or no round was left. -/
structure Found (os : DriveOs) (i rounds : Nat) (h t : Store OpenDrive) (ns : List Nat) :
    Prop where
  length_le : ns.length ≤ rounds
  between : ∀ n ∈ ns, Store.Between h t n
  ordered : ns.Pairwise (· < ·)
  existed : ∀ j n, ns[j]? = some n → os.exists? (i + j) n = true
  last : ns.length = rounds ∨
    ∃ n, Store.Between h t n ∧ (∀ k ∈ ns, k < n) ∧ os.exists? (i + ns.length) n = false

theorem Found.none (i : Nat) : Found os i 0 h t [] where
  length_le := Nat.le_refl 0
  between _ hn := absurd hn List.not_mem_nil
  ordered := List.Pairwise.nil
  existed _ _ hj := nomatch hj
  last := Or.inl rfl

theorem Found.missing {i rounds n : Nat} (hn : Store.Between h t n)
    (hexists : os.exists? i n = false) : Found os i rounds h t [] where
  length_le := Nat.zero_le _
  between _ hk := absurd hk List.not_mem_nil
  ordered := List.Pairwise.nil
  existed _ _ hj := nomatch hj
  last := Or.inr ⟨n, hn, fun _ hk => absurd hk List.not_mem_nil, hexists⟩

theorem Found.cons {i rounds : Nat} {u : Store OpenDrive} {ns : List Nat}
    (hexists : os.exists? i h.calls = true) (hcalls : h.calls < t.calls)
    (htu : t.calls ≤ u.calls) (hns : Found os (i + 1) rounds t u ns) :
    Found os i (rounds + 1) h u (h.calls :: ns) where
  length_le := Nat.succ_le_succ hns.length_le
  between n hn := by
    rcases List.mem_cons.mp hn with rfl | hn
    · exact ⟨Nat.le_refl _, by omega⟩
    · exact (hns.between n hn).widen (by omega) (Nat.le_refl _)
  ordered := by
    refine List.pairwise_cons.mpr ⟨fun n hn => ?_, hns.ordered⟩
    exact Nat.lt_of_lt_of_le hcalls (hns.between n hn).1
  existed j n hj := by
    cases j with
    | zero =>
      cases hj
      exact hexists
    | succ j =>
      have hnext := hns.existed j n hj
      rwa [Nat.add_assoc, Nat.add_comm 1 j] at hnext
  last := by
    rcases hns.last with hlen | ⟨n, hn, hlater, hmissing⟩
    · exact Or.inl (congrArg (· + 1) hlen)
    · refine Or.inr ⟨n, hn.widen (by omega) (Nat.le_refl _), fun k hk => ?_, ?_⟩
      · rcases List.mem_cons.mp hk with rfl | hk
        · exact Nat.lt_of_lt_of_le hcalls hn.1
        · exact hlater k hk
      · rwa [Nat.add_assoc, Nat.add_comm 1] at hmissing

theorem queryDevice_exists (i n : Nat) : ((queryDevice (Int32.ofNat i)
    (os.answers n (Int32.ofNat i)) (.blank 0)).val (os.buffer n (Int32.ofNat i))).2.1 = os.exists? i n := by
  cases hopens : os.exists? i n with
  | false =>
    have hopens : ¬(os.answers n (Int32.ofNat i)).opens = true := Bool.eq_false_iff.mp hopens
    rw [queryDevice, if_neg hopens, Probe.val_pure]
  | true => rw [queryDevice_val hopens]

theorem returns_storageLoop (rounds : Nat) {i : Nat}
    {out : Capped StorageDevice storageMaxDevices}
    (hroom : out.count + rounds ≤ storageMaxDevices) (h : Store OpenDrive) :
    (storageLoop rounds i out).Returns os h fun out' t =>
      h.Keeps t ∧ ∃ ns, Found os i rounds h t ns ∧ out'.items = out.items ++ os.devices i ns := by
  induction rounds generalizing i out h with
  | zero =>
    exact Prog.returns_pure ⟨.refl h, [], .none i, (List.append_nil _).symm⟩
  | succ rounds ih =>
    refine (returns_queryDeviceOnHandles _ _).bind fun r t ht => ?_
    obtain ⟨hkeeps, hcalls, rfl⟩ := ht
    rw [queryDevice_exists]
    refine Prog.returns_ite (fun hexists => ?_) fun hmissing => ?_
    · have hpush := Capped.push_count (c := out) (by omega) (os.device i h.calls)
      refine (@ih (i + 1) (out.push (os.device i h.calls)) (by omega) t).mono fun out' u hu => ?_
      obtain ⟨hkeeps', ns, hns, hitems⟩ := hu
      refine ⟨hkeeps.trans hkeeps', h.calls :: ns, hns.cons hexists hcalls hkeeps'.2, ?_⟩
      rw [hitems, Capped.push_items_of_room (by omega), List.append_assoc]
      rfl
    · refine Prog.returns_pure ⟨hkeeps, [], ?_, (List.append_nil _).symm⟩
      exact .missing ⟨Nat.le_refl _, hcalls⟩ (Bool.eq_false_iff.mpr hmissing)

/-- Whatever the system answers at each call, the enumeration comes to its end, has
closed its handles, and lists what the code makes of the answers for each drive. -/
theorem storageEnumerate_onHandles (os : DriveOs) (h : Store OpenDrive) :
    storageEnumerate.Returns os h fun r t =>
      h.Keeps t ∧ r.1 = true ∧ ∃ ns, Found os 0 storageMaxDevices h t ns ∧
        r.2.items = os.devices 0 ns := by
  have hroom : (Capped.empty : Capped StorageDevice storageMaxDevices).count +
      storageMaxDevices ≤ storageMaxDevices := by decide
  refine (returns_storageLoop storageMaxDevices hroom h).bind fun out t ht => ?_
  obtain ⟨hkeeps, ns, hns, hitems⟩ := ht
  exact Prog.returns_pure ⟨hkeeps, rfl, ns, hns, hitems⟩

end Drives

/-- A system whose drives stay what they are. -/
structure SteadyDrives where
  opens : OpenDrive → Bool
  reply : OpenDrive → Option (List UInt8)
  lengthInfo : OpenDrive → Option UInt64
  stack : Mem

namespace SteadyDrives
variable (os : SteadyDrives)

def host : DriveOs where
  opens _ := os.opens
  reply _ := os.reply
  lengthInfo _ := os.lengthInfo
  stack _ := os.stack

def exists? (i : Nat) : Bool := os.opens ⟨Int32.ofNat i, .none⟩

def device (i : Nat) : StorageDevice := os.host.device i 0

theorem devices_host (i : Nat) (ns : List Nat) :
    os.host.devices i ns = (List.range ns.length).map fun j => os.device (i + j) := by
  induction ns generalizing i with
  | nil => rfl
  | cons n ns ih =>
    rw [DriveOs.devices, ih, List.length_cons, List.range_succ_eq_map, List.map_cons, List.map_map]
    congr 1
    refine List.map_congr_left fun j _ => ?_
    exact congrArg os.device (by rw [Nat.succ_eq_add_one]; omega)

variable {os} {h t : Store OpenDrive}

/-- The drives that are found are those before the first one that does not exist. -/
theorem found_range {rounds : Nat} {ns : List Nat} (hns : Found os.host 0 rounds h t ns) :
    List.range ns.length = (List.range rounds).takeWhile os.exists? := by
  have hall : ∀ i ∈ List.range ns.length, os.exists? i = true := by
    intro i hi
    have hlt := List.mem_range.mp hi
    have hexisted := hns.existed i _ (List.getElem?_eq_getElem hlt)
    rwa [Nat.zero_add] at hexisted
  obtain ⟨rest, rfl⟩ := Nat.exists_eq_add_of_le hns.length_le
  rw [List.range_add, List.takeWhile_append_of_pos hall]
  rcases hns.last with hlen | ⟨n, _, _, hmissing⟩
  · obtain rfl : rest = 0 := by omega
    exact (List.append_nil _).symm
  · cases rest with
    | zero => exact (List.append_nil _).symm
    | succ rest =>
      have hfirst : ¬os.exists? (ns.length + 0) = true := by
        rw [Nat.zero_add] at hmissing
        exact Bool.eq_false_iff.mp hmissing
      rw [List.range_succ_eq_map, List.map_cons, List.takeWhile_cons_of_neg hfirst,
        List.append_nil]

/-- On such a system the list is that of the drives from the first on that exist
without a gap, 32 at most, each as its own answers describe it. -/
theorem storageEnumerate_steady (os : SteadyDrives) (h : Store OpenDrive) :
    storageEnumerate.Returns os.host h fun r t =>
      h.Keeps t ∧ r.1 = true ∧
        r.2.items = ((List.range storageMaxDevices).takeWhile os.exists?).map os.device := by
  have hroom : (Capped.empty : Capped StorageDevice storageMaxDevices).count +
      storageMaxDevices ≤ storageMaxDevices := by decide
  refine (returns_storageLoop storageMaxDevices hroom h).bind fun out t ht => ?_
  obtain ⟨hkeeps, ns, hns, hitems⟩ := ht
  refine Prog.returns_pure ⟨hkeeps, rfl, ?_⟩
  rw [hitems, Capped.items_empty, List.nil_append, devices_host, ← found_range hns]
  simp only [Nat.zero_add]

end SteadyDrives
end HwMon
