import HwMon.Lib.Capped
import HwMon.Lib.Text

/-!
# The resources of a PCI device

`collect_resources` of `pci_enum_windows.c`. The configuration manager hands out
the descriptors one after the other and then fails; a run is logged as the list
of the calls to it. The sizes of its structures are parameters.
-/

namespace HwMon
set_option autoImplicit false

def pciMaxResources : Nat := 12

structure PciResource where
  isMemory : Bool := false
  isPrefetchable : Bool := false
  base : UInt64 := 0
  length : UInt64 := 0
  deriving DecidableEq, Repr

/-- A device without its BAR values, which stay zero. -/
structure PciDevice where
  bus : UInt8 := 0
  device : UInt8 := 0
  function : UInt8 := 0
  vendorId : UInt16 := 0
  deviceId : UInt16 := 0
  classInfoAvailable : Bool := false
  classCode : UInt8 := 0
  subclass : UInt8 := 0
  progIf : UInt8 := 0
  revision : UInt8 := 0
  resources : Capped PciResource pciMaxResources := .empty
  interruptAvailable : Bool := false
  interruptLine : UInt32 := 0
  description : CStr 128 := .empty
  deriving DecidableEq

def PciDevice.resourceCount (dev : PciDevice) : Nat := dev.resources.count

/-- Handles of descriptors and of logical configurations, which the code casts to
one another. -/
abbrev CmHandle := UInt64

inductive ResType where
  | mem
  | io
  | irq
  | other
  deriving DecidableEq, Repr

/-- `sizeof` the resource structures of the configuration manager. -/
structure ResSizes where
  memResource : Nat
  ioResource : Nat
  irqResource : Nat

/-- The fields of a data block under each of the structures it is cast to. -/
structure ResData where
  mdPrefetchAllowed : Bool := false
  mdAllocBase : UInt64 := 0
  mdAllocEnd : UInt64 := 0
  iodAllocBase : UInt64 := 0
  iodAllocEnd : UInt64 := 0
  irqdAllocNum : UInt32 := 0
  deriving DecidableEq, Repr

/-- A descriptor and the outcomes of the calls for its data. -/
structure ResDes where
  handle : CmHandle
  resId : ResType
  /-- `CM_Get_Res_Des_Data_Size`; none if it fails. -/
  dataSize : Option UInt32
  allocated : Bool
  /-- `CM_Get_Res_Des_Data`; none if it fails. -/
  data : Option ResData
  deriving DecidableEq, Repr

inductive CmCall where
  | getFirstLogConf (result : Option CmHandle)
  | getNextResDes (prev : CmHandle) (result : Option CmHandle)
  | getResDesDataSize (resDes : CmHandle)
  | getResDesData (resDes : CmHandle)
  | freeResDesHandle (resDes : CmHandle)
  | freeLogConfHandle (logConf : CmHandle)
  deriving DecidableEq, Repr

/-- `last - base + 1`, and zero for a range that ends before it starts. -/
def rangeLength (base last : UInt64) : UInt64 := if last ≥ base then last - base + 1 else 0

def ResData.memory (data : ResData) : PciResource where
  isMemory := true
  isPrefetchable := data.mdPrefetchAllowed
  base := data.mdAllocBase
  length := rangeLength data.mdAllocBase data.mdAllocEnd

def ResData.io (data : ResData) : PciResource where
  isMemory := false
  isPrefetchable := false
  base := data.iodAllocBase
  length := rangeLength data.iodAllocBase data.iodAllocEnd

def recordResource (sizes : ResSizes) (resId : ResType) (dataSize : UInt32) (data : ResData)
    (dev : PciDevice) : PciDevice :=
  if resId = .mem ∧ sizes.memResource ≤ dataSize.toNat then
    { dev with resources := dev.resources.push data.memory }
  else if resId = .io ∧ sizes.ioResource ≤ dataSize.toNat then
    { dev with resources := dev.resources.push data.io }
  else if resId = .irq ∧ sizes.irqResource ≤ dataSize.toNat then
    { dev with interruptAvailable := true, interruptLine := data.irqdAllocNum }
  else dev

/-- The size of a buffer for the data, if it is known, positive and allocated. -/
def ResDes.buffer (d : ResDes) : Option UInt32 :=
  d.dataSize.filter fun n => decide (n > 0) && d.allocated

/-- The body of the loop for a descriptor that was handed out. -/
def ResDes.read (sizes : ResSizes) (d : ResDes) (dev : PciDevice) : PciDevice × List CmCall :=
  match d.buffer with
  | none => (dev, [.getResDesDataSize d.handle])
  | some dataSize =>
    (match d.data with
      | none => dev
      | some data => recordResource sizes d.resId dataSize data dev,
     [.getResDesDataSize d.handle, .getResDesData d.handle])

/-- `if (prevResDes != (RES_DES)logConf) CM_Free_Res_Des_Handle(prevResDes);` -/
def freePrev (logConf prev : CmHandle) : List CmCall :=
  if prev ≠ logConf then [.freeResDesHandle prev] else []

/-- The `while` loop of `collect_resources`, with its last `prevResDes` and its calls. -/
def resourceLoop (sizes : ResSizes) (logConf : CmHandle) :
    CmHandle → PciDevice → List ResDes → PciDevice × CmHandle × List CmCall
  | prev, dev, [] =>
    if dev.resourceCount < pciMaxResources then
      (dev, prev, .getNextResDes prev none :: freePrev logConf prev)
    else (dev, prev, [])
  | prev, dev, d :: descs =>
    if dev.resourceCount < pciMaxResources then
      let body := d.read sizes dev
      let loop := resourceLoop sizes logConf d.handle body.1 descs
      (loop.1, loop.2.1,
        .getNextResDes prev (some d.handle) :: freePrev logConf prev ++ body.2 ++ loop.2.2)
    else (dev, prev, [])

/-- `collect_resources`, given what `CM_Get_First_Log_Conf` and the calls of
`CM_Get_Next_Res_Des` hand out. -/
def collectResources (sizes : ResSizes) (logConf : Option CmHandle) (descs : List ResDes)
    (dev : PciDevice) : PciDevice × List CmCall :=
  match logConf with
  | none => (dev, [.getFirstLogConf none])
  | some logConf =>
    let loop := resourceLoop sizes logConf logConf dev descs
    (loop.1, .getFirstLogConf (some logConf) :: loop.2.2 ++ freePrev logConf loop.2.1 ++
      [.freeLogConfHandle logConf])

/-- The descriptor takes a place in the array. -/
def ResDes.recorded (sizes : ResSizes) (d : ResDes) : Bool :=
  match d.buffer, d.data with
  | some n, some _ => (d.resId = .mem ∧ sizes.memResource ≤ n.toNat) ∨
      (d.resId = .io ∧ sizes.ioResource ≤ n.toNat)
  | _, _ => false

section Count
variable {sizes : ResSizes} {dev : PciDevice}

theorem recordResource_count (hroom : dev.resourceCount < pciMaxResources) (resId : ResType)
    (n : UInt32) (data : ResData) : (recordResource sizes resId n data dev).resourceCount =
      if (resId = .mem ∧ sizes.memResource ≤ n.toNat) ∨ (resId = .io ∧ sizes.ioResource ≤ n.toNat)
        then dev.resourceCount + 1 else dev.resourceCount := by
  rw [recordResource]
  split
  · rename_i hmem
    rw [if_pos (Or.inl hmem)]
    exact Capped.push_count hroom _
  split
  · rename_i hio
    rw [if_pos (Or.inr hio)]
    exact Capped.push_count hroom _
  · rename_i hmem hio
    rw [if_neg (not_or.mpr ⟨hmem, hio⟩)]
    split
    · rfl
    · rfl

theorem ResDes.read_count (hroom : dev.resourceCount < pciMaxResources) (d : ResDes) :
    (d.read sizes dev).1.resourceCount = dev.resourceCount + (d.recorded sizes).toNat := by
  rw [ResDes.read, ResDes.recorded]
  cases d.buffer with
  | none => rfl
  | some n =>
    cases d.data with
    | none => rfl
    | some data =>
      refine (recordResource_count hroom d.resId n data).trans ?_
      split
      · rename_i h
        simp [h]
      · rename_i h
        simp [h]

/-- The descriptor list fills the array, so the loop stops at the cap. -/
def CapReached (sizes : ResSizes) (dev : PciDevice) (descs : List ResDes) : Prop :=
  pciMaxResources ≤ dev.resourceCount + descs.countP (ResDes.recorded sizes)

theorem capReached_cons (hroom : dev.resourceCount < pciMaxResources) (d : ResDes)
    (descs : List ResDes) :
    CapReached sizes dev (d :: descs) ↔ CapReached sizes (d.read sizes dev).1 descs := by
  rw [CapReached, CapReached, ResDes.read_count hroom, List.countP_cons]
  cases d.recorded sizes with
  | false => exact Iff.rfl
  | true =>
    have hone : (if true = true then 1 else 0) = 1 := rfl
    have hnat : true.toNat = 1 := rfl
    omega

end Count
end HwMon
