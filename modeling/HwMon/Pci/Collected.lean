import HwMon.Lib.Counted
import HwMon.Lib.LastWrite
import HwMon.Pci.Resources
import Mathlib.Data.List.Forall2

/-!
# What a device keeps of its descriptors

The loop of `collect_resources` ends at the twelfth range, so an interrupt behind
it is lost. The length of a range is computed in 64 bits, which do not hold the
length of the whole address space.
-/

namespace HwMon
set_option autoImplicit false

/-- A memory or port range with its first and last address. -/
structure PciRange where
  isMemory : Bool
  isPrefetchable : Bool
  first : UInt64
  last : UInt64
  deriving DecidableEq, Repr

def PciRange.resource (r : PciRange) : PciResource :=
  { isMemory := r.isMemory, isPrefetchable := r.isPrefetchable, base := r.first,
    length := rangeLength r.first r.last }

def PciRange.addresses (r : PciRange) : Nat :=
  if r.first ≤ r.last then r.last.toNat - r.first.toNat + 1 else 0

/-- The range is the whole 64-bit address space. -/
def PciRange.Whole (r : PciRange) : Prop := r.first = 0 ∧ r.last = 0xFFFFFFFFFFFFFFFF

instance (r : PciRange) : Decidable r.Whole := inferInstanceAs (Decidable (_ ∧ _))

/-- The resource records the range, with its length as a number. -/
structure PciRange.Recorded (r : PciRange) (res : PciResource) : Prop where
  isMemory : res.isMemory = r.isMemory
  isPrefetchable : res.isPrefetchable = r.isPrefetchable
  base : res.base = r.first
  length : res.length.toNat = r.addresses

section Descriptors
variable (sizes : ResSizes) (d : ResDes)

/-- The data of a descriptor that can be read, with their size. -/
def ResDes.readable : Option (UInt32 × ResData) :=
  d.buffer.bind fun n => d.data.map fun data => (n, data)

def ResDes.range : Option PciRange :=
  d.readable.bind fun r =>
    if d.resId = .mem ∧ sizes.memResource ≤ r.1.toNat then
      some ⟨true, r.2.mdPrefetchAllowed, r.2.mdAllocBase, r.2.mdAllocEnd⟩
    else if d.resId = .io ∧ sizes.ioResource ≤ r.1.toNat then
      some ⟨false, false, r.2.iodAllocBase, r.2.iodAllocEnd⟩
    else none

def ResDes.interrupt : Option UInt32 :=
  d.readable.bind fun r =>
    if d.resId = .irq ∧ sizes.irqResource ≤ r.1.toNat then some r.2.irqdAllocNum else none

end Descriptors

/-- The device as `pci_enumerate` hands it over: no resource yet. -/
def PciDevice.unassigned (dev : PciDevice) : PciDevice :=
  { dev with resources := .empty, interruptAvailable := false, interruptLine := 0 }

/-- The first twelve ranges with their lengths and the last interrupt are kept, and
nothing else of the device changes. -/
structure ResourcesComplete (sizes : ResSizes) (descs : List ResDes) (dev result : PciDevice) :
    Prop where
  ranges : List.Forall₂ PciRange.Recorded
    ((descs.filterMap (ResDes.range sizes)).take pciMaxResources) result.resources.items
  available : result.interruptAvailable = true ↔ ∃ d ∈ descs, (d.interrupt sizes).isSome
  line : ∀ n, (descs.filterMap (ResDes.interrupt sizes)).getLast? = some n →
    result.interruptLine = n
  others : result.unassigned = dev.unassigned

section Lengths
variable {r : PciRange}

theorem rangeLength_toNat (h : ¬r.Whole) :
    (rangeLength r.first r.last).toNat = r.addresses := by
  rw [rangeLength, PciRange.addresses]
  split
  · rename_i hle
    have hnat := UInt64.le_iff_toNat_le.mp hle
    have hlast := r.last.toNat_lt
    have hshort : ¬(r.first.toNat = 0 ∧ r.last.toNat = 2 ^ 64 - 1) := fun hends =>
      h ⟨UInt64.toNat_inj.mp hends.1, UInt64.toNat_inj.mp hends.2⟩
    have hone : (1 : UInt64).toNat = 1 := rfl
    rw [UInt64.toNat_add, UInt64.toNat_sub_of_le _ _ hle, hone, Nat.mod_eq_of_lt (by omega)]
  · rfl

theorem rangeLength_whole (h : r.Whole) : (rangeLength r.first r.last).toNat ≠ r.addresses := by
  obtain ⟨hfirst, hlast⟩ := h
  rw [PciRange.addresses, hfirst, hlast]
  decide

theorem recorded_resource_iff (r : PciRange) : r.Recorded r.resource ↔ ¬r.Whole := by
  constructor
  · intro h hwhole
    exact rangeLength_whole hwhole h.length
  · intro h
    exact ⟨rfl, rfl, rfl, rangeLength_toNat h⟩

end Lengths

section Reads
variable {sizes : ResSizes}

theorem recorded_eq (d : ResDes) : d.recorded sizes = (d.range sizes).isSome := by
  rw [ResDes.recorded, ResDes.range, ResDes.readable]
  cases d.buffer with
  | none => rfl
  | some n =>
    cases d.data with
    | none => rfl
    | some data =>
      simp only [Option.bind_some, Option.map_some]
      by_cases hmem : d.resId = .mem ∧ sizes.memResource ≤ n.toNat
      · simp [hmem]
      · by_cases hio : d.resId = .io ∧ sizes.ioResource ≤ n.toNat
        · simp [hio]
        · simp [hmem, hio]

/-- What the loop does with a descriptor, in terms of its range and its interrupt. -/
def ResDes.apply (sizes : ResSizes) (dev : PciDevice) (d : ResDes) : PciDevice :=
  { dev with
    resources := Capped.pushAll (fun d => (d.range sizes).map PciRange.resource) dev.resources [d]
    interruptAvailable := ((d.interrupt sizes).map fun _ => true).getD dev.interruptAvailable
    interruptLine := (d.interrupt sizes).getD dev.interruptLine }

theorem read_eq_apply (dev : PciDevice) (d : ResDes) :
    (d.read sizes dev).1 = d.apply sizes dev := by
  rw [ResDes.read, ResDes.apply, Capped.pushAll_singleton]
  cases hbuffer : d.buffer with
  | none =>
    have hnone : d.readable = none := by rw [ResDes.readable, hbuffer]; rfl
    rw [ResDes.range, ResDes.interrupt, hnone]
    rfl
  | some n =>
    cases hdata : d.data with
    | none =>
      have hnone : d.readable = none := by rw [ResDes.readable, hbuffer, hdata]; rfl
      rw [ResDes.range, ResDes.interrupt, hnone]
      rfl
    | some data =>
      have hsome : d.readable = some (n, data) := by rw [ResDes.readable, hbuffer, hdata]; rfl
      simp only [ResDes.range, ResDes.interrupt, hsome, Option.bind_some, recordResource]
      cases d.resId with
      | mem =>
        simp only [true_and, reduceCtorEq, false_and, if_false]
        split
        · rfl
        · rfl
      | io =>
        simp only [true_and, reduceCtorEq, false_and, if_false]
        split
        · rfl
        · rfl
      | irq =>
        simp only [true_and, reduceCtorEq, false_and, if_false]
        split
        · rfl
        · rfl
      | other => rfl

theorem resourceLoop_eq (logConf prev : CmHandle) (dev : PciDevice) (descs : List ResDes) :
    (resourceLoop sizes logConf prev dev descs).1 =
      (upTo (ResDes.recorded sizes) (pciMaxResources - dev.resourceCount) descs).foldl
        (ResDes.apply sizes) dev := by
  induction descs generalizing prev dev with
  | nil =>
    rw [upTo_nil, resourceLoop]
    split
    · rfl
    · rfl
  | cons d descs ih =>
    rw [resourceLoop]
    split
    · rename_i hroom
      obtain ⟨n, hn⟩ : ∃ n, pciMaxResources - dev.resourceCount = n + 1 :=
        ⟨pciMaxResources - dev.resourceCount - 1, by omega⟩
      have hnext : pciMaxResources - (d.apply sizes dev).resourceCount =
          if d.recorded sizes = true then n else n + 1 := by
        have hcount : (d.read sizes dev).1.resourceCount =
            dev.resourceCount + (d.recorded sizes).toNat := ResDes.read_count hroom d
        rw [read_eq_apply] at hcount
        cases hrec : d.recorded sizes with
        | false =>
          rw [hrec] at hcount
          exact (congrArg (pciMaxResources - ·) hcount).trans hn
        | true =>
          rw [hrec, Bool.toNat_true] at hcount
          rw [if_pos rfl, hcount]
          omega
      rw [hn, upTo, List.foldl_cons, ← hnext]
      refine (ih d.handle (d.read sizes dev).1).trans ?_
      rw [read_eq_apply]
    · rename_i hfull
      rw [Nat.sub_eq_zero_of_le (Nat.not_lt.mp hfull), upTo_zero]
      rfl

end Reads

section Folds
variable {sizes : ResSizes} (dev : PciDevice) (descs : List ResDes)

theorem foldl_apply_resources : (descs.foldl (ResDes.apply sizes) dev).resources =
    Capped.pushAll (fun d => (d.range sizes).map PciRange.resource) dev.resources descs := by
  rw [← Capped.foldl_pushAll]
  exact foldl_part _ PciDevice.resources _ (I := fun _ => True) (fun _ _ _ => trivial)
    (fun _ _ _ => rfl) descs trivial

theorem foldl_apply_available : (descs.foldl (ResDes.apply sizes) dev).interruptAvailable =
    lastWrite (fun d => (d.interrupt sizes).map fun _ => true) dev.interruptAvailable descs := by
  rw [← foldl_lastWrite]
  exact foldl_part _ PciDevice.interruptAvailable _ (I := fun _ => True) (fun _ _ _ => trivial)
    (fun _ _ _ => rfl) descs trivial

theorem foldl_apply_line : (descs.foldl (ResDes.apply sizes) dev).interruptLine =
    lastWrite (ResDes.interrupt sizes) dev.interruptLine descs := by
  rw [← foldl_lastWrite]
  exact foldl_part _ PciDevice.interruptLine _ (I := fun _ => True) (fun _ _ _ => trivial)
    (fun _ _ _ => rfl) descs trivial

theorem foldl_apply_unassigned :
    (descs.foldl (ResDes.apply sizes) dev).unassigned = dev.unassigned := by
  induction descs generalizing dev with
  | nil => rfl
  | cons d descs ih => exact ih (d.apply sizes dev)

end Folds

section Complete
variable (sizes : ResSizes) (logConf : CmHandle) (descs : List ResDes) (dev : PciDevice)

/-- The descriptors that the loop sees. -/
def seenDescriptors : List ResDes := upTo (ResDes.recorded sizes) pciMaxResources descs

theorem collectResources_unassigned :
    (collectResources sizes (some logConf) descs dev.unassigned).1 =
      (seenDescriptors sizes descs).foldl (ResDes.apply sizes) dev.unassigned :=
  resourceLoop_eq logConf logConf dev.unassigned descs

theorem collected_items :
    (collectResources sizes (some logConf) descs dev.unassigned).1.resources.items =
      ((descs.filterMap (ResDes.range sizes)).take pciMaxResources).map PciRange.resource := by
  have hranges : (seenDescriptors sizes descs).filterMap (ResDes.range sizes) =
      (descs.filterMap (ResDes.range sizes)).take pciMaxResources :=
    filterMap_upTo recorded_eq pciMaxResources descs
  rw [collectResources_unassigned, foldl_apply_resources, Capped.pushAll_items,
    ← List.map_filterMap, hranges]
  refine (List.take_of_length_le ?_).trans (List.nil_append _)
  rw [PciDevice.unassigned, Capped.items_empty, List.nil_append, List.length_map]
  exact List.length_take_le pciMaxResources _

/-- The interrupt that the loop sees last. -/
def seenInterrupt : Option UInt32 :=
  ((seenDescriptors sizes descs).filterMap (ResDes.interrupt sizes)).getLast?

theorem collected_available :
    (collectResources sizes (some logConf) descs dev.unassigned).1.interruptAvailable =
      (seenInterrupt sizes descs).isSome := by
  rw [collectResources_unassigned, foldl_apply_available, lastWrite, ← List.map_filterMap,
    List.getLast?_map, seenInterrupt]
  cases ((seenDescriptors sizes descs).filterMap (ResDes.interrupt sizes)).getLast? with
  | none => rfl
  | some n => rfl

theorem collected_line :
    (collectResources sizes (some logConf) descs dev.unassigned).1.interruptLine =
      (seenInterrupt sizes descs).getD 0 := by
  rw [collectResources_unassigned, foldl_apply_line]
  rfl

theorem exists_interrupt_iff : (∃ d ∈ descs, (d.interrupt sizes).isSome) ↔
    (descs.filterMap (ResDes.interrupt sizes)).getLast?.isSome = true := by
  rw [List.getLast?_isSome, ne_eq, List.filterMap_eq_nil_iff]
  constructor
  · intro h hall
    obtain ⟨d, hd, hsome⟩ := h
    rw [hall d hd] at hsome
    cases hsome
  · intro h
    by_contra hnone
    refine h fun d hd => ?_
    by_contra hsome
    exact hnone ⟨d, hd, Option.isSome_iff_ne_none.mpr hsome⟩

/-- Nothing is lost just when no range kept is the whole address space and the interrupts
behind the twelfth range make no difference. -/
theorem resourcesComplete_iff :
    ResourcesComplete sizes descs dev
        (collectResources sizes (some logConf) descs dev.unassigned).1 ↔
      (∀ r ∈ (descs.filterMap (ResDes.range sizes)).take pciMaxResources, ¬r.Whole) ∧
        seenInterrupt sizes descs = (descs.filterMap (ResDes.interrupt sizes)).getLast? := by
  have hranges : List.Forall₂ PciRange.Recorded
      ((descs.filterMap (ResDes.range sizes)).take pciMaxResources)
      (collectResources sizes (some logConf) descs dev.unassigned).1.resources.items ↔
        ∀ r ∈ (descs.filterMap (ResDes.range sizes)).take pciMaxResources, ¬r.Whole := by
    rw [collected_items, List.forall₂_map_right_iff, List.forall₂_same]
    exact forall₂_congr fun r _ => recorded_resource_iff r
  constructor
  · intro h
    refine ⟨hranges.mp h.ranges, ?_⟩
    have havailable := h.available
    have hline := h.line
    rw [collected_available, exists_interrupt_iff] at havailable
    cases hall : (descs.filterMap (ResDes.interrupt sizes)).getLast? with
    | none =>
      rw [hall] at havailable
      exact Option.not_isSome_iff_eq_none.mp fun hsome => Bool.false_ne_true (havailable.mp hsome)
    | some n =>
      obtain ⟨k, hk⟩ := Option.isSome_iff_exists.mp (havailable.mpr (by rw [hall]; rfl))
      have heq := hline n hall
      rw [collected_line, hk, Option.getD_some] at heq
      rw [hk, heq]
  · intro h
    obtain ⟨hwhole, hlast⟩ := h
    refine ⟨hranges.mpr hwhole, ?_, ?_, ?_⟩
    · rw [collected_available, exists_interrupt_iff, hlast]
    · intro n hn
      rw [collected_line, hlast, hn, Option.getD_some]
    · rw [collectResources_unassigned, foldl_apply_unassigned]
      rfl

end Complete

/-- Twelve memory ranges and then an interrupt, all readable. -/
def lateInterrupt : List ResDes :=
  List.replicate 12 ⟨2, .mem, some 40, true, some {}⟩ ++
    [⟨3, .irq, some 40, true, some { irqdAllocNum := 9 }⟩]

/-- An interrupt behind twelve ranges is lost. -/
theorem lateInterrupt_lost : ¬ResourcesComplete ⟨40, 40, 40⟩ lateInterrupt {}
    (collectResources ⟨40, 40, 40⟩ (some 1) lateInterrupt (PciDevice.unassigned {})).1 := by
  intro h
  have havailable := h.available.mpr ⟨⟨3, .irq, some 40, true, some { irqdAllocNum := 9 }⟩,
    by decide, by decide⟩
  revert havailable
  decide

end HwMon
