import HwMon.Lib.Heap

/-!
# The memory map of the UEFI application

`PrintMemoryMap` of `HwMonUefi.c`: the size of the map is asked for, a pool
buffer with room for two more descriptors is allocated, and the map is fetched
into it. The allocation itself may change the map.
-/

namespace HwMon
set_option autoImplicit false

/-- `EFI_MEMORY_DESCRIPTOR`. -/
structure EfiMemoryDescriptor where
  type : UInt32
  pad : UInt32
  physicalStart : UInt64
  virtualStart : UInt64
  numberOfPages : UInt64
  attributes : UInt64
  deriving DecidableEq, Repr

inductive EfiStatus where
  | success
  | bufferTooSmall
  | otherError
  deriving DecidableEq, Repr

/-- The firmware. Its answers may differ from call to call. A descriptor takes
`descSize` bytes, of which those behind the known fields are zero. -/
structure BootServices where
  descSize : Nat
  memoryMap : Nat → List EfiMemoryDescriptor
  fails : Nat → Bool
  grants : Nat → Nat → Bool
  descSize_ge : 40 ≤ descSize
  /-- With two more descriptors its size is still a `UINTN`. -/
  fits : ∀ n, ((memoryMap n).length + 2) * descSize < 2 ^ 64

abbrev UefiM (α : Type) := HeapM BootServices α

def EfiMemoryDescriptor.encode (descSize : Nat) (d : EfiMemoryDescriptor) : List UInt8 :=
  leBytes 4 d.type.toNat ++ (leBytes 4 d.pad.toNat ++ (leBytes 8 d.physicalStart.toNat ++
    (leBytes 8 d.virtualStart.toNat ++ (leBytes 8 d.numberOfPages.toNat ++
      (leBytes 8 d.attributes.toNat ++ List.replicate (descSize - 40) 0)))))

/-- The map at a call, as bytes. -/
def BootServices.bytes (bs : BootServices) (n : Nat) : List UInt8 :=
  (bs.memoryMap n).flatMap (EfiMemoryDescriptor.encode bs.descSize)

/-- The lines that are printed, with the values that are passed. -/
inductive MemoryMapLine where
  | probeFailed (status : EfiStatus)
  | allocationFailed
  | mapFailed (status : EfiStatus)
  | title
  | descriptorCount (entryCount : Nat)
  | usable (megabytes : UInt64)
  | blank
  deriving DecidableEq, Repr

/-- `GetMemoryMap` without a buffer: the status, `*MapSize` and `*DescSize`. A map
that is not too large for no buffer at all is an invalid parameter. -/
def probeMemoryMap : UefiM (EfiStatus × Nat × Nat) :=
  outside fun bs n =>
    if bs.fails n = true ∨ bs.bytes n = [] then (.otherError, 0, 0)
    else (.bufferTooSmall, (bs.bytes n).length, bs.descSize)

/-- `GetMemoryMap` with a buffer of `mapSize` bytes. -/
def getMemoryMap (map mapSize : Nat) : UefiM (EfiStatus × Nat × Nat) := do
  let fails ← outside fun bs n => (bs.fails n, bs.bytes n, bs.descSize)
  if fails.1 = true then pure (.otherError, mapSize, fails.2.2)
  else if fails.2.1.length > mapSize then pure (.bufferTooSmall, fails.2.1.length, fails.2.2)
  else do
    fill map fails.2.1
    pure (.success, fails.2.1.length, fails.2.2)

def efiBootServicesCode : UInt32 := 3

def efiBootServicesData : UInt32 := 4

def efiConventionalMemory : UInt32 := 7

def efiPageSize : UInt64 := 0x1000

/-- The `for` loop over the descriptors, with `left` of them left. -/
def usableLoop (descSize : Nat) : Nat → Nat → UInt64 → ByteProbe Empty UInt64
  | 0, _, usableBytes => pure usableBytes
  | left + 1, index, usableBytes => do
    let type ← read32 (index * descSize)
    if type = efiConventionalMemory ∨ type = efiBootServicesCode ∨ type = efiBootServicesData
    then do
      let numberOfPages ← read64 (index * descSize + 24)
      usableLoop descSize left (index + 1) (usableBytes + numberOfPages * efiPageSize)
    else usableLoop descSize left (index + 1) usableBytes

def printMemoryMap : UefiM (List MemoryMapLine) := do
  let probe ← probeMemoryMap
  if probe.1 ≠ .bufferTooSmall then pure [.probeFailed probe.1]
  else do
    let mapSize := probe.2.1 + 2 * probe.2.2
    let map ← malloc BootServices.grants mapSize
    match map with
    | none => pure [.allocationFailed]
    | some map => do
      let got ← getMemoryMap map mapSize
      if got.1 ≠ .success then do
        free map
        pure [.mapFailed got.1]
      else do
        let entryCount := got.2.1 / got.2.2
        let usableBytes ← consult map (usableLoop got.2.2 entryCount 0 0)
        free map
        pure [.title, .descriptorCount entryCount, .usable (usableBytes / (1024 * 1024)), .blank]

/-!
## What is printed
-/

def EfiMemoryDescriptor.isUsable (d : EfiMemoryDescriptor) : Bool :=
  decide (d.type = efiConventionalMemory ∨ d.type = efiBootServicesCode ∨
    d.type = efiBootServicesData)

/-- The bytes of the usable descriptors of a map, as far as 64 bits hold them. -/
def usableBytesOf (ds : List EfiMemoryDescriptor) : UInt64 :=
  UInt64.ofNat (((ds.filter EfiMemoryDescriptor.isUsable).map fun d =>
    d.numberOfPages.toNat * 4096).sum)

theorem usableBytesOf_cons (d : EfiMemoryDescriptor) (ds : List EfiMemoryDescriptor) :
    usableBytesOf (d :: ds) = if d.isUsable = true then
      d.numberOfPages * efiPageSize + usableBytesOf ds else usableBytesOf ds := by
  rw [usableBytesOf, usableBytesOf, List.filter_cons]
  split
  · rw [List.map_cons, List.sum_cons, UInt64.ofNat_add, UInt64.ofNat_mul, UInt64.ofNat_toNat]
    rfl
  · rfl

section Map
variable {descSize : Nat} (hsize : 40 ≤ descSize)
include hsize

theorem encode_descriptor_length (d : EfiMemoryDescriptor) :
    (d.encode descSize).length = descSize := by
  simp only [EfiMemoryDescriptor.encode, List.length_append, leBytes_length, List.length_replicate]
  omega

variable {ds : List EfiMemoryDescriptor}

/-- The two fields that the loop reads of descriptor `i`. -/
theorem descriptor_fields {i : Nat} {d : EfiMemoryDescriptor} (hd : ds[i]? = some d) :
    fieldDword (ds.flatMap (EfiMemoryDescriptor.encode descSize)) (i * descSize) = d.type ∧
    fieldQword (ds.flatMap (EfiMemoryDescriptor.encode descSize)) (i * descSize + 24) =
      d.numberOfPages := by
  obtain ⟨front, back, hsplit, hlen⟩ :=
    flatMap_encode_split (encode_descriptor_length hsize) hd
  rw [EfiMemoryDescriptor.encode] at hsplit
  simp only [List.append_assoc] at hsplit
  refine ⟨fieldDword_middle front _ hsplit hlen.symm, ?_⟩
  refine fieldQword_middle (front ++ (leBytes 4 d.type.toNat ++ (leBytes 4 d.pad.toNat ++
    (leBytes 8 d.physicalStart.toNat ++ leBytes 8 d.virtualStart.toNat))))
    (leBytes 8 d.attributes.toNat ++ (List.replicate (descSize - 40) 0 ++ back)) ?_ ?_
  · rw [hsplit]
    simp only [List.append_assoc]
  · simp only [List.length_append, leBytes_length, hlen]

theorem descriptor_inside {i : Nat} (hi : i < ds.length) :
    i * descSize + 40 ≤ (ds.flatMap (EfiMemoryDescriptor.encode descSize)).length := by
  have hnext : (i + 1) * descSize ≤ ds.length * descSize := Nat.mul_le_mul_right _ hi
  rw [length_flatMap_encode (encode_descriptor_length hsize)]
  rw [Nat.succ_mul] at hnext
  omega

theorem usableLoop_val (left index : Nat) (usableBytes : UInt64)
    (hleft : index + left = ds.length) :
    (usableLoop descSize left index usableBytes).val
      (memOf (ds.flatMap (EfiMemoryDescriptor.encode descSize))) =
        usableBytes + usableBytesOf (ds.drop index) := by
  induction left generalizing index usableBytes with
  | zero =>
    rw [List.drop_of_length_le (by omega)]
    exact (UInt64.add_zero _).symm
  | succ left ih =>
    have hi : index < ds.length := by omega
    have hinside := descriptor_inside hsize hi
    obtain ⟨htype, hpages⟩ := descriptor_fields hsize (List.getElem?_eq_getElem hi)
    have hread32 := segment_memOf (ds.flatMap (EfiMemoryDescriptor.encode descSize))
      (index * descSize) 4 (by omega)
    have hread64 := segment_memOf (ds.flatMap (EfiMemoryDescriptor.encode descSize))
      (index * descSize + 24) 8 (by omega)
    rw [fieldDword, fieldBytes, ← hread32] at htype
    rw [fieldQword, fieldBytes, ← hread64] at hpages
    simp only [usableLoop, ↓Probe.val_bind, ↓Probe.val_ite, read32_val, read64_val, htype, hpages]
    rw [List.drop_eq_getElem_cons hi, usableBytesOf_cons]
    by_cases husable : ds[index].isUsable = true
    · rw [if_pos (of_decide_eq_true husable), if_pos husable, ih _ _ (by omega), UInt64.add_assoc]
    · rw [if_neg fun h => husable (decide_eq_true h), if_neg husable, ih _ _ (by omega)]

theorem usableLoop_staysIn (left index : Nat) (usableBytes : UInt64)
    (hleft : index + left = ds.length) :
    StaysIn (ds.flatMap (EfiMemoryDescriptor.encode descSize))
      (usableLoop descSize left index usableBytes) := by
  induction left generalizing index usableBytes with
  | zero => exact Probe.always_pure _
  | succ left ih =>
    have hi : index < ds.length := by omega
    have hinside := descriptor_inside hsize hi
    simp only [StaysIn, usableLoop, Probe.always_bind]
    refine ⟨always_read32 fun i _ hi => decide_eq_true (by omega),
      Probe.always_ite (fun _ => ?_) fun _ => ih _ _ (by omega)⟩
    rw [Probe.always_bind]
    exact ⟨always_read64 fun i _ hi => decide_eq_true (by omega), ih _ _ (by omega)⟩

end Map

/-- Why no map is shown: there was none, or the firmware or the pool refused, or the
map grew by more than two descriptors between the calls. -/
inductive MapRefused (bs : BootServices) (h t : Heap) : Prop where
  | missing {n : Nat} (hn : Store.Between h t n) (hempty : bs.memoryMap n = [])
  | failed {n : Nat} (hn : Store.Between h t n) (hfails : bs.fails n = true)
  | refused {n size : Nat} (hn : Store.Between h t n) (hrefused : bs.grants n size = false)
  | grown {n k : Nat} (hn : Store.Between h t n) (hk : Store.Between h t k)
      (hlt : (bs.memoryMap n).length + 2 < (bs.memoryMap k).length)

/-- What is printed: the map of one call, or one line for a reason. -/
def MapPrinted (bs : BootServices) (h t : Heap) (lines : List MemoryMapLine) : Prop :=
  (∃ n, Store.Between h t n ∧ lines = [.title, .descriptorCount (bs.memoryMap n).length,
    .usable (usableBytesOf (bs.memoryMap n) / (1024 * 1024)), .blank]) ∨
  MapRefused bs h t ∧ lines ∈ [[.probeFailed .otherError], [.allocationFailed],
    [.mapFailed .otherError], [.mapFailed .bufferTooSmall]]

section Run
variable {bs : BootServices} {h t : Heap}

theorem bytes_length (n : Nat) :
    (bs.bytes n).length = (bs.memoryMap n).length * bs.descSize :=
  length_flatMap_encode (encode_descriptor_length bs.descSize_ge) _

theorem memoryMap_eq_nil {n : Nat} (hn : bs.bytes n = []) : bs.memoryMap n = [] := by
  have hlen := congrArg List.length hn
  have hsize := bs.descSize_ge
  rw [bytes_length, List.length_nil] at hlen
  rcases Nat.mul_eq_zero.mp hlen with hzero | hzero
  · exact List.length_eq_zero_iff.mp hzero
  · omega

/-- What the probe answers. -/
def Probed (bs : BootServices) (h : Heap) (r : EfiStatus × Nat × Nat) (t : Heap) : Prop :=
  t.cells = h.cells ∧ t.calls = h.calls + 1 ∧
    ((r.1 = .otherError ∧ (bs.fails h.calls = true ∨ bs.memoryMap h.calls = [])) ∨
      r = (.bufferTooSmall, (bs.bytes h.calls).length, bs.descSize))

theorem returns_probeMemoryMap : probeMemoryMap.Returns bs h (Probed bs h) := by
  refine (returns_outside _).mono fun r t ht => ?_
  obtain ⟨rfl, hcells, hcalls⟩ := ht
  refine ⟨hcells, hcalls, ?_⟩
  split
  · rename_i hnone
    exact Or.inl ⟨rfl, hnone.imp_right memoryMap_eq_nil⟩
  · exact Or.inr rfl

/-- What the second call answers, and what the buffer then holds. -/
inductive GotMap (bs : BootServices) (n mapSize : Nat) (bytes : List UInt8) :
    EfiStatus × Nat × Nat → Prop where
  | failed {size : Nat × Nat} (hfails : bs.fails n = true) :
      GotMap bs n mapSize bytes (.otherError, size)
  | grown {size : Nat × Nat} (hlt : mapSize < (bs.bytes n).length) :
      GotMap bs n mapSize bytes (.bufferTooSmall, size)
  | success (hbytes : bytes = bs.bytes n) :
      GotMap bs n mapSize bytes (.success, (bs.bytes n).length, bs.descSize)

theorem returns_getMemoryMap {map mapSize : Nat} (ht : h.With map (.raw mapSize) t) :
    (getMemoryMap map mapSize).Returns bs t fun r u =>
      u.calls = t.calls + 1 ∧ ∃ b, h.With map b u ∧ GotMap bs t.calls mapSize b.bytes r := by
  refine (returns_outside _).bind fun got u hu => ?_
  obtain ⟨rfl, hcells, hcalls⟩ := hu
  refine Prog.returns_ite (fun hfails => ?_) fun _ => Prog.returns_ite (fun hlt => ?_) fun hfit => ?_
  · exact Prog.returns_pure ⟨hcalls, _, ht.keeps hcells, .failed hfails⟩
  · exact Prog.returns_pure ⟨hcalls, _, ht.keeps hcells, .grown hlt⟩
  · have hfit := Nat.le_of_not_gt hfit
    refine (returns_fill (ht.keeps hcells) hfit).bind fun _ v hv => ?_
    obtain ⟨hwith, hvc⟩ := hv
    exact Prog.returns_pure ⟨by omega, _, hwith, .success (Block.write_bytes hfit)⟩

theorem grown_of_bytes {n k : Nat}
    (hlt : (bs.bytes n).length + 2 * bs.descSize < (bs.bytes k).length) :
    (bs.memoryMap n).length + 2 < (bs.memoryMap k).length := by
  rw [bytes_length, bytes_length, ← Nat.add_mul] at hlt
  exact Nat.lt_of_mul_lt_mul_right hlt

theorem entryCount_eq (n : Nat) : (bs.bytes n).length / bs.descSize = (bs.memoryMap n).length := by
  have hsize := bs.descSize_ge
  rw [bytes_length, Nat.mul_div_cancel _ (by omega)]

end Run
end HwMon
