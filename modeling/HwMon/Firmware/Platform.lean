import HwMon.Lib.Heap
import HwMon.Memory.MemoryInfo

/-!
# Firmware tables from the operating system

The functions of `firmware_table.c`. The size of a table is asked for first, a
block of that size is allocated, and the table is asked for again with the
block. Between two calls the system may change the table. A `DWORD` is a `Nat`
here: sizes are only compared and halved, never added.
-/

namespace HwMon
set_option autoImplicit false

/-- The system under the program. Its answers may differ from call to call. -/
structure HostOs where
  grants : Nat → Nat → Bool
  /-- The table of a provider, empty if there is none. -/
  table : Nat → UInt32 → UInt32 → List UInt8
  /-- The signatures of the tables of a provider, packed. -/
  tables : Nat → UInt32 → List UInt8
  memoryStatus : Nat → Option MemoryStatusEx

abbrev FirmwareM (α : Type) := HeapM HostOs α

/-- What one of the two system functions delivers at a call. -/
abbrev FirmwareContent := HostOs → Nat → List UInt8

/-- `'RSMB'`. -/
def smbiosProvider : UInt32 := 0x52534D42

/-- `'ACPI'`. -/
def acpiProvider : UInt32 := 0x41435049

/-- The system function called without a buffer. -/
def queryNeeded (content : FirmwareContent) : FirmwareM Nat :=
  outside fun os n => (content os n).length

/-- The system function called with a buffer: it writes only what fits into it. -/
def queryInto (content : FirmwareContent) (buf needed : Nat) : FirmwareM Nat := do
  let bytes ← outside content
  if bytes.length ≤ needed then do
    fill buf bytes
    pure bytes.length
  else pure bytes.length

/-- The part that the three functions of the file share: block and size, or nothing. -/
def fetchTwice (content : FirmwareContent) : FirmwareM (Option (Nat × Nat)) := do
  let needed ← queryNeeded content
  if needed = 0 then pure none
  else do
    let buf ← malloc HostOs.grants needed
    match buf with
    | none => pure none
    | some buf => do
      let written ← queryInto content buf needed
      if written = 0 ∨ written > needed then do
        free buf
        pure none
      else pure (some (buf, written))

def smbiosContent : FirmwareContent := fun os n => os.table n smbiosProvider 0

def acpiContent (signature : UInt32) : FirmwareContent :=
  fun os n => os.table n acpiProvider signature

def signatureContent : FirmwareContent := fun os n => os.tables n acpiProvider

def platformGetSmbiosTable : FirmwareM (Option (Nat × Nat)) := fetchTwice smbiosContent

def platformGetAcpiTable (signature : UInt32) : FirmwareM (Option (Nat × Nat)) :=
  fetchTwice (acpiContent signature)

/-- `memcpy` of the first `size` bytes of a block to the start of another. -/
def memcpyBlock (dst src size : Nat) : FirmwareM Unit := do
  let bytes ← consult src (readBytes (ω := Empty) 0 size)
  fill dst bytes

def platformEnumAcpiSignatures : FirmwareM (Option (Nat × Nat)) := do
  let fetched ← fetchTwice signatureContent
  match fetched with
  | none => pure none
  | some (buf, written) => do
    let count := written / 4
    let sigs ← malloc HostOs.grants (count * 4)
    match sigs with
    | none => do
      free buf
      pure none
    | some sigs => do
      memcpyBlock sigs buf (count * 4)
      free buf
      pure (some (sigs, count))

section Fetch
variable {os : HostOs}

/-- Why nothing was delivered: there was no table at some call, or some block was
refused, or the table grew between two calls. -/
inductive Refused (os : HostOs) (content : FirmwareContent) (h t : Heap) : Prop where
  | missing {n : Nat} (hn : Store.Between h t n) (hempty : content os n = [])
  | refused {n size : Nat} (hn : Store.Between h t n) (hrefused : os.grants n size = false)
  | grown {n k : Nat} (hn : Store.Between h t n) (hk : Store.Between h t k)
      (hlt : (content os n).length < (content os k).length)

theorem Refused.widen {content : FirmwareContent} {h h' t t' : Heap}
    (hr : Refused os content h' t) (hh : h.calls ≤ h'.calls) (ht : t.calls ≤ t'.calls) :
    Refused os content h t' := by
  rcases hr with ⟨hn, hempty⟩ | ⟨hn, hrefused⟩ | ⟨hn, hk, hlt⟩
  · exact .missing (hn.widen hh ht) hempty
  · exact .refused (hn.widen hh ht) hrefused
  · exact .grown (hn.widen hh ht) (hk.widen hh ht) hlt

/-- What `fetchTwice` leaves: a block with the content of some call, or no block. -/
def Fetched (os : HostOs) (content : FirmwareContent) (h : Heap) (r : Option (Nat × Nat))
    (t : Heap) : Prop :=
  h.calls ≤ t.calls ∧
    match r with
    | none => t.cells = h.cells ∧ Refused os content h t
    | some (buf, written) => ∃ n b, Store.Between h t n ∧ h.With buf b t ∧ b.bytes = content os n ∧
        written = b.bytes.length ∧ 0 < written

theorem returns_queryInto {content : FirmwareContent} {h t : Heap} {buf needed : Nat}
    (ht : h.With buf (.raw needed) t) :
    (queryInto content buf needed).Returns os t fun written u =>
      written = (content os t.calls).length ∧ u.calls = t.calls + 1 ∧
        ∃ b, h.With buf b u ∧ (written ≤ needed → b.bytes = content os t.calls) := by
  refine (returns_outside _).bind fun bytes u hu => ?_
  obtain ⟨rfl, hub, huc⟩ := hu
  refine Prog.returns_ite (fun hfit => ?_) fun hover => ?_
  · refine (returns_fill (ht.keeps hub) hfit).bind fun _ v hv => ?_
    obtain ⟨hwith, hvc⟩ := hv
    exact Prog.returns_pure ⟨rfl, by omega, _, hwith, fun _ => Block.write_bytes hfit⟩
  · exact Prog.returns_pure ⟨rfl, huc, _, ht.keeps hub, fun hfit => absurd hfit hover⟩

theorem returns_fetchTwice (content : FirmwareContent) (h : Heap) :
    (fetchTwice content).Returns os h (Fetched os content h) := by
  refine (returns_outside _).bind fun needed t ht => ?_
  obtain ⟨hneeded, htb, htc⟩ := ht
  refine Prog.returns_ite (fun hzero => ?_) fun hpos => ?_
  · rw [hneeded] at hzero
    exact Prog.returns_pure ⟨by omega, htb,
      .missing ⟨Nat.le_refl _, by omega⟩ (List.length_eq_zero_iff.mp hzero)⟩
  refine (returns_request _ _).bind fun r u hu => ?_
  obtain ⟨huc, hr⟩ := hu
  cases r with
  | none =>
    obtain ⟨hub, hrefused⟩ := hr
    exact Prog.returns_pure ⟨by omega, hub.trans htb, .refused ⟨by omega, by omega⟩ hrefused⟩
  | some buf =>
    refine (returns_queryInto (hr.2.of_same htb)).bind fun written v hv => ?_
    obtain ⟨rfl, hvc, b, hwith, hbytes⟩ := hv
    refine Prog.returns_ite (fun hbad => ?_) fun hgood => ?_
    · refine (returns_giveBack hwith).bind fun _ w hw => ?_
      obtain ⟨hwb, hwc⟩ := hw
      refine Prog.returns_pure ⟨by omega, hwb, ?_⟩
      rcases hbad with hzero | hgrown
      · exact .missing ⟨by omega, by omega⟩ (List.length_eq_zero_iff.mp hzero)
      · exact .grown ⟨Nat.le_refl h.calls, by omega⟩ ⟨by omega, by omega⟩ (hneeded ▸ hgrown)
    · have hfit := Nat.le_of_not_gt fun hgt => hgood (Or.inr hgt)
      have hwritten := congrArg List.length (hbytes hfit)
      exact Prog.returns_pure ⟨by omega, _, b, ⟨by omega, by omega⟩, hwith, hbytes hfit,
        hwritten.symm, Nat.pos_of_ne_zero fun hzero => hgood (Or.inl hzero)⟩

/-- What `platformEnumAcpiSignatures` leaves: a block with whole signatures, or no block. -/
def Enumerated (os : HostOs) (h : Heap) (r : Option (Nat × Nat)) (t : Heap) : Prop :=
  h.calls ≤ t.calls ∧
    match r with
    | none => t.cells = h.cells ∧ Refused os signatureContent h t
    | some (sigs, count) => ∃ n b, Store.Between h t n ∧ h.With sigs b t ∧
        signatureContent os n ≠ [] ∧ count = (signatureContent os n).length / 4 ∧
        b.bytes = (signatureContent os n).take (count * 4)

theorem returns_memcpyBlock {h t u : Heap} {dst src size : Nat} {b : Block}
    (ht : h.With src b t) (hu : t.With dst (.raw size) u) (hsize : size ≤ b.bytes.length) :
    (memcpyBlock dst src size).Returns os u fun _ v =>
      ∃ c, t.With dst c v ∧ c.bytes = b.bytes.take size ∧ v.calls = u.calls := by
  have hreads : StaysIn b.bytes (readBytes 0 size : ByteProbe Empty _) :=
    always_readBytes fun i _ hi => decide_eq_true (by omega)
  refine (returns_consult (ht.older hu) hreads).bind fun bytes v hv => ?_
  obtain ⟨rfl, hvb, hvc⟩ := hv
  have hbytes : (readBytes 0 size : ByteProbe Empty _).val (memOf b.bytes) =
      b.bytes.take size := by
    rw [readBytes_val, segment_memOf b.bytes 0 size (by omega), List.drop_zero]
  have hfit : (b.bytes.take size).length ≤ (Block.raw size).size := List.length_take_le _ _
  rw [hbytes]
  refine (returns_fill (hu.keeps hvb) hfit).mono fun _ w hw => ?_
  exact ⟨_, hw.1, Block.write_bytes hfit, hw.2.trans hvc⟩

theorem returns_platformEnumAcpiSignatures (h : Heap) :
    platformEnumAcpiSignatures.Returns os h (Enumerated os h) := by
  refine (returns_fetchTwice _ h).bind fun fetched t ht => ?_
  obtain ⟨hcalls, ht⟩ := ht
  cases fetched with
  | none => exact Prog.returns_pure ⟨hcalls, ht⟩
  | some r =>
    obtain ⟨buf, written⟩ := r
    obtain ⟨n, b, hn, hwith, hbytes, rfl, hpos⟩ := ht
    refine (returns_request _ _).bind fun r u hu => ?_
    obtain ⟨huc, hr⟩ := hu
    cases r with
    | none =>
      obtain ⟨hub, hrefused⟩ := hr
      refine (returns_giveBack (hwith.keeps hub)).bind fun _ v hv => ?_
      exact Prog.returns_pure ⟨by omega, hv.1, .refused ⟨hcalls, by omega⟩ hrefused⟩
    | some sigs =>
      refine (returns_memcpyBlock hwith hr.2 (by omega)).bind fun _ v hv => ?_
      obtain ⟨c, hc, hcb, hvc⟩ := hv
      refine (returns_giveBack_under hwith hc).bind fun _ w hw => ?_
      obtain ⟨hwith', hwc⟩ := hw
      rw [hbytes] at hcb hpos ⊢
      exact Prog.returns_pure ⟨by omega, n, c, hn.widen (Nat.le_refl _) (by omega), hwith',
        List.ne_nil_of_length_pos hpos, rfl, hcb⟩

end Fetch
end HwMon
