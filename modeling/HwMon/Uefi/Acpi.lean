import HwMon.Lib.Checksum

/-!
# The ACPI walk of the UEFI application

`PrintAcpi` of `HwMonUefi.c` over a flat memory. Its log holds the lines that
are printed, and two kinds of pointer use: where the XSDT is followed, and from
where each of its entries is loaded. Addresses are natural numbers.
-/

namespace HwMon
set_option autoImplicit false

inductive AcpiLine where
  | title
  | v1Checksum (ok : Bool)
  | noXsdt
  | v2Checksum (ok : Bool)
  | rsdpInvalid
  | xsdtInvalid
  | xsdtTables (entryCount : Nat)
  | table (signature : List UInt8) (length : UInt32) (ok : Bool)
  | blank
  deriving DecidableEq, Repr

inductive UefiEvent where
  | print (line : AcpiLine)
  | follow (address : Nat)
  | entry (address : Nat)
  deriving DecidableEq, Repr

abbrev UefiProbe (α : Type) := ByteProbe UefiEvent α

/-- The `for` loop of `ChecksumOk`. -/
def checksumFrom (data : Nat) : Nat → UInt8 → UefiProbe UInt8
  | 0, sum => pure sum
  | n + 1, sum => do
    let b ← .ask data
    checksumFrom (data + 1) n (sum + b)

def uefiChecksumOk (data length : Nat) : UefiProbe Bool := do
  let sum ← checksumFrom data length 0
  pure (sum == 0)

/-- `sizeof (HWMON_ACPI_HEADER)`. -/
def hwmonAcpiHeaderSize : Nat := 36

/-- `(Hdr->Length - sizeof (HWMON_ACPI_HEADER)) / sizeof (UINT64)` in 64 bits. -/
def xsdtEntryCount (length : UInt32) : Nat :=
  ((length.toUInt64 - UInt64.ofNat hwmonAcpiHeaderSize) / 8).toNat

/-- The loop over the entries from number `index`, with `left` entries left. -/
def printTables (entries index : Nat) : Nat → UefiProbe Unit
  | 0 => pure ()
  | left + 1 => do
    .note (.entry (entries + 8 * index))
    let entry ← read64 (entries + 8 * index)
    let t := entry.toNat
    let length ← read32 (t + 4)
    let ok ← uefiChecksumOk t length.toNat
    let signature ← readBytes t 4
    .note (.print (.table signature length ok))
    printTables entries (index + 1) left

/-- `PrintAcpi` from the XSDT on. -/
def printXsdt (hdr : Nat) : UefiProbe Unit := do
  .note (.follow hdr)
  let length ← read32 (hdr + 4)
  let ok ← uefiChecksumOk hdr length.toNat
  if ok = false then .note (.print .xsdtInvalid)
  else do
    .note (.print (.xsdtTables (xsdtEntryCount length)))
    printTables (hdr + hwmonAcpiHeaderSize) 0 (xsdtEntryCount length)
    .note (.print .blank)

/-- `PrintAcpi` up to the XSDT, with its address if the RSDP is accepted. -/
def acceptRsdp (rsdp : Nat) : UefiProbe (Option Nat) := do
  .note (.print .title)
  let v1Ok ← uefiChecksumOk rsdp 20
  .note (.print (.v1Checksum v1Ok))
  let revision ← .ask (rsdp + 15)
  if revision < 2 then do
    .note (.print .noXsdt)
    pure none
  else do
    let length ← read32 (rsdp + 20)
    let v2Ok ← uefiChecksumOk rsdp length.toNat
    .note (.print (.v2Checksum v2Ok))
    if v1Ok = false ∨ v2Ok = false then do
      .note (.print .rsdpInvalid)
      pure none
    else do
      let xsdtAddr ← read64 (rsdp + 24)
      pure (some xsdtAddr.toNat)

def printAcpi (rsdp : Nat) : UefiProbe Unit := do
  let xsdt ← acceptRsdp rsdp
  match xsdt with
  | none => pure ()
  | some hdr => printXsdt hdr

section Checksum
variable {m : Mem}

theorem checksumFrom_val (data n : Nat) (sum : UInt8) :
    ((checksumFrom data n sum).val m).toNat =
      (sum.toNat + byteSum (segment m data n)) % 256 := by
  induction n generalizing data sum with
  | zero =>
    have hsum := sum.toNat_lt
    have hzero : byteSum (segment m data 0) = 0 := rfl
    rw [hzero, Nat.add_zero, Nat.mod_eq_of_lt hsum]
    rfl
  | succ n ih =>
    simp only [checksumFrom, ↓Probe.val_bind, Probe.val_ask, ih, UInt8.toNat_add, segment_succ,
      byteSum_cons, Nat.add_assoc, Nat.mod_add_mod]

theorem uefiChecksumOk_val (data length : Nat) :
    (uefiChecksumOk data length).val m = decide (byteSum (segment m data length) % 256 = 0) := by
  have hsum := checksumFrom_val (m := m) data length 0
  simp only [uefiChecksumOk, ↓Probe.val_bind, Probe.val_pure]
  rw [UInt8.toNat_zero, Nat.zero_add] at hsum
  rw [← hsum]
  apply decide_eq_decide.mpr
  rw [← UInt8.toNat_inj, UInt8.toNat_zero]

variable {P : Access Nat UefiEvent → Prop}

theorem always_checksumFrom {data n : Nat} (h : ∀ i, data ≤ i → i < data + n → P (.read i))
    (sum : UInt8) : (checksumFrom data n sum).Always P m := by
  induction n generalizing data sum with
  | zero => exact Probe.always_pure _
  | succ n ih =>
    unfold checksumFrom
    simp only [Probe.always_bind, Probe.always_ask]
    exact ⟨h data (Nat.le_refl _) (by omega), ih (fun i hlo hhi => h i (by omega) (by omega)) _⟩

/-- The bytes that are summed are the bytes of the block. -/
theorem always_uefiChecksumOk_block {data length : Nat}
    (h : ∀ i, data ≤ i → i < data + length → P (.read i)) :
    (uefiChecksumOk data length).Always P m := by
  unfold uefiChecksumOk
  simp only [Probe.always_bind, Probe.always_pure, and_true]
  exact always_checksumFrom h 0

theorem always_uefiChecksumOk (h : ∀ i, P (.read i)) (data length : Nat) :
    (uefiChecksumOk data length).Always P m :=
  always_uefiChecksumOk_block fun i _ _ => h i

end Checksum

/-!
## The entry count
-/

theorem xsdtEntryCount_of_le {length : UInt32} (h : hwmonAcpiHeaderSize ≤ length.toNat) :
    xsdtEntryCount length = (length.toNat - hwmonAcpiHeaderSize) / 8 := by
  have hle : UInt64.ofNat hwmonAcpiHeaderSize ≤ length.toUInt64 := by
    rw [UInt64.le_iff_toNat_le, UInt32.toNat_toUInt64]
    exact h
  unfold xsdtEntryCount
  rw [UInt64.toNat_div, UInt64.toNat_sub_of_le _ _ hle, UInt32.toNat_toUInt64]
  rfl

/-- Below the header size the subtraction wraps. -/
theorem xsdtEntryCount_of_lt {length : UInt32} (h : length.toNat < hwmonAcpiHeaderSize) :
    xsdtEntryCount length = (2 ^ 64 + length.toNat - hwmonAcpiHeaderSize) / 8 := by
  have hsize : (UInt64.ofNat hwmonAcpiHeaderSize).toNat = hwmonAcpiHeaderSize := rfl
  have height : (8 : UInt64).toNat = 8 := rfl
  unfold xsdtEntryCount
  rw [UInt64.toNat_div, UInt64.toNat_sub, UInt32.toNat_toUInt64, hsize, height]
  unfold hwmonAcpiHeaderSize at h ⊢
  rw [Nat.mod_eq_of_lt (by omega)]
  omega

end HwMon
