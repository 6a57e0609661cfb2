import HwMon.Uefi.Trust

/-!
# The entries of the XSDT

The number of entries comes from the length of the XSDT by an unsigned
subtraction of the header size, so a length below it gives a huge number. An
empty range of bytes passes every checksum.
-/

namespace HwMon
set_option autoImplicit false

/-- How many entries are walked, if the XSDT at `hdr` is accepted. -/
def xsdtWalked (m : Mem) (hdr : Nat) : Option Nat :=
  if XsdtValid m hdr then some (xsdtEntryCount (hwmonTableLength m hdr)) else none

/-- Entries are loaded from the places of a walk after the header at `hdr`. -/
def EntriesFrom (hdr : Nat) (walked : Option Nat) : Access Nat UefiEvent → Prop
  | .read _ => True
  | .note (.entry p) => ∃ count, walked = some count ∧
    hdr + hwmonAcpiHeaderSize ≤ p ∧ p + 8 ≤ hdr + hwmonAcpiHeaderSize + 8 * count
  | .note (.print (.xsdtTables n)) => walked = some n
  | .note _ => True

section Walk
variable {m : Mem} {hdr count rsdp : Nat} {walked : Option Nat}

theorem uefiChecksumOk_entries (data length : Nat) :
    (uefiChecksumOk data length).Always (EntriesFrom hdr walked) m :=
  always_uefiChecksumOk (fun _ => trivial) data length

/-- The loop stays inside the entries that are left. -/
theorem printTables_entries (index left : Nat) (h : index + left ≤ count) :
    (printTables (hdr + hwmonAcpiHeaderSize) index left).Always
      (EntriesFrom hdr (some count)) m := by
  induction left generalizing index with
  | zero => exact Probe.always_pure _
  | succ left ih =>
    unfold printTables
    simp only [Probe.always_bind, Probe.always_note]
    refine ⟨⟨count, rfl, by omega, by omega⟩, always_read64 fun _ _ _ => trivial,
      always_read32 fun _ _ _ => trivial, uefiChecksumOk_entries _ _,
      always_readBytes fun _ _ _ => trivial, trivial, ih (index + 1) (by omega)⟩

theorem printXsdt_entries : (printXsdt hdr).Always (EntriesFrom hdr (xsdtWalked m hdr)) m := by
  unfold printXsdt
  simp only [Probe.always_bind, Probe.always_note, uefiChecksumOk_val, read32_val,
    decide_eq_false_iff_not]
  refine ⟨trivial, always_read32 fun _ _ _ => trivial, uefiChecksumOk_entries _ _,
    Probe.always_ite (fun _ => ?_) fun hvalid => ?_⟩
  · exact (Probe.always_note _).mpr trivial
  · have hwalked : xsdtWalked m hdr = some (xsdtEntryCount (hwmonTableLength m hdr)) :=
      if_pos (not_not.mp hvalid)
    rw [hwalked]
    simp only [Probe.always_bind, Probe.always_note]
    exact ⟨rfl, printTables_entries 0 _ (Nat.le_of_eq (Nat.zero_add _)), trivial⟩

/-- An accepted XSDT is walked after the line with the number of its entries. -/
theorem printXsdt_walks (h : XsdtValid m hdr) : ∃ front, (printXsdt hdr).log m =
    front ++ .note (.print (.xsdtTables (xsdtEntryCount (hwmonTableLength m hdr)))) ::
      ((printTables (hdr + hwmonAcpiHeaderSize) 0
        (xsdtEntryCount (hwmonTableLength m hdr))).log m ++ [.note (.print .blank)]) := by
  have hlength : (read32 (hdr + 4) : UefiProbe _).val m = hwmonTableLength m hdr := read32_val m _
  have hok : ¬(uefiChecksumOk hdr (hwmonTableLength m hdr).toNat).val m = false := by
    rw [uefiChecksumOk_val]
    exact fun hfalse => of_decide_eq_false hfalse h
  unfold printXsdt
  rw [Probe.log_bind, Probe.log_bind, Probe.log_bind, Probe.log_ite, hlength, if_neg hok,
    ← List.append_assoc, ← List.append_assoc]
  exact ⟨_, rfl⟩

/-- A length below the header size makes the walk load an entry behind the table. -/
theorem printXsdt_overrun (h : XsdtValid m hdr)
    (hlen : (hwmonTableLength m hdr).toNat < hwmonAcpiHeaderSize) :
    .note (.entry (hdr + hwmonAcpiHeaderSize)) ∈ (printXsdt hdr).log m := by
  obtain ⟨front, hlog⟩ := printXsdt_walks h
  have hcount : 0 < xsdtEntryCount (hwmonTableLength m hdr) := by
    rw [xsdtEntryCount_of_lt hlen]
    unfold hwmonAcpiHeaderSize
    omega
  obtain ⟨n, hn⟩ := Nat.exists_eq_add_of_lt hcount
  rw [hlog]
  apply List.mem_append_right
  apply List.mem_cons_of_mem
  apply List.mem_append_left
  rw [hn, Nat.zero_add, printTables, Probe.log_bind]
  exact List.mem_append_left _ List.mem_cons_self

/-- The 8-byte entries that are loaded lie in the XSDT, and as many entries as
are counted fit after its header. -/
structure XsdtWalkInside (m : Mem) (rsdp : Nat) : Prop where
  entries : ∀ p, .note (.entry p) ∈ (printAcpi rsdp).log m →
    xsdtAddress m rsdp ≤ p ∧
      p + 8 ≤ xsdtAddress m rsdp + (hwmonTableLength m (xsdtAddress m rsdp)).toNat
  count : ∀ n, .note (.print (.xsdtTables n)) ∈ (printAcpi rsdp).log m →
    36 + 8 * n ≤ (hwmonTableLength m (xsdtAddress m rsdp)).toNat

/-- An XSDT that is accepted, and that states fewer bytes than its header has. -/
def ShortXsdt (m : Mem) (rsdp : Nat) : Prop :=
  RsdpAccepted m rsdp ∧ XsdtValid m (xsdtAddress m rsdp) ∧
    (hwmonTableLength m (xsdtAddress m rsdp)).toNat < 36

theorem not_acpiQuiet_entry (p : Nat) : ¬AcpiQuiet (.note (.entry p)) := fun h => h

theorem not_acpiQuiet_tables (n : Nat) : ¬AcpiQuiet (.note (.print (.xsdtTables n))) := fun h => h

theorem not_inside_of_short (h : ShortXsdt m rsdp) : ¬XsdtWalkInside m rsdp := by
  obtain ⟨haccept, hvalid, hlen⟩ := h
  intro hinside
  have hentry := (hinside.entries _
    ((mem_printAcpi_iff (not_acpiQuiet_entry _)).mpr ⟨haccept, printXsdt_overrun hvalid hlen⟩)).2
  unfold hwmonAcpiHeaderSize at hentry
  omega

end Walk

theorem xsdtWalkInside_iff (m : Mem) (rsdp : Nat) :
    XsdtWalkInside m rsdp ↔ ¬ShortXsdt m rsdp := by
  constructor
  · intro hinside hshort
    exact not_inside_of_short hshort hinside
  · intro hlong
    -- What is walked fits, for an accepted XSDT covers its header.
    have hfit : RsdpAccepted m rsdp → ∀ n, xsdtWalked m (xsdtAddress m rsdp) = some n →
        hwmonAcpiHeaderSize + 8 * n ≤ (hwmonTableLength m (xsdtAddress m rsdp)).toNat := by
      intro haccept n hn
      unfold xsdtWalked at hn
      split at hn
      · rename_i hvalid
        cases hn
        have hlen : hwmonAcpiHeaderSize ≤ (hwmonTableLength m (xsdtAddress m rsdp)).toNat :=
          Nat.le_of_not_lt fun hlt => hlong ⟨haccept, hvalid, hlt⟩
        rw [xsdtEntryCount_of_le hlen]
        omega
      · cases hn
    refine ⟨fun p hp => ?_, fun n hn => ?_⟩
    · obtain ⟨haccept, hmem⟩ := (mem_printAcpi_iff (not_acpiQuiet_entry p)).mp hp
      obtain ⟨count, hwalked, hlo, hhi⟩ := printXsdt_entries _ hmem
      have hcount := hfit haccept count hwalked
      omega
    · obtain ⟨haccept, hmem⟩ := (mem_printAcpi_iff (not_acpiQuiet_tables n)).mp hn
      exact hfit haccept n (printXsdt_entries _ hmem)

/-- A valid RSDP and, after it, an XSDT that states a length of zero. -/
def emptyXsdt : List UInt8 :=
  [0x52, 0x53, 0x44, 0x20, 0x50, 0x54, 0x52, 0x20, 0xDF, 0, 0, 0, 0, 0, 0, 2, 0, 0, 0, 0,
    36, 0, 0, 0, 36, 0, 0, 0, 0, 0, 0, 0, 0xB8, 0, 0, 0,
    0x58, 0x53, 0x44, 0x54, 0, 0, 0, 0, 1, 0, 0, 0, 0, 0, 0, 0, 0, 0, 0, 0, 0, 0, 0, 0,
    0, 0, 0, 0, 0, 0, 0, 0, 0, 0, 0, 0]

theorem emptyXsdt_walked : ¬XsdtWalkInside (memOf emptyXsdt) 0 := by
  apply not_inside_of_short
  have haccept : RsdpAccepted (memOf emptyXsdt) 0 := by decide
  have hvalid : XsdtValid (memOf emptyXsdt) (xsdtAddress (memOf emptyXsdt) 0) := by decide
  exact ⟨haccept, hvalid, by decide⟩

end HwMon
