import HwMon.Uefi.Acpi

/-!
# Which pointers the UEFI application follows

The RSDP is accepted by two checksums, of its first 20 bytes and of as many
bytes as it states itself; the XSDT is accepted by one over the length that it
states. Neither length is compared with the size of the structure.
-/

namespace HwMon
set_option autoImplicit false

section Fields
variable (m : Mem) (rsdp t : Nat)

def rsdpRevision : UInt8 := m (rsdp + 15)

def rsdpLength : UInt32 := UInt32.ofNat (leNat (segment m (rsdp + 20) 4))

def xsdtAddress : Nat := (UInt64.ofNat (leNat (segment m (rsdp + 24) 8))).toNat

/-- The length field of an ACPI table header. -/
def hwmonTableLength : UInt32 := UInt32.ofNat (leNat (segment m (t + 4) 4))

def RsdpAccepted : Prop :=
  ¬rsdpRevision m rsdp < 2 ∧ byteSum (segment m rsdp 20) % 256 = 0 ∧
    byteSum (segment m rsdp (rsdpLength m rsdp).toNat) % 256 = 0

instance rsdpAcceptedDecidable : Decidable (RsdpAccepted m rsdp) :=
  inferInstanceAs (Decidable (_ ∧ _))

/-- The XSDT at `t` passes its checksum. -/
def XsdtValid : Prop := byteSum (segment m t (hwmonTableLength m t).toNat) % 256 = 0

instance xsdtValidDecidable : Decidable (XsdtValid m t) := inferInstanceAs (Decidable (_ = _))

end Fields

/-- Neither a use of a pointer nor the line with the number of entries. -/
def AcpiQuiet : Access Nat UefiEvent → Prop
  | .read _ => True
  | .note (.print (.xsdtTables _)) => False
  | .note (.print _) => True
  | .note (.follow _) => False
  | .note (.entry _) => False

section Runs
variable {m : Mem} {rsdp hdr : Nat}

theorem uefiChecksumOk_quiet (data length : Nat) : (uefiChecksumOk data length).Always AcpiQuiet m :=
  always_uefiChecksumOk (fun _ => trivial) data length

theorem read32_quiet (p : Nat) : (read32 p : UefiProbe _).Always AcpiQuiet m :=
  always_read32 fun _ _ _ => trivial

theorem read64_quiet (p : Nat) : (read64 p : UefiProbe _).Always AcpiQuiet m :=
  always_read64 fun _ _ _ => trivial

theorem acceptRsdp_quiet : (acceptRsdp rsdp).Always AcpiQuiet m := by
  unfold acceptRsdp
  simp only [Probe.always_bind, Probe.always_note, Probe.always_ask]
  refine ⟨trivial, uefiChecksumOk_quiet _ _, trivial, trivial, Probe.always_ite (fun _ => ?_)
    fun _ => ?_⟩
  · simp only [Probe.always_bind, Probe.always_note, Probe.always_pure, and_true]
    exact trivial
  simp only [Probe.always_bind, Probe.always_note]
  refine ⟨read32_quiet _, uefiChecksumOk_quiet _ _, trivial, Probe.always_ite (fun _ => ?_)
    fun _ => ?_⟩
  · simp only [Probe.always_bind, Probe.always_note, Probe.always_pure, and_true]
    exact trivial
  · simp only [Probe.always_bind, Probe.always_pure, and_true]
    exact read64_quiet _

theorem acceptRsdp_val : (acceptRsdp rsdp).val m =
    if RsdpAccepted m rsdp then some (xsdtAddress m rsdp) else none := by
  unfold acceptRsdp
  simp only [↓Probe.val_bind, ↓Probe.val_ite, Probe.val_pure, Probe.val_ask, uefiChecksumOk_val,
    read32_val, read64_val, decide_eq_false_iff_not]
  change (if rsdpRevision m rsdp < 2 then none
    else if ¬byteSum (segment m rsdp 20) % 256 = 0 ∨
        ¬byteSum (segment m rsdp (rsdpLength m rsdp).toNat) % 256 = 0 then none
      else some (xsdtAddress m rsdp)) = _
  by_cases hrev : rsdpRevision m rsdp < 2
  · have hno : ¬RsdpAccepted m rsdp := fun h => h.1 hrev
    rw [if_pos hrev, if_neg hno]
  rw [if_neg hrev]
  by_cases hsums : byteSum (segment m rsdp 20) % 256 = 0 ∧
      byteSum (segment m rsdp (rsdpLength m rsdp).toNat) % 256 = 0
  · have hyes : RsdpAccepted m rsdp := ⟨hrev, hsums⟩
    rw [if_pos hyes, if_neg (not_or.mpr ⟨not_not.mpr hsums.1, not_not.mpr hsums.2⟩)]
  · have hno : ¬RsdpAccepted m rsdp := fun h => hsums h.2
    rw [if_pos (not_and_or.mp hsums), if_neg hno]

theorem printAcpi_log : (printAcpi rsdp).log m = (acceptRsdp rsdp).log m ++
    if RsdpAccepted m rsdp then (printXsdt (xsdtAddress m rsdp)).log m else [] := by
  unfold printAcpi
  rw [Probe.log_bind, acceptRsdp_val]
  by_cases h : RsdpAccepted m rsdp
  · rw [if_pos h, if_pos h]
  · rw [if_neg h, if_neg h]
    rfl

/-- Anything but lines and reads comes from the XSDT of an accepted RSDP. -/
theorem mem_printAcpi_iff {a : Access Nat UefiEvent} (h : ¬AcpiQuiet a) :
    a ∈ (printAcpi rsdp).log m ↔
      RsdpAccepted m rsdp ∧ a ∈ (printXsdt (xsdtAddress m rsdp)).log m := by
  rw [printAcpi_log, List.mem_append]
  constructor
  · intro ha
    rcases ha with ha | ha
    · exact absurd (acceptRsdp_quiet a ha) h
    · split at ha
      · exact ⟨‹_›, ha⟩
      · exact absurd ha List.not_mem_nil
  · intro ha
    rw [if_pos ha.1]
    exact Or.inr ha.2

theorem not_acpiQuiet_follow (address : Nat) : ¬AcpiQuiet (.note (.follow address)) := fun h => h

theorem printXsdt_follows : .note (.follow hdr) ∈ (printXsdt hdr).log m := by
  unfold printXsdt
  rw [Probe.log_bind, Probe.log_note]
  exact List.mem_append_left _ List.mem_cons_self

end Runs

/-!
## The RSDP
-/

/-- The run follows the XSDT pointer of the RSDP at `rsdp`. -/
def FollowsXsdt (m : Mem) (rsdp : Nat) : Prop :=
  ∃ address, .note (.follow address) ∈ (printAcpi rsdp).log m

theorem followsXsdt_iff {m : Mem} {rsdp : Nat} : FollowsXsdt m rsdp ↔ RsdpAccepted m rsdp := by
  constructor
  · intro h
    obtain ⟨address, hmem⟩ := h
    exact ((mem_printAcpi_iff (not_acpiQuiet_follow address)).mp hmem).1
  · intro h
    exact ⟨xsdtAddress m rsdp,
      (mem_printAcpi_iff (not_acpiQuiet_follow _)).mpr ⟨h, printXsdt_follows⟩⟩

/-- The pointer that is followed is covered by a valid checksum. -/
structure RsdpValidated (m : Mem) (rsdp : Nat) : Prop where
  first20 : byteSum (segment m rsdp 20) % 256 = 0
  length : 36 ≤ (rsdpLength m rsdp).toNat
  whole : byteSum (segment m rsdp (rsdpLength m rsdp).toNat) % 256 = 0
  tamper : ∀ j, 24 ≤ j → j < 32 → ∀ b, b ≠ m (rsdp + j) →
    ¬FollowsXsdt (setByte m (rsdp + j) b) rsdp

/-- An RSDP that both checksums accept although it states fewer bytes than it has. -/
def ShortRsdp (m : Mem) (rsdp : Nat) : Prop :=
  RsdpAccepted m rsdp ∧ (rsdpLength m rsdp).toNat < 36

/-- A change of the pointer under a checksum of its whole structure is noticed. -/
theorem tampered_refused {m : Mem} {rsdp j : Nat} {b : UInt8} (hlo : 24 ≤ j) (hhi : j < 32)
    (hlen : 36 ≤ (rsdpLength m rsdp).toNat) (hb : b ≠ m (rsdp + j))
    (hsum : byteSum (segment m rsdp (rsdpLength m rsdp).toNat) % 256 = 0) :
    ¬RsdpAccepted (setByte m (rsdp + j) b) rsdp := by
  have hlength : rsdpLength (setByte m (rsdp + j) b) rsdp = rsdpLength m rsdp := by
    unfold rsdpLength
    rw [segment_setByte (by omega)]
  intro haccept
  have hnew := haccept.2.2
  rw [hlength] at hnew
  exact byteSum_setByte_ne (by omega) (by omega) hb hsum hnew

theorem rsdpValidated_iff (m : Mem) (rsdp : Nat) :
    (FollowsXsdt m rsdp → RsdpValidated m rsdp) ↔ ¬ShortRsdp m rsdp := by
  rw [followsXsdt_iff]
  constructor
  · intro hvalid hshort
    have hlen := (hvalid hshort.1).length
    have hlt := hshort.2
    omega
  · intro hlong haccept
    have hlen : 36 ≤ (rsdpLength m rsdp).toNat := by
      by_contra hlt
      exact hlong ⟨haccept, by omega⟩
    refine ⟨haccept.2.1, hlen, haccept.2.2, ?_⟩
    intro j hlo hhi b hb hfollow
    exact tampered_refused hlo hhi hlen hb haccept.2.2 (followsXsdt_iff.mp hfollow)

/-- Revision 2, and a stated length of 20 bytes; the pointer is left out of both sums. -/
def shortRsdp : List UInt8 :=
  [0x52, 0x53, 0x44, 0x20, 0x50, 0x54, 0x52, 0x20, 0xDF, 0, 0, 0, 0, 0, 0, 2, 0, 0, 0, 0,
    20, 0, 0, 0, 0, 0x10, 0, 0, 0, 0, 0, 0, 0, 0, 0, 0]

theorem shortRsdp_followed :
    ¬(FollowsXsdt (memOf shortRsdp) 0 → RsdpValidated (memOf shortRsdp) 0) := by
  intro hvalid
  have haccept : RsdpAccepted (memOf shortRsdp) 0 := by decide
  have hlen := (hvalid (followsXsdt_iff.mpr haccept)).length
  exact absurd hlen (by decide)

end HwMon
