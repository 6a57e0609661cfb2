import HwMon.Lib.Checksum
import HwMon.Acpi.Bounds

/-!
# When a table is trusted

A table is trusted if its bytes up to the effective length sum to zero. Where
the length field is zero, or above what was received, the effective length is
not the one in the header, and where it is below the header size it is too
short; such a table may still sum to zero.
-/

namespace HwMon
set_option autoImplicit false

section Checksum
variable {m : Mem}

theorem sumBytes_val (p n : Nat) (sum : UInt8) :
    ((sumBytes p n sum).val m).toNat = (sum.toNat + byteSum (segment m p n)) % 256 := by
  induction n generalizing p sum with
  | zero =>
    have hsum := sum.toNat_lt
    have hzero : byteSum (segment m p 0) = 0 := rfl
    rw [hzero, Nat.add_zero, Nat.mod_eq_of_lt hsum]
    rfl
  | succ n ih =>
    simp only [sumBytes, ↓Probe.val_bind, Probe.val_ask, ih, UInt8.toNat_add, segment_succ,
      byteSum_cons, Nat.add_assoc, Nat.mod_add_mod]

theorem checksumOk_val (len : Nat) :
    (checksumOk len).val m = decide (byteSum (segment m 0 len) % 256 = 0) := by
  have hsum := sumBytes_val (m := m) 0 len 0
  simp only [checksumOk, ↓Probe.val_bind, Probe.val_pure]
  rw [UInt8.toNat_zero, Nat.zero_add] at hsum
  rw [← hsum]
  apply decide_eq_decide.mpr
  rw [← UInt8.toNat_inj, UInt8.toNat_zero]

theorem fillSummary_valid (actualLen : Nat) (valid : Bool) :
    ((fillSummary actualLen valid).val m).checksumValid = valid := by
  simp only [fillSummary, ↓Probe.val_bind, Probe.val_pure]

end Checksum

def acpiLength (raw : List UInt8) : UInt32 := UInt32.ofNat (leNat (segment (memOf raw) 4 4))

/-- The bytes of a table up to its effective length. -/
def acpiUsed (raw : List UInt8) : List UInt8 :=
  raw.take (acpiEffectiveLen raw.length (acpiLength raw))

/-- The table is recorded as valid, or handed to a parser. -/
def AcpiEvent.Trusts : AcpiEvent → Prop
  | .discoveredWrite _ summary => summary.checksumValid = true
  | .fill _ => True
  | .processorWrite _ => False
  | .entryWrite _ => False

def Trusted (out : AcpiData) (raw : List UInt8) : Prop :=
  ∃ w, .note w ∈ (collectTable raw.length out).log (memOf raw) ∧ AcpiEvent.Trusts w

/-- The length field is at least the header size and at most what was received,
and the bytes that it covers sum to zero. -/
def Validated (raw : List UInt8) : Prop :=
  acpiRawHeaderSize ≤ (acpiLength raw).toNat ∧ (acpiLength raw).toNat ≤ raw.length ∧
    byteSum (raw.take (acpiLength raw).toNat) % 256 = 0

/-- ACPI data is trusted only after its length and checksum have been validated. -/
def TrustsValidated (ts : List (Option (List UInt8))) : Prop :=
  ∀ step ∈ acpiSteps {} ts, Trusted step.1 step.2 → Validated step.2

section Table
variable {raw : List UInt8} (out : AcpiData)

theorem acpiUsed_eq (raw : List UInt8) :
    segment (memOf raw) 0 (acpiEffectiveLen raw.length (acpiLength raw)) = acpiUsed raw := by
  have hle := acpiEffectiveLen_le raw.length (acpiLength raw)
  rw [segment_memOf raw 0 _ (by omega)]
  rfl

def Untrusting : Access Nat AcpiEvent → Prop
  | .read _ => True
  | .note w => ¬w.Trusts

theorem ReadsBelow.untrusting {n : Nat} {a : Access Nat AcpiEvent} (ha : ReadsBelow n a) :
    Untrusting a := by
  cases a with
  | read i => exact trivial
  | note w => exact False.elim ha

theorem not_trusted_iff :
    ¬Trusted out raw ↔ (collectTable raw.length out).Always Untrusting (memOf raw) := by
  constructor
  · intro h a ha
    cases a with
    | read i => exact trivial
    | note w => exact fun hw => h ⟨w, ha, hw⟩
  · intro h htrust
    obtain ⟨w, hmem, hw⟩ := htrust
    exact h _ hmem hw

theorem checksum_used : (checksumOk (acpiEffectiveLen raw.length (acpiLength raw))).val
    (memOf raw) = decide (byteSum (acpiUsed raw) % 256 = 0) := by
  rw [checksumOk_val, acpiUsed_eq]

/-- A table of at least the header size is trusted just when its bytes up to the
effective length sum to zero. -/
theorem trusted_iff (hsize : acpiRawHeaderSize ≤ raw.length) :
    Trusted out raw ↔ byteSum (acpiUsed raw) % 256 = 0 := by
  have hread : (read32 4 : AcpiProbe _).val (memOf raw) = acpiLength raw := read32_val _ 4
  have hhdr : acpiRawHeaderSize = 36 := rfl
  rw [← not_iff_not, not_trusted_iff]
  simp only [collectTable, if_neg (Nat.not_lt.mpr hsize), Probe.always_bind, Probe.always_note,
    hread, checksum_used]
  constructor
  · intro h hsum
    obtain ⟨_, _, _, hnote, _⟩ := h
    refine hnote ((fillSummary_valid _ _).trans ?_)
    exact decide_eq_true hsum
  · intro hsum
    rw [decide_eq_false hsum]
    refine ⟨always_read32 fun _ _ _ => trivial,
      (checksumOk_reads (acpiEffectiveLen_le _ _)).mono fun _ => ReadsBelow.untrusting,
      (fillSummary_reads hsize _ _).mono fun _ => ReadsBelow.untrusting, fun htrust => ?_,
      Probe.always_pure _⟩
    exact Bool.false_ne_true ((fillSummary_valid _ false).symm.trans htrust)

theorem not_trusted_of_short (hsize : raw.length < acpiRawHeaderSize) : ¬Trusted out raw := by
  rw [not_trusted_iff, collectTable, if_pos hsize]
  exact Probe.always_pure _

end Table

/-- The length field does not cover the table, yet the table sums to zero. -/
def Mistrusted (raw : List UInt8) : Prop :=
  (((acpiLength raw).toNat = 0 ∨ raw.length < (acpiLength raw).toNat) ∧ byteSum raw % 256 = 0) ∨
    (0 < (acpiLength raw).toNat ∧ (acpiLength raw).toNat < acpiRawHeaderSize ∧
      byteSum (raw.take (acpiLength raw).toNat) % 256 = 0)

theorem acpiUsed_of_covered {raw : List UInt8} (hpos : 0 < (acpiLength raw).toNat)
    (hle : (acpiLength raw).toNat ≤ raw.length) :
    acpiUsed raw = raw.take (acpiLength raw).toNat := by
  have hlt : acpiLength raw > 0 := UInt32.lt_iff_toNat_lt.mpr hpos
  rw [acpiUsed, acpiEffectiveLen, if_pos ⟨hlt, hle⟩]

theorem acpiUsed_of_uncovered {raw : List UInt8}
    (h : (acpiLength raw).toNat = 0 ∨ raw.length < (acpiLength raw).toNat) :
    acpiUsed raw = raw := by
  have hno : ¬(acpiLength raw > 0 ∧ (acpiLength raw).toNat ≤ raw.length) := by
    intro hcover
    obtain ⟨hlt, hle⟩ := hcover
    have hpos : 0 < (acpiLength raw).toNat := UInt32.lt_iff_toNat_lt.mp hlt
    omega
  rw [acpiUsed, acpiEffectiveLen, if_neg hno, List.take_length]

theorem validated_of_trusted_iff {raw : List UInt8} (hsize : acpiRawHeaderSize ≤ raw.length)
    (out : AcpiData) : (Trusted out raw → Validated raw) ↔ ¬Mistrusted raw := by
  have hhdr : acpiRawHeaderSize = 36 := rfl
  rw [trusted_iff out hsize]
  by_cases hun : (acpiLength raw).toNat = 0 ∨ raw.length < (acpiLength raw).toNat
  · rw [acpiUsed_of_uncovered hun]
    constructor
    · intro h hmis
      rcases hmis with ⟨_, hsum⟩ | ⟨hpos, hshort, _⟩
      · obtain ⟨hlong, hle, _⟩ := h hsum
        omega
      · omega
    · intro h hsum
      exact absurd (Or.inl ⟨hun, hsum⟩) h
  · have hpos : 0 < (acpiLength raw).toNat := by omega
    have hle : (acpiLength raw).toNat ≤ raw.length := by omega
    rw [acpiUsed_of_covered hpos hle]
    constructor
    · intro h hmis
      rcases hmis with ⟨hun', _⟩ | ⟨_, hshort, hsum⟩
      · exact hun hun'
      · obtain ⟨hlong, _, _⟩ := h hsum
        omega
    · intro h hsum
      refine ⟨?_, hle, hsum⟩
      by_contra hshort
      exact h (Or.inr ⟨hpos, Nat.lt_of_not_le hshort, hsum⟩)

def hasHeader (raw : List UInt8) : Bool := decide (acpiRawHeaderSize ≤ raw.length)

/-- The tables that `acpi_collect` looks at: the first 64 that it gets whole headers of. -/
def examinedTables (ts : List (Option (List UInt8))) : List (List UInt8) :=
  ((ts.filterMap id).filter hasHeader).take acpiMaxDiscoveredTables

theorem fillRecord_discovered {m : Mem} (len : Nat) (summary : AcpiTableSummary)
    (out : AcpiData) : ((fillRecord len summary out).val m).discovered = out.discovered := by
  simp only [fillRecord, ↓Probe.val_bind, ↓Probe.val_ite, Probe.val_pure]
  split
  · rfl
  split
  · rfl
  split
  · rfl
  split
  · rfl
  · rfl

theorem collectFetched_count (raw : List UInt8) {out : AcpiData}
    (hroom : out.discoveredCount < acpiMaxDiscoveredTables) :
    (collectFetched out (some raw)).discoveredCount =
      if acpiRawHeaderSize ≤ raw.length then out.discoveredCount + 1 else out.discoveredCount := by
  rcases Nat.lt_or_ge raw.length acpiRawHeaderSize with hshort | hsize
  · rw [if_neg (Nat.not_le.mpr hshort), collectFetched, collectTable, if_pos hshort]
    rfl
  · have hpush := Capped.push_count hroom
    rw [if_pos hsize, collectFetched, collectTable, if_neg (Nat.not_lt.mpr hsize)]
    simp only [↓Probe.val_bind, ↓Probe.val_ite, Probe.val_pure]
    split
    · exact (congrArg Capped.count (fillRecord_discovered _ _ _)).trans (hpush _)
    · exact hpush _

theorem acpiSteps_examined (out : AcpiData) (ts : List (Option (List UInt8))) :
    ((acpiSteps out ts).map Prod.snd).filter hasHeader =
      ((ts.filterMap id).filter hasHeader).take
        (acpiMaxDiscoveredTables - out.discoveredCount) := by
  induction ts generalizing out with
  | nil => exact List.take_nil.symm
  | cons t ts ih =>
    rw [acpiSteps]
    by_cases hroom : out.discoveredCount < acpiMaxDiscoveredTables
    · rw [if_pos hroom]
      cases t with
      | none => exact ih out
      | some raw =>
        have hcount := collectFetched_count raw hroom
        have hstep := ih (collectFetched out (some raw))
        have hid : (some raw :: ts).filterMap id = raw :: ts.filterMap id := rfl
        rw [hid]
        change (raw :: (acpiSteps (collectFetched out (some raw)) ts).map Prod.snd).filter _ = _
        by_cases hsize : acpiRawHeaderSize ≤ raw.length
        · rw [if_pos hsize] at hcount
          have hhas : hasHeader raw = true := decide_eq_true hsize
          have hslot : 1 ≤ acpiMaxDiscoveredTables - out.discoveredCount := by omega
          rw [List.filter_cons_of_pos hhas, List.filter_cons_of_pos hhas, hstep, hcount,
            ← Nat.sub_add_cancel hslot, List.take_succ_cons, Nat.sub_sub]
        · rw [if_neg hsize] at hcount
          have hno : ¬hasHeader raw = true := fun h => hsize (of_decide_eq_true h)
          rw [List.filter_cons_of_neg hno, List.filter_cons_of_neg hno, hstep, hcount]
    · rw [if_neg hroom, Nat.sub_eq_zero_of_le (Nat.le_of_not_lt hroom)]
      rfl

theorem mem_examinedTables {ts : List (Option (List UInt8))} {raw : List UInt8} :
    raw ∈ examinedTables ts ↔
      (∃ out, (out, raw) ∈ acpiSteps {} ts) ∧ acpiRawHeaderSize ≤ raw.length := by
  have hsteps := acpiSteps_examined {} ts
  have hzero : acpiMaxDiscoveredTables - AcpiData.discoveredCount {} = acpiMaxDiscoveredTables :=
    rfl
  rw [hzero] at hsteps
  rw [examinedTables, ← hsteps, List.mem_filter, hasHeader, decide_eq_true_eq, List.mem_map]
  constructor
  · intro h
    obtain ⟨⟨⟨out, raw'⟩, hmem, rfl⟩, hsize⟩ := h
    exact ⟨⟨out, hmem⟩, hsize⟩
  · intro h
    obtain ⟨⟨out, hmem⟩, hsize⟩ := h
    exact ⟨⟨(out, raw), hmem, rfl⟩, hsize⟩

/-- Only validated tables are trusted just when no examined table sums to zero
without its length field covering it. -/
theorem trustsValidated_iff (ts : List (Option (List UInt8))) :
    TrustsValidated ts ↔ ∀ raw ∈ examinedTables ts, ¬Mistrusted raw := by
  constructor
  · intro h raw hraw
    obtain ⟨⟨out, hstep⟩, hsize⟩ := mem_examinedTables.mp hraw
    exact (validated_of_trusted_iff hsize out).mp (h (out, raw) hstep)
  · intro h step hstep htrust
    obtain ⟨out, raw⟩ := step
    rcases Nat.lt_or_ge raw.length acpiRawHeaderSize with hshort | hsize
    · exact absurd htrust (not_trusted_of_short out hshort)
    · have hraw := mem_examinedTables.mpr ⟨⟨out, hstep⟩, hsize⟩
      exact (validated_of_trusted_iff hsize out).mpr (h raw hraw) htrust

/-- A `FACP` table whose length field is zero and whose 48 bytes sum to zero. -/
def zeroLengthFadt : List UInt8 := sigFacp ++ [0, 0, 0, 0, 1, 229] ++ List.replicate 38 0

theorem zeroLengthFadt_trusted : ¬TrustsValidated [some zeroLengthFadt] := by
  intro h
  have hfill : Access.note (AcpiEvent.fill .fadt) ∈
      (collectTable zeroLengthFadt.length {}).log (memOf zeroLengthFadt) := by
    set_option maxRecDepth 8000 in decide
  have hvalid := h ({}, zeroLengthFadt) List.mem_cons_self ⟨_, hfill, trivial⟩
  have hlong := hvalid.1
  revert hlong
  set_option maxRecDepth 8000 in decide

end HwMon
