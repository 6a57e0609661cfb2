import HwMon.Acpi.Parser

/-!
# What one table says

The decoders take the bytes `t` of a table up to its effective length. Each is
the value of the parser function of the same record.
-/

namespace HwMon
set_option autoImplicit false

def decodeFadt (t : List UInt8) : AcpiFadtInfo :=
  if t.length < 48 then {}
  else { available := true, preferredPmProfile := t.getD 45 0,
         sciInterrupt := (fieldWord t 46).toUInt32 }

def decodeHpet (t : List UInt8) : AcpiHpetInfo :=
  if t.length < 53 then {}
  else { available := true, baseAddress := fieldQword t 44, hpetNumber := t.getD 52 0 }

def mcfgEntryAt (t : List UInt8) (off : Nat) : AcpiMcfgEntry where
  baseAddress := fieldQword t off
  pciSegmentGroup := fieldWord t (off + 8)
  startBus := t.getD (off + 10) 0
  endBus := t.getD (off + 11) 0

/-- The whole records of 16 bytes from offset 44 on. -/
def mcfgRecords (t : List UInt8) : List AcpiMcfgEntry :=
  (List.range ((t.length - 44) / 16)).map fun i => mcfgEntryAt t (44 + 16 * i)

def decodeMcfg (t : List UInt8) : AcpiMcfgInfo :=
  if t.length < 44 then {}
  else { available := true, entries := (mcfgRecords t).foldl Capped.push .empty }

section Values
variable (m : Mem) (len : Nat)

theorem parseFadt_val : (parseFadt len).val m = decodeFadt (segment m 0 len) := by
  rw [decodeFadt, segment_length]
  by_cases h : len < 48
  · rw [parseFadt, if_pos h, if_pos h]
    rfl
  · have hbyte : (segment m 0 len).getD 45 0 = m 45 := by
      rw [segment_getD m 0 len 45 (by omega), Nat.zero_add]
    have hword : fieldWord (segment m 0 len) 46 = (read16 46 : AcpiProbe _).val m := by
      rw [fieldWord, fieldBytes_segment m 0 (by omega), read16_val, Nat.zero_add]
    rw [parseFadt, if_neg h, if_neg h, hbyte, hword]
    rfl

theorem parseHpet_val : (parseHpet len).val m = decodeHpet (segment m 0 len) := by
  rw [decodeHpet, segment_length]
  by_cases h : len < 53
  · rw [parseHpet, if_pos h, if_pos h]
    rfl
  · have hbyte : (segment m 0 len).getD 52 0 = m 52 := by
      rw [segment_getD m 0 len 52 (by omega), Nat.zero_add]
    have hqword : fieldQword (segment m 0 len) 44 = (read64 44 : AcpiProbe _).val m := by
      rw [fieldQword, fieldBytes_segment m 0 (by omega), read64_val, Nat.zero_add]
    rw [parseHpet, if_neg h, if_neg h, hbyte, hqword]
    rfl

variable {m len}

theorem mcfgEntryAt_segment {p : Nat} (h : p + 16 ≤ len) :
    mcfgEntryAt (segment m 0 len) p =
      { baseAddress := UInt64.ofNat (leNat (segment m p 8))
        pciSegmentGroup := UInt16.ofNat (leNat (segment m (p + 8) 2))
        startBus := m (p + 10)
        endBus := m (p + 11) } := by
  rw [mcfgEntryAt, fieldQword, fieldWord, fieldBytes_segment m 0 (by omega),
    fieldBytes_segment m 0 (by omega), segment_getD m 0 len (p + 10) (by omega),
    segment_getD m 0 len (p + 11) (by omega)]
  simp only [Nat.zero_add]

theorem mcfgLoop_val (p : Nat) (out : Capped AcpiMcfgEntry acpiMaxMcfgEntries) :
    ((mcfgLoop len p out).val m).2 = ((List.range ((len - p) / 16)).map fun i =>
      mcfgEntryAt (segment m 0 len) (p + 16 * i)).foldl Capped.push out := by
  fun_induction mcfgLoop len p out with
  | case1 p out hlt ih =>
    have hmore : (len - p) / 16 = (len - (p + 16)) / 16 + 1 := by omega
    have hshift : ∀ i, p + 16 * (i + 1) = p + 16 + 16 * i := by omega
    simp only [↓Probe.val_bind, Probe.val_ask, read64_val, read16_val, ih,
      ← mcfgEntryAt_segment hlt.1]
    rw [hmore, List.range_succ_eq_map, List.map_cons, List.map_map, List.foldl_cons]
    simp only [Function.comp_def, Nat.succ_eq_add_one, hshift, Nat.mul_zero, Nat.add_zero]
  | case2 p out hlt =>
    rcases Nat.lt_or_ge len (p + 16) with hshort | hfit
    · have hnone : (len - p) / 16 = 0 := by omega
      rw [hnone]
      rfl
    · have hfull : ¬out.count < acpiMaxMcfgEntries := fun hroom => hlt ⟨hfit, hroom⟩
      exact (Capped.foldl_push_of_full hfull _).symm

theorem parseMcfg_val (m : Mem) (len : Nat) :
    (parseMcfg len).val m = decodeMcfg (segment m 0 len) := by
  rw [decodeMcfg, mcfgRecords, segment_length]
  have hhdr : acpiRawHeaderSize + 8 = 44 := rfl
  by_cases h : len < 44
  · rw [parseMcfg, hhdr, if_pos h, if_pos h]
    rfl
  · rw [parseMcfg, hhdr, if_neg h, if_neg h, ← mcfgLoop_val]
    rfl

end Values
end HwMon
