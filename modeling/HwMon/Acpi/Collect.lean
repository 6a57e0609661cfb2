import HwMon.Acpi.Madt
import HwMon.Acpi.Trust
import HwMon.Lib.LastWrite

/-!
# Which table a record comes from

Each of the four records is the decoded form of the last examined table that
has its signature and sums to zero. A later table replaces the whole record.
-/

namespace HwMon
set_option autoImplicit false

def tableSummary (raw : List UInt8) : AcpiTableSummary where
  signature := fieldBytes raw 0 4 ++ [0]
  oemId := fieldBytes raw 10 6 ++ [0]
  oemTableId := fieldBytes raw 16 8 ++ [0]
  length := UInt32.ofNat (acpiUsed raw).length
  revision := raw.getD 8 0
  checksumValid := decide (byteSum (acpiUsed raw) % 256 = 0)

def fadtRecord (raw : List UInt8) : AcpiFadtInfo :=
  { decodeFadt (acpiUsed raw) with summary := tableSummary raw }

def madtRecord (raw : List UInt8) : AcpiMadtInfo :=
  { decodeMadt (acpiUsed raw) with summary := tableSummary raw }

def mcfgRecord (raw : List UInt8) : AcpiMcfgInfo :=
  { decodeMcfg (acpiUsed raw) with summary := tableSummary raw }

def hpetRecord (raw : List UInt8) : AcpiHpetInfo :=
  { decodeHpet (acpiUsed raw) with summary := tableSummary raw }

/-- The table has this signature, and its bytes up to the effective length sum to zero. -/
def ValidTable (signature raw : List UInt8) : Prop :=
  fieldBytes raw 0 4 = signature ∧ byteSum (acpiUsed raw) % 256 = 0

instance (signature raw : List UInt8) : Decidable (ValidTable signature raw) :=
  inferInstanceAs (Decidable (_ ∧ _))

/-- What `acpi_collect` has after a table with a whole header. -/
def takeTable (out : AcpiData) (raw : List UInt8) : AcpiData where
  discovered := out.discovered.push (tableSummary raw)
  fadt := if ValidTable sigFacp raw then fadtRecord raw else out.fadt
  madt := if ValidTable sigApic raw then madtRecord raw else out.madt
  mcfg := if ValidTable sigMcfg raw then mcfgRecord raw else out.mcfg
  hpet := if ValidTable sigHpet raw then hpetRecord raw else out.hpet

section Table
variable {raw : List UInt8}

theorem acpiUsed_length (raw : List UInt8) :
    (acpiUsed raw).length = acpiEffectiveLen raw.length (acpiLength raw) := by
  rw [acpiUsed, List.length_take_of_le (acpiEffectiveLen_le _ _)]

theorem segment_acpiUsed (raw : List UInt8) :
    segment (memOf raw) 0 (acpiUsed raw).length = acpiUsed raw := by
  rw [acpiUsed_length, acpiUsed_eq]

theorem fillSummary_val (hsize : acpiRawHeaderSize ≤ raw.length) :
    (fillSummary (acpiUsed raw).length (decide (byteSum (acpiUsed raw) % 256 = 0))).val
      (memOf raw) = tableSummary raw := by
  have hhdr : acpiRawHeaderSize = 36 := rfl
  simp only [fillSummary, ↓Probe.val_bind, Probe.val_ask, Probe.val_pure, readBytes_val]
  rw [segment_memOf raw 0 4 (by omega), segment_memOf raw 10 6 (by omega),
    segment_memOf raw 16 8 (by omega)]
  rfl

theorem sigIs_val (hsize : acpiRawHeaderSize ≤ raw.length) (sig4 : List UInt8) :
    (sigIs sig4).val (memOf raw) = decide (fieldBytes raw 0 4 = sig4) := by
  have hhdr : acpiRawHeaderSize = 36 := rfl
  simp only [sigIs, ↓Probe.val_bind, Probe.val_pure, readBytes_val]
  rw [segment_memOf raw 0 4 (by omega)]
  exact Bool.beq_eq_decide_eq _ _

theorem fillRecord_val (hsize : acpiRawHeaderSize ≤ raw.length)
    (hsum : byteSum (acpiUsed raw) % 256 = 0) (out : AcpiData) :
    (fillRecord (acpiUsed raw).length (tableSummary raw) out).val (memOf raw) =
      { takeTable out raw with discovered := out.discovered } := by
  have hvalid : ∀ s, ValidTable s raw ↔ fieldBytes raw 0 4 = s := fun s => and_iff_left hsum
  simp only [fillRecord, ↓Probe.val_bind, ↓Probe.val_ite, Probe.val_pure, sigIs_val hsize,
    parseFadt_val, parseMadt_val, parseMcfg_val, parseHpet_val, segment_acpiUsed, takeTable, hvalid,
    decide_eq_true_eq]
  split
  · rename_i h
    rw [h]
    rfl
  split
  · rename_i h
    rw [h]
    rfl
  split
  · rename_i h
    rw [h]
    rfl
  split
  · rfl
  · rfl

theorem collectFetched_takeTable (hsize : acpiRawHeaderSize ≤ raw.length) (out : AcpiData) :
    collectFetched out (some raw) = takeTable out raw := by
  have hread : (read32 4 : AcpiProbe _).val (memOf raw) = acpiLength raw := read32_val _ 4
  rw [collectFetched, collectTable, if_neg (Nat.not_lt.mpr hsize)]
  simp only [↓Probe.val_bind, ↓Probe.val_ite, Probe.val_pure, hread, checksum_used]
  rw [← acpiUsed_length, fillSummary_val hsize]
  by_cases hsum : byteSum (acpiUsed raw) % 256 = 0
  · rw [if_pos (decide_eq_true hsum), fillRecord_val hsize hsum]
    rfl
  · have hno : ∀ s, ¬ValidTable s raw := fun s h => hsum h.2
    rw [if_neg fun h => hsum (of_decide_eq_true h), takeTable, if_neg (hno _), if_neg (hno _),
      if_neg (hno _), if_neg (hno _)]

theorem collectFetched_short (hshort : raw.length < acpiRawHeaderSize) (out : AcpiData) :
    collectFetched out (some raw) = out := by
  rw [collectFetched, collectTable, if_pos hshort]
  rfl

end Table

theorem acpiLoop_steps (out : AcpiData) (ts : List (Option (List UInt8))) :
    acpiLoop out ts = ((acpiSteps out ts).map Prod.snd).foldl
      (fun out raw => collectFetched out (some raw)) out := by
  induction ts generalizing out with
  | nil => rfl
  | cons t ts ih =>
    rw [acpiLoop, acpiSteps]
    split
    · rw [ih]
      cases t with
      | none => rfl
      | some raw => rfl
    · rfl

theorem foldl_collectFetched (out : AcpiData) (raws : List (List UInt8)) :
    raws.foldl (fun out raw => collectFetched out (some raw)) out =
      (raws.filter hasHeader).foldl takeTable out := by
  induction raws generalizing out with
  | nil => rfl
  | cons raw raws ih =>
    rcases Nat.lt_or_ge raw.length acpiRawHeaderSize with hshort | hsize
    · have hno : ¬hasHeader raw = true := fun h => absurd (of_decide_eq_true h) (by omega)
      rw [List.foldl_cons, ih, collectFetched_short hshort, List.filter_cons_of_neg hno]
    · have hhas : hasHeader raw = true := decide_eq_true hsize
      rw [List.foldl_cons, ih, collectFetched_takeTable hsize, List.filter_cons_of_pos hhas,
        List.foldl_cons]

theorem acpiLoop_examined (ts : List (Option (List UInt8))) :
    acpiLoop {} ts = (examinedTables ts).foldl takeTable {} := by
  rw [acpiLoop_steps, foldl_collectFetched, acpiSteps_examined]
  rfl

theorem tableSummary_checksumValid (raw : List UInt8) : (tableSummary raw).checksumValid =
    decide (byteSum (acpiUsed raw) % 256 = 0) := by
  rw [tableSummary]

theorem tableSummary_ne {s raw : List UInt8} (h : ValidTable s raw) : tableSummary raw ≠ {} := by
  intro heq
  have hvalid := tableSummary_checksumValid raw
  rw [heq, decide_eq_true h.2] at hvalid
  cases hvalid

theorem fadtRecord_ne {s raw : List UInt8} (h : ValidTable s raw) : fadtRecord raw ≠ {} :=
  fun heq => tableSummary_ne h (congrArg AcpiFadtInfo.summary heq)

theorem madtRecord_ne {s raw : List UInt8} (h : ValidTable s raw) : madtRecord raw ≠ {} :=
  fun heq => tableSummary_ne h (congrArg AcpiMadtInfo.summary heq)

theorem mcfgRecord_ne {s raw : List UInt8} (h : ValidTable s raw) : mcfgRecord raw ≠ {} :=
  fun heq => tableSummary_ne h (congrArg AcpiMcfgInfo.summary heq)

theorem hpetRecord_ne {s raw : List UInt8} (h : ValidTable s raw) : hpetRecord raw ≠ {} :=
  fun heq => tableSummary_ne h (congrArg AcpiHpetInfo.summary heq)

/-- One of the four records: its signature, how it is decoded, and where it stands.
A decoded record is never the record after `memset`. -/
structure AcpiSlot (β : Type) where
  signature : List UInt8
  decode : List UInt8 → β
  get : AcpiData → β
  take : ∀ out raw, get (takeTable out raw) =
    if ValidTable signature raw then decode raw else get out
  nonzero : ∀ raw, ValidTable signature raw → decode raw ≠ get {}

def fadtSlot : AcpiSlot AcpiFadtInfo where
  signature := sigFacp
  decode := fadtRecord
  get := AcpiData.fadt
  take _ _ := rfl
  nonzero _ h := fadtRecord_ne h

def madtSlot : AcpiSlot AcpiMadtInfo where
  signature := sigApic
  decode := madtRecord
  get := AcpiData.madt
  take _ _ := rfl
  nonzero _ h := madtRecord_ne h

def mcfgSlot : AcpiSlot AcpiMcfgInfo where
  signature := sigMcfg
  decode := mcfgRecord
  get := AcpiData.mcfg
  take _ _ := rfl
  nonzero _ h := mcfgRecord_ne h

def hpetSlot : AcpiSlot AcpiHpetInfo where
  signature := sigHpet
  decode := hpetRecord
  get := AcpiData.hpet
  take _ _ := rfl
  nonzero _ h := hpetRecord_ne h

namespace AcpiSlot
variable {β : Type} (slot : AcpiSlot β)

/-- The decoded form of the last table of `raws` that belongs in the slot. -/
def last (raws : List (List UInt8)) : β :=
  ((raws.filter fun raw => ValidTable slot.signature raw).getLast?.map slot.decode).getD
    (slot.get {})

theorem last_eq (raws : List (List UInt8)) : slot.last raws = lastWrite
    (fun raw => if ValidTable slot.signature raw then some (slot.decode raw) else none)
    (slot.get {}) raws := by
  rw [last, lastWrite, ← List.getLast?_map, ← List.filterMap_eq_map, List.filterMap_filter]
  simp only [decide_eq_true_eq]
  rfl

theorem get_foldl (raws : List (List UInt8)) :
    slot.get (raws.foldl takeTable {}) = slot.last raws := by
  rw [last_eq, ← foldl_lastWrite]
  refine foldl_part (I := fun _ => True) takeTable slot.get _ (fun _ _ _ => trivial) ?_ raws trivial
  intro out raw _
  rw [slot.take]
  split
  · rfl
  · rfl

theorem get_acpiLoop (ts : List (Option (List UInt8))) :
    slot.get (acpiLoop {} ts) = slot.last (examinedTables ts) := by
  rw [acpiLoop_examined, get_foldl]

end AcpiSlot

theorem examinedTables_length (ts : List (Option (List UInt8))) :
    (examinedTables ts).length ≤ acpiMaxDiscoveredTables :=
  List.length_take_le _ _

theorem foldl_takeTable_discovered (raws : List (List UInt8)) :
    (raws.foldl takeTable {}).discovered = (raws.map tableSummary).foldl Capped.push .empty := by
  rw [List.foldl_map]
  exact foldl_part (I := fun _ => True) takeTable AcpiData.discovered _ (fun _ _ _ => trivial)
    (fun _ _ _ => rfl) raws trivial

theorem acpiLoop_discovered (ts : List (Option (List UInt8))) :
    (acpiLoop {} ts).discovered.items = (examinedTables ts).map tableSummary := by
  rw [acpiLoop_examined, foldl_takeTable_discovered, Capped.foldl_push_items]
  apply List.take_of_length_le
  rw [Capped.items_empty, List.nil_append, List.length_map]
  exact examinedTables_length ts

/-- A table that one of the four records is decoded from. -/
def Relevant (raw : List UInt8) : Prop :=
  acpiRawHeaderSize ≤ raw.length ∧ ∃ s ∈ [sigFacp, sigApic, sigMcfg, sigHpet], ValidTable s raw

instance (raw : List UInt8) : Decidable (Relevant raw) := inferInstanceAs (Decidable (_ ∧ _))

def AcpiData.records (d : AcpiData) :
    AcpiFadtInfo × AcpiMadtInfo × AcpiMcfgInfo × AcpiHpetInfo :=
  (d.fadt, d.madt, d.mcfg, d.hpet)

theorem takeTable_records {raw : List UInt8} (hsize : acpiRawHeaderSize ≤ raw.length)
    (h : ¬Relevant raw) (out : AcpiData) : (takeTable out raw).records = out.records := by
  have hno : ∀ s ∈ [sigFacp, sigApic, sigMcfg, sigHpet], ¬ValidTable s raw := by
    intro s hs hvalid
    exact h ⟨hsize, s, hs, hvalid⟩
  simp only [List.forall_mem_cons] at hno
  obtain ⟨hfacp, hapic, hmcfg, hhpet, _⟩ := hno
  rw [AcpiData.records, takeTable, if_neg hfacp, if_neg hapic, if_neg hmcfg, if_neg hhpet]
  rfl

theorem collectFetched_records {t : Option (List UInt8)} (h : ∀ raw, t = some raw → ¬Relevant raw)
    (out : AcpiData) : (collectFetched out t).records = out.records := by
  cases t with
  | none => rfl
  | some raw =>
    rcases Nat.lt_or_ge raw.length acpiRawHeaderSize with hshort | hsize
    · rw [collectFetched_short hshort]
    · rw [collectFetched_takeTable hsize, takeTable_records hsize (h raw rfl)]

theorem mcfgRecord_entries (raw : List UInt8) : (mcfgRecord raw).entries.items =
    (List.range (min 16 (((acpiUsed raw).length - 44) / 16))).map fun i =>
      mcfgEntryAt (acpiUsed raw) (44 + 16 * i) := by
  rw [mcfgRecord, decodeMcfg]
  split
  · rename_i hshort
    have hnone : ((acpiUsed raw).length - 44) / 16 = 0 := by omega
    rw [hnone]
    rfl
  · rw [← List.take_range, List.map_take]
    exact Capped.foldl_push_items _ _

/-- The list of tables has one summary for each examined table, each record is the
decoded form of the last examined table that belongs in it, other tables change no
record, and an MCFG keeps its first sixteen records. -/
theorem acpiCollect_records (ts : List (Option (List UInt8))) :
    ((acpiCollect (some ts)).2.discovered.items = (examinedTables ts).map tableSummary ∧
      (acpiCollect (some ts)).2.fadt = fadtSlot.last (examinedTables ts) ∧
      (acpiCollect (some ts)).2.madt = madtSlot.last (examinedTables ts) ∧
      (acpiCollect (some ts)).2.mcfg = mcfgSlot.last (examinedTables ts) ∧
      (acpiCollect (some ts)).2.hpet = hpetSlot.last (examinedTables ts)) ∧
    (∀ t, (∀ raw, t = some raw → ¬Relevant raw) →
      ∀ out, (collectFetched out t).records = out.records) ∧
    ∀ raw, (mcfgRecord raw).entries.items =
      (List.range (min 16 (((acpiUsed raw).length - 44) / 16))).map fun i =>
        mcfgEntryAt (acpiUsed raw) (44 + 16 * i) := by
  refine ⟨⟨acpiLoop_discovered ts, ?_, ?_, ?_, ?_⟩, ?_, mcfgRecord_entries⟩
  · exact fadtSlot.get_acpiLoop ts
  · exact madtSlot.get_acpiLoop ts
  · exact mcfgSlot.get_acpiLoop ts
  · exact hpetSlot.get_acpiLoop ts
  · intro t h out
    exact collectFetched_records h out

end HwMon
