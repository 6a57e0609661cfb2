import HwMon.Acpi.Collect

/-!
# Tables that no record is decoded from

A relevant table counts only while fewer than 64 tables with a whole header
came before it. Two enumerations with the same relevant tables reach prefixes
of one list of relevant tables, and the records differ just when what only one
of them reaches changes a record.
-/

namespace HwMon
set_option autoImplicit false

def relevantTables (ts : List (Option (List UInt8))) : List (List UInt8) :=
  (ts.filterMap id).filter fun raw => Relevant raw

def reachedTables (ts : List (Option (List UInt8))) : List (List UInt8) :=
  (examinedTables ts).filter fun raw => Relevant raw

theorem reachedTables_prefix (ts : List (Option (List UInt8))) :
    reachedTables ts <+: relevantTables ts := by
  have hheader : ((ts.filterMap id).filter hasHeader).filter (fun raw => Relevant raw) =
      relevantTables ts := by
    rw [List.filter_filter, relevantTables]
    refine List.filter_congr fun raw _ => ?_
    by_cases h : Relevant raw
    · rw [hasHeader, decide_eq_true h, decide_eq_true h.1]
      rfl
    · rw [decide_eq_false h]
      rfl
  rw [← hheader]
  exact (List.take_prefix _ _).filter _

namespace AcpiSlot
variable {β : Type} (slot : AcpiSlot β)

def tables (raws : List (List UInt8)) : List (List UInt8) :=
  raws.filter fun raw => ValidTable slot.signature raw

theorem last_tables (raws : List (List UInt8)) :
    slot.last raws = ((slot.tables raws).getLast?.map slot.decode).getD (slot.get {}) := rfl

/-- The tables `extra` that come after `common` leave the record as it is: none belongs
in the slot, or the last one that does says what the last one before said. -/
def Settled (common extra : List (List UInt8)) : Prop :=
  ∀ raw, (slot.tables extra).getLast? = some raw →
    ∃ raw', (slot.tables common).getLast? = some raw' ∧ slot.decode raw' = slot.decode raw

theorem last_append_iff (common extra : List (List UInt8)) :
    slot.last (common ++ extra) = slot.last common ↔ slot.Settled common extra := by
  have htables : slot.tables (common ++ extra) = slot.tables common ++ slot.tables extra :=
    List.filter_append _ _
  rw [last_tables, last_tables, htables, List.getLast?_append, Settled]
  cases hextra : (slot.tables extra).getLast? with
  | none => exact iff_of_true rfl fun raw h => by cases h
  | some raw =>
    have hvalid : ValidTable slot.signature raw :=
      of_decide_eq_true (List.mem_filter.mp (List.mem_of_getLast? hextra)).2
    cases hcommon : (slot.tables common).getLast? with
    | none =>
      refine iff_of_false (slot.nonzero raw hvalid) ?_
      intro h
      obtain ⟨raw', hraw', _⟩ := h raw rfl
      cases hraw'
    | some raw' =>
      constructor
      · intro h raw'' hraw''
        cases hraw''
        exact ⟨raw', rfl, h.symm⟩
      · intro h
        obtain ⟨_, hraw', heq⟩ := h raw rfl
        cases hraw'
        exact heq.symm

theorem last_reached (hsig : slot.signature ∈ [sigFacp, sigApic, sigMcfg, sigHpet])
    (ts : List (Option (List UInt8))) :
    slot.last (examinedTables ts) = slot.last (reachedTables ts) := by
  have htables : slot.tables (reachedTables ts) = slot.tables (examinedTables ts) := by
    rw [tables, reachedTables, List.filter_filter]
    refine List.filter_congr fun raw hraw => ?_
    by_cases h : ValidTable slot.signature raw
    · have hsize := (mem_examinedTables.mp hraw).2
      have hrel : Relevant raw := ⟨hsize, slot.signature, hsig, h⟩
      rw [decide_eq_true h, decide_eq_true hrel]
      rfl
    · rw [decide_eq_false h]
      rfl
  rw [last_tables, last_tables, htables]

end AcpiSlot

structure RecordsSettled (common extra : List (List UInt8)) : Prop where
  fadt : fadtSlot.Settled common extra
  madt : madtSlot.Settled common extra
  mcfg : mcfgSlot.Settled common extra
  hpet : hpetSlot.Settled common extra

theorem recordsSettled_nil (common : List (List UInt8)) : RecordsSettled common [] := by
  refine ⟨?_, ?_, ?_, ?_⟩
  · intro raw h
    cases h
  · intro raw h
    cases h
  · intro raw h
    cases h
  · intro raw h
    cases h

theorem acpiLoop_records (ts : List (Option (List UInt8))) :
    (acpiLoop {} ts).records = (fadtSlot.last (reachedTables ts), madtSlot.last (reachedTables ts),
      mcfgSlot.last (reachedTables ts), hpetSlot.last (reachedTables ts)) := by
  rw [← fadtSlot.last_reached (by decide), ← madtSlot.last_reached (by decide),
    ← mcfgSlot.last_reached (by decide), ← hpetSlot.last_reached (by decide)]
  rw [← AcpiSlot.get_acpiLoop, ← AcpiSlot.get_acpiLoop, ← AcpiSlot.get_acpiLoop,
    ← AcpiSlot.get_acpiLoop]
  rfl

theorem acpiRecords_append_iff {ts ts' : List (Option (List UInt8))} {extra : List (List UInt8)}
    (h : reachedTables ts' = reachedTables ts ++ extra) :
    (acpiLoop {} ts').records = (acpiLoop {} ts).records ↔
      RecordsSettled (reachedTables ts) extra := by
  have hfadt := fadtSlot.last_append_iff (reachedTables ts) extra
  have hmadt := madtSlot.last_append_iff (reachedTables ts) extra
  have hmcfg := mcfgSlot.last_append_iff (reachedTables ts) extra
  have hhpet := hpetSlot.last_append_iff (reachedTables ts) extra
  rw [acpiLoop_records, acpiLoop_records, h, Prod.mk.injEq, Prod.mk.injEq, Prod.mk.injEq,
    hfadt, hmadt, hmcfg, hhpet]
  constructor
  · intro hall
    obtain ⟨h1, h2, h3, h4⟩ := hall
    exact ⟨h1, h2, h3, h4⟩
  · intro hall
    exact ⟨hall.fadt, hall.madt, hall.mcfg, hall.hpet⟩

def commonTables (ts ts' : List (Option (List UInt8))) : List (List UInt8) :=
  (reachedTables ts).take (reachedTables ts').length

/-- The relevant tables that only one of the enumerations reaches. -/
def onlyOneReaches (ts ts' : List (Option (List UInt8))) : List (List UInt8) :=
  (reachedTables ts).drop (reachedTables ts').length ++
    (reachedTables ts').drop (reachedTables ts).length

/-- With the same relevant tables, the records are the same just when the tables that only
one enumeration reaches leave them as they are. -/
theorem acpiRecords_eq_iff (ts ts' : List (Option (List UInt8)))
    (hsame : relevantTables ts = relevantTables ts') :
    (acpiCollect (some ts)).2.records = (acpiCollect (some ts')).2.records ↔
      RecordsSettled (commonTables ts ts') (onlyOneReaches ts ts') := by
  have hts := reachedTables_prefix ts
  have hts' := reachedTables_prefix ts'
  rw [hsame] at hts
  change (acpiLoop {} ts).records = (acpiLoop {} ts').records ↔ _
  rw [commonTables, onlyOneReaches]
  rcases Nat.le_total (reachedTables ts).length (reachedTables ts').length with hle | hle
  · obtain ⟨extra, hextra⟩ := List.prefix_of_prefix_length_le hts hts' hle
    rw [List.take_of_length_le hle, List.drop_of_length_le hle, List.nil_append, ← hextra,
      List.drop_left, eq_comm]
    exact acpiRecords_append_iff hextra.symm
  · obtain ⟨extra, hextra⟩ := List.prefix_of_prefix_length_le hts' hts hle
    rw [List.drop_of_length_le hle, List.append_nil, ← hextra, List.take_left, List.drop_left]
    exact acpiRecords_append_iff hextra.symm

/-- A `FACP` table of 48 bytes that sum to zero. -/
def smallFadt : List UInt8 := sigFacp ++ [48, 0, 0, 0, 1, 181] ++ List.replicate 38 0

theorem smallFadt_settled :
    (acpiCollect (some [none, some smallFadt])).2.records =
      (acpiCollect (some [some smallFadt])).2.records :=
  (acpiRecords_eq_iff _ _ (by decide)).mpr <| by
    have hnone : onlyOneReaches [none, some smallFadt] [some smallFadt] = [] := by
      decide
    rw [hnone]
    exact recordsSettled_nil _

/-- A table of no relevant signature: 36 zero bytes. -/
def blankTable : List UInt8 := List.replicate acpiRawHeaderSize 0

/-- Behind 64 tables that nobody parses, the same `FACP` table is not parsed. -/
theorem blankTables_hide :
    relevantTables (List.replicate 64 (some blankTable) ++ [some smallFadt]) =
        relevantTables [some smallFadt] ∧ relevantTables [some smallFadt] = [smallFadt] ∧
      (acpiCollect (some (List.replicate 64 (some blankTable) ++ [some smallFadt]))).2.records ≠
        (acpiCollect (some [some smallFadt])).2.records := by
  refine ⟨by decide, by decide, ?_⟩
  decide

end HwMon
