import HwMon.Lib.LastWrite
import HwMon.Smbios.Collect

/-!
# Records that several structures write

A structure writes the fields that its formatted area covers and leaves the
others as they are. So a field of a record comes from the last structure of its
type that covers it, which need not be the last structure of the type.
-/

namespace HwMon
set_option autoImplicit false

/-- The records that describe one object each. -/
structure SmbiosRecords where
  bios : SmbiosBiosInfo
  system : SmbiosSystemInfo
  baseboard : SmbiosBaseboardInfo
  chassis : SmbiosChassisInfo
  deriving DecidableEq

def SmbiosData.records (d : SmbiosData) : SmbiosRecords :=
  ⟨d.bios, d.system, d.baseboard, d.chassis⟩

/-- A field of a record: the type of structure that writes it, the formatted
length that covers it, and what is written. -/
structure RecordField (β : Type) where
  type : UInt8
  covers : Nat
  decode : SmbiosStructure → β
  empty : β
  get : SmbiosRecords → β

def RecordField.write {β : Type} (r : RecordField β) (s : SmbiosStructure) : Option β :=
  if s.type = r.type ∧ r.covers ≤ s.formatted.length then some (r.decode s) else none

def textField (type : UInt8) (off : Nat) (get : SmbiosRecords → CStr smbiosStrMax) :
    RecordField (CStr smbiosStrMax) where
  type := type
  covers := off + 1
  decode s := fieldString s.formatted s.strings off
  empty := .empty
  get := get

def flagField (type : UInt8) (covers : Nat) (get : SmbiosRecords → Bool) : RecordField Bool where
  type := type
  covers := covers
  decode _ := true
  empty := false
  get := get

def chassisTypeField : RecordField UInt8 where
  type := 3
  covers := 0x06
  decode s := s.formatted.getD 0x05 0 &&& 0x7F
  empty := 0
  get d := d.chassis.chassisType

def uuidField (major minor : UInt8) : RecordField (CStr 37) where
  type := 1
  covers := 0x18
  decode s := formatUuid (fieldBytes s.formatted 0x08 16) major minor
  empty := .empty
  get d := d.system.uuid

def recordFields (major minor : UInt8) : List (Sigma RecordField) :=
  [⟨_, flagField 0 0 fun d => d.bios.available⟩,
   ⟨_, textField 0 0x04 fun d => d.bios.vendor⟩,
   ⟨_, textField 0 0x05 fun d => d.bios.version⟩,
   ⟨_, textField 0 0x08 fun d => d.bios.releaseDate⟩,
   ⟨_, flagField 1 0 fun d => d.system.available⟩,
   ⟨_, textField 1 0x04 fun d => d.system.manufacturer⟩,
   ⟨_, textField 1 0x05 fun d => d.system.product⟩,
   ⟨_, textField 1 0x06 fun d => d.system.version⟩,
   ⟨_, textField 1 0x07 fun d => d.system.serial⟩,
   ⟨_, flagField 1 0x18 fun d => d.system.uuidAvailable⟩,
   ⟨_, uuidField major minor⟩,
   ⟨_, flagField 2 0 fun d => d.baseboard.available⟩,
   ⟨_, textField 2 0x04 fun d => d.baseboard.manufacturer⟩,
   ⟨_, textField 2 0x05 fun d => d.baseboard.product⟩,
   ⟨_, textField 2 0x06 fun d => d.baseboard.version⟩,
   ⟨_, textField 2 0x07 fun d => d.baseboard.serial⟩,
   ⟨_, flagField 3 0 fun d => d.chassis.available⟩,
   ⟨_, chassisTypeField⟩,
   ⟨_, textField 3 0x04 fun d => d.chassis.manufacturer⟩,
   ⟨_, textField 3 0x07 fun d => d.chassis.serial⟩]

theorem records_eq_iff (major minor : UInt8) (d e : SmbiosRecords) :
    d = e ↔ ∀ r ∈ recordFields major minor, r.2.get d = r.2.get e := by
  constructor
  · intro heq r _
    obtain rfl := heq
    rfl
  · intro h
    obtain ⟨⟨_, _, _, _⟩, ⟨_, _, _, _, _, _, _⟩, ⟨_, _, _, _, _⟩, ⟨_, _, _, _⟩⟩ := d
    obtain ⟨⟨_, _, _, _⟩, ⟨_, _, _, _, _, _, _⟩, ⟨_, _, _, _, _⟩, ⟨_, _, _, _⟩⟩ := e
    simp only [recordFields, List.forall_mem_cons, textField, flagField, chassisTypeField,
      uuidField] at h
    simp only [h]

theorem RecordField.write_getD {β : Type} (r : RecordField β) (s : SmbiosStructure) (old : β) :
    (r.write s).getD old =
      if s.type = r.type then (if r.covers ≤ s.formatted.length then r.decode s else old)
      else old := by
  rw [RecordField.write]
  by_cases ht : s.type = r.type
  · by_cases hc : r.covers ≤ s.formatted.length
    · rw [if_pos ⟨ht, hc⟩, if_pos ht, if_pos hc, Option.getD_some]
    · rw [if_neg fun h => hc h.2, if_pos ht, if_neg hc, Option.getD_none]
  · rw [if_neg fun h => ht h.1, if_neg ht, Option.getD_none]

/-- A structure overwrites the fields of its type that it covers. -/
theorem recordFields_absorb {major minor : UInt8} (s : SmbiosStructure) {out : SmbiosData}
    (hout : out.VersionIs major minor) :
    ∀ r ∈ recordFields major minor,
      r.2.get (s.absorb out).records = (r.2.write s).getD (r.2.get out.records) := by
  obtain ⟨rfl, rfl⟩ := hout
  simp only [recordFields, List.forall_mem_cons, RecordField.write_getD, SmbiosData.records,
    textField, flagField, chassisTypeField, uuidField, absorb_bios, absorb_system,
    absorb_baseboard, absorb_chassis]
  refine ⟨?_, ?_, ?_, ?_, ?_, ?_, ?_, ?_, ?_, ?_, ?_, ?_, ?_, ?_, ?_, ?_, ?_, ?_, ?_, ?_,
    fun r hr => absurd hr List.not_mem_nil⟩
  all_goals split <;> rfl

theorem recordFields_start (major minor : UInt8) (raw : List UInt8) :
    ∀ r ∈ recordFields major minor, r.2.get (smbiosStart raw).records = r.2.empty := by
  simp only [recordFields, List.forall_mem_cons]
  refine ⟨rfl, rfl, rfl, rfl, rfl, rfl, rfl, rfl, rfl, rfl, rfl, rfl, rfl, rfl, rfl, rfl, rfl, rfl,
    rfl, rfl, fun r hr => absurd hr List.not_mem_nil⟩

def recordKind (s : SmbiosStructure) : Option UInt8 := if s.type ≤ 3 then some s.type else none

theorem recordKind_type {s : SmbiosStructure} {t : UInt8} (h : recordKind s = some t) :
    s.type = t := by
  rw [recordKind] at h
  split at h
  · exact Option.some.inj h
  · cases h

theorem recordFields_kind (major minor : UInt8) :
    ∀ r ∈ recordFields major minor, ∀ s, r.2.write s ≠ none → recordKind s = some r.2.type := by
  have hkind : ∀ r ∈ recordFields major minor, r.2.type ≤ 3 := by
    simp [recordFields, textField, flagField, chassisTypeField, uuidField]
  intro r hr s hs
  have htype : s.type = r.2.type := by
    by_contra h
    exact hs (if_neg fun h' => h h'.1)
  rw [recordKind, htype, if_pos (hkind r hr)]

section Table
variable {raw : List UInt8} {ss : List SmbiosStructure} {tail : List UInt8}

theorem result_field (hsize : 8 ≤ raw.length) (hl : smbiosTable raw = tableBytes ss ++ tail)
    (hss : ∀ s ∈ ss, s.type ≠ endOfTable) (htail : TableTail tail) :
    ∀ r ∈ recordFields (memOf raw 1) (memOf raw 2),
      r.2.get (smbiosResult raw).records = lastWrite r.2.write r.2.empty ss := by
  intro r hr
  have hfold : r.2.get (ss.foldl SmbiosStructure.absorb (smbiosStart raw)).records =
      ss.foldl (fun b s => (r.2.write s).getD b) (r.2.get (smbiosStart raw).records) :=
    foldl_part SmbiosStructure.absorb (fun out => r.2.get out.records)
      (fun b s => (r.2.write s).getD b) absorb_versionIs
      (fun _ s hout => recordFields_absorb s hout r hr) ss ⟨rfl, rfl⟩
  rw [recordFields_start _ _ raw r hr, foldl_lastWrite] at hfold
  rw [smbiosResult_structures hsize hl hss htail.stuck, finishTable_tail _ htail]
  exact hfold

end Table

/-- The last structure of the field's type covers the field, or what the last
earlier one that covers it writes is empty. -/
def RecordField.Fresh {β : Type} (r : RecordField β) (ss : List SmbiosStructure) : Prop :=
  ∀ s, (ofKind recordKind r.type ss).getLast? = some s → s.formatted.length < r.covers →
    ∀ b, (ss.filterMap r.write).getLast? = some b → b = r.empty

theorem RecordField.fresh_iff {β : Type} {r : RecordField β}
    (hkind : ∀ s, r.write s ≠ none → recordKind s = some r.type) (ss : List SmbiosStructure) :
    lastWrite r.write r.empty ss = lastWrite r.write r.empty (keepLast recordKind ss) ↔
      r.Fresh ss := by
  rw [lastWrite_eq_keepLast_iff hkind]
  have hcovers : ∀ s, (ofKind recordKind r.type ss).getLast? = some s →
      (r.write s = none ↔ s.formatted.length < r.covers) := by
    intro s hs
    have htype := recordKind_type (of_decide_eq_true
      (List.mem_filter.mp (List.mem_of_getLast? hs)).2)
    rw [RecordField.write, htype]
    by_cases hc : r.covers ≤ s.formatted.length
    · rw [if_pos ⟨rfl, hc⟩]
      exact iff_of_false (Option.some_ne_none _) (Nat.not_lt.mpr hc)
    · rw [if_neg fun h => hc h.2]
      exact iff_of_true rfl (Nat.lt_of_not_le hc)
  constructor
  · intro h s hs hshort
    exact h s hs ((hcovers s hs).mpr hshort)
  · intro h s hs hnone
    exact h s hs ((hcovers s hs).mp hnone)

/-- The records are those of the last structure of each type just when no field
that this structure leaves out has something else in an earlier one. -/
theorem records_eq_keepLast_iff {raw raw' : List UInt8} (hsize : 8 ≤ raw.length)
    (hsize' : 8 ≤ raw'.length) (hmajor : memOf raw' 1 = memOf raw 1)
    (hminor : memOf raw' 2 = memOf raw 2) {ss : List SmbiosStructure} {tail : List UInt8}
    (hss : ∀ s ∈ ss, s.type ≠ endOfTable) (htail : TableTail tail)
    (hl : smbiosTable raw = tableBytes ss ++ tail)
    (hl' : smbiosTable raw' = tableBytes (keepLast recordKind ss) ++ tail) :
    (smbiosResult raw).records = (smbiosResult raw').records ↔
      ∀ r ∈ recordFields (memOf raw 1) (memOf raw 2), r.2.Fresh ss := by
  have hss' : ∀ s ∈ keepLast recordKind ss, s.type ≠ endOfTable :=
    fun s hs => hss s (mem_of_mem_keepLast recordKind hs)
  have hfield := result_field hsize hl hss htail
  have hfield' := result_field hsize' hl' hss' htail
  rw [hmajor, hminor] at hfield'
  rw [records_eq_iff (memOf raw 1) (memOf raw 2)]
  apply forall₂_congr
  intro r hr
  rw [hfield r hr, hfield' r hr]
  exact RecordField.fresh_iff (recordFields_kind _ _ r hr) ss

/-- Two baseboard structures; the second one ends after its manufacturer. -/
def longBoard : SmbiosStructure where
  formatted := [2, 6, 0, 0, 1, 2]
  strings := [65, 0, 66, 0, 0]
  four_le := by decide
  length_eq := by decide
  closed := by decide

def shortBoard : SmbiosStructure where
  formatted := [2, 5, 1, 0, 1]
  strings := [67, 0, 0]
  four_le := by decide
  length_eq := by decide
  closed := by decide

def twoBoards : List UInt8 := [0, 3, 0, 0, 19, 0, 0, 0] ++ tableBytes [longBoard, shortBoard]

def oneBoard : List UInt8 := [0, 3, 0, 0, 8, 0, 0, 0] ++ tableBytes [shortBoard]

theorem twoBoards_mixed :
    memOf oneBoard 1 = memOf twoBoards 1 ∧ memOf oneBoard 2 = memOf twoBoards 2 ∧
      smbiosTable twoBoards = tableBytes [longBoard, shortBoard] ++ [] ∧
      smbiosTable oneBoard = tableBytes (keepLast recordKind [longBoard, shortBoard]) ++ [] ∧
      (smbiosResult twoBoards).records ≠ (smbiosResult oneBoard).records := by
  decide +kernel

theorem twoBoards_records :
    (smbiosResult twoBoards).records = (smbiosResult oneBoard).records ↔
      ∀ r ∈ recordFields 3 0, r.2.Fresh [longBoard, shortBoard] :=
  records_eq_keepLast_iff (by decide) (by decide) (by decide)
    (by decide) (by decide) (Or.inl rfl) (by decide) (by decide)

end HwMon
