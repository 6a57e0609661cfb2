import HwMon.Lib.LastWrite
import HwMon.Smbios.Collect

/-!
# Decoding an encoded table

An entry is a structure before it is encoded: a formatted area and a list of
strings. The collector gives back the entries of an encoded table, whatever
follows its end.
-/

namespace HwMon
set_option autoImplicit false

/-- The text of a UUID. From version 2.6 on the first three groups are stored
with their low byte first. -/
def uuidText (major minor : UInt8) (u : List UInt8) : List UInt8 :=
  let stored (first n : Nat) : List UInt8 :=
    if major > 2 || (major == 2 && minor ≥ 6) then ((u.drop first).take n).reverse
    else (u.drop first).take n
  [45].intercalate ([stored 0 4, stored 4 2, stored 6 2, (u.drop 8).take 2, (u.drop 10).take 6].map
    fun g => g.flatMap hexByte)

theorem hexDigit_ne_zero {n : UInt8} (h : n.toNat < 16) : hexDigit n ≠ 0 := by
  intro hz
  have hnat := congrArg UInt8.toNat hz
  unfold hexDigit at hnat
  split at hnat
  · rw [UInt8.toNat_add] at hnat
    simp at hnat
    omega
  · rw [UInt8.toNat_add] at hnat
    simp at hnat
    omega

theorem zero_notMem_hexByte (b : UInt8) : 0 ∉ hexByte b := by
  have hhigh := hexDigit_ne_zero (n := b / 16) (by simp; have := b.toNat_lt; omega)
  have hlow := hexDigit_ne_zero (n := b % 16) (by simp; omega)
  rw [hexByte, List.mem_cons, List.mem_singleton, not_or]
  exact ⟨hhigh.symm, hlow.symm⟩

theorem uuidText_length {major minor : UInt8} {u : List UInt8} (h : u.length = 16) :
    (uuidText major minor u).length = 36 := by
  match u, h with
  | [_, _, _, _, _, _, _, _, _, _, _, _, _, _, _, _], _ =>
    unfold uuidText
    split <;> rfl

theorem formatUuid_eq (major minor : UInt8) {u : List UInt8} (h : u.length = 16) :
    formatUuid u major minor = .ofBytes (uuidText major minor u) := by
  match u, h with
  | [_, _, _, _, _, _, _, _, _, _, _, _, _, _, _, _], _ =>
    dsimp only [uuidText, formatUuid]
    generalize (decide (major > 2) || major == 2 && decide (minor ≥ 6)) = littleEndian
    cases littleEndian with
    | false => rfl
    | true => rfl

theorem zero_notMem_uuidText (major minor : UInt8) (u : List UInt8) :
    0 ∉ uuidText major minor u := by
  have hgroup : ∀ g : List UInt8, 0 ∉ g.flatMap hexByte := by
    intro g hg
    obtain ⟨b, _, hb⟩ := List.mem_flatMap.mp hg
    exact zero_notMem_hexByte b hb
  unfold uuidText
  simp [List.intercalate, List.intersperse, hgroup]

/-- A structure before it is encoded, with its strings in order. -/
structure SmbiosEntry where
  formatted : List UInt8
  texts : List (List UInt8)
  four_le : 4 ≤ formatted.length
  length_eq : (formatted.getD 1 0).toNat = formatted.length
  type_ne : formatted.getD 0 0 ≠ endOfTable
  texts_ok : ∀ t ∈ texts, t ≠ [] ∧ 0 ∉ t

namespace SmbiosEntry

def type (e : SmbiosEntry) : UInt8 := e.formatted.getD 0 0

def encode (e : SmbiosEntry) : List UInt8 := e.formatted ++ encodeStrings e.texts

def textAt (e : SmbiosEntry) : Nat → List UInt8
  | 0 => []
  | k + 1 => e.texts.getD k []

theorem zero_notMem_textAt (e : SmbiosEntry) (index : Nat) : 0 ∉ e.textAt index := by
  cases index with
  | zero => exact List.not_mem_nil
  | succ k =>
    rw [textAt, List.getD_eq_getElem?_getD]
    cases h : e.texts[k]? with
    | none => exact List.not_mem_nil
    | some t => exact (e.texts_ok t (List.mem_of_getElem? h)).2

def text (e : SmbiosEntry) (off : Nat) : CStr smbiosStrMax where
  bytes :=
    if off < e.formatted.length then (e.textAt (e.formatted.getD off 0).toNat).take 63 else []
  noNul := by
    split
    · exact fun h => e.zero_notMem_textAt _ (List.mem_of_mem_take h)
    · exact List.not_mem_nil
  fits := by
    have hmax : smbiosStrMax = 64 := rfl
    split
    · have hlen := List.length_take_le 63 (e.textAt (e.formatted.getD off 0).toNat)
      omega
    · exact Nat.pos_of_neZero _

def bios (e : SmbiosEntry) : SmbiosBiosInfo where
  available := true
  vendor := e.text 0x04
  version := e.text 0x05
  releaseDate := e.text 0x08

def uuid (major minor : UInt8) (e : SmbiosEntry) : CStr 37 where
  bytes := if 0x18 ≤ e.formatted.length then
      uuidText major minor (fieldBytes e.formatted 0x08 16) else []
  noNul := by
    split
    · exact zero_notMem_uuidText _ _ _
    · exact List.not_mem_nil
  fits := by
    split
    · rename_i h
      rw [uuidText_length (fieldBytes_length h)]
      exact Nat.lt_succ_self 36
    · exact Nat.succ_pos 36

def system (major minor : UInt8) (e : SmbiosEntry) : SmbiosSystemInfo where
  available := true
  manufacturer := e.text 0x04
  product := e.text 0x05
  version := e.text 0x06
  serial := e.text 0x07
  uuidAvailable := decide (0x18 ≤ e.formatted.length)
  uuid := e.uuid major minor

def baseboard (e : SmbiosEntry) : SmbiosBaseboardInfo where
  available := true
  manufacturer := e.text 0x04
  product := e.text 0x05
  version := e.text 0x06
  serial := e.text 0x07

def chassis (e : SmbiosEntry) : SmbiosChassisInfo where
  available := true
  chassisType := if 0x05 < e.formatted.length then e.formatted.getD 0x05 0 &&& 0x7F else 0
  manufacturer := e.text 0x04
  serial := e.text 0x07

def memoryDevice (e : SmbiosEntry) : SmbiosMemoryDevice where
  populated := (decodeMemorySize e.formatted).1
  sizeMb := (decodeMemorySize e.formatted).2
  memoryType := if 0x12 < e.formatted.length then e.formatted.getD 0x12 0 else 0
  speedMts := (if 0x17 ≤ e.formatted.length then fieldWord e.formatted 0x15 else 0).toUInt32
  configuredSpeedMts :=
    (if 0x26 ≤ e.formatted.length then fieldWord e.formatted 0x24 else 0).toUInt32
  locator := e.text 0x10
  manufacturer := e.text 0x17
  serial := e.text 0x18
  partNumber := e.text 0x1A

def memoryDevice? (e : SmbiosEntry) : Option SmbiosMemoryDevice :=
  if e.type = 17 then some e.memoryDevice else none

def toStructure (e : SmbiosEntry) : SmbiosStructure where
  formatted := e.formatted
  strings := encodeStrings e.texts
  four_le := e.four_le
  length_eq := e.length_eq
  closed := encodeStrings_closed e.texts_ok

theorem fieldStringOr_encode (e : SmbiosEntry) (off : Nat) :
    fieldStringOr e.formatted (encodeStrings e.texts) off .empty = e.text off := by
  apply CStr.ext
  rw [fieldStringOr, text]
  by_cases hoff : off < e.formatted.length
  · have htext : (stringAt (encodeStrings e.texts) (e.formatted.getD off 0).toNat).getD [] =
        e.textAt (e.formatted.getD off 0).toNat := by
      rw [stringAt_encodeStrings e.texts_ok]
      cases (e.formatted.getD off 0).toNat with
      | zero => rfl
      | succ k => exact (List.getD_eq_getElem?_getD ..).symm
    rw [if_pos hoff, fieldString, htext, CStr.ofBytes_bytes (e.zero_notMem_textAt _)]
    exact (if_pos hoff).symm
  · rw [if_neg hoff]
    exact (if_neg hoff).symm

theorem decodeBios_encode (e : SmbiosEntry) :
    decodeBios e.formatted (encodeStrings e.texts) {} = e.bios := by
  simp only [decodeBios, fieldStringOr_encode]
  rfl

theorem uuid_bytes (major minor : UInt8) (e : SmbiosEntry) :
    (e.uuid major minor).bytes = if 0x18 ≤ e.formatted.length then
      uuidText major minor (fieldBytes e.formatted 0x08 16) else [] := rfl

theorem formatUuid_encode (major minor : UInt8) (e : SmbiosEntry) :
    (if 0x18 ≤ e.formatted.length then formatUuid (fieldBytes e.formatted 0x08 16) major minor
      else .empty) = e.uuid major minor := by
  apply CStr.ext
  rw [uuid_bytes]
  by_cases h : 0x18 ≤ e.formatted.length
  · have hlen : (fieldBytes e.formatted 0x08 16).length = 16 := fieldBytes_length h
    rw [if_pos h, if_pos h, formatUuid_eq _ _ hlen, CStr.ofBytes_bytes (zero_notMem_uuidText _ _ _)]
    exact List.take_of_length_le (Nat.le_of_eq (uuidText_length hlen))
  · rw [if_neg h, if_neg h]
    rfl

theorem decodeSystem_encode (major minor : UInt8) (e : SmbiosEntry) :
    decodeSystem major minor e.formatted (encodeStrings e.texts) {} = e.system major minor := by
  simp only [decodeSystem, fieldStringOr_encode, formatUuid_encode, system]
  by_cases h : 0x18 ≤ e.formatted.length
  · rw [if_pos h, decide_eq_true h]
  · rw [if_neg h, decide_eq_false h]

theorem decodeBaseboard_encode (e : SmbiosEntry) :
    decodeBaseboard e.formatted (encodeStrings e.texts) {} = e.baseboard := by
  simp only [decodeBaseboard, fieldStringOr_encode]
  rfl

theorem decodeChassis_encode (e : SmbiosEntry) :
    decodeChassis e.formatted (encodeStrings e.texts) {} = e.chassis := by
  simp only [decodeChassis, fieldStringOr_encode]
  rfl

theorem decodeMemoryDevice_encode (e : SmbiosEntry) :
    decodeMemoryDevice e.formatted (encodeStrings e.texts) = e.memoryDevice := by
  simp only [decodeMemoryDevice, fieldStringOr_encode]
  rfl

end SmbiosEntry

/-- A raw buffer: the header with the length of the table, the table, and more bytes. -/
def encodeRaw (method major minor revision : UInt8) (table junk : List UInt8) : List UInt8 :=
  [method, major, minor, revision] ++ leBytes 4 table.length ++ table ++ junk

def encodeTable (es : List SmbiosEntry) : List UInt8 := es.flatMap SmbiosEntry.encode

theorem encodeTable_eq (es : List SmbiosEntry) :
    encodeTable es = tableBytes (es.map SmbiosEntry.toStructure) := by
  induction es with
  | nil => rfl
  | cons e es ih =>
    rw [List.map_cons, tableBytes_cons, ← ih]
    rfl

section Raw
variable {method major minor revision : UInt8} {table junk : List UInt8}

theorem encodeRaw_length :
    (encodeRaw method major minor revision table junk).length = 8 + table.length + junk.length := by
  simp only [encodeRaw, List.length_append, leBytes_length, List.length_cons, List.length_nil]

theorem smbiosLength_encodeRaw (hlen : table.length < 2 ^ 32) :
    (smbiosLength (encodeRaw method major minor revision table junk)).toNat = table.length := by
  have hlong : 4 + 4 ≤ (encodeRaw method major minor revision table junk).length := by
    rw [encodeRaw_length]
    omega
  have hfield : ((encodeRaw method major minor revision table junk).drop 4).take 4 =
      leBytes 4 table.length := by
    simp only [encodeRaw, List.append_assoc]
    exact List.take_left' (leBytes_length 4 _)
  rw [smbiosLength, segment_memOf _ 4 4 hlong, hfield, leNat_leBytes, UInt32.toNat_ofNat']
  omega

theorem smbiosTable_encodeRaw (hlen : table.length < 2 ^ 32) :
    smbiosTable (encodeRaw method major minor revision table junk) = table := by
  have hdrop : (encodeRaw method major minor revision table junk).drop 8 = table ++ junk := by
    rw [encodeRaw, List.append_assoc]
    exact List.drop_left' (by simp)
  rw [smbiosTable, smbiosLength_encodeRaw hlen, hdrop, List.take_left]

end Raw

section Fold
variable {es : List SmbiosEntry}

/-- A record that exactly one entry writes is decoded from that entry. -/
theorem foldl_absorb_single {β : Type} {major minor : UInt8} (get : SmbiosData → β) (t : UInt8)
    (decode : SmbiosStructure → β → β)
    (hstep : ∀ (out : SmbiosData) (s : SmbiosStructure), out.VersionIs major minor →
      get (s.absorb out) = if s.type = t then decode s (get out) else get out)
    {e : SmbiosEntry} (h : es.filter (fun e => e.type = t) = [e]) {out : SmbiosData}
    (hout : out.VersionIs major minor) :
    get ((es.map SmbiosEntry.toStructure).foldl SmbiosStructure.absorb out) =
      decode e.toStructure (get out) := by
  have hpart := foldl_part SmbiosStructure.absorb get
    (fun b s => if s.type = t then decode s b else b) absorb_versionIs hstep
    (es.map SmbiosEntry.toStructure) hout
  have hfilter : (es.map SmbiosEntry.toStructure).filter (fun s => s.type = t) =
      [e.toStructure] := by
    rw [List.filter_map]
    exact congrArg (List.map SmbiosEntry.toStructure) h
  have hfold : ((es.map SmbiosEntry.toStructure).filter (fun s => s.type = t)).foldl
      (fun b s => decode s b) (get out) = (es.map SmbiosEntry.toStructure).foldl
        (fun b s => if s.type = t then decode s b else b) (get out) := by
    rw [List.foldl_filter]
    simp only [decide_eq_true_eq]
  rw [hpart, ← hfold, hfilter]
  rfl

theorem filterMap_memoryDevice (es : List SmbiosEntry) :
    (es.map SmbiosEntry.toStructure).filterMap SmbiosStructure.memoryDevice? =
      es.filterMap SmbiosEntry.memoryDevice? := by
  rw [List.filterMap_map]
  apply List.filterMap_congr
  intro e _
  simp only [Function.comp_apply, SmbiosStructure.memoryDevice?, SmbiosEntry.memoryDevice?,
    ← SmbiosEntry.decodeMemoryDevice_encode]
  rfl

end Fold

/-- The data that an encoded table stands for. -/
structure DecodesTo (major minor : UInt8) (es : List SmbiosEntry) (d : SmbiosData) : Prop where
  available : d.available = decide (0 < es.length)
  majorVersion : d.majorVersion = major
  minorVersion : d.minorVersion = minor
  structuresParsed : d.structuresParsed = es.length
  structuresMalformedSkipped : d.structuresMalformedSkipped = 0
  memoryDevices : d.memoryDevices.items = (es.filterMap SmbiosEntry.memoryDevice?).take 64
  memoryDeviceCount : d.memoryDeviceCount = min 64 (es.filterMap SmbiosEntry.memoryDevice?).length
  bios : ∀ e, es.filter (fun e => e.type = 0) = [e] → d.bios = e.bios
  system : ∀ e, es.filter (fun e => e.type = 1) = [e] → d.system = e.system major minor
  baseboard : ∀ e, es.filter (fun e => e.type = 2) = [e] → d.baseboard = e.baseboard
  chassis : ∀ e, es.filter (fun e => e.type = 3) = [e] → d.chassis = e.chassis

theorem decodesTo_foldl (major minor : UInt8) (es : List SmbiosEntry) :
    DecodesTo major minor es ((es.map SmbiosEntry.toStructure).foldl SmbiosStructure.absorb
      { majorVersion := major, minorVersion := minor }).finish := by
  obtain ⟨hparsed, hskipped⟩ := foldl_absorb_counts (es.map SmbiosEntry.toStructure)
    { majorVersion := major, minorVersion := minor }
  have hversion := foldl_absorb_versionIs (es.map SmbiosEntry.toStructure)
    { majorVersion := major, minorVersion := minor } ⟨rfl, rfl⟩
  have hitems : ((es.map SmbiosEntry.toStructure).foldl SmbiosStructure.absorb
      { majorVersion := major, minorVersion := minor }).memoryDevices.items =
        (es.filterMap SmbiosEntry.memoryDevice?).take 64 := by
    rw [foldl_absorb_memoryDevices, Capped.pushAll_items, filterMap_memoryDevice]
    rfl
  rw [List.length_map] at hparsed
  have hn : ((es.map SmbiosEntry.toStructure).foldl SmbiosStructure.absorb
      { majorVersion := major, minorVersion := minor }).structuresParsed = es.length :=
    hparsed.trans (Nat.zero_add _)
  refine ⟨congrArg (fun n => decide (0 < n)) hn, hversion.1, hversion.2, hn, hskipped, hitems, ?_,
    fun e he => ?_, fun e he => ?_, fun e he => ?_, fun e he => ?_⟩
  · exact (congrArg List.length hitems).trans List.length_take
  · rw [← e.decodeBios_encode]
    exact foldl_absorb_single SmbiosData.bios 0 (fun s b => decodeBios s.formatted s.strings b)
      (fun out s _ => absorb_bios s out) he ⟨rfl, rfl⟩
  · rw [← e.decodeSystem_encode]
    refine foldl_absorb_single SmbiosData.system 1
      (fun s b => decodeSystem major minor s.formatted s.strings b) ?_ he ⟨rfl, rfl⟩
    intro out s h
    obtain ⟨rfl, rfl⟩ := h
    exact absorb_system s out
  · rw [← e.decodeBaseboard_encode]
    exact foldl_absorb_single SmbiosData.baseboard 2
      (fun s b => decodeBaseboard s.formatted s.strings b)
      (fun out s _ => absorb_baseboard s out) he ⟨rfl, rfl⟩
  · rw [← e.decodeChassis_encode]
    exact foldl_absorb_single SmbiosData.chassis 3
      (fun s b => decodeChassis s.formatted s.strings b)
      (fun out s _ => absorb_chassis s out) he ⟨rfl, rfl⟩

/-- Collecting an encoded table gives back its entries, with or without an
end-of-table marker, and whatever follows. -/
theorem smbiosCollect_encode (method major minor revision : UInt8) (es : List SmbiosEntry)
    {tail : List UInt8} (htail : TableTail tail) (junk : List UInt8)
    (hlen : (encodeTable es ++ tail).length < 2 ^ 32) :
    ∃ d, smbiosCollect (some (encodeRaw method major minor revision
        (encodeTable es ++ tail) junk)) = (true, d) ∧ DecodesTo major minor es d := by
  have hsize : 8 ≤ (encodeRaw method major minor revision
      (encodeTable es ++ tail) junk).length := by
    rw [encodeRaw_length]
    omega
  have hl : smbiosTable (encodeRaw method major minor revision (encodeTable es ++ tail) junk) =
      tableBytes (es.map SmbiosEntry.toStructure) ++ tail := by
    rw [smbiosTable_encodeRaw hlen, encodeTable_eq]
  have htypes : ∀ s ∈ es.map SmbiosEntry.toStructure, s.type ≠ endOfTable := by
    intro s hs
    obtain ⟨e, _, rfl⟩ := List.mem_map.mp hs
    exact e.type_ne
  have hcollect := (smbiosCollect_structures hsize hl htypes htail.stuck).1
  rw [finishTable_tail _ htail] at hcollect
  exact ⟨_, hcollect, decodesTo_foldl major minor es⟩

def biosEntry : SmbiosEntry where
  formatted := [0, 9, 0, 0, 1, 2, 0, 0, 3]
  texts := [[65, 66], [67]]
  four_le := by decide
  length_eq := by decide
  type_ne := by decide
  texts_ok := by decide

/-- One entry, an end-of-table marker without strings, and more bytes. -/
theorem smbiosCollect_biosEntry :
    ∃ d, smbiosCollect (some (encodeRaw 0 3 1 0 (encodeTable [biosEntry] ++ [127, 4, 9, 9, 1])
      [7, 7])) = (true, d) ∧ DecodesTo 3 1 [biosEntry] d :=
  smbiosCollect_encode 0 3 1 0 [biosEntry] (by decide) [7, 7] (by decide)

end HwMon
