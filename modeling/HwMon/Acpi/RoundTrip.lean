import HwMon.Acpi.Collect

/-!
# Decoding encoded tables

A table before it is encoded: the fields of its header and its content. The
length and the checksum are computed. The collector gives back the content of
every encoded table, whatever follows its end, and nothing of a table with one
changed byte outside its length field.
-/

namespace HwMon
set_option autoImplicit false

/-- What a table says behind its header; `more` stands for fields that are not read. -/
inductive AcpiContent where
  | fadt (fixed : List UInt8) (preferredPmProfile : UInt8) (sciInterrupt : UInt16)
      (more : List UInt8) (full : fixed.length = 9)
  | madt (localApicAddress flags : UInt32) (items : List MadtItem)
  | mcfg (reserved : UInt64) (entries : List (AcpiMcfgEntry × UInt32)) (more : List UInt8)
      (short : more.length < 16)
  | hpet (blockId space : UInt32) (baseAddress : UInt64) (hpetNumber : UInt8) (more : List UInt8)
  | other (signature body : List UInt8) (four : signature.length = 4)
      (unknown : signature ∉ [sigFacp, sigApic, sigMcfg, sigHpet])

namespace AcpiContent

def signature : AcpiContent → List UInt8
  | fadt .. => sigFacp
  | madt .. => sigApic
  | mcfg .. => sigMcfg
  | hpet .. => sigHpet
  | other signature _ _ _ => signature

def encodeEntry (e : AcpiMcfgEntry × UInt32) : List UInt8 :=
  leBytes 8 e.1.baseAddress.toNat ++ (leBytes 2 e.1.pciSegmentGroup.toNat ++
    e.1.startBus :: e.1.endBus :: leBytes 4 e.2.toNat)

def body : AcpiContent → List UInt8
  | fadt fixed preferredPmProfile sciInterrupt more _ =>
    fixed ++ preferredPmProfile :: (leBytes 2 sciInterrupt.toNat ++ more)
  | madt localApicAddress flags items =>
    leBytes 4 localApicAddress.toNat ++ (leBytes 4 flags.toNat ++ items.flatMap MadtItem.encode)
  | mcfg reserved entries more _ =>
    leBytes 8 reserved.toNat ++ (entries.flatMap encodeEntry ++ more)
  | hpet blockId space baseAddress hpetNumber more =>
    leBytes 4 blockId.toNat ++ (leBytes 4 space.toNat ++ (leBytes 8 baseAddress.toNat ++
      hpetNumber :: more))
  | other _ body _ _ => body

theorem encodeEntry_length (e : AcpiMcfgEntry × UInt32) : (encodeEntry e).length = 16 := by
  simp only [encodeEntry, List.length_append, List.length_cons, leBytes_length]

theorem encodeEntries_length (entries : List (AcpiMcfgEntry × UInt32)) :
    (entries.flatMap encodeEntry).length = 16 * entries.length := by
  rw [length_flatMap_encode encodeEntry_length, Nat.mul_comm]

theorem mcfgEntryAt_encode (front : List UInt8) (e : AcpiMcfgEntry × UInt32) (back : List UInt8) :
    mcfgEntryAt (front ++ (encodeEntry e ++ back)) front.length = e.1 := by
  obtain ⟨⟨base, segment, first, last⟩, reserved⟩ := e
  have hl : front ++ (encodeEntry (⟨base, segment, first, last⟩, reserved) ++ back) =
      front ++ (leBytes 8 base.toNat ++ (leBytes 2 segment.toNat ++
        first :: last :: (leBytes 4 reserved.toNat ++ back))) := by
    simp only [encodeEntry, List.append_assoc, List.cons_append]
  generalize leBytes 4 reserved.toNat ++ back = tail at hl
  generalize front ++ (encodeEntry (⟨base, segment, first, last⟩, reserved) ++ back) = l at hl
  have hbase : fieldQword l front.length = base := fieldQword_middle front _ hl rfl
  have hsegment : fieldWord l (front.length + 8) = segment := by
    refine fieldWord_middle (front ++ leBytes 8 base.toNat) (first :: last :: tail) ?_ ?_
    · rw [hl, List.append_assoc]
    · rw [List.length_append, leBytes_length]
  have hfirst : l.getD (front.length + 10) 0 = first := by
    refine getD_middle (front ++ leBytes 8 base.toNat ++ leBytes 2 segment.toNat) (last :: tail)
      ?_ ?_
    · rw [hl, List.append_assoc, List.append_assoc]
    · rw [List.length_append, List.length_append, leBytes_length, leBytes_length]
  have hlast : l.getD (front.length + 11) 0 = last := by
    refine getD_middle (front ++ leBytes 8 base.toNat ++ leBytes 2 segment.toNat ++ [first]) tail
      ?_ ?_
    · rw [hl]
      simp only [List.append_assoc, List.cons_append, List.nil_append]
    · simp only [List.length_append, List.length_singleton, leBytes_length]
  rw [mcfgEntryAt, hbase, hsegment, hfirst, hlast]

/-- The records of an encoded list, wherever it stands. -/
theorem mcfgEntries_encode (front : List UInt8) (entries : List (AcpiMcfgEntry × UInt32))
    (more : List UInt8) :
    (List.range entries.length).map (fun i => mcfgEntryAt
      (front ++ (entries.flatMap encodeEntry ++ more)) (front.length + 16 * i)) =
        entries.map Prod.fst := by
  apply List.ext_getElem?
  intro i
  rw [List.getElem?_map, List.getElem?_map]
  rcases Nat.lt_or_ge i entries.length with hi | hi
  · have hget := List.getElem?_eq_getElem hi
    obtain ⟨before, behind, hsplit, hlen⟩ := flatMap_encode_split encodeEntry_length hget
    have hwhole : front ++ (entries.flatMap encodeEntry ++ more) =
        (front ++ before) ++ (encodeEntry entries[i] ++ (behind ++ more)) := by
      rw [hsplit]
      simp only [List.append_assoc]
    have hoff : front.length + 16 * i = (front ++ before).length := by
      rw [List.length_append, hlen, Nat.mul_comm]
    rw [List.getElem?_range hi, hget, Option.map_some, Option.map_some, hwhole, hoff,
      mcfgEntryAt_encode]
  · rw [List.getElem?_eq_none hi, List.getElem?_eq_none (by rw [List.length_range]; exact hi)]
    rfl

/-- What the collector makes of a content whose table has this summary. -/
def absorb (summary : AcpiTableSummary) (out : AcpiData) : AcpiContent → AcpiData
  | fadt _ preferredPmProfile sciInterrupt _ _ =>
    { out with fadt :=
        { available := true, summary, preferredPmProfile,
          sciInterrupt := sciInterrupt.toUInt32 } }
  | madt localApicAddress _ items =>
    { out with madt :=
        { available := true, summary, localApicAddress,
          processors := .pushAll MadtItem.processor? .empty items } }
  | mcfg _ entries _ _ =>
    { out with mcfg :=
        { available := true, summary, entries := (entries.map Prod.fst).foldl Capped.push .empty } }
  | hpet _ _ baseAddress hpetNumber _ =>
    { out with hpet := { available := true, summary, baseAddress, hpetNumber } }
  | other .. => out

theorem signature_length (c : AcpiContent) : c.signature.length = 4 := by
  cases c with
  | fadt => rfl
  | madt => rfl
  | mcfg => rfl
  | hpet => rfl
  | other signature body four unknown => exact four

end AcpiContent

structure AcpiTable where
  revision : UInt8
  oemId : List UInt8
  oemTableId : List UInt8
  /-- The OEM revision and the creator fields. -/
  creator : List UInt8
  content : AcpiContent
  oemId_length : oemId.length = 6
  oemTableId_length : oemTableId.length = 8
  creator_length : creator.length = 12
  fits : 36 + content.body.length < 2 ^ 32

namespace AcpiTable
variable (t : AcpiTable)

def length : Nat := 36 + t.content.body.length

/-- The table without its checksum: what stands before it and what stands behind it. -/
def front : List UInt8 := t.content.signature ++ (leBytes 4 t.length ++ [t.revision])

def back : List UInt8 := t.oemId ++ (t.oemTableId ++ (t.creator ++ t.content.body))

/-- The byte that makes the sum zero. -/
def checksum : UInt8 := UInt8.ofNat (256 - (byteSum t.front + byteSum t.back) % 256)

def encode : List UInt8 := t.front ++ t.checksum :: t.back

def summary : AcpiTableSummary where
  signature := t.content.signature ++ [0]
  oemId := t.oemId ++ [0]
  oemTableId := t.oemTableId ++ [0]
  length := UInt32.ofNat t.length
  revision := t.revision
  checksumValid := true

/-- What the collector has after the table. -/
def absorb (out : AcpiData) : AcpiData :=
  t.content.absorb t.summary { out with discovered := out.discovered.push t.summary }

theorem front_length : t.front.length = 9 := by
  rw [front, List.length_append, List.length_append, t.content.signature_length, leBytes_length]
  rfl

theorem back_length : t.back.length = 26 + t.content.body.length := by
  rw [back, List.length_append, List.length_append, List.length_append, t.oemId_length,
    t.oemTableId_length, t.creator_length]
  omega

theorem encode_length : t.encode.length = t.length := by
  rw [encode, List.length_append, List.length_cons, t.front_length, t.back_length, length]
  omega

theorem byteSum_encode : byteSum t.encode % 256 = 0 := byteSum_closed t.front t.back

def header : List UInt8 :=
  t.front ++ t.checksum :: (t.oemId ++ (t.oemTableId ++ t.creator))

theorem header_length : t.header.length = 36 := by
  rw [header, List.length_append, List.length_cons, List.length_append, List.length_append,
    t.front_length, t.oemId_length, t.oemTableId_length, t.creator_length]

theorem encode_eq : t.encode = t.header ++ t.content.body := by
  simp only [encode, header, back, List.append_assoc, List.cons_append]

variable (pad : List UInt8)

theorem acpiLength_encode : acpiLength (t.encode ++ pad) = UInt32.ofNat t.length := by
  have hlen : (UInt32.ofNat t.length).toNat = t.length := UInt32.toNat_ofNat_of_lt' t.fits
  have hsize : 4 + 4 ≤ (t.encode ++ pad).length := by
    rw [List.length_append, encode_length, length]
    omega
  have hfield : fieldDword (t.encode ++ pad) 4 = UInt32.ofNat t.length := by
    refine fieldDword_middle t.content.signature ([t.revision] ++ t.checksum :: t.back ++ pad) ?_
      t.content.signature_length.symm
    rw [hlen, encode, front]
    simp only [List.append_assoc]
  rw [acpiLength, segment_memOf _ 4 4 hsize]
  exact hfield

theorem acpiUsed_encode : acpiUsed (t.encode ++ pad) = t.encode := by
  have hlen : (UInt32.ofNat t.length).toNat = t.length := UInt32.toNat_ofNat_of_lt' t.fits
  have hpos : UInt32.ofNat t.length > 0 := by
    rw [gt_iff_lt, UInt32.lt_iff_toNat_lt, hlen, length]
    exact Nat.lt_of_lt_of_le (by decide) (Nat.le_add_right 36 _)
  have hle : t.length ≤ (t.encode ++ pad).length := by
    rw [List.length_append, encode_length]
    omega
  rw [acpiUsed, acpiLength_encode, acpiEffectiveLen, hlen, if_pos ⟨hpos, hle⟩,
    List.take_left' t.encode_length]

theorem tableSummary_encode : tableSummary (t.encode ++ pad) = t.summary := by
  have hsignature : fieldBytes (t.encode ++ pad) 0 4 = t.content.signature := by
    refine fieldBytes_middle [] (leBytes 4 t.length ++ [t.revision] ++ t.checksum :: t.back ++ pad)
      ?_ rfl t.content.signature_length.symm
    rw [encode, front]
    simp only [List.append_assoc, List.nil_append]
  have hoemId : fieldBytes (t.encode ++ pad) 10 6 = t.oemId := by
    refine fieldBytes_middle (t.front ++ [t.checksum])
      (t.oemTableId ++ (t.creator ++ t.content.body) ++ pad) ?_ ?_ t.oemId_length.symm
    · rw [encode, back]
      simp only [List.append_assoc, List.cons_append, List.nil_append]
    · rw [List.length_append, t.front_length]
      rfl
  have hoemTableId : fieldBytes (t.encode ++ pad) 16 8 = t.oemTableId := by
    refine fieldBytes_middle (t.front ++ t.checksum :: t.oemId)
      (t.creator ++ t.content.body ++ pad) ?_ ?_
      t.oemTableId_length.symm
    · rw [encode, back]
      simp only [List.append_assoc, List.cons_append]
    · rw [List.length_append, List.length_cons, t.front_length, t.oemId_length]
  have hrevision : (t.encode ++ pad).getD 8 0 = t.revision := by
    refine getD_middle (t.content.signature ++ leBytes 4 t.length) (t.checksum :: t.back ++ pad) ?_ ?_
    · rw [encode, front]
      simp only [List.append_assoc, List.cons_append, List.nil_append]
    · rw [List.length_append, t.content.signature_length, leBytes_length]
  rw [tableSummary, hsignature, hoemId, hoemTableId, hrevision, acpiUsed_encode, encode_length,
    decide_eq_true t.byteSum_encode, summary]

theorem validTable_encode (s : List UInt8) :
    ValidTable s (t.encode ++ pad) ↔ t.content.signature = s := by
  have hsignature := congrArg AcpiTableSummary.signature (t.tableSummary_encode pad)
  rw [tableSummary, summary, List.append_left_inj] at hsignature
  rw [ValidTable, hsignature, acpiUsed_encode]
  exact and_iff_left t.byteSum_encode

end AcpiTable

section Content
variable {header : List UInt8} (hheader : header.length = 36)
include hheader

theorem decodeFadt_body (fixed : List UInt8) (preferredPmProfile : UInt8) (sciInterrupt : UInt16)
    (more : List UInt8) (full : fixed.length = 9) :
    decodeFadt (header ++ (AcpiContent.fadt fixed preferredPmProfile sciInterrupt more full).body) =
      { available := true, preferredPmProfile, sciInterrupt := sciInterrupt.toUInt32 } := by
  have hlong : ¬(header ++
      (AcpiContent.fadt fixed preferredPmProfile sciInterrupt more full).body).length < 48 := by
    rw [AcpiContent.body, List.length_append, List.length_append, List.length_cons,
      List.length_append, leBytes_length]
    omega
  have hprofile : (header ++
      (AcpiContent.fadt fixed preferredPmProfile sciInterrupt more full).body).getD 45 0 =
        preferredPmProfile := by
    refine getD_middle (header ++ fixed) _ (List.append_assoc _ _ _).symm ?_
    rw [List.length_append, hheader, full]
  have hsci : fieldWord (header ++
      (AcpiContent.fadt fixed preferredPmProfile sciInterrupt more full).body) 46 =
        sciInterrupt := by
    refine fieldWord_middle (header ++ (fixed ++ [preferredPmProfile])) more ?_ ?_
    · rw [AcpiContent.body]
      simp only [List.append_assoc, List.cons_append, List.nil_append]
    · rw [List.length_append, List.length_append, hheader, full]
      rfl
  rw [decodeFadt, if_neg hlong, hprofile, hsci]

theorem decodeMadt_body (localApicAddress flags : UInt32) (items : List MadtItem) :
    decodeMadt (header ++ (AcpiContent.madt localApicAddress flags items).body) =
      { available := true, localApicAddress,
        processors := .pushAll MadtItem.processor? .empty items } := by
  have hfront : header ++ (AcpiContent.madt localApicAddress flags items).body =
      (header ++ (leBytes 4 localApicAddress.toNat ++ leBytes 4 flags.toNat)) ++
        items.flatMap MadtItem.encode := by
    rw [AcpiContent.body]
    simp only [List.append_assoc]
  have hlen : (header ++ (leBytes 4 localApicAddress.toNat ++ leBytes 4 flags.toNat)).length =
      44 := by
    rw [List.length_append, List.length_append, hheader, leBytes_length, leBytes_length]
  have hlong : ¬(header ++ (AcpiContent.madt localApicAddress flags items).body).length < 44 := by
    rw [hfront, List.length_append, hlen]
    omega
  have haddress : fieldDword (header ++ (AcpiContent.madt localApicAddress flags items).body) 36 =
      localApicAddress :=
    fieldDword_middle header _ rfl hheader.symm
  have hentries : madtEntries (header ++ (AcpiContent.madt localApicAddress flags items).body) =
      items.map MadtItem.encode := by
    rw [madtEntries, hfront, List.drop_left' hlen, MadtItem.split_encode]
  have hdecode : decodeMadtEntry ∘ MadtItem.encode = MadtItem.processor? :=
    funext MadtItem.decode_encode
  rw [decodeMadt, if_neg hlong, haddress, hentries, Capped.pushAll, List.filterMap_map, hdecode]
  rfl

theorem decodeMcfg_body (reserved : UInt64) (entries : List (AcpiMcfgEntry × UInt32))
    (more : List UInt8) (short : more.length < 16) :
    decodeMcfg (header ++ (AcpiContent.mcfg reserved entries more short).body) =
      { available := true, entries := (entries.map Prod.fst).foldl Capped.push .empty } := by
  have hfront : header ++ (AcpiContent.mcfg reserved entries more short).body =
      (header ++ leBytes 8 reserved.toNat) ++ (entries.flatMap AcpiContent.encodeEntry ++ more) := by
    rw [AcpiContent.body]
    simp only [List.append_assoc]
  have hlen : (header ++ leBytes 8 reserved.toNat).length = 44 := by
    rw [List.length_append, hheader, leBytes_length]
  rw [hfront]
  generalize header ++ leBytes 8 reserved.toNat = front at hlen
  have htotal : (front ++ (entries.flatMap AcpiContent.encodeEntry ++ more)).length =
      44 + (16 * entries.length + more.length) := by
    rw [List.length_append, List.length_append, hlen, AcpiContent.encodeEntries_length]
  have hcount : ((front ++ (entries.flatMap AcpiContent.encodeEntry ++ more)).length - 44) / 16 =
      entries.length := by
    omega
  have hrecords := AcpiContent.mcfgEntries_encode front entries more
  rw [hlen] at hrecords
  rw [decodeMcfg, if_neg (by omega), mcfgRecords, hcount, hrecords]

theorem decodeHpet_body (blockId space : UInt32) (baseAddress : UInt64) (hpetNumber : UInt8)
    (more : List UInt8) :
    decodeHpet (header ++ (AcpiContent.hpet blockId space baseAddress hpetNumber more).body) =
      { available := true, baseAddress, hpetNumber } := by
  have hlong : ¬(header ++
      (AcpiContent.hpet blockId space baseAddress hpetNumber more).body).length < 53 := by
    simp only [AcpiContent.body, List.length_append, List.length_cons, leBytes_length]
    omega
  have haddress : fieldQword (header ++
      (AcpiContent.hpet blockId space baseAddress hpetNumber more).body) 44 = baseAddress := by
    refine fieldQword_middle (header ++ (leBytes 4 blockId.toNat ++ leBytes 4 space.toNat))
      (hpetNumber :: more) ?_ ?_
    · rw [AcpiContent.body]
      simp only [List.append_assoc]
    · simp only [List.length_append, leBytes_length, hheader]
  have hnumber : (header ++
      (AcpiContent.hpet blockId space baseAddress hpetNumber more).body).getD 52 0 =
        hpetNumber := by
    refine getD_middle (header ++ (leBytes 4 blockId.toNat ++ (leBytes 4 space.toNat ++
      leBytes 8 baseAddress.toNat))) more ?_ ?_
    · rw [AcpiContent.body]
      simp only [List.append_assoc]
    · simp only [List.length_append, leBytes_length, hheader]
  rw [decodeHpet, if_neg hlong, haddress, hnumber]

end Content

section Collect
variable (t : AcpiTable) (pad : List UInt8)

theorem takeTable_encode (out : AcpiData) : takeTable out (t.encode ++ pad) = t.absorb out := by
  have hheader := t.header_length
  have hsummary := t.tableSummary_encode pad
  have hused : acpiUsed (t.encode ++ pad) = t.header ++ t.content.body :=
    (t.acpiUsed_encode pad).trans t.encode_eq
  simp only [takeTable, fadtRecord, madtRecord, mcfgRecord, hpetRecord, hsummary, hused,
    AcpiTable.validTable_encode, AcpiTable.absorb]
  generalize t.header = header at hheader
  generalize t.summary = summary
  cases t.content with
  | fadt fixed preferredPmProfile sciInterrupt more full =>
    rw [decodeFadt_body hheader]
    rfl
  | madt localApicAddress flags items =>
    rw [decodeMadt_body hheader]
    rfl
  | mcfg reserved entries more short =>
    rw [decodeMcfg_body hheader]
    rfl
  | hpet blockId space baseAddress hpetNumber more =>
    rw [decodeHpet_body hheader]
    rfl
  | other signature body four unknown =>
    simp only [List.mem_cons, List.not_mem_nil, or_false, not_or] at unknown
    obtain ⟨hfacp, hapic, hmcfg, hhpet⟩ := unknown
    simp only [AcpiContent.signature, hfacp, hapic, hmcfg, hhpet, if_false]
    rfl

end Collect

/-- Another byte at one place of an encoded table, but not in its length field. -/
structure AcpiDamage (t : AcpiTable) where
  place : Nat
  byte : UInt8
  inside : place < t.length
  outside_length : place < 4 ∨ 8 ≤ place
  differs : byte ≠ t.encode.getD place 0

section Damage
variable {t : AcpiTable} (d : AcpiDamage t) (pad : List UInt8)

def AcpiDamage.encode : List UInt8 := t.encode.set d.place d.byte

theorem AcpiDamage.encode_length : d.encode.length = t.length := by
  rw [AcpiDamage.encode, List.length_set, t.encode_length]

theorem memOf_damage : memOf d.encode = setByte (memOf t.encode) d.place d.byte := by
  have hinside : d.place < t.encode.length := by
    rw [t.encode_length]
    exact d.inside
  funext i
  rw [memOf, AcpiDamage.encode, List.getD_eq_getElem?_getD, List.getElem?_set, setByte]
  by_cases hi : d.place = i
  · rw [if_pos hi, if_pos (hi ▸ hinside), if_pos hi.symm]
    rfl
  · rw [if_neg hi, if_neg (Ne.symm hi), memOf, List.getD_eq_getElem?_getD]

theorem acpiLength_damage : acpiLength (d.encode ++ pad) = acpiLength (t.encode ++ pad) := by
  have hlen : 36 ≤ t.length := Nat.le_add_right 36 _
  have hbytes : ∀ i, 4 ≤ i → i < 4 + 4 → memOf (d.encode ++ pad) i = memOf (t.encode ++ pad) i := by
    intro i hlo hhi
    have hplace := d.outside_length
    have hmem := congrFun (memOf_damage d) i
    rw [setByte_of_ne (by omega)] at hmem
    rw [memOf, memOf, getD_append_left (by rw [d.encode_length]; omega),
      getD_append_left (by rw [t.encode_length]; omega)]
    exact hmem
  rw [acpiLength, acpiLength, segment_congr hbytes]

theorem acpiUsed_damage : acpiUsed (d.encode ++ pad) = d.encode := by
  have hsize : (d.encode ++ pad).length = (t.encode ++ pad).length := by
    rw [List.length_append, List.length_append, d.encode_length, t.encode_length]
  have hused := congrArg List.length (t.acpiUsed_encode pad)
  rw [acpiUsed_length, t.encode_length] at hused
  rw [acpiUsed, acpiLength_damage, hsize, hused, List.take_left' d.encode_length]

theorem byteSum_damage : byteSum d.encode % 256 ≠ 0 := by
  have hwhole : ∀ l : List UInt8, segment (memOf l) 0 l.length = l := by
    intro l
    rw [segment_memOf l 0 l.length (by omega), List.drop_zero, List.take_length]
  have hsum := t.byteSum_encode
  rw [← hwhole t.encode] at hsum
  rw [← hwhole d.encode, memOf_damage, d.encode_length, ← t.encode_length]
  refine byteSum_setByte_ne (Nat.zero_le _) ?_ d.differs hsum
  rw [Nat.zero_add, t.encode_length]
  exact d.inside

end Damage

/-- A table as a system hands it out: whole or damaged, and with whatever follows
its end in the buffer. -/
structure AcpiDelivery where
  table : AcpiTable
  damage : Option (AcpiDamage table)
  pad : List UInt8

namespace AcpiDelivery
variable (d : AcpiDelivery)

def raw : List UInt8 := (d.damage.elim d.table.encode AcpiDamage.encode) ++ d.pad

/-- A damaged table is listed as invalid, and that is all. -/
def absorb (out : AcpiData) : AcpiData :=
  if d.damage.isNone then d.table.absorb out
  else { out with
    discovered := out.discovered.push { tableSummary d.raw with checksumValid := false } }

theorem raw_hasHeader : hasHeader d.raw = true := by
  have hhdr : acpiRawHeaderSize = 36 := rfl
  have hlen : 36 ≤ d.table.length := Nat.le_add_right 36 _
  have hraw : d.table.length ≤ d.raw.length := by
    rw [raw, List.length_append]
    cases d.damage with
    | none => exact Nat.le_trans (Nat.le_of_eq d.table.encode_length.symm) (Nat.le_add_right _ _)
    | some c => exact Nat.le_trans (Nat.le_of_eq c.encode_length.symm) (Nat.le_add_right _ _)
  exact decide_eq_true (by omega)

theorem takeTable_raw (out : AcpiData) : takeTable out d.raw = d.absorb out := by
  obtain ⟨t, damage, pad⟩ := d
  cases damage with
  | none => exact takeTable_encode t pad out
  | some c =>
    have hsum : ¬byteSum (acpiUsed (c.encode ++ pad)) % 256 = 0 := by
      rw [acpiUsed_damage]
      exact byteSum_damage c
    have hno : ∀ s, ¬ValidTable s (c.encode ++ pad) := fun s h => hsum h.2
    have hinvalid : tableSummary (c.encode ++ pad) =
        { tableSummary (c.encode ++ pad) with checksumValid := false } := by
      rw [tableSummary, decide_eq_false hsum]
    change takeTable out (c.encode ++ pad) = { out with
      discovered := out.discovered.push
        { tableSummary (c.encode ++ pad) with checksumValid := false } }
    rw [takeTable, if_neg (hno _), if_neg (hno _), if_neg (hno _), if_neg (hno _), ← hinvalid]

end AcpiDelivery

theorem examinedTables_raw (ds : List AcpiDelivery) :
    examinedTables (ds.map fun d => some d.raw) =
      (ds.take acpiMaxDiscoveredTables).map AcpiDelivery.raw := by
  have hall : ∀ raw ∈ ds.map AcpiDelivery.raw, hasHeader raw = true := by
    intro raw hraw
    obtain ⟨d, _, rfl⟩ := List.mem_map.mp hraw
    exact d.raw_hasHeader
  have hid : (ds.map fun d => some d.raw).filterMap id = ds.map AcpiDelivery.raw := by
    rw [List.filterMap_map]
    exact congrFun List.filterMap_eq_map' ds
  rw [examinedTables, hid, List.filter_eq_self.mpr hall, List.map_take]

end HwMon
