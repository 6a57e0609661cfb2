import HwMon.Acpi.Decode
import HwMon.Lib.Chunks

/-!
# The entries of a MADT

An entry is a run of bytes whose second byte is its length. The loop of
`parse_madt` goes over the longest run of entries from offset 44 on, and its
cap stops the recording but not the walk.
-/

namespace HwMon
set_option autoImplicit false

/-- The second byte is the length of the entry. -/
def madtRule : ChunkRule UInt8 where
  size l := if 2 ≤ (l.getD 1 0).toNat ∧ (l.getD 1 0).toNat ≤ l.length then
      some (l.getD 1 0).toNat else none
  pos := by
    intro l n h
    obtain ⟨hlen, rfl⟩ := Option.ite_some_none_eq_some.mp h
    omega
  le := by
    intro l n h
    obtain ⟨hlen, rfl⟩ := Option.ite_some_none_eq_some.mp h
    exact hlen.2
  stable := by
    intro l n h r
    obtain ⟨hlen, rfl⟩ := Option.ite_some_none_eq_some.mp h
    have hfront : (l.take (l.getD 1 0).toNat).length = (l.getD 1 0).toNat :=
      List.length_take_of_le hlen.2
    have hbyte : (l.take (l.getD 1 0).toNat ++ r).getD 1 0 = l.getD 1 0 := by
      rw [getD_append_left (by omega), getD_take l (by omega)]
    rw [hbyte, List.length_append, hfront]
    exact if_pos ⟨hlen.1, Nat.le_add_right _ _⟩

def MadtEntry (e : List UInt8) : Prop := 2 ≤ e.length ∧ (e.getD 1 0).toNat = e.length

theorem madtRule_size (l : List UInt8) : madtRule.size l =
    if 2 ≤ (l.getD 1 0).toNat ∧ (l.getD 1 0).toNat ≤ l.length then some (l.getD 1 0).toNat
    else none := rfl

theorem madtRule_isChunk (e : List UInt8) : madtRule.IsChunk e ↔ MadtEntry e := by
  rw [ChunkRule.IsChunk, madtRule_size, Option.ite_some_none_eq_some, MadtEntry]
  omega

/-- The processor of an entry, if it is long enough for its type. -/
def decodeMadtEntry (e : List UInt8) : Option AcpiProcessorEntry :=
  if e.getD 0 0 = 0 ∧ 8 ≤ e.length then
    some { acpiProcessorId := e.getD 2 0, apicId := e.getD 3 0,
           enabled := fieldDword e 4 &&& 1 != 0, onlineCapable := fieldDword e 4 &&& 2 != 0,
           isX2apic := false }
  else if e.getD 0 0 = 9 ∧ 16 ≤ e.length then
    some { x2apicId := fieldDword e 4, enabled := fieldDword e 8 &&& 1 != 0,
           onlineCapable := fieldDword e 8 &&& 2 != 0, isX2apic := true }
  else none

def madtEntries (t : List UInt8) : List (List UInt8) := (madtRule.split (t.drop 44)).1

def decodeMadt (t : List UInt8) : AcpiMadtInfo :=
  if t.length < 44 then {}
  else { available := true, localApicAddress := fieldDword t 36,
         processors := .pushAll decodeMadtEntry .empty (madtEntries t) }

section Loop
variable {m : Mem} {stop p : Nat}

theorem fieldDword_segment {n off : Nat} (h : off + 4 ≤ n) :
    fieldDword (segment m p n) off = (read32 (p + off) : AcpiProbe _).val m := by
  rw [fieldDword, fieldBytes_segment m p h, read32_val]

theorem localApicEntry_val {n : Nat} (h : 8 ≤ n)
    (out : Capped AcpiProcessorEntry acpiMaxProcessors) :
    (localApicEntry p out).val m = out.push
      { acpiProcessorId := (segment m p n).getD 2 0, apicId := (segment m p n).getD 3 0,
        enabled := fieldDword (segment m p n) 4 &&& 1 != 0,
        onlineCapable := fieldDword (segment m p n) 4 &&& 2 != 0, isX2apic := false } := by
  rw [segment_getD m p n 2 (by omega), segment_getD m p n 3 (by omega),
    fieldDword_segment (by omega), localApicEntry]
  split
  · rfl
  · rename_i hfull
    exact (Capped.push_of_full hfull _).symm

theorem localX2apicEntry_val {n : Nat} (h : 16 ≤ n)
    (out : Capped AcpiProcessorEntry acpiMaxProcessors) :
    (localX2apicEntry p out).val m = out.push
      { x2apicId := fieldDword (segment m p n) 4,
        enabled := fieldDword (segment m p n) 8 &&& 1 != 0,
        onlineCapable := fieldDword (segment m p n) 8 &&& 2 != 0, isX2apic := true } := by
  rw [fieldDword_segment (by omega), fieldDword_segment (by omega), localX2apicEntry]
  split
  · rfl
  · rename_i hfull
    exact (Capped.push_of_full hfull _).symm

theorem madtEntry_val {entryLen : UInt8} (h : 2 ≤ entryLen.toNat)
    (out : Capped AcpiProcessorEntry acpiMaxProcessors) :
    (madtEntry (m p) p entryLen out).val m =
      Capped.pushAll decodeMadtEntry out [segment m p entryLen.toNat] := by
  have htype : (segment m p entryLen.toNat).getD 0 0 = m p := by
    rw [segment_getD m p _ 0 (by omega), Nat.add_zero]
  have h8 : entryLen ≥ 8 ↔ 8 ≤ entryLen.toNat := UInt8.le_iff_toNat_le
  have h16 : entryLen ≥ 16 ↔ 16 ≤ entryLen.toNat := UInt8.le_iff_toNat_le
  rw [Capped.pushAll_singleton, decodeMadtEntry, htype, segment_length, madtEntry]
  simp only [h8, h16]
  split
  · rename_i hapic
    exact localApicEntry_val hapic.2 out
  split
  · rename_i hx2
    exact localX2apicEntry_val hx2.2 out
  · rfl

theorem madtLoop_val (p : Nat) (out : Capped AcpiProcessorEntry acpiMaxProcessors) :
    ((madtLoop stop p out).val m).2 =
      .pushAll decodeMadtEntry out (madtRule.split (segment m p (stop - p))).1 := by
  fun_induction madtLoop stop p out with
  | case1 p out hlt ih =>
    have hbyte : (segment m p (stop - p)).getD 1 0 = m (p + 1) :=
      segment_getD m p (stop - p) 1 (by omega)
    have hsize := madtRule_size (segment m p (stop - p))
    have hshort : m (p + 1) < 2 ↔ (m (p + 1)).toNat < 2 := UInt8.lt_iff_toNat_lt
    rw [hbyte, segment_length] at hsize
    simp only [↓Probe.val_bind, ↓Probe.val_ite, Probe.val_ask, Probe.val_pure]
    split
    · rename_i hbad
      rw [hshort] at hbad
      have hno : ¬(2 ≤ (m (p + 1)).toNat ∧ (m (p + 1)).toNat ≤ stop - p) := by omega
      rw [madtRule.split_of_none (hsize.trans (if_neg hno))]
      rfl
    · rename_i hgood
      have hfit : 2 ≤ (m (p + 1)).toNat ∧ (m (p + 1)).toNat ≤ stop - p := by
        rw [hshort] at hgood
        omega
      rw [madtRule.split_of_some (hsize.trans (if_pos hfit)), Capped.pushAll_cons,
        segment_take m p _ _ hfit.2, segment_drop m p _ _ hfit.2, ← madtEntry_val hfit.1,
        Nat.sub_sub]
      exact ih _ hgood _
  | case2 p out hlt =>
    have hno : ¬(2 ≤ ((segment m p (stop - p)).getD 1 0).toNat ∧
        ((segment m p (stop - p)).getD 1 0).toNat ≤ (segment m p (stop - p)).length) := by
      rw [segment_length]
      omega
    rw [madtRule.split_of_none (if_neg hno)]
    rfl

end Loop

theorem parseMadt_val (m : Mem) (len : Nat) :
    (parseMadt len).val m = decodeMadt (segment m 0 len) := by
  have hhdr : acpiRawHeaderSize + 8 = 44 := rfl
  rw [decodeMadt, madtEntries, segment_length]
  rcases Nat.lt_or_ge len 44 with h | h
  · rw [parseMadt, hhdr, if_pos h, if_pos h]
    rfl
  · rw [parseMadt, hhdr, if_neg (Nat.not_lt.mpr h), if_neg (Nat.not_lt.mpr h),
      fieldDword_segment (by omega), segment_drop m 0 len 44 h, ← madtLoop_val]
    rfl

/-- An entry before it is encoded; `more` stands behind the fields that are read. -/
inductive MadtItem where
  | localApic (acpiProcessorId apicId : UInt8) (flags : UInt32) (more : List UInt8)
      (fits : more.length ≤ 247)
  | localX2apic (reserved : UInt16) (x2apicId flags : UInt32) (more : List UInt8)
      (fits : more.length ≤ 243)
      (full : 4 ≤ more.length)
  | other (type : UInt8) (body : List UInt8) (unknown : type ≠ 0 ∧ type ≠ 9)
      (fits : body.length ≤ 253)

namespace MadtItem

def encode : MadtItem → List UInt8
  | localApic acpiProcessorId apicId flags more _ =>
    [0, UInt8.ofNat (8 + more.length), acpiProcessorId, apicId] ++ leBytes 4 flags.toNat ++ more
  | localX2apic reserved x2apicId flags more _ _ =>
    [9, UInt8.ofNat (12 + more.length)] ++ leBytes 2 reserved.toNat ++
      leBytes 4 x2apicId.toNat ++ leBytes 4 flags.toNat ++ more
  | other type body _ _ => [type, UInt8.ofNat (2 + body.length)] ++ body

def processor? : MadtItem → Option AcpiProcessorEntry
  | localApic acpiProcessorId apicId flags _ _ =>
    some { acpiProcessorId, apicId, enabled := flags &&& 1 != 0,
           onlineCapable := flags &&& 2 != 0, isX2apic := false }
  | localX2apic _ x2apicId flags _ _ _ =>
    some { x2apicId, enabled := flags &&& 1 != 0, onlineCapable := flags &&& 2 != 0,
           isX2apic := true }
  | other _ _ _ _ => none

theorem toNat_ofNat_small {n : Nat} (h : n ≤ 255) : (UInt8.ofNat n).toNat = n := by
  rw [UInt8.toNat_ofNat']
  omega

theorem encode_entry (i : MadtItem) : MadtEntry i.encode := by
  cases i with
  | localApic acpiProcessorId apicId flags more fits =>
    have hlen : (encode (localApic acpiProcessorId apicId flags more fits)).length =
        8 + more.length := by
      simp [encode]
      omega
    refine ⟨by omega, ?_⟩
    rw [hlen]
    exact toNat_ofNat_small (by omega)
  | localX2apic reserved x2apicId flags more fits full =>
    have hlen : (encode (localX2apic reserved x2apicId flags more fits full)).length =
        12 + more.length := by
      simp [encode]
      omega
    refine ⟨by omega, ?_⟩
    rw [hlen]
    exact toNat_ofNat_small (by omega)
  | other type body unknown fits =>
    have hlen : (encode (other type body unknown fits)).length = 2 + body.length := by
      simp [encode]
      omega
    refine ⟨by omega, ?_⟩
    rw [hlen]
    exact toNat_ofNat_small (by omega)

theorem fieldDword_leBytes (front : List UInt8) (x : UInt32) (back : List UInt8) :
    fieldDword (front ++ leBytes 4 x.toNat ++ back) front.length = x := by
  have hx := x.toNat_lt
  have hfield : fieldBytes (front ++ leBytes 4 x.toNat ++ back) front.length 4 =
      leBytes 4 x.toNat := by
    rw [fieldBytes, List.append_assoc, List.drop_left, List.take_left' (leBytes_length 4 _)]
  rw [fieldDword, hfield, leNat_leBytes, Nat.mod_eq_of_lt (by omega), UInt32.ofNat_toNat]

theorem decode_encode (i : MadtItem) : decodeMadtEntry i.encode = i.processor? := by
  cases i with
  | localApic acpiProcessorId apicId flags more fits =>
    have hlong : 8 ≤ (encode (localApic acpiProcessorId apicId flags more fits)).length := by
      simp [encode]
    have hflags : fieldDword (encode (localApic acpiProcessorId apicId flags more fits)) 4 =
        flags :=
      fieldDword_leBytes [0, UInt8.ofNat (8 + more.length), acpiProcessorId, apicId] flags more
    rw [decodeMadtEntry, hflags]
    exact if_pos ⟨rfl, hlong⟩
  | localX2apic reserved x2apicId flags more fits full =>
    have hlong : 16 ≤ (encode (localX2apic reserved x2apicId flags more fits full)).length := by
      simp [encode]
      omega
    have hid : fieldDword (encode (localX2apic reserved x2apicId flags more fits full)) 4 =
        x2apicId := by
      rw [encode, List.append_assoc]
      exact fieldDword_leBytes ([9, UInt8.ofNat (12 + more.length)] ++ leBytes 2 reserved.toNat)
        x2apicId (leBytes 4 flags.toNat ++ more)
    have hflags : fieldDword (encode (localX2apic reserved x2apicId flags more fits full)) 8 =
        flags :=
      fieldDword_leBytes ([9, UInt8.ofNat (12 + more.length)] ++ leBytes 2 reserved.toNat ++
        leBytes 4 x2apicId.toNat) flags more
    have hnine : ¬(9 : UInt8) = 0 := by decide
    rw [decodeMadtEntry, hid, hflags, if_neg fun h => hnine h.1]
    exact if_pos ⟨rfl, hlong⟩
  | other type body unknown fits =>
    have h0 : (encode (other type body unknown fits)).getD 0 0 = type := rfl
    rw [decodeMadtEntry, h0, if_neg fun h => unknown.1 h.1, if_neg fun h => unknown.2 h.1]
    rfl

theorem split_encode (items : List MadtItem) :
    (madtRule.split (items.flatMap encode)).1 = items.map encode := by
  have hchunks : ∀ c ∈ items.map encode, madtRule.IsChunk c := by
    intro c hc
    obtain ⟨i, _, rfl⟩ := List.mem_map.mp hc
    exact (madtRule_isChunk _).mpr i.encode_entry
  have hnil : madtRule.split [] = ([], []) := madtRule.split_of_none rfl
  have hsplit := ChunkRule.split_append hchunks []
  rw [hnil, List.append_nil, List.append_nil, ← List.flatMap_def] at hsplit
  rw [hsplit]

end MadtItem

/-- The bytes from offset 44 split into entries in one longest way, and the first
512 processors among them are reported. -/
theorem parseMadt_exact (m : Mem) (len : Nat) (h : 44 ≤ len) :
    ((parseMadt len).val m).localApicAddress = UInt32.ofNat (leNat (segment m 36 4)) ∧
    (∃ entries rest, segment m 44 (len - 44) = entries.flatten ++ rest ∧
      (∀ e ∈ entries, MadtEntry e) ∧
      (∀ es r, segment m 44 (len - 44) = es.flatten ++ r → (∀ e ∈ es, MadtEntry e) →
        es <+: entries) ∧
      ((parseMadt len).val m).processors.items = (entries.filterMap decodeMadtEntry).take 512) ∧
    ∀ items : List MadtItem, segment m 44 (len - 44) = items.flatMap MadtItem.encode →
      ((parseMadt len).val m).processors.items = (items.filterMap MadtItem.processor?).take 512 := by
  have hlong : ¬(segment m 0 len).length < 44 := by
    rw [segment_length]
    omega
  have hentries : madtEntries (segment m 0 len) = (madtRule.split (segment m 44 (len - 44))).1 := by
    rw [madtEntries, segment_drop m 0 len 44 h]
  have hitems : ((parseMadt len).val m).processors.items =
      (((madtRule.split (segment m 44 (len - 44))).1).filterMap decodeMadtEntry).take 512 := by
    rw [parseMadt_val, decodeMadt, if_neg hlong, hentries]
    exact Capped.pushAll_items _ _ _
  have haddress : fieldDword (segment m 0 len) 36 = UInt32.ofNat (leNat (segment m 36 4)) := by
    rw [fieldDword, fieldBytes_segment m 0 (by omega), Nat.zero_add]
  refine ⟨?_, ⟨_, _, (madtRule.split_flatten _).symm, ?_, ?_, hitems⟩, ?_⟩
  · rw [parseMadt_val, decodeMadt, if_neg hlong]
    exact haddress
  · intro e he
    exact (madtRule_isChunk e).mp (madtRule.split_isChunk _ e he)
  · intro es r hl hes
    apply ChunkRule.prefix_split hl
    intro e he
    exact (madtRule_isChunk e).mpr (hes e he)
  · intro items hencode
    have hdecode : decodeMadtEntry ∘ MadtItem.encode = MadtItem.processor? :=
      funext MadtItem.decode_encode
    rw [hitems, hencode, MadtItem.split_encode, List.filterMap_map, hdecode]

/-- A MADT with a processor behind an entry of another type. -/
def smallMadt : List UInt8 :=
  List.replicate 44 0 ++ [1, 4, 9, 9] ++ [0, 8, 1, 2, 3, 0, 0, 0]

theorem smallMadt_exact :
    ((parseMadt 56).val (memOf smallMadt)).processors.items =
      ([.other 1 [9, 9] (by decide) (by decide), .localApic 1 2 3 [] (by decide)].filterMap
        MadtItem.processor?).take 512 :=
  (parseMadt_exact (memOf smallMadt) 56 (by decide)).2.2 _ (by decide)

end HwMon
