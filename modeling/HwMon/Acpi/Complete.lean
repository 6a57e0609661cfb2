import HwMon.Acpi.Madt
import HwMon.Acpi.Trust

/-!
# Whether an available table is complete

The loops of `parse_madt` and `parse_mcfg` also end at an entry that is not
well-formed, at a piece of a record, and (for MCFG) at a full array, and the
record is marked available all the same.
-/

namespace HwMon
set_option autoImplicit false

def MadtProcessor (e : List UInt8) : Prop :=
  (e.getD 0 0 = 0 ∧ 8 ≤ e.length) ∨ (e.getD 0 0 = 9 ∧ 16 ≤ e.length)

instance (e : List UInt8) : Decidable (MadtProcessor e) := inferInstanceAs (Decidable (_ ∨ _))

/-- The bytes `b` are well-formed entries, `n` of them for processors. -/
def MadtSplits (b : List UInt8) (n : Nat) : Prop :=
  ∃ entries : List (List UInt8), b = entries.flatten ∧ (∀ e ∈ entries, MadtEntry e) ∧
    entries.countP (fun e => MadtProcessor e) = n

/-- If the MADT is available, all of its bytes are entries and all of its processors
are reported. -/
def MadtComplete (t : List UInt8) (d : AcpiMadtInfo) : Prop :=
  d.available = true → MadtSplits (t.drop 44) d.processorCount

/-- If the MCFG is available, all of its bytes are records and all are reported. -/
def McfgComplete (t : List UInt8) (d : AcpiMcfgInfo) : Prop :=
  d.available = true → 16 ∣ t.length - 44 ∧ d.entryCount = (t.length - 44) / 16

theorem decodeMadtEntry_isSome (e : List UInt8) :
    (decodeMadtEntry e).isSome = decide (MadtProcessor e) := by
  unfold decodeMadtEntry MadtProcessor
  split
  · rename_i h
    exact (decide_eq_true (Or.inl h)).symm
  split
  · rename_i h
    exact (decide_eq_true (Or.inr h)).symm
  · rename_i h0 h9
    exact (decide_eq_false (not_or.mpr ⟨h0, h9⟩)).symm

theorem length_filterMap_madt (entries : List (List UInt8)) :
    (entries.filterMap decodeMadtEntry).length = entries.countP fun e => MadtProcessor e := by
  rw [List.length_filterMap_eq_countP]
  simp only [decodeMadtEntry_isSome]

theorem split_of_flatten {entries : List (List UInt8)} (h : ∀ e ∈ entries, MadtEntry e) :
    madtRule.split entries.flatten = (entries, []) := by
  have hchunks : ∀ e ∈ entries, madtRule.IsChunk e := by
    intro e he
    exact (madtRule_isChunk e).mpr (h e he)
  have hnil : madtRule.split [] = ([], []) := madtRule.split_of_none rfl
  have hsplit := ChunkRule.split_append hchunks []
  rwa [hnil, List.append_nil, List.append_nil] at hsplit

theorem madtSplits_unique {b : List UInt8} {n k : Nat} (hn : MadtSplits b n)
    (hk : MadtSplits b k) : n = k := by
  obtain ⟨es, rfl, hes, rfl⟩ := hn
  obtain ⟨es', hflat, hes', rfl⟩ := hk
  have hsplit := split_of_flatten hes
  rw [hflat, split_of_flatten hes'] at hsplit
  cases hsplit
  rfl

theorem decodeMadt_count {t : List UInt8} (h : 44 ≤ t.length) {n : Nat}
    (hsplits : MadtSplits (t.drop 44) n) : (decodeMadt t).processorCount = min 512 n := by
  obtain ⟨entries, hflat, hentries, rfl⟩ := hsplits
  have hitems : (decodeMadt t).processors.items = (entries.filterMap decodeMadtEntry).take 512 := by
    rw [decodeMadt, if_neg (Nat.not_lt.mpr h), madtEntries, hflat, split_of_flatten hentries]
    exact Capped.pushAll_items _ _ _
  rw [AcpiMadtInfo.processorCount, Capped.count, hitems, List.length_take, length_filterMap_madt]

theorem madtComplete_iff (t : List UInt8) :
    MadtComplete t (decodeMadt t) ↔ t.length < 44 ∨ ∃ n ≤ 512, MadtSplits (t.drop 44) n := by
  rcases Nat.lt_or_ge t.length 44 with hshort | hlong
  · refine iff_of_true ?_ (Or.inl hshort)
    intro havailable
    rw [decodeMadt, if_pos hshort] at havailable
    cases havailable
  · have havailable : (decodeMadt t).available = true := by
      rw [decodeMadt, if_neg (Nat.not_lt.mpr hlong)]
    constructor
    · intro h
      have hsplits := h havailable
      exact Or.inr ⟨_, (decodeMadt t).processors.le_cap, hsplits⟩
    · intro h _
      obtain ⟨n, hn, hsplits⟩ := h.resolve_left (Nat.not_lt.mpr hlong)
      rw [decodeMadt_count hlong hsplits, Nat.min_eq_right hn]
      exact hsplits

theorem decodeMcfg_count {t : List UInt8} (h : 44 ≤ t.length) :
    (decodeMcfg t).entryCount = min 16 ((t.length - 44) / 16) := by
  have hitems : (decodeMcfg t).entries.items = (mcfgRecords t).take 16 := by
    rw [decodeMcfg, if_neg (Nat.not_lt.mpr h)]
    exact Capped.foldl_push_items _ _
  rw [AcpiMcfgInfo.entryCount, Capped.count, hitems, List.length_take, mcfgRecords, List.length_map,
    List.length_range]

theorem mcfgComplete_iff (t : List UInt8) :
    McfgComplete t (decodeMcfg t) ↔
      t.length < 44 ∨ (16 ∣ t.length - 44 ∧ (t.length - 44) / 16 ≤ 16) := by
  rcases Nat.lt_or_ge t.length 44 with hshort | hlong
  · refine iff_of_true ?_ (Or.inl hshort)
    intro havailable
    rw [decodeMcfg, if_pos hshort] at havailable
    cases havailable
  · have havailable : (decodeMcfg t).available = true := by
      rw [decodeMcfg, if_neg (Nat.not_lt.mpr hlong)]
    rw [McfgComplete, decodeMcfg_count hlong]
    constructor
    · intro h
      obtain ⟨hwhole, hcount⟩ := h havailable
      exact Or.inr ⟨hwhole, by omega⟩
    · intro h _
      obtain ⟨hwhole, hfew⟩ := h.resolve_left (Nat.not_lt.mpr hlong)
      exact ⟨hwhole, Nat.min_eq_right hfew⟩

/-- An available table is complete just when its bytes from offset 44 on are whole
entries or records, and not more of them than the array holds. -/
theorem availableComplete_iff (m : Mem) (len : Nat) :
    (MadtComplete (segment m 0 len) ((parseMadt len).val m) ↔
      len < 44 ∨ ∃ n ≤ 512, MadtSplits (segment m 44 (len - 44)) n) ∧
    (McfgComplete (segment m 0 len) ((parseMcfg len).val m) ↔
      len < 44 ∨ (16 ∣ len - 44 ∧ (len - 44) / 16 ≤ 16)) := by
  have hmadt := madtComplete_iff (segment m 0 len)
  have hmcfg := mcfgComplete_iff (segment m 0 len)
  rw [segment_length] at hmadt hmcfg
  rw [parseMadt_val, parseMcfg_val, hmadt, hmcfg]
  refine ⟨?_, Iff.rfl⟩
  rcases Nat.lt_or_ge len 44 with hshort | hlong
  · exact iff_of_true (Or.inl hshort) (Or.inl hshort)
  · rw [segment_drop m 0 len 44 hlong]

/-- An `APIC` table whose only entry has a length byte of one. -/
def brokenMadt : List UInt8 :=
  sigApic ++ [46, 0, 0, 0, 1, 179] ++ List.replicate 34 0 ++ [0, 1]

theorem brokenMadt_available :
    byteSum brokenMadt % 256 = 0 ∧
      ¬MadtComplete brokenMadt ((parseMadt 46).val (memOf brokenMadt)) := by
  refine ⟨by decide, ?_⟩
  intro h
  obtain ⟨entries, hflat, hentries, _⟩ := h (by decide)
  have hsplit : (madtRule.split (brokenMadt.drop 44)).2 = [] := by
    rw [hflat, split_of_flatten hentries]
  revert hsplit
  decide +kernel

end HwMon
