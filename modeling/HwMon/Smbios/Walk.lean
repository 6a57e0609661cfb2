import HwMon.Smbios.Bounds
import HwMon.Smbios.Decode

/-!
# The walk as a fold over structures

One structure of the table moves the walk past it and is absorbed into the
result. So the walk over a table is the fold over its structures, finished
according to the rest of the table, and the structures that it enters are the
structures of the table and the head of the rest.
-/

namespace HwMon
set_option autoImplicit false

/-- What the loop makes of one structure. -/
def SmbiosStructure.absorb (out : SmbiosData) (s : SmbiosStructure) : SmbiosData :=
  (absorbStructure s.formatted s.strings out).countParsed

/-- What the loop makes of the structure at the head of `l`, taking everything
after its formatted area for its string set. -/
def absorbHead (l : List UInt8) (out : SmbiosData) : SmbiosData :=
  (absorbStructure (l.take (statedLength l)) (l.drop (statedLength l)) out).countParsed

/-- The rest after the formatted area is one NUL, and the formatted area ends
in a NUL: the case after the loop of `smbios_next_structure`. -/
def SingleNul (l : List UInt8) : Prop :=
  l.length = statedLength l + 1 ∧ l.getD (statedLength l) 0 = 0 ∧ l.getD (statedLength l - 1) 0 = 0

instance (l : List UInt8) : Decidable (SingleNul l) := inferInstanceAs (Decidable (_ ∧ _))

/-- What the loop makes of a rest that is stuck. -/
def finishTable (rest : List UInt8) (out : SmbiosData) : SmbiosData :=
  if rest.length < 4 then out
  else if ¬HeaderFits rest then out.countMalformed
  else if rest.getD 0 0 = endOfTable then out
  else if SingleNul rest then absorbHead rest out
  else (absorbHead rest out).countMalformed

section Finish
variable {rest : List UInt8} (out : SmbiosData)

theorem finishTable_short (h : rest.length < 4) : finishTable rest out = out := if_pos h

theorem finishTable_bad (h4 : 4 ≤ rest.length) (h : ¬HeaderFits rest) :
    finishTable rest out = out.countMalformed := by
  rw [finishTable, if_neg (Nat.not_lt.mpr h4), if_pos h]

theorem finishTable_marker (h : Marker rest) : finishTable rest out = out := by
  rw [finishTable, if_neg (Nat.not_lt.mpr h.2.four_le), if_neg (not_not.mpr h.2), if_pos h.1]

theorem finishTable_tail (h : TableTail rest) : finishTable rest out = out := by
  rcases h with rfl | hmark
  · rfl
  · exact finishTable_marker out hmark

theorem finishTable_unterminated (h : Unterminated rest) : finishTable rest out =
    if SingleNul rest then absorbHead rest out else (absorbHead rest out).countMalformed := by
  rw [finishTable, if_neg (Nat.not_lt.mpr h.1.four_le), if_neg (not_not.mpr h.1), if_neg h.2.1]

end Finish

/-- The structures entered by a walk over `ss` and `rest` from offset `base`. -/
def tableVisits (base : Nat) : List SmbiosStructure → List UInt8 → List Visit
  | [], rest => if rest.length < 4 then [] else [⟨base, rest.getD 0 0, rest.getD 1 0⟩]
  | s :: ss, rest => ⟨base, s.type, s.hlen⟩ :: tableVisits (base + s.bytes.length) ss rest

theorem tableVisits_cons (base : Nat) (s : SmbiosStructure) (ss : List SmbiosStructure)
    (rest : List UInt8) : tableVisits base (s :: ss) rest =
      ⟨base, s.type, s.hlen⟩ :: tableVisits (base + s.bytes.length) ss rest := rfl

theorem tableVisits_append (base : Nat) (ss : List SmbiosStructure) (rest : List UInt8) :
    tableVisits base ss rest =
      tableVisits base ss [] ++ tableVisits (base + (tableBytes ss).length) [] rest := by
  induction ss generalizing base with
  | nil => rfl
  | cons s ss ih =>
    rw [tableVisits_cons, ih, tableVisits_cons, tableBytes_cons, List.length_append,
      ← Nat.add_assoc, List.cons_append]

theorem tableVisits_length (base : Nat) (ss : List SmbiosStructure) :
    (tableVisits base ss []).length = ss.length := by
  induction ss generalizing base with
  | nil => rfl
  | cons s ss ih => rw [tableVisits_cons, List.length_cons, ih, List.length_cons]

theorem tableVisits_type {ss : List SmbiosStructure} (hss : ∀ s ∈ ss, s.type ≠ endOfTable)
    {base : Nat} : ∀ v ∈ tableVisits base ss [], v.type ≠ endOfTable := by
  induction ss generalizing base with
  | nil =>
    intro v hv
    exact absurd hv List.not_mem_nil
  | cons s ss ih =>
    intro v hv
    rcases List.mem_cons.mp hv with rfl | hv
    · exact hss s List.mem_cons_self
    · exact ih (fun t ht => hss t (List.mem_cons_of_mem s ht)) v hv

section NextStructure
variable {ω : Type} {m : Mem} {stop : Nat}

/-- The search for the end of a string set. The case after the loop applies only
when one byte is left at the start: further on, the loop has seen both bytes. -/
theorem skipStringSet_val (p : Nat) :
    (skipStringSet stop p : ByteProbe ω _).val m =
      match closeAt (segment m p (stop - p)) with
      | some n => some (p + n)
      | none => if p + 1 = stop ∧ m p = 0 ∧ m (p - 1) = 0 then some stop else none := by
  fun_induction skipStringSet (ω := ω) stop p with
  | case1 p hlt ih =>
    have htwo : 2 ≤ stop - p := by omega
    obtain ⟨n, hn⟩ := Nat.exists_eq_add_of_le htwo
    have hseg : segment m p (stop - p) = m p :: m (p + 1) :: segment m (p + 1 + 1) n := by
      rw [hn, Nat.add_comm 2 n]
      rfl
    have htail : segment m (p + 1) (stop - (p + 1)) = m (p + 1) :: segment m (p + 1 + 1) n := by
      have hlen : stop - (p + 1) = n + 1 := by omega
      rw [hlen, segment_succ]
    rw [htail] at ih
    rw [hseg, closeAt_cons_cons]
    have hloop : ¬(m p = 0 ∧ m (p + 1) = 0) →
        (skipStringSet stop (p + 1) : ByteProbe ω _).val m =
          match (closeAt (m (p + 1) :: segment m (p + 1 + 1) n)).map (· + 1) with
          | some n => some (p + n)
          | none => if p + 1 = stop ∧ m p = 0 ∧ m (p - 1) = 0 then some stop else none := by
      intro hne
      rw [ih]
      cases closeAt (m (p + 1) :: segment m (p + 1 + 1) n) with
      | none => rw [if_neg fun h => hne ⟨h.2.2, h.2.1⟩, Option.map_none, if_neg (by omega)]
      | some k =>
        have hnext : p + 1 + k = p + (k + 1) := by omega
        exact congrArg some hnext
    simp only [↓Probe.val_bind, ↓Probe.val_ite, Probe.val_ask, Probe.val_pure]
    by_cases hz : m p = 0 ∧ m (p + 1) = 0
    · simp only [hz.1, hz.2, if_true, and_self]
    · rw [if_neg hz, ← hloop hz]
      by_cases h0 : m p = 0
      · have h1 : ¬m (p + 1) = 0 := fun h1 => hz ⟨h0, h1⟩
        simp only [if_pos h0, if_neg h1]
      · simp only [if_neg h0]
  | case2 p hlt heq =>
    have hone : stop - p = 1 := by omega
    rw [hone]
    simp only [↓Probe.val_bind, ↓Probe.val_ite, Probe.val_ask, Probe.val_pure, segment_succ,
      segment_zero, closeAt]
    by_cases h0 : m p = 0
    · by_cases h1 : m (p - 1) = 0
      · rw [if_pos h0, if_pos h1, if_pos ⟨heq, h0, h1⟩]
      · rw [if_pos h0, if_neg h1, if_neg fun h => h1 h.2.2]
    · rw [if_neg h0, if_neg fun h => h0 h.2.1]
  | case3 p hlt hne =>
    have hzero : stop - p = 0 := by omega
    have hno : ¬(p + 1 = stop ∧ m p = 0 ∧ m (p - 1) = 0) := fun h => hne h.1
    rw [hzero, if_neg hno]
    rfl

end NextStructure

theorem visit?_of_safe {lo stop : Nat} (w : SmbiosEvent) (h : SmbiosSafe lo stop (.note w)) :
    w.visit? = none := by
  cases w with
  | reach v => exact False.elim h
  | deviceWrite slot => rfl
  | charWrite size first count => rfl

section Step
variable {m : Mem} {stop cur : Nat} {l : List UInt8}
variable (hl : segment m cur (stop - cur) = l)
include hl

theorem getD_table {i : Nat} (h : i < l.length) : l.getD i 0 = m (cur + i) := by
  rw [← hl, segment_length] at h
  rw [← hl, segment_getD m cur (stop - cur) i h]

theorem statedLength_table (h : 4 ≤ l.length) : statedLength l = (m (cur + 1)).toNat := by
  rw [statedLength, getD_table hl (by omega)]

/-- The header test of the loop. -/
theorem headerFits_iff (h : 4 ≤ l.length) :
    HeaderFits l ↔ ¬(m (cur + 1) < 4 ∨ cur + (m (cur + 1)).toNat > stop) := by
  have hlen : l.length = stop - cur := by rw [← hl, segment_length]
  have hfour : m (cur + 1) < 4 ↔ (m (cur + 1)).toNat < 4 := UInt8.lt_iff_toNat_lt
  rw [HeaderFits, statedLength_table hl h, hfour]
  omega

theorem singleNul_iff (hfit : HeaderFits l) :
    SingleNul l ↔ cur + statedLength l + 1 = stop ∧ m (cur + statedLength l) = 0 ∧
      m (cur + statedLength l - 1) = 0 := by
  have hlen : l.length = stop - cur := by rw [← hl, segment_length]
  have hbounds := hfit
  unfold HeaderFits at hbounds
  have hback : cur + statedLength l - 1 = cur + (statedLength l - 1) := by omega
  rw [hback]
  constructor
  · intro h
    obtain ⟨hone, hlast, hprev⟩ := h
    rw [getD_table hl (by omega)] at hlast hprev
    exact ⟨by omega, hlast, hprev⟩
  · intro h
    obtain ⟨hone, hlast, hprev⟩ := h
    refine ⟨by omega, ?_, ?_⟩
    · rw [getD_table hl (by omega)]
      exact hlast
    · rw [getD_table hl (by omega)]
      exact hprev

theorem table_area (hfit : HeaderFits l) :
    segment m (cur + statedLength l) (stop - (cur + statedLength l)) =
      l.drop (statedLength l) := by
  have hlen : l.length = stop - cur := by rw [← hl, segment_length]
  have hdrop := segment_drop m cur (stop - cur) (statedLength l) (hlen ▸ hfit.2)
  rw [hl, Nat.sub_sub] at hdrop
  exact hdrop.symm

theorem table_formatted (hfit : HeaderFits l) :
    segment m cur (statedLength l) = l.take (statedLength l) := by
  have hlen : l.length = stop - cur := by rw [← hl, segment_length]
  have htake := segment_take m cur (stop - cur) (statedLength l) (hlen ▸ hfit.2)
  rw [hl] at htake
  exact htake.symm

theorem skipStringSet_table (hfit : HeaderFits l) :
    (skipStringSet stop (cur + statedLength l) : SmbiosProbe _).val m =
      match closeAt (l.drop (statedLength l)) with
      | some n => some (cur + statedLength l + n)
      | none => if SingleNul l then some stop else none := by
  rw [skipStringSet_val, table_area hl hfit]
  simp only [singleNul_iff hl hfit]

theorem smbiosWalk_short (h : l.length < 4) (out : SmbiosData) :
    smbiosWalk stop cur out = pure out := by
  have hlen : l.length = stop - cur := by rw [← hl, segment_length]
  rw [smbiosWalk, if_neg (by omega)]

variable (h4 : 4 ≤ l.length)
include h4

theorem table_room : cur + 4 ≤ stop := by
  have hlen : l.length = stop - cur := by rw [← hl, segment_length]
  omega

theorem smbiosWalk_bad (hbad : ¬HeaderFits l) (out : SmbiosData) :
    (smbiosWalk stop cur out).val m = out.countMalformed ∧
      (smbiosWalk stop cur out).select SmbiosEvent.visit? m =
        [⟨cur, l.getD 0 0, l.getD 1 0⟩] := by
  have hhdr := not_not.mp (mt (headerFits_iff hl h4).mpr hbad)
  rw [smbiosWalk, if_pos (table_room hl h4), getD_table hl (by omega), getD_table hl (by omega)]
  simp only [↓Probe.val_bind, ↓Probe.val_ite, ↓Probe.select_bind, ↓Probe.select_ite,
    Probe.val_ask, Probe.select_ask, Probe.select_note, SmbiosEvent.visit?, Option.toList_some,
    if_pos hhdr, Probe.val_pure, Probe.select_pure, Nat.add_zero]
  exact ⟨trivial, rfl⟩

theorem smbiosWalk_marker (hmark : Marker l) (out : SmbiosData) :
    (smbiosWalk stop cur out).val m = out ∧
      (smbiosWalk stop cur out).select SmbiosEvent.visit? m =
        [⟨cur, l.getD 0 0, l.getD 1 0⟩] := by
  have hhdr := (headerFits_iff hl h4).mp hmark.2
  have htype : m cur = 127 := by
    have hfirst := hmark.1
    rw [getD_table hl (by omega)] at hfirst
    exact hfirst
  rw [smbiosWalk, if_pos (table_room hl h4), getD_table hl (by omega), getD_table hl (by omega)]
  simp only [↓Probe.val_bind, ↓Probe.val_ite, ↓Probe.select_bind, ↓Probe.select_ite,
    Probe.val_ask, Probe.select_ask, Probe.select_note, SmbiosEvent.visit?, Option.toList_some,
    if_neg hhdr, htype, if_true, Probe.val_pure, Probe.select_pure,
    Nat.add_zero]
  exact ⟨trivial, rfl⟩

/-- The loop body on a structure whose header fits, up to the next structure. -/
theorem smbiosWalk_body (hfit : HeaderFits l) (hty : l.getD 0 0 ≠ endOfTable)
    (out : SmbiosData) :
    (smbiosWalk stop cur out).val m =
        (match (skipStringSet stop (cur + statedLength l) : SmbiosProbe _).val m with
        | none => (absorbHead l out).countMalformed
        | some next => if next ≤ cur then (absorbHead l out).countMalformed
            else (smbiosWalk stop next (absorbHead l out)).val m) ∧
      (smbiosWalk stop cur out).select SmbiosEvent.visit? m =
        ⟨cur, l.getD 0 0, l.getD 1 0⟩ ::
        (match (skipStringSet stop (cur + statedLength l) : SmbiosProbe _).val m with
        | none => []
        | some next => if next ≤ cur then []
            else (smbiosWalk stop next (absorbHead l out)).select SmbiosEvent.visit? m) := by
  have hhdr := (headerFits_iff hl h4).mp hfit
  have hlen := statedLength_table hl h4
  have hty' : ¬m cur = 127 := by
    rw [getD_table hl (by omega)] at hty
    exact hty
  have hfour := hfit.1
  have hroom : cur + (m (cur + 1)).toNat ≤ stop := Nat.le_of_not_lt fun h => hhdr (Or.inr h)
  have hformatted := table_formatted hl hfit
  have harea := table_area hl hfit
  rw [hlen] at hformatted harea
  have hparse := parseStructure_val hformatted harea (by omega) out
  have hquiet := Probe.select_eq_nil
    (parseStructure_safe (m := m) (Nat.le_refl cur) hroom (m cur) out) visit?_of_safe
  have hquiet' : (skipStringSet stop (cur + (m (cur + 1)).toNat) : SmbiosProbe _).select
      SmbiosEvent.visit? m = [] :=
    Probe.select_eq_nil (skipStringSet_safe (Nat.zero_le _)) visit?_of_safe
  rw [absorbHead, hlen, smbiosWalk, if_pos (table_room hl h4), getD_table hl (by omega),
    getD_table hl (by omega)]
  simp only [↓Probe.val_bind, ↓Probe.val_ite, ↓Probe.select_bind, ↓Probe.select_ite,
    Probe.val_ask, Probe.select_ask, Probe.select_note, SmbiosEvent.visit?, Option.toList_some,
    if_neg hhdr, if_neg hty', Nat.add_zero, smbiosNextStructure, hparse, hquiet, hquiet',
    List.nil_append, List.singleton_append]
  cases (skipStringSet stop (cur + (m (cur + 1)).toNat) : SmbiosProbe _).val m with
  | none => exact ⟨rfl, rfl⟩
  | some next => exact ⟨Probe.val_ite m _ _ _, congrArg _ (Probe.select_ite _ _ _ _)⟩

/-- A structure moves the walk past it. -/
theorem smbiosWalk_close (hfit : HeaderFits l) (hty : l.getD 0 0 ≠ endOfTable) {n : Nat}
    (hn : closeAt (l.drop (statedLength l)) = some n) (out : SmbiosData) :
    (smbiosWalk stop cur out).val m =
        (smbiosWalk stop (cur + (statedLength l + n)) (absorbHead l out)).val m ∧
      (smbiosWalk stop cur out).select SmbiosEvent.visit? m =
        ⟨cur, l.getD 0 0, l.getD 1 0⟩ :: (smbiosWalk stop (cur + (statedLength l + n))
          (absorbHead l out)).select SmbiosEvent.visit? m := by
  have hbody := smbiosWalk_body hl h4 hfit hty out
  have hfour := hfit.1
  have hforward : ¬cur + (statedLength l + n) ≤ cur := by omega
  rw [skipStringSet_table hl hfit, hn] at hbody
  simp only [Nat.add_assoc, if_neg hforward] at hbody
  exact hbody

theorem smbiosWalk_unterminated (h : Unterminated l) (out : SmbiosData) :
    (smbiosWalk stop cur out).val m = finishTable l out ∧
      (smbiosWalk stop cur out).select SmbiosEvent.visit? m =
        [⟨cur, l.getD 0 0, l.getD 1 0⟩] := by
  have hbody := smbiosWalk_body hl h4 h.1 h.2.1 out
  have hroom := table_room hl h4
  rw [skipStringSet_table hl h.1, h.2.2] at hbody
  rw [finishTable_unterminated out h]
  by_cases hs : SingleNul l
  · have hdone : smbiosWalk stop stop (absorbHead l out) = pure (absorbHead l out) := by
      rw [smbiosWalk, if_neg (by omega)]
    have hforward : ¬stop ≤ cur := by omega
    simp only [if_pos hs, if_neg hforward, hdone, Probe.val_pure, Probe.select_pure] at hbody
    rw [if_pos hs]
    exact hbody
  · simp only [if_neg hs] at hbody
    rw [if_neg hs]
    exact hbody

end Step

section Table
variable {m : Mem} {stop cur : Nat}

theorem smbiosWalk_stuck {l : List UInt8} (hl : segment m cur (stop - cur) = l) (h : Stuck l)
    (out : SmbiosData) :
    (smbiosWalk stop cur out).val m = finishTable l out ∧
      (smbiosWalk stop cur out).select SmbiosEvent.visit? m = tableVisits cur [] l := by
  unfold tableVisits
  rcases Nat.lt_or_ge l.length 4 with h4 | h4
  · rw [smbiosWalk_short hl h4, finishTable_short out h4, if_pos h4]
    exact ⟨rfl, rfl⟩
  rw [if_neg (Nat.not_lt.mpr h4)]
  rcases stuck_cases h with hbad | hmark | hopen
  · rw [finishTable_bad out h4 hbad]
    exact smbiosWalk_bad hl h4 hbad out
  · rw [finishTable_marker out hmark]
    exact smbiosWalk_marker hl h4 hmark out
  · exact smbiosWalk_unterminated hl h4 hopen out

theorem absorbStructure_append {area : List UInt8} (h : Closed area) (f r : List UInt8)
    (out : SmbiosData) : absorbStructure f (area ++ r) out = absorbStructure f area out := by
  have hfield : ∀ off, fieldString f (area ++ r) off = fieldString f area off := by
    intro off
    rw [fieldString, stringAt_append h, fieldString]
  simp only [absorbStructure, decodeBios, decodeSystem, decodeBaseboard, decodeChassis,
    decodeMemoryDevice, fieldStringOr, hfield]

theorem absorbHead_bytes (s : SmbiosStructure) (r : List UInt8) (out : SmbiosData) :
    absorbHead (s.bytes ++ r) out = s.absorb out := by
  rw [absorbHead, s.statedLength_bytes r, SmbiosStructure.bytes, List.append_assoc,
    List.take_left, List.drop_left, absorbStructure_append s.closed]
  rfl

/-- One structure of the table. -/
theorem smbiosWalk_structure {s : SmbiosStructure} {r : List UInt8}
    (hl : segment m cur (stop - cur) = s.bytes ++ r) (hs : s.type ≠ endOfTable)
    (out : SmbiosData) :
    (smbiosWalk stop cur out).val m =
        (smbiosWalk stop (cur + s.bytes.length) (s.absorb out)).val m ∧
      (smbiosWalk stop cur out).select SmbiosEvent.visit? m = ⟨cur, s.type, s.hlen⟩ ::
        (smbiosWalk stop (cur + s.bytes.length) (s.absorb out)).select SmbiosEvent.visit? m := by
  have hlong := s.four_le
  have h4 : 4 ≤ (s.bytes ++ r).length := by
    simp only [List.length_append, s.bytes_length]
    omega
  have hclose : closeAt ((s.bytes ++ r).drop (statedLength (s.bytes ++ r))) =
      some s.strings.length := by
    rw [s.statedLength_bytes r, SmbiosStructure.bytes, List.append_assoc, List.drop_left]
    exact closeAt_append s.closed r
  have hty : (s.bytes ++ r).getD 0 0 ≠ endOfTable := by
    rw [s.getD_bytes r (by omega)]
    exact hs
  have hstep := smbiosWalk_close hl h4 (s.headerFits_bytes r) hty hclose out
  rw [absorbHead_bytes, s.statedLength_bytes r, s.getD_bytes r (by omega),
    s.getD_bytes r (by omega), ← s.bytes_length] at hstep
  exact hstep

/-- The walk over a table is the fold over its structures. -/
theorem smbiosWalk_table {ss : List SmbiosStructure} {rest : List UInt8}
    (hl : segment m cur (stop - cur) = tableBytes ss ++ rest)
    (hss : ∀ s ∈ ss, s.type ≠ endOfTable) (hrest : Stuck rest) (out : SmbiosData) :
    (smbiosWalk stop cur out).val m = finishTable rest (ss.foldl SmbiosStructure.absorb out) ∧
      (smbiosWalk stop cur out).select SmbiosEvent.visit? m = tableVisits cur ss rest := by
  induction ss generalizing cur out with
  | nil => exact smbiosWalk_stuck hl hrest out
  | cons s ss ih =>
    rw [tableBytes_cons, List.append_assoc] at hl
    obtain ⟨hval, hvisits⟩ := smbiosWalk_structure hl (hss s List.mem_cons_self) out
    obtain ⟨_, hnext, hlen⟩ := segment_append m hl
    have hseg : segment m (cur + s.bytes.length) (stop - (cur + s.bytes.length)) =
        tableBytes ss ++ rest := by
      rw [← Nat.sub_sub, hlen, Nat.add_sub_cancel_left]
      exact hnext
    obtain ⟨ihval, ihvisits⟩ :=
      ih hseg (fun t ht => hss t (List.mem_cons_of_mem s ht)) (s.absorb out)
    rw [hval, hvisits, ihval, ihvisits]
    exact ⟨rfl, rfl⟩

end Table
end HwMon
