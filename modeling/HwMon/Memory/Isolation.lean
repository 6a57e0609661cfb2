import HwMon.Memory.Agreement

/-!
# What follows the table does not matter

Both results are functions of the version bytes and of the table, and of the
table only up to its end-of-table marker.
-/

namespace HwMon
set_option autoImplicit false

def restRegion (rest : List UInt8) : Option MemoryRegion :=
  if HeaderFits rest then decodeRegion (rest.take (statedLength rest)) else none

section Table
variable {m : Mem} {stop cur : Nat}

theorem regionAt_head {l : List UInt8} (hl : segment m cur (stop - cur) = l) (h4 : 4 ≤ l.length) :
    regionAt m stop ⟨cur, l.getD 0 0, l.getD 1 0⟩ = restRegion l := by
  have hlen : l.length = stop - cur := by rw [← hl, segment_length]
  have hroom := table_room hl h4
  rw [regionAt, restRegion]
  by_cases hfit : HeaderFits l
  · have hbounds := hfit
    unfold HeaderFits at hbounds
    have htest : 4 ≤ statedLength l ∧ cur + statedLength l ≤ stop := by omega
    rw [if_pos hfit, ← table_formatted hl hfit]
    exact if_pos htest
  · have htest : ¬(4 ≤ statedLength l ∧ cur + statedLength l ≤ stop) := by
      intro h
      obtain ⟨hfour, hend⟩ := h
      exact hfit ⟨hfour, by omega⟩
    rw [if_neg hfit]
    exact if_neg htest

theorem regionAt_structure {s : SmbiosStructure} {r : List UInt8}
    (hl : segment m cur (stop - cur) = s.bytes ++ r) :
    regionAt m stop ⟨cur, s.type, s.hlen⟩ = decodeRegion s.formatted := by
  have hlong := s.four_le
  have h4 : 4 ≤ (s.bytes ++ r).length := by
    rw [List.length_append, s.bytes_length]
    omega
  have hhead := regionAt_head hl h4
  rw [s.getD_bytes r (by omega), s.getD_bytes r (by omega), restRegion,
    if_pos (s.headerFits_bytes r), s.statedLength_bytes r, SmbiosStructure.bytes,
    List.append_assoc, List.take_left] at hhead
  exact hhead

theorem filterMap_tableVisits {ss : List SmbiosStructure} {rest : List UInt8}
    (hl : segment m cur (stop - cur) = tableBytes ss ++ rest) :
    (tableVisits cur ss rest).filterMap (regionAt m stop) =
      ss.filterMap (fun s => decodeRegion s.formatted) ++ (restRegion rest).toList := by
  induction ss generalizing cur with
  | nil =>
    rw [tableBytes_nil, List.nil_append] at hl
    rw [tableVisits]
    rcases Nat.lt_or_ge rest.length 4 with h4 | h4
    · rw [if_pos h4, restRegion, if_neg (not_headerFits_of_short h4)]
      rfl
    · have hhead := regionAt_head hl h4
      rw [if_neg (Nat.not_lt.mpr h4)]
      cases hregion : restRegion rest with
      | none => rw [List.filterMap_cons_none (hhead.trans hregion)]; rfl
      | some g => rw [List.filterMap_cons_some (hhead.trans hregion)]; rfl
  | cons s ss ih =>
    rw [tableBytes_cons, List.append_assoc] at hl
    have hstructure := regionAt_structure hl
    obtain ⟨_, hnext, hlen⟩ := segment_append m hl
    have hseg : segment m (cur + s.bytes.length) (stop - (cur + s.bytes.length)) =
        tableBytes ss ++ rest := by
      rw [← Nat.sub_sub, hlen, Nat.add_sub_cancel_left]
      exact hnext
    rw [tableVisits_cons, List.filterMap_cons, List.filterMap_cons, hstructure, ih hseg]
    cases decodeRegion s.formatted <;> rfl

end Table

theorem memoryRegions_structures {raw : List UInt8} (hsize : 8 ≤ raw.length)
    {ss : List SmbiosStructure} {rest : List UInt8} (hl : smbiosTable raw = tableBytes ss ++ rest)
    (hss : ∀ s ∈ ss, s.type ≠ endOfTable) (hrest : Stuck rest) :
    (memoryRegions raw).items =
      (ss.filterMap (fun s => decodeRegion s.formatted) ++
        (restRegion rest).toList).take memoryMaxRegions := by
  rw [memoryRegions_items, (smbiosCollect_structures hsize hl hss hrest).2, rawRegionAt,
    filterMap_tableVisits ((segment_smbiosTable hsize).trans hl)]

section Head
variable {h : List UInt8} (h4 : 4 ≤ h.length)
include h4

theorem getD_head (u : List UInt8) {i : Nat} (hi : i < 4) : (h ++ u).getD i 0 = h.getD i 0 :=
  getD_append_left (Nat.lt_of_lt_of_le hi h4) u

theorem statedLength_head (u : List UInt8) : statedLength (h ++ u) = statedLength h := by
  rw [statedLength, getD_head h4 u (by omega), statedLength]

theorem headerFits_head (hfit : statedLength h ≤ h.length) (u : List UInt8) :
    HeaderFits (h ++ u) ↔ 4 ≤ statedLength h := by
  rw [HeaderFits, statedLength_head h4 u, List.length_append]
  omega

variable (hty : h.getD 0 0 = endOfTable)
include hty

theorem restRegion_head (u : List UInt8) : restRegion (h ++ u) = none := by
  rw [restRegion]
  by_cases hfour : HeaderFits (h ++ u)
  · have htype : ((h ++ u).take (statedLength (h ++ u))).getD 0 0 = endOfTable := by
      have hlong := hfour.1
      rw [getD_take _ (by omega), getD_head h4 u (by omega), hty]
    rw [if_pos hfour, decodeRegion, htype]
    exact if_neg fun hdec => absurd hdec.1 (by decide)
  · exact if_neg hfour

variable (hfit : statedLength h ≤ h.length)
include hfit

theorem marker_head (u : List UInt8) (hfour : 4 ≤ statedLength h) : Marker (h ++ u) := by
  refine ⟨?_, (headerFits_head h4 hfit u).mpr hfour⟩
  rw [getD_head h4 u (by omega), hty]

theorem stuck_head (u : List UInt8) : Stuck (h ++ u) := by
  by_cases hfour : 4 ≤ statedLength h
  · exact (marker_head h4 hty hfit u hfour).stuck
  · exact stuck_of_not_headerFits (mt (headerFits_head h4 hfit u).mp hfour)

theorem finishTable_head (u : List UInt8) (out : SmbiosData) :
    finishTable (h ++ u) out = if 4 ≤ statedLength h then out else out.countMalformed := by
  by_cases hfour : 4 ≤ statedLength h
  · rw [if_pos hfour, finishTable_marker out (marker_head h4 hty hfit u hfour)]
  · have hlong : 4 ≤ (h ++ u).length := by
      rw [List.length_append]
      omega
    rw [if_neg hfour, finishTable_bad out hlong (mt (headerFits_head h4 hfit u).mp hfour)]

end Head

/-- Buffers with a header and the same version. -/
structure SameVersion (raw raw' : List UInt8) : Prop where
  left : 8 ≤ raw.length
  right : 8 ≤ raw'.length
  major : memOf raw 1 = memOf raw' 1
  minor : memOf raw 2 = memOf raw' 2

/-- Tables that agree up to and including the header and the formatted area of an
end-of-table structure that the walk of the first one reaches. -/
def AgreeToMarker (raw raw' : List UInt8) : Prop :=
  ∃ v ∈ smbiosVisits raw, v.type = endOfTable ∧ ∃ k, k = v.offset - 8 + max 4 v.hlen.toNat ∧
    k ≤ (smbiosTable raw).length ∧ k ≤ (smbiosTable raw').length ∧
    (smbiosTable raw).take k = (smbiosTable raw').take k

/-- The structure reached is the head of the rest: the others are no end-of-table ones. -/
theorem marker_visit {ss : List SmbiosStructure} {rest : List UInt8}
    (hss : ∀ s ∈ ss, s.type ≠ endOfTable) {v : Visit} (hv : v ∈ tableVisits 8 ss rest)
    (hty : v.type = endOfTable) :
    v = ⟨8 + (tableBytes ss).length, rest.getD 0 0, rest.getD 1 0⟩ := by
  rw [tableVisits_append] at hv
  rcases List.mem_append.mp hv with hv | hv
  · exact absurd hty (tableVisits_type hss v hv)
  · rw [tableVisits] at hv
    split at hv
    · exact absurd hv List.not_mem_nil
    · exact List.mem_singleton.mp hv

section TwoRuns
variable {raw raw' : List UInt8} (hver : SameVersion raw raw')
include hver

theorem smbiosStart_eq : smbiosStart raw = smbiosStart raw' := by
  rw [smbiosStart, hver.major, hver.minor]
  rfl

theorem same_of_table (h : smbiosTable raw = smbiosTable raw') :
    smbiosCollect (some raw) = smbiosCollect (some raw') ∧
      memoryRegions raw = memoryRegions raw' := by
  obtain ⟨hl, hss, hrest⟩ := splitTable_spec (smbiosTable raw)
  have hl' := h.symm.trans hl
  constructor
  · rw [(smbiosCollect_structures hver.left hl hss hrest).1,
      (smbiosCollect_structures hver.right hl' hss hrest).1, smbiosStart_eq hver]
  · apply Capped.ext
    rw [memoryRegions_structures hver.left hl hss hrest,
      memoryRegions_structures hver.right hl' hss hrest]

theorem same_of_head {ss : List SmbiosStructure} (hss : ∀ s ∈ ss, s.type ≠ endOfTable)
    {h u u' : List UInt8} (h4 : 4 ≤ h.length) (hty : h.getD 0 0 = endOfTable)
    (hfit : statedLength h ≤ h.length) (hl : smbiosTable raw = tableBytes ss ++ (h ++ u))
    (hl' : smbiosTable raw' = tableBytes ss ++ (h ++ u')) :
    smbiosCollect (some raw) = smbiosCollect (some raw') ∧
      memoryRegions raw = memoryRegions raw' := by
  have hstuck := stuck_head h4 hty hfit
  constructor
  · rw [(smbiosCollect_structures hver.left hl hss (hstuck u)).1,
      (smbiosCollect_structures hver.right hl' hss (hstuck u')).1, smbiosStart_eq hver,
      finishTable_head h4 hty hfit, finishTable_head h4 hty hfit]
  · apply Capped.ext
    rw [memoryRegions_structures hver.left hl hss (hstuck u),
      memoryRegions_structures hver.right hl' hss (hstuck u'), restRegion_head h4 hty,
      restRegion_head h4 hty]

theorem same_of_marker (h : AgreeToMarker raw raw') :
    smbiosCollect (some raw) = smbiosCollect (some raw') ∧
      memoryRegions raw = memoryRegions raw' := by
  obtain ⟨v, hv, hty, k, hk, hkl, hkl', htake⟩ := h
  obtain ⟨hl, hss, hrest⟩ := splitTable_spec (smbiosTable raw)
  generalize (splitTable (smbiosTable raw)).1 = ss at hl hss
  generalize (splitTable (smbiosTable raw)).2 = rest at hl hrest
  rw [(smbiosCollect_structures hver.left hl hss hrest).2] at hv
  obtain rfl := marker_visit hss hv hty
  have hk' : k = (tableBytes ss).length + max 4 (statedLength rest) := by
    rw [hk, Nat.add_sub_cancel_left, statedLength]
  have hj : max 4 (statedLength rest) ≤ rest.length := by
    rw [hl, List.length_append] at hkl
    omega
  have hhead : (rest.take (max 4 (statedLength rest))).length = max 4 (statedLength rest) :=
    List.length_take_of_le hj
  have hl' : smbiosTable raw' = tableBytes ss ++ (rest.take (max 4 (statedLength rest)) ++
      (smbiosTable raw').drop k) := by
    have hsplit := List.take_append_drop k (smbiosTable raw')
    rw [← htake, hl, hk', List.take_length_add_append, List.append_assoc, ← hk'] at hsplit
    exact hsplit.symm
  have htake0 : ∀ i, i < 4 →
      (rest.take (max 4 (statedLength rest))).getD i 0 = rest.getD i 0 :=
    fun i hi => getD_take rest (by omega)
  have hfit : statedLength (rest.take (max 4 (statedLength rest))) ≤
      (rest.take (max 4 (statedLength rest))).length := by
    rw [hhead, statedLength, htake0 1 (by omega)]
    exact Nat.le_max_right 4 _
  have hl'' := hl
  rw [← List.take_append_drop (max 4 (statedLength rest)) rest] at hl''
  refine same_of_head hver hss ?_ ?_ hfit hl'' hl'
  · rw [hhead]
    exact Nat.le_max_left 4 _
  · rw [htake0 0 (by omega)]
    exact hty

/-- Neither the bytes behind the table nor those behind an end-of-table structure
in it influence a result. -/
theorem outside_table_irrelevant
    (h : smbiosTable raw = smbiosTable raw' ∨ AgreeToMarker raw raw') :
    smbiosCollect (some raw) = smbiosCollect (some raw') ∧
      memoryRegions raw = memoryRegions raw' := by
  rcases h with htable | hmarker
  · exact same_of_table hver htable
  · exact same_of_marker hver hmarker

end TwoRuns

/-- A table of one end-of-table structure, with other bytes in front and behind. -/
def markedTable : List UInt8 := [0, 3, 1, 0, 6, 0, 0, 0] ++ [127, 4, 1, 0, 0, 0]

def markedTableJunk : List UInt8 := [9, 3, 1, 9, 6, 0, 0, 0] ++ [127, 4, 1, 0, 0, 0] ++ [5, 5]

def markedTableLonger : List UInt8 := [0, 3, 1, 0, 8, 0, 0, 0] ++ [127, 4, 1, 0, 7, 7, 7, 7]

theorem markedTable_same :
    (smbiosCollect (some markedTable) = smbiosCollect (some markedTableJunk) ∧
      memoryRegions markedTable = memoryRegions markedTableJunk) ∧
    (smbiosCollect (some markedTable) = smbiosCollect (some markedTableLonger) ∧
      memoryRegions markedTable = memoryRegions markedTableLonger) := by
  constructor
  · exact outside_table_irrelevant ⟨by decide, by decide, by decide, by decide⟩
      (Or.inl (by decide))
  · exact outside_table_irrelevant ⟨by decide, by decide, by decide, by decide⟩
      (Or.inr ⟨⟨8, 127, 4⟩, by decide +kernel, rfl, 4, by decide, by decide,
        by decide, by decide⟩)

end HwMon
