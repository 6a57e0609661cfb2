import HwMon.Memory.MemoryInfo
import HwMon.Smbios.Collect

/-!
# Two walks over one table

The walk for memory ranges and the walk for the records have separate loops.
Both follow the same abstract walk, the first one up to its region limit.
-/

namespace HwMon
set_option autoImplicit false

def stringSetEnd (m : Mem) (stop p : Nat) : Option Nat :=
  match closeAt (segment m p (stop - p)) with
  | some n => some (p + n)
  | none => if p + 1 = stop ∧ m p = 0 ∧ m (p - 1) = 0 then some stop else none

def walkVisits (m : Mem) (stop cur : Nat) : List Visit :=
  if cur + 4 ≤ stop then
    ⟨cur, m cur, m (cur + 1)⟩ ::
      if m (cur + 1) < 4 ∨ cur + (m (cur + 1)).toNat > stop then []
      else if m cur = 127 then []
      else
        match stringSetEnd m stop (cur + (m (cur + 1)).toNat) with
        | none => []
        | some next => if next ≤ cur then [] else walkVisits m stop next
  else []
termination_by stop - cur

section Smbios
variable {m : Mem} {stop : Nat}

theorem smbiosWalk_visits (cur : Nat) (out : SmbiosData) :
    (smbiosWalk stop cur out).select SmbiosEvent.visit? m = walkVisits m stop cur := by
  fun_induction smbiosWalk stop cur out with
  | case1 cur out hlt ih =>
    have hskip : (skipStringSet stop (cur + (m (cur + 1)).toNat) : SmbiosProbe _).select
        SmbiosEvent.visit? m = [] :=
      Probe.select_eq_nil (skipStringSet_safe (Nat.zero_le _)) visit?_of_safe
    have hend : (skipStringSet stop (cur + (m (cur + 1)).toNat) : SmbiosProbe _).val m =
        stringSetEnd m stop (cur + (m (cur + 1)).toNat) := skipStringSet_val _
    rw [walkVisits, if_pos hlt]
    simp only [↓Probe.select_bind, ↓Probe.select_ite, Probe.select_ask, Probe.select_note,
      Probe.val_ask, SmbiosEvent.visit?, Option.toList_some, List.nil_append,
      List.singleton_append, Probe.select_pure]
    congr 1
    by_cases hhdr : m (cur + 1) < 4 ∨ cur + (m (cur + 1)).toNat > stop
    · rw [if_pos hhdr, if_pos hhdr]
    rw [if_neg hhdr, if_neg hhdr]
    by_cases hty : m cur = 127
    · rw [if_pos hty, if_pos hty]
    have hroom := Nat.le_of_not_lt fun h => hhdr (Or.inr h)
    have hparse : ∀ out, (parseStructure (m cur) cur (m (cur + 1)) stop out).select
        SmbiosEvent.visit? m = [] := fun out =>
      Probe.select_eq_nil (parseStructure_safe (Nat.le_refl cur) hroom (m cur) out) visit?_of_safe
    rw [if_neg hty, if_neg hty]
    simp only [hparse, smbiosNextStructure, hskip, hend, List.nil_append]
    cases stringSetEnd m stop (cur + (m (cur + 1)).toNat) with
    | none => rfl
    | some next =>
      simp only [Probe.select_ite, Probe.select_pure]
      by_cases hback : next ≤ cur
      · rw [if_pos hback, if_pos hback]
      · rw [if_neg hback, if_neg hback]
        exact ih (m (cur + 1)) _ _ hback
  | case2 cur out hlt =>
    rw [walkVisits, if_neg hlt]
    rfl

end Smbios

/-!
## The memory walk
-/

def decodeRange (f : List UInt8) : UInt64 × UInt64 :=
  if fieldDword f 0x04 = 0xFFFFFFFF ∧ 0x1F ≤ f.length then
    extendedRange (fieldQword f 0x0F) (fieldQword f 0x17)
  else if fieldDword f 0x04 ≠ 0xFFFFFFFF then
    kilobyteRange (fieldDword f 0x04) (fieldDword f 0x08)
  else (0, 0)

/-- The region that a formatted area describes, if it is a Type 19 structure
with a range that is not empty. -/
def decodeRegion (f : List UInt8) : Option MemoryRegion :=
  if f.getD 0 0 = 19 ∧ 0x0F ≤ f.length ∧ (decodeRange f).2 > 0 then
    some { base := (decodeRange f).1, length := (decodeRange f).2,
           type := (fieldWord f 0x0C).toUInt32 }
  else none

def regionAt (m : Mem) (stop : Nat) (v : Visit) : Option MemoryRegion :=
  if 4 ≤ v.hlen.toNat ∧ v.offset + v.hlen.toNat ≤ stop then
    decodeRegion (segment m v.offset v.hlen.toNat)
  else none

section Region
variable {m : Mem} {cur : Nat} {hlen : UInt8} {f : List UInt8}
variable (hf : segment m cur hlen.toNat = f)
include hf

theorem mappedRange_val (h : 0x0F ≤ f.length) : (mappedRange cur hlen).val m = decodeRange f := by
  have hlen' := formatted_length hf
  have hlong : hlen ≥ 0x1F ↔ 0x1F ≤ f.length := by
    rw [hlen']
    exact UInt8.le_iff_toNat_le
  have hstart : UInt32.ofNat (leNat (segment m (cur + 0x04) 4)) = fieldDword f 0x04 := by
    rw [fieldDword, fieldBytes_formatted hf (by omega)]
  have hend : UInt32.ofNat (leNat (segment m (cur + 0x08) 4)) = fieldDword f 0x08 := by
    rw [fieldDword, fieldBytes_formatted hf (by omega)]
  simp only [mappedRange, ↓Probe.val_bind, ↓Probe.val_ite, Probe.val_pure, read32_val, read64_val,
    hstart, hend, hlong, decodeRange]
  by_cases hext : fieldDword f 0x04 = 0xFFFFFFFF ∧ 0x1F ≤ f.length
  · have hfit := hext.2
    rw [if_pos hext, if_pos hext, fieldQword, fieldQword, fieldBytes_formatted hf (by omega),
      fieldBytes_formatted hf (by omega)]
  · rw [if_neg hext, if_neg hext]

theorem storeRegion_val (hfour : 0 < hlen.toNat) (out : Capped MemoryRegion memoryMaxRegions) :
    (storeRegion (m cur) cur hlen out).val m = (decodeRegion f).toList.foldl Capped.push out := by
  have htype : m cur = f.getD 0 0 := by
    rw [getD_formatted hf hfour]
    rfl
  have hlong : hlen ≥ 0x0F ↔ 0x0F ≤ f.length := by
    rw [formatted_length hf]
    exact UInt8.le_iff_toNat_le
  simp only [storeRegion, ↓Probe.val_ite, Probe.val_pure, htype, hlong, decodeRegion]
  by_cases htest : f.getD 0 0 = 19 ∧ 0x0F ≤ f.length
  · have hfit := htest.2
    rw [formatted_length hf] at hfit
    have hhandle : UInt16.ofNat (leNat (segment m (cur + 0x0C) 2)) = fieldWord f 0x0C := by
      rw [fieldWord, fieldBytes_formatted hf (by omega)]
    simp only [if_pos htest, ↓Probe.val_bind, ↓Probe.val_ite, Probe.val_pure,
      mappedRange_val hf htest.2, read16_val, hhandle]
    by_cases hrange : (decodeRange f).2 > 0
    · rw [if_pos hrange, if_pos ⟨htest.1, htest.2, hrange⟩]
      rfl
    · rw [if_neg hrange, if_neg fun h => hrange h.2.2]
      rfl
  · rw [if_neg htest, if_neg fun h => htest ⟨h.1, h.2.1⟩]
    rfl

end Region

section Memory
variable {m : Mem} {stop : Nat}

/-- No structure is entered while one is handled. -/
def MemoryQuiet : Access Nat MemoryEvent → Prop
  | .read _ => True
  | .note w => w.visit? = none

theorem select_of_quiet {α : Type} {p : MemoryProbe α} (h : p.Always MemoryQuiet m) :
    p.select MemoryEvent.visit? m = [] :=
  Probe.select_eq_nil h fun _ hw => hw

theorem nextStructure_quiet (cur len : Nat) :
    (nextStructure cur len stop).select MemoryEvent.visit? m = [] :=
  select_of_quiet (always_skipStringSet fun _ _ _ => trivial)

theorem mappedRange_quiet (cur : Nat) (hlen : UInt8) :
    (mappedRange cur hlen).Always MemoryQuiet m := by
  simp only [mappedRange, Probe.always_bind]
  refine ⟨always_read32 fun _ _ _ => trivial, always_read32 fun _ _ _ => trivial,
    Probe.always_ite (fun _ => ?_) fun _ => ?_⟩
  · simp only [Probe.always_bind, Probe.always_pure, and_true]
    exact ⟨always_read64 fun _ _ _ => trivial, always_read64 fun _ _ _ => trivial⟩
  · exact Probe.always_ite (fun _ => Probe.always_pure _) fun _ => Probe.always_pure _

theorem storeRegion_quiet (type : UInt8) (cur : Nat) (hlen : UInt8)
    (out : Capped MemoryRegion memoryMaxRegions) :
    (storeRegion type cur hlen out).select MemoryEvent.visit? m = [] := by
  apply select_of_quiet
  refine Probe.always_ite (fun _ => ?_) fun _ => Probe.always_pure _
  simp only [Probe.always_bind]
  refine ⟨mappedRange_quiet cur hlen, Probe.always_ite (fun _ => ?_) fun _ => Probe.always_pure _⟩
  simp only [Probe.always_bind, Probe.always_note, Probe.always_pure, and_true]
  exact ⟨rfl, always_read16 fun _ _ _ => trivial⟩

theorem regionAt_of_fits {v : Visit} (h : 4 ≤ v.hlen.toNat)
    (hfit : v.offset + v.hlen.toNat ≤ stop) :
    regionAt m stop v = decodeRegion (segment m v.offset v.hlen.toNat) := if_pos ⟨h, hfit⟩

theorem regionAt_of_bad {v : Visit} (h : v.hlen < 4 ∨ v.offset + v.hlen.toNat > stop) :
    regionAt m stop v = none := by
  have hfour : v.hlen < 4 ↔ v.hlen.toNat < 4 := UInt8.lt_iff_toNat_lt
  rw [hfour] at h
  exact if_neg (by omega)

theorem regionAt_of_type {cur : Nat} (h : m cur ≠ 19) (hlen : UInt8) :
    regionAt m stop ⟨cur, m cur, hlen⟩ = none := by
  rw [regionAt]
  split
  · rename_i hfit
    have hpos : 0 < hlen.toNat := Nat.lt_of_lt_of_le (Nat.succ_pos 3) hfit.1
    refine if_neg fun hdec => h ?_
    rw [← hdec.1, segment_getD m cur hlen.toNat 0 hpos]
    rfl
  · rfl

/-- The memory walk follows the abstract walk until its array is full. -/
theorem memoryWalk_fills (cur : Nat) (out : Capped MemoryRegion memoryMaxRegions) :
    Capped.Fills (regionAt m stop) out (walkVisits m stop cur)
      ((memoryWalk stop cur out).select MemoryEvent.visit? m)
      ((memoryWalk stop cur out).val m) := by
  fun_induction memoryWalk stop cur out with
  | case1 cur out hlt ih =>
    have hend : (nextStructure cur (m (cur + 1)).toNat stop).val m =
        stringSetEnd m stop (cur + (m (cur + 1)).toNat) := skipStringSet_val _
    rw [walkVisits, if_pos hlt.1]
    simp only [↓Probe.select_bind, ↓Probe.select_ite, Probe.select_ask, Probe.select_note,
      Probe.val_ask, MemoryEvent.visit?, Option.toList_some, List.nil_append,
      List.singleton_append, Probe.select_pure, ↓Probe.val_bind, ↓Probe.val_ite, Probe.val_pure]
    by_cases hhdr : m (cur + 1) < 4 ∨ cur + (m (cur + 1)).toNat > stop
    · rw [if_pos hhdr, if_pos hhdr, if_pos hhdr]
      exact .last_none (regionAt_of_bad hhdr)
    rw [if_neg hhdr, if_neg hhdr, if_neg hhdr]
    by_cases hty : m cur = 127
    · rw [if_pos hty, if_pos hty, if_pos hty]
      refine .last_none (regionAt_of_type ?_ _)
      rw [hty]
      decide
    have hroom := Nat.le_of_not_lt fun h => hhdr (Or.inr h)
    have hfour : 4 ≤ (m (cur + 1)).toNat :=
      UInt8.le_iff_toNat_le.mp (UInt8.not_lt.mp fun h => hhdr (Or.inl h))
    have hstore : (storeRegion (m cur) cur (m (cur + 1)) out).val m =
        Capped.pushAll (regionAt m stop) out [⟨cur, m cur, m (cur + 1)⟩] := by
      rw [storeRegion_val rfl (by omega), Capped.pushAll_singleton,
        regionAt_of_fits hfour hroom]
    rw [if_neg hty, if_neg hty, if_neg hty]
    simp only [storeRegion_quiet, nextStructure_quiet, hend, hstore, List.nil_append] at ih ⊢
    cases hnext : stringSetEnd m stop (cur + (m (cur + 1)).toNat) with
    | none => exact .last _
    | some next =>
      simp only [Probe.select_ite, Probe.select_pure, Probe.val_ite, Probe.val_pure]
      by_cases hback : next ≤ cur
      · rw [if_pos hback, if_pos hback, if_pos hback]
        exact .last _
      · rw [if_neg hback, if_neg hback, if_neg hback]
        exact .cons (ih (m (cur + 1)) _ next hback)
  | case2 cur out hlt =>
    by_cases hroom : cur + 4 ≤ stop
    · exact .full (fun hcount => hlt ⟨hroom, hcount⟩) _
    · rw [walkVisits, if_neg hroom]
      exact .nil

end Memory

/-!
## Both walks over a raw buffer
-/

def memoryVisits (raw : List UInt8) : List Visit :=
  (collectRegionsRaw raw.length).select MemoryEvent.visit? (memOf raw)

def memoryRegions (raw : List UInt8) : Capped MemoryRegion memoryMaxRegions :=
  collectRegionsFromSmbios (some raw)

/-- The regions of a raw buffer as the records walk meets them. -/
def rawRegionAt (raw : List UInt8) : Visit → Option MemoryRegion :=
  regionAt (memOf raw) (smbiosTableEnd raw.length (smbiosLength raw))

theorem memoryRegions_fills (raw : List UInt8) :
    Capped.Fills (rawRegionAt raw) .empty (smbiosVisits raw) (memoryVisits raw)
      (memoryRegions raw) := by
  rcases Nat.lt_or_ge raw.length rawSmbiosHeaderSize with hhdr | hsize
  · have hvisits : memoryVisits raw = [] := by
      simp only [memoryVisits, collectRegionsRaw, if_pos hhdr, Probe.select_pure]
    have hregions : memoryRegions raw = .empty := by
      simp only [memoryRegions, collectRegionsFromSmbios, collectRegionsRaw, if_pos hhdr,
        Probe.val_pure]
    rw [smbiosVisits_of_small hhdr, hvisits, hregions]
    exact .nil
  · have hhdr : ¬raw.length < rawSmbiosHeaderSize := Nat.not_lt.mpr hsize
    have hread : (read32 4 : MemoryProbe _).select MemoryEvent.visit? (memOf raw) = [] := rfl
    have hvisits : memoryVisits raw =
        (memoryWalk (smbiosTableEnd raw.length (smbiosLength raw)) 8 .empty).select
          MemoryEvent.visit? (memOf raw) := by
      simp only [memoryVisits, collectRegionsRaw, if_neg hhdr, ↓Probe.select_bind, read32_val,
        hread, List.nil_append]
      rfl
    have hregions : memoryRegions raw =
        (memoryWalk (smbiosTableEnd raw.length (smbiosLength raw)) 8 .empty).val
          (memOf raw) := by
      simp only [memoryRegions, collectRegionsFromSmbios, collectRegionsRaw, if_neg hhdr,
        ↓Probe.val_bind, read32_val]
      rfl
    rw [smbiosVisits_eq hsize, smbiosWalk_visits, hvisits, hregions]
    exact memoryWalk_fills 8 .empty

theorem memoryRegions_items (raw : List UInt8) :
    (memoryRegions raw).items =
      ((smbiosVisits raw).filterMap (rawRegionAt raw)).take memoryMaxRegions := by
  rw [(memoryRegions_fills raw).result, Capped.pushAll_items]
  rfl

end HwMon
