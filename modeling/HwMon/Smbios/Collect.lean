import HwMon.Smbios.Walk

/-!
# The collector on a whole buffer

The collector hands the table part of the raw buffer to the walk. Its result is
the fold over the structures of that table.
-/

namespace HwMon
set_option autoImplicit false

/-- The table part of a raw buffer: the stated length, as far as it was received. -/
def smbiosTable (raw : List UInt8) : List UInt8 := (raw.drop 8).take (smbiosLength raw).toNat

def smbiosStart (raw : List UInt8) : SmbiosData :=
  { majorVersion := memOf raw 1, minorVersion := memOf raw 2 }

def SmbiosData.finish (out : SmbiosData) : SmbiosData :=
  { out with available := decide (out.structuresParsed > 0) }

def smbiosVisits (raw : List UInt8) : List Visit :=
  (smbiosCollectRaw raw.length).select SmbiosEvent.visit? (memOf raw)

def smbiosResult (raw : List UInt8) : SmbiosData := (smbiosCollect (some raw)).2

section Buffer
variable {raw : List UInt8}

theorem smbiosTable_length (raw : List UInt8) :
    (smbiosTable raw).length = min (smbiosLength raw).toNat (raw.length - 8) := by
  rw [smbiosTable, List.length_take, List.length_drop]

variable (hsize : 8 ≤ raw.length)
include hsize

theorem smbiosTableEnd_table :
    smbiosTableEnd raw.length (smbiosLength raw) = 8 + (smbiosTable raw).length := by
  have hhdr : rawSmbiosHeaderSize = 8 := rfl
  rw [smbiosTableEnd_eq, smbiosTable_length]
  omega

theorem segment_smbiosTable :
    segment (memOf raw) 8 (smbiosTableEnd raw.length (smbiosLength raw) - 8) =
      smbiosTable raw := by
  have hlen := smbiosTable_length raw
  rw [smbiosTableEnd_table hsize, Nat.add_sub_cancel_left, segment_memOf raw 8 _ (by omega)]
  rw [hlen, smbiosTable, ← List.length_drop, ← List.take_take, List.take_length]

theorem smbiosCollectRaw_val : (smbiosCollectRaw raw.length).val (memOf raw) =
    (true, ((smbiosWalk (smbiosTableEnd raw.length (smbiosLength raw)) 8
      (smbiosStart raw)).val (memOf raw)).finish) := by
  have hhdr : ¬raw.length < rawSmbiosHeaderSize := Nat.not_lt.mpr hsize
  simp only [smbiosCollectRaw, if_neg hhdr, ↓Probe.val_bind, Probe.val_ask,
    Probe.val_pure, read32_val]
  rfl

theorem smbiosVisits_eq : smbiosVisits raw =
    (smbiosWalk (smbiosTableEnd raw.length (smbiosLength raw)) 8 (smbiosStart raw)).select
      SmbiosEvent.visit? (memOf raw) := by
  have hhdr : ¬raw.length < rawSmbiosHeaderSize := Nat.not_lt.mpr hsize
  have hread : (read32 4 : SmbiosProbe _).select SmbiosEvent.visit? (memOf raw) = [] := rfl
  simp only [smbiosVisits, smbiosCollectRaw, if_neg hhdr, ↓Probe.select_bind,
    Probe.select_ask, Probe.select_pure, Probe.val_ask, read32_val, hread, List.nil_append,
    List.append_nil]
  rfl

/-- The collector is the fold over the structures of the table. -/
theorem smbiosCollect_structures {ss : List SmbiosStructure} {rest : List UInt8}
    (hl : smbiosTable raw = tableBytes ss ++ rest) (hss : ∀ s ∈ ss, s.type ≠ endOfTable)
    (hrest : Stuck rest) :
    smbiosCollect (some raw) =
        (true, (finishTable rest (ss.foldl SmbiosStructure.absorb (smbiosStart raw))).finish) ∧
      smbiosVisits raw = tableVisits 8 ss rest := by
  obtain ⟨hval, hvisits⟩ := smbiosWalk_table ((segment_smbiosTable hsize).trans hl) hss hrest
    (smbiosStart raw)
  constructor
  · change (smbiosCollectRaw raw.length).val (memOf raw) = _
    rw [smbiosCollectRaw_val hsize, hval]
  · rw [smbiosVisits_eq hsize, hvisits]

theorem smbiosResult_structures {ss : List SmbiosStructure} {rest : List UInt8}
    (hl : smbiosTable raw = tableBytes ss ++ rest) (hss : ∀ s ∈ ss, s.type ≠ endOfTable)
    (hrest : Stuck rest) :
    smbiosResult raw =
      (finishTable rest (ss.foldl SmbiosStructure.absorb (smbiosStart raw))).finish :=
  congrArg Prod.snd (smbiosCollect_structures hsize hl hss hrest).1

end Buffer

theorem smbiosVisits_of_small {raw : List UInt8} (h : raw.length < 8) : smbiosVisits raw = [] := by
  have hhdr : raw.length < rawSmbiosHeaderSize := h
  simp only [smbiosVisits, smbiosCollectRaw, if_pos hhdr, Probe.select_pure]

theorem smbiosResult_of_small {raw : List UInt8} (h : raw.length < 8) : smbiosResult raw = {} := by
  have hhdr : raw.length < rawSmbiosHeaderSize := h
  change ((smbiosCollectRaw raw.length).val (memOf raw)).2 = _
  simp only [smbiosCollectRaw, if_pos hhdr, Probe.val_pure]

/-!
## What the fold leaves in each part of the result
-/

/-- Each type touches its own record; nothing else changes. -/
theorem absorbStructure_eq (f area : List UInt8) (out : SmbiosData) :
    absorbStructure f area out =
      { out with
        bios := if f.getD 0 0 = 0 then decodeBios f area out.bios else out.bios
        system := if f.getD 0 0 = 1 then
            decodeSystem out.majorVersion out.minorVersion f area out.system else out.system
        baseboard := if f.getD 0 0 = 2 then decodeBaseboard f area out.baseboard
          else out.baseboard
        chassis := if f.getD 0 0 = 3 then decodeChassis f area out.chassis else out.chassis
        memoryDevices := if f.getD 0 0 = 17 then
            out.memoryDevices.push (decodeMemoryDevice f area) else out.memoryDevices } := by
  unfold absorbStructure
  generalize f.getD 0 0 = t
  by_cases h0 : t = 0
  · simp [h0]
  by_cases h1 : t = 1
  · simp [h1]
  by_cases h2 : t = 2
  · simp [h2]
  by_cases h3 : t = 3
  · simp [h3]
  by_cases h17 : t = 17
  · simp [h17]
  simp only [if_neg h0, if_neg h1, if_neg h2, if_neg h3, if_neg h17]

theorem absorbHead_counts (l : List UInt8) (out : SmbiosData) :
    (absorbHead l out).structuresParsed = out.structuresParsed + 1 ∧
      (absorbHead l out).structuresMalformedSkipped = out.structuresMalformedSkipped := by
  rw [absorbHead, absorbStructure_eq]
  exact ⟨rfl, rfl⟩

def SmbiosStructure.memoryDevice? (s : SmbiosStructure) : Option SmbiosMemoryDevice :=
  if s.type = 17 then some (decodeMemoryDevice s.formatted s.strings) else none

section Step
variable (s : SmbiosStructure) (out : SmbiosData)

theorem absorb_bios : (s.absorb out).bios =
    if s.type = 0 then decodeBios s.formatted s.strings out.bios else out.bios := by
  rw [SmbiosStructure.absorb, absorbStructure_eq]
  rfl

theorem absorb_system : (s.absorb out).system =
    if s.type = 1 then
      decodeSystem out.majorVersion out.minorVersion s.formatted s.strings out.system
    else out.system := by
  rw [SmbiosStructure.absorb, absorbStructure_eq]
  rfl

theorem absorb_baseboard : (s.absorb out).baseboard =
    if s.type = 2 then decodeBaseboard s.formatted s.strings out.baseboard
    else out.baseboard := by
  rw [SmbiosStructure.absorb, absorbStructure_eq]
  rfl

theorem absorb_chassis : (s.absorb out).chassis =
    if s.type = 3 then decodeChassis s.formatted s.strings out.chassis else out.chassis := by
  rw [SmbiosStructure.absorb, absorbStructure_eq]
  rfl

theorem absorb_memoryDevices : (s.absorb out).memoryDevices =
    if s.type = 17 then out.memoryDevices.push (decodeMemoryDevice s.formatted s.strings)
    else out.memoryDevices := by
  rw [SmbiosStructure.absorb, absorbStructure_eq]
  rfl

theorem absorb_counts :
    (s.absorb out).structuresParsed = out.structuresParsed + 1 ∧
      (s.absorb out).structuresMalformedSkipped = out.structuresMalformedSkipped := by
  rw [SmbiosStructure.absorb, absorbStructure_eq]
  exact ⟨rfl, rfl⟩

end Step

def SmbiosData.VersionIs (out : SmbiosData) (major minor : UInt8) : Prop :=
  out.majorVersion = major ∧ out.minorVersion = minor

theorem absorb_versionIs {major minor : UInt8} (out : SmbiosData) (s : SmbiosStructure)
    (h : out.VersionIs major minor) : (s.absorb out).VersionIs major minor := by
  rw [SmbiosStructure.absorb, absorbStructure_eq]
  exact h

section Fold
variable (ss : List SmbiosStructure) (out : SmbiosData)

theorem foldl_absorb_counts :
    (ss.foldl SmbiosStructure.absorb out).structuresParsed = out.structuresParsed + ss.length ∧
      (ss.foldl SmbiosStructure.absorb out).structuresMalformedSkipped =
        out.structuresMalformedSkipped := by
  induction ss generalizing out with
  | nil => exact ⟨rfl, rfl⟩
  | cons s ss ih =>
    obtain ⟨hparsed, hskipped⟩ := ih (s.absorb out)
    rw [List.foldl_cons, hparsed, hskipped, (absorb_counts s out).1, (absorb_counts s out).2,
      List.length_cons]
    exact ⟨Nat.add_right_comm _ 1 _, rfl⟩

theorem foldl_absorb_versionIs {major minor : UInt8} (h : out.VersionIs major minor) :
    (ss.foldl SmbiosStructure.absorb out).VersionIs major minor := by
  induction ss generalizing out with
  | nil => exact h
  | cons s ss ih => exact ih (s.absorb out) (absorb_versionIs out s h)

theorem foldl_absorb_memoryDevices :
    (ss.foldl SmbiosStructure.absorb out).memoryDevices =
      Capped.pushAll SmbiosStructure.memoryDevice? out.memoryDevices ss := by
  induction ss generalizing out with
  | nil => rfl
  | cons s ss ih =>
    rw [List.foldl_cons, ih, absorb_memoryDevices]
    unfold Capped.pushAll
    by_cases h : s.type = 17
    · have hdev : s.memoryDevice? = some (decodeMemoryDevice s.formatted s.strings) := if_pos h
      rw [if_pos h, List.filterMap_cons_some hdev, List.foldl_cons]
    · have hdev : s.memoryDevice? = none := if_neg h
      rw [if_neg h, List.filterMap_cons_none hdev]

end Fold
end HwMon
