import HwMon.Cpu.CpuId
import HwMon.Lib.Words
import HwMon.Lib.Text
import HwMon.Output.Logger
import Mathlib.Data.List.Nodup

/-!
# The line of features

`append_feature` and its calls in `report_print_cpu_section`. The buffer is on the
stack and holds anything before the first call. A call that is cut short would make
the next one write behind the buffer, but all names together fit.
-/

namespace HwMon
set_option autoImplicit false

def featureBufferSize : UInt64 := 512

/-- `append_feature` on the buffer and `*len`; the room is computed in `size_t`. -/
def appendFeature (bufSize : UInt64) (s : Mem × UInt64) (name : List UInt8) (present : Bool) :
    Mem × UInt64 :=
  if present = false then s
  else
    let (buf, written) := snprintf s.1 s.2.toNat (bufSize - s.2).toNat
      (some ((if s.2 ≠ 0 then [32] else []) ++ name))
    if written > 0 then (buf, s.2 + UInt64.ofNat written.toNat) else (buf, s.2)

def appendFeatures (bufSize : UInt64) (s : Mem × UInt64) (features : List (List UInt8 × Bool)) :
    Mem × UInt64 :=
  features.foldl (fun s p => appendFeature bufSize s p.1 p.2) s

/-- The calls of `append_feature`, in order. -/
def CpuFeatures.listed (f : CpuFeatures) : List (List UInt8 × Bool) :=
  [(charBytes "SSE", f.sse),
    (charBytes "SSE2", f.sse2),
    (charBytes "SSE3", f.sse3),
    (charBytes "SSSE3", f.ssse3),
    (charBytes "SSE4.1", f.sse41),
    (charBytes "SSE4.2", f.sse42),
    (charBytes "AVX", f.avx),
    (charBytes "AVX2", f.avx2),
    (charBytes "AVX512F", f.avx512f),
    (charBytes "(AVX-OS-DISABLED)", (f.avx || f.avx2) && !f.avxOsEnabled),
    (charBytes "(AVX512-OS-DISABLED)", f.avx512f && !f.avx512OsEnabled),
    (charBytes "AES", f.aes),
    (charBytes "BMI1", f.bmi1),
    (charBytes "BMI2", f.bmi2),
    (charBytes "FMA", f.fma),
    (charBytes "SHA", f.sha),
    (charBytes "RDTSCP", f.rdtscp),
    (charBytes "InvariantTSC", f.invariantTsc),
    (charBytes "VMX", f.vmx),
    (charBytes "SVM", f.svm),
    (charBytes "Hypervisor", f.hypervisorPresent)]

/-- The buffer and `len` behind all calls, where the stack held `stack`. -/
def featureBuffer (f : CpuFeatures) (stack : Mem) : Mem × UInt64 :=
  appendFeatures featureBufferSize (store stack 0 [0], 0) f.listed

/-- `%s` of a buffer. -/
def printedString (buf : Mem) (size : Nat) : List UInt8 := (segment buf 0 size).takeWhile (· ≠ 0)

/-- What is printed behind `Features     : `. -/
def printedFeatures (f : CpuFeatures) (stack : Mem) : List UInt8 :=
  if (featureBuffer f stack).2 ≠ 0 then
    printedString (featureBuffer f stack).1 featureBufferSize.toNat
  else charBytes "NONE"

/-!
## Any list of names that fits
-/

section Appending
variable {bufSize : UInt64} {stack : Mem}

def presentNames (features : List (List UInt8 × Bool)) : List (List UInt8) :=
  (features.filter Prod.snd).map Prod.fst

def featureLine (names : List (List UInt8)) : List UInt8 := [32].intercalate names

/-- The buffer holds the line of some names, and nothing behind it has changed. -/
structure HoldsLine (bufSize : UInt64) (stack : Mem) (names : List (List UInt8))
    (s : Mem × UInt64) : Prop where
  length : s.2.toNat = (featureLine names).length
  line : segment s.1 0 ((featureLine names).length + 1) = featureLine names ++ [0]
  confined : ∀ i, bufSize.toNat ≤ i → s.1 i = stack i

theorem featureLine_snoc {names : List (List UInt8)} (name : List UInt8)
    (hnames : ∀ v ∈ names, v ≠ []) : featureLine (names ++ [name]) =
      featureLine names ++ ((if featureLine names = [] then [] else [32]) ++ name) := by
  have hempty : featureLine names = [] ↔ names = [] := intercalate_eq_nil_iff [32] hnames
  by_cases hnil : names = []
  · rw [if_pos (hempty.mpr hnil), hnil]
    exact List.intercalate_singleton
  · rw [if_neg (mt hempty.mp hnil)]
    exact intercalate_snoc [32] hnil name

/-- A call for which there is room. -/
theorem appendFeature_room {s : Mem × UInt64} {name : List UInt8} (hname : name ≠ [])
    (hroom : s.2.toNat + ((if s.2 ≠ 0 then [32] else []) ++ name).length < bufSize.toNat) :
    appendFeature bufSize s name true =
      (store s.1 s.2.toNat ((if s.2 ≠ 0 then [32] else []) ++ name ++ [0]),
        s.2 + UInt64.ofNat ((if s.2 ≠ 0 then [32] else []) ++ name).length) := by
  unfold appendFeature
  generalize htext : (if s.2 ≠ 0 then [32] else []) ++ name = text at hroom ⊢
  have hpos : 0 < text.length := by
    rw [← htext, List.length_append]
    exact Nat.add_pos_right _ (List.length_pos_iff.mpr hname)
  have hsize : (bufSize - s.2).toNat = bufSize.toNat - s.2.toNat :=
    UInt64.toNat_sub_of_le _ _ (UInt64.le_iff_toNat_le.mpr (by omega))
  rw [if_neg (by decide), snprintf, hsize, if_neg (by omega), List.take_of_length_le (by omega)]
  exact if_pos (Int.natCast_pos.mpr hpos)

theorem holdsLine_append {names : List (List UInt8)} {s : Mem × UInt64} {name : List UInt8}
    (h : HoldsLine bufSize stack names s) (hnames : ∀ v ∈ names, v ≠ []) (hname : name ≠ [])
    (hroom : (featureLine (names ++ [name])).length < bufSize.toNat) :
    HoldsLine bufSize stack (names ++ [name]) (appendFeature bufSize s name true) := by
  have hempty : featureLine names = [] ↔ s.2 = 0 := by
    rw [← List.length_eq_zero_iff, ← h.length, ← UInt64.toNat_inj]
    rfl
  have hsep : (if featureLine names = [] then [] else [32]) =
      if s.2 ≠ 0 then [(32 : UInt8)] else [] := by
    rw [ite_not]
    simp only [hempty]
  have hsnoc := featureLine_snoc name hnames
  rw [hsep] at hsnoc
  have hlen := congrArg List.length hsnoc
  rw [List.length_append, ← h.length] at hlen
  rw [appendFeature_room hname (by omega)]
  generalize (if s.2 ≠ 0 then [32] else []) ++ name = text at hsnoc hlen ⊢
  have hlt := bufSize.toNat_lt
  constructor
  · change (s.2 + UInt64.ofNat text.length).toNat = _
    rw [UInt64.toNat_add, UInt64.toNat_ofNat', hlen, Nat.mod_eq_of_lt (a := text.length) (by omega),
      Nat.mod_eq_of_lt (by omega)]
  · change segment (store s.1 s.2.toNat (text ++ [0])) 0 _ = _
    have hfront : segment (store s.1 s.2.toNat (text ++ [0])) 0 s.2.toNat = featureLine names := by
      rw [segment_store_before s.1 (by omega), ← segment_take s.1 0 _ _ (Nat.le_succ _), h.length,
        h.line, List.take_left' rfl]
    have hback := segment_store s.1 s.2.toNat (text ++ [0])
    rw [List.length_append, List.length_singleton] at hback
    rw [hlen, Nat.add_assoc, segment_add, hfront, Nat.zero_add, hback, hsnoc, List.append_assoc]
  · intro i hi
    have hbehind : ¬(s.2.toNat ≤ i ∧ i < s.2.toNat + (text ++ [0]).length) := by
      rw [List.length_append, List.length_singleton]
      omega
    exact (if_neg hbehind).trans (h.confined i hi)

theorem presentNames_cons_true (name : List UInt8) (features : List (List UInt8 × Bool)) :
    presentNames ((name, true) :: features) = name :: presentNames features := rfl

theorem presentNames_sublist (features : List (List UInt8 × Bool)) :
    (presentNames features).Sublist (features.map Prod.fst) :=
  List.filter_sublist.map _

/-- The room that all names of a list may need. -/
def roomFor (names : List (List UInt8)) : Nat := (names.map fun v => v.length + 1).sum

/-- Names that all fit are put into the buffer one behind the other. -/
theorem holdsLine_appendAll {names : List (List UInt8)} {features : List (List UInt8 × Bool)}
    {s : Mem × UInt64} (h : HoldsLine bufSize stack names s) (hnames : ∀ v ∈ names, v ≠ [])
    (hfeatures : ∀ v ∈ features.map Prod.fst, v ≠ [])
    (hroom : roomFor (names ++ features.map Prod.fst) < bufSize.toNat) :
    HoldsLine bufSize stack (names ++ presentNames features)
      (appendFeatures bufSize s features) := by
  induction features generalizing names s with
  | nil =>
    rw [presentNames, List.filter_nil, List.map_nil, List.append_nil]
    exact h
  | cons p features ih =>
    obtain ⟨name, present⟩ := p
    obtain ⟨hname, hrest⟩ := List.forall_mem_cons.mp hfeatures
    rw [appendFeatures, List.foldl_cons]
    cases present with
    | false =>
      refine ih h hnames hrest (Nat.lt_of_le_of_lt ?_ hroom)
      simp only [roomFor, List.map_append, List.sum_append, List.map_cons, List.sum_cons]
      omega
    | true =>
      have hline : (featureLine (names ++ [name])).length ≤
          roomFor (names ++ name :: features.map Prod.fst) := by
        apply length_intercalate_sublist
        exact (List.sublist_append_left [name] _).append_left names
      rw [presentNames_cons_true, ← List.singleton_append, ← List.append_assoc]
      apply ih (holdsLine_append h hnames hname (Nat.lt_of_le_of_lt hline hroom)) _ hrest
      · rw [List.append_assoc]
        exact hroom
      · intro v hv
        rcases List.mem_append.mp hv with hv | hv
        · exact hnames v hv
        · rw [List.mem_singleton.mp hv]
          exact hname

end Appending

/-!
## The names of the source
-/

/-- The line of features: it is written inside the buffer whatever the stack held, and
which features are present can be read off it. -/
structure FeaturesShown (f : CpuFeatures) (stack : Mem) : Prop where
  confined : ∀ i, featureBufferSize.toNat ≤ i → (featureBuffer f stack).1 i = stack i
  text : printedFeatures f stack =
    if presentNames f.listed = [] then charBytes "NONE" else featureLine (presentNames f.listed)
  readBack : ∀ p ∈ f.listed, p.1 ∈ (printedFeatures f stack).splitOn 32 ↔ p.2 = true

section Listed
variable (f : CpuFeatures) (stack : Mem)

/-- All names, which do not depend on the flags. -/
def allNames : List (List UInt8) := ({} : CpuFeatures).listed.map Prod.fst

theorem listed_names : f.listed.map Prod.fst = allNames := rfl

theorem allNames_proper : ∀ v ∈ allNames, v ≠ [] ∧ 0 ∉ v ∧ 32 ∉ v ∧ v ≠ charBytes "NONE" := by
  decide

theorem allNames_nodup : allNames.Nodup := by decide

theorem allNames_fit : roomFor allNames < featureBufferSize.toNat := by decide

theorem holdsLine_start : HoldsLine featureBufferSize stack [] (store stack 0 [0], 0) where
  length := rfl
  line := segment_store stack 0 [0]
  confined i hi := by
    have hsize : featureBufferSize.toNat = 512 := rfl
    exact if_neg fun h => absurd h.2 (by rw [List.length_singleton]; omega)

theorem featureBuffer_line :
    HoldsLine featureBufferSize stack (presentNames f.listed) (featureBuffer f stack) := by
  have hfeatures : ∀ v ∈ f.listed.map Prod.fst, v ≠ [] := by
    rw [listed_names]
    exact fun v hv => (allNames_proper v hv).1
  have hroom : roomFor ([] ++ f.listed.map Prod.fst) < featureBufferSize.toNat := by
    rw [listed_names]
    exact allNames_fit
  have hline := holdsLine_appendAll (holdsLine_start stack) (fun v hv => absurd hv List.not_mem_nil)
    hfeatures hroom
  rwa [List.nil_append] at hline

theorem present_proper {v : List UInt8} (hv : v ∈ presentNames f.listed) :
    v ≠ [] ∧ 0 ∉ v ∧ 32 ∉ v ∧ v ≠ charBytes "NONE" :=
  allNames_proper v (listed_names f ▸ (presentNames_sublist f.listed).subset hv)

theorem featureLine_noNul {names : List (List UInt8)} (h : ∀ v ∈ names, 0 ∉ v) :
    0 ∉ featureLine names := by
  cases names with
  | nil => exact List.not_mem_nil
  | cons v names =>
    obtain ⟨hv, hnames⟩ := List.forall_mem_cons.mp h
    rw [featureLine, intercalate_cons, List.mem_append, List.mem_flatMap]
    rintro (hfirst | ⟨u, hu, hzero⟩)
    · exact hv hfirst
    · rcases List.mem_cons.mp hzero with hzero | hzero
      · cases hzero
      · exact hnames u hu hzero

/-- A name of the list is present if and only if its flag is set. -/
theorem mem_presentNames {p : List UInt8 × Bool} (hp : p ∈ f.listed) :
    p.1 ∈ presentNames f.listed ↔ p.2 = true := by
  have hnodup : (f.listed.map Prod.fst).Nodup := by
    rw [listed_names]
    exact allNames_nodup
  unfold presentNames
  rw [List.mem_map]
  constructor
  · rintro ⟨q, hq, hname⟩
    obtain ⟨hq, hflag⟩ := List.mem_filter.mp hq
    rw [← List.inj_on_of_nodup_map hnodup hq hp hname]
    exact hflag
  · intro hflag
    exact ⟨p, List.mem_filter.mpr ⟨hp, hflag⟩, rfl⟩

theorem featureBuffer_empty_iff :
    (featureBuffer f stack).2 = 0 ↔ presentNames f.listed = [] := by
  have hempty : featureLine (presentNames f.listed) = [] ↔ presentNames f.listed = [] :=
    intercalate_eq_nil_iff [32] fun v hv => (present_proper f hv).1
  rw [← hempty, ← List.length_eq_zero_iff, ← (featureBuffer_line f stack).length,
    ← UInt64.toNat_inj]
  rfl

theorem printedFeatures_text : printedFeatures f stack =
    if presentNames f.listed = [] then charBytes "NONE"
    else featureLine (presentNames f.listed) := by
  have hline := featureBuffer_line f stack
  have hnul : 0 ∉ featureLine (presentNames f.listed) :=
    featureLine_noNul fun v hv => (present_proper f hv).2.1
  unfold printedFeatures
  by_cases hnone : presentNames f.listed = []
  · rw [if_neg (not_not.mpr ((featureBuffer_empty_iff f stack).mpr hnone)), if_pos hnone]
  · rw [if_pos (mt (featureBuffer_empty_iff f stack).mp hnone), if_neg hnone, printedString]
    have hlen : (featureLine (presentNames f.listed)).length < featureBufferSize.toNat :=
      Nat.lt_of_le_of_lt (length_intercalate_sublist 32 (presentNames_sublist f.listed))
        allNames_fit
    rw [← Nat.add_sub_cancel' (Nat.succ_le_of_lt hlen), segment_add, hline.line,
      List.append_assoc, List.singleton_append, takeWhile_noNul hnul]

/-- For every set of features, whatever was on the stack. -/
theorem features_shown : FeaturesShown f stack where
  confined := (featureBuffer_line f stack).confined
  text := printedFeatures_text f stack
  readBack p hp := by
    rw [printedFeatures_text]
    by_cases hnone : presentNames f.listed = []
    · rw [if_pos hnone, ← mem_presentNames f hp, hnone]
      have hother := (allNames_proper p.1 (listed_names f ▸ List.mem_map_of_mem hp)).2.2.2
      have hsplit : (charBytes "NONE").splitOn 32 = [charBytes "NONE"] := by decide
      rw [hsplit, List.mem_singleton]
      exact iff_of_false hother List.not_mem_nil
    · rw [if_neg hnone, featureLine, List.splitOn_intercalate 32
        (fun v hv => (present_proper f hv).2.2.1) hnone]
      exact mem_presentNames f hp

end Listed
end HwMon
