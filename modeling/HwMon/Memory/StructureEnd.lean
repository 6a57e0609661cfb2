import HwMon.Memory.MemoryInfo
import HwMon.Smbios.Bounds
import HwMon.Smbios.Walk

/-!
# The search for the end of a structure

What `smbios_next_structure` and `next_structure` return, against the first two
consecutive NULs behind the formatted area. The case after the loop reads the byte
before its position, and it is reached only when that byte is formatted area.
-/

namespace HwMon
set_option autoImplicit false

/-- Two consecutive NULs from `i` on, between the formatted area and the table end. -/
def DoubleNul (m : Mem) (areaEnd bufEnd i : Nat) : Prop :=
  areaEnd ≤ i ∧ i + 1 < bufEnd ∧ m i = 0 ∧ m (i + 1) = 0

/-- The search finds the first two consecutive NULs behind the formatted area and takes
no byte of the formatted area into account. -/
structure EndSearchExact {ω : Type} (m : Mem) (areaEnd bufEnd : Nat)
    (search : ByteProbe ω (Option Nat)) : Prop where
  found : (search.val m).isSome = true ↔ ∃ i, DoubleNul m areaEnd bufEnd i
  least : ∀ next ∈ search.val m, ∃ i, next = i + 2 ∧ DoubleNul m areaEnd bufEnd i ∧
    ∀ j < i, ¬DoubleNul m areaEnd bufEnd j
  bounds : ∀ next ∈ search.val m, areaEnd + 2 ≤ next ∧ next ≤ bufEnd
  behind : search.Always (ReadsWithin areaEnd bufEnd) m
  same : ∀ m' : Mem, (∀ i, areaEnd ≤ i → i < bufEnd → m i = m' i) → search.val m' = search.val m

section Search
variable {ω : Type} {m : Mem} {areaEnd bufEnd : Nat}

/-- Positions in the bytes behind the area are places of the table. -/
theorem doubleNul_iff {i : Nat} : DoubleNul m areaEnd bufEnd (areaEnd + i) ↔
    (segment m areaEnd (bufEnd - areaEnd))[i]? = some 0 ∧
      (segment m areaEnd (bufEnd - areaEnd))[i + 1]? = some 0 := by
  by_cases hi : i + 1 < bufEnd - areaEnd
  · rw [segment_getElem? m areaEnd _ i (by omega), segment_getElem? m areaEnd _ (i + 1) hi,
      Option.some.injEq, Option.some.injEq]
    exact ⟨fun h => h.2.2, fun h => ⟨Nat.le_add_right _ _, by omega, h⟩⟩
  · have hnone : (segment m areaEnd (bufEnd - areaEnd))[i + 1]? = none := by
      rw [List.getElem?_eq_none_iff, segment_length]
      omega
    rw [hnone]
    refine iff_of_false ?_ ?_
    · intro h
      have hlt := h.2.1
      omega
    · intro h
      cases h.2

/-- Without a lone NUL behind the area the result is what `closeAt` finds there. -/
theorem skipStringSet_closeAt (h : ¬(areaEnd + 1 = bufEnd ∧ m areaEnd = 0)) :
    (skipStringSet bufEnd areaEnd : ByteProbe ω _).val m =
      (closeAt (segment m areaEnd (bufEnd - areaEnd))).map (areaEnd + ·) := by
  rw [skipStringSet_val]
  cases closeAt (segment m areaEnd (bufEnd - areaEnd)) with
  | none => exact if_neg fun hlone => h ⟨hlone.1, hlone.2.1⟩
  | some n => rfl

theorem skipStringSet_behind (h : ¬(areaEnd + 1 = bufEnd ∧ m areaEnd = 0)) :
    (skipStringSet bufEnd areaEnd : ByteProbe ω _).Always (ReadsWithin areaEnd bufEnd) m := by
  rw [skipStringSet]
  apply Probe.always_ite
  · intro hlt
    have hnext : (skipStringSet bufEnd (areaEnd + 1) : ByteProbe ω _).Always
        (ReadsWithin areaEnd bufEnd) m := by
      apply always_skipStringSet
      intro i hle hi
      exact ⟨by omega, hi⟩
    rw [Probe.always_bind, Probe.always_ask]
    refine ⟨⟨Nat.le_refl _, by omega⟩, Probe.always_ite (fun _ => ?_) fun _ => hnext⟩
    rw [Probe.always_bind, Probe.always_ask]
    exact ⟨⟨Nat.le_succ _, hlt⟩,
      Probe.always_ite (fun _ => Probe.always_pure _) fun _ => hnext⟩
  · intro _
    apply Probe.always_ite
    · intro heq
      rw [Probe.always_bind, Probe.always_ask]
      refine ⟨⟨Nat.le_refl _, by omega⟩, ?_⟩
      rw [Probe.val_ask, if_neg fun hz => h ⟨heq, hz⟩]
      exact Probe.always_pure _
    · exact fun _ => Probe.always_pure _

theorem skipStringSet_exact (h : ¬(areaEnd + 1 = bufEnd ∧ m areaEnd = 0)) :
    EndSearchExact m areaEnd bufEnd (skipStringSet bufEnd areaEnd : ByteProbe ω _) := by
  have hbehind := skipStringSet_behind (ω := ω) h
  have hval := skipStringSet_closeAt (ω := ω) h
  have hleast : ∀ next ∈ (skipStringSet bufEnd areaEnd : ByteProbe ω _).val m,
      ∃ i, next = i + 2 ∧ DoubleNul m areaEnd bufEnd i ∧
        ∀ j < i, ¬DoubleNul m areaEnd bufEnd j := by
    intro next hnext
    rw [hval] at hnext
    obtain ⟨n, hn, rfl⟩ := Option.map_eq_some_iff.mp hnext
    obtain ⟨i, rfl, hi, hfirst⟩ := (closeAt_eq_some_iff _ _).mp hn
    refine ⟨areaEnd + i, rfl, doubleNul_iff.mpr hi, ?_⟩
    intro j hj hdouble
    obtain ⟨k, rfl⟩ := Nat.exists_eq_add_of_le hdouble.1
    exact hfirst k (by omega) (doubleNul_iff.mp hdouble)
  refine ⟨?_, hleast, ?_, hbehind, ?_⟩
  · constructor
    · intro hsome
      obtain ⟨next, hnext⟩ := Option.isSome_iff_exists.mp hsome
      obtain ⟨i, -, hi, -⟩ := hleast next hnext
      exact ⟨i, hi⟩
    · rintro ⟨i, hi⟩
      obtain ⟨k, rfl⟩ := Nat.exists_eq_add_of_le hi.1
      rw [hval, Option.isSome_map, Option.isSome_iff_ne_none]
      intro hnone
      exact (closeAt_eq_none_iff _).mp hnone k (doubleNul_iff.mp hi)
  · intro next hnext
    obtain ⟨i, rfl, hi, -⟩ := hleast next hnext
    have hlow := hi.1
    have hhigh := hi.2.1
    omega
  · intro m' hagree
    exact congrArg Prod.fst (Probe.run_congr hbehind fun i hi => hagree i hi.1 hi.2)

/-- A lone NUL behind the area is judged by a byte of the area. -/
theorem not_skipStringSet_exact (h : areaEnd + 1 = bufEnd ∧ m areaEnd = 0) :
    ¬EndSearchExact m areaEnd bufEnd (skipStringSet bufEnd areaEnd : ByteProbe ω _) := by
  obtain ⟨rfl, hlone⟩ := h
  intro hexact
  have hunfold : (skipStringSet (areaEnd + 1) areaEnd : ByteProbe ω _) = (do
      let b0 ← .ask areaEnd
      if b0 = 0 then do
        let before ← .ask (areaEnd - 1)
        if before = 0 then pure (some (areaEnd + 1)) else pure none
      else pure none) := by
    rw [skipStringSet, if_neg (Nat.lt_irrefl _), if_pos rfl]
  by_cases hbefore : m (areaEnd - 1) = 0
  · have hval : (skipStringSet (areaEnd + 1) areaEnd : ByteProbe ω _).val m =
        some (areaEnd + 1) := by
      rw [hunfold]
      simp only [↓Probe.val_bind, ↓Probe.val_ite, Probe.val_ask, Probe.val_pure, hlone, hbefore,
        if_true]
    have hbounds := hexact.bounds _ hval
    omega
  · have hreads := hexact.behind
    rw [hunfold, Probe.always_bind, Probe.val_ask, if_pos hlone, Probe.always_bind,
      Probe.always_ask, Probe.always_ask] at hreads
    have hwithin : areaEnd ≤ areaEnd - 1 := hreads.2.1.1
    have hzero : areaEnd - 1 = areaEnd := by omega
    exact hbefore (hzero.symm ▸ hlone)

theorem skipStringSet_exact_iff :
    EndSearchExact m areaEnd bufEnd (skipStringSet bufEnd areaEnd : ByteProbe ω _) ↔
      ¬(areaEnd + 1 = bufEnd ∧ m areaEnd = 0) := by
  constructor
  · intro hexact hlone
    exact not_skipStringSet_exact hlone hexact
  · exact skipStringSet_exact

end Search

/-- Both copies of the search are exact just when no lone NUL ends the table behind the
formatted area. -/
theorem endSearches_exact_iff (m : Mem) (structPtr formattedLen bufEnd : Nat) :
    EndSearchExact m (structPtr + formattedLen) bufEnd
        (smbiosNextStructure structPtr formattedLen bufEnd) ∧
      EndSearchExact m (structPtr + formattedLen) bufEnd
        (nextStructure structPtr formattedLen bufEnd) ↔
      ¬(structPtr + formattedLen + 1 = bufEnd ∧ m (structPtr + formattedLen) = 0) := by
  rw [smbiosNextStructure, nextStructure, skipStringSet_exact_iff, skipStringSet_exact_iff,
    and_self_iff]

/-- A structure of four bytes that ends in a NUL, and one more NUL. -/
def loneNul : List UInt8 := [4, 4, 0, 0, 0]

/-- The search takes the last byte of the formatted area for a part of the string set. -/
theorem loneNul_accepted :
    (¬∃ i, DoubleNul (memOf loneNul) 4 5 i) ∧
      (smbiosNextStructure 0 4 5).val (memOf loneNul) = some 5 ∧
      (nextStructure 0 4 5).val (memOf loneNul) = some 5 := by
  refine ⟨?_, ?_, ?_⟩
  · rintro ⟨i, hlow, hhigh, -⟩
    omega
  · rw [smbiosNextStructure, skipStringSet_val]
    rfl
  · rw [nextStructure, skipStringSet_val]
    rfl

end HwMon
