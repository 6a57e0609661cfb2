import HwMon.Cpu.CpuId

/-!
# Topology from the level loop

The loop examines the subleaves of one leaf up to the first of level type zero,
but not more than 17 of them. Its widths are those of the levels it examined.
-/

namespace HwMon
set_option autoImplicit false

/-- A range of numbers is examined up to the first that fails. -/
theorem takeWhile_range (p : Nat → Bool) (n : Nat) :
    ∃ k, k ≤ n ∧ (List.range n).takeWhile p = List.range k ∧ (∀ j < k, p j = true) ∧
      (k < n → p k = false) := by
  induction n with
  | zero => exact ⟨0, Nat.le_refl 0, rfl, fun j hj => absurd hj (Nat.not_lt_zero j), fun h =>
      absurd h (Nat.lt_irrefl 0)⟩
  | succ n ih =>
    obtain ⟨k, hk, htake, hbefore, hstop⟩ := ih
    rw [List.range_succ, List.takeWhile_append, htake, List.length_range, List.length_range]
    by_cases hall : k = n
    · subst k
      rw [if_pos rfl]
      cases hp : p n with
      | true =>
        refine ⟨n + 1, Nat.le_refl _, ?_, ?_, fun h => absurd h (Nat.lt_irrefl _)⟩
        · rw [List.takeWhile_cons_of_pos hp, List.range_succ]
          rfl
        · intro j hj
          rcases Nat.lt_succ_iff_lt_or_eq.mp hj with hj | rfl
          · exact hbefore j hj
          · exact hp
      | false =>
        refine ⟨n, Nat.le_succ n, ?_, hbefore, fun _ => hp⟩
        rw [List.takeWhile_cons_of_neg (by rw [hp]; exact Bool.false_ne_true), List.append_nil]
    · rw [if_neg hall]
      exact ⟨k, by omega, rfl, hbefore, fun _ => hstop (by omega)⟩

/-- What the processor reports for level `k` of a topology leaf. -/
def levelAt (m : Cpu) (leaf : UInt32) (k : Nat) : CpuidResult := m (.cpuid leaf (UInt32.ofNat k))

theorem cpuidAsm_level (m : Cpu) (leaf : UInt32) (k : Nat) :
    (cpuidAsm leaf (UInt32.ofNat k)).val m = levelAt m leaf k := rfl

theorem cpuidAsm_level_zero (m : Cpu) (leaf : UInt32) :
    (cpuidAsm leaf 0).val m = levelAt m leaf 0 := rfl

def ValidLevel (m : Cpu) (leaf : UInt32) (k : Nat) : Prop := levelType (levelAt m leaf k) ≠ 0

instance validLevelDecidable (m : Cpu) (leaf : UInt32) : DecidablePred (ValidLevel m leaf) :=
  fun _ => inferInstanceAs (Decidable (_ ≠ _))

/-- The widths after the levels below `n`. -/
def widthsBelow (m : Cpu) (leaf : UInt32) (n : Nat) : UInt32 × UInt32 :=
  (List.range n).foldl (fun w k => nextWidths w (levelAt m leaf k)) (0, 0)

/-- The width of the last SMT level below `n`, zero if there is none. -/
def LastSmtWidth (m : Cpu) (leaf : UInt32) (n : Nat) (width : UInt32) : Prop :=
  (∃ k < n, levelType (levelAt m leaf k) = 1 ∧ width = logicalAtLevel (levelAt m leaf k) ∧
    ∀ j, k < j → j < n → levelType (levelAt m leaf j) ≠ 1) ∨
  ((∀ k < n, levelType (levelAt m leaf k) ≠ 1) ∧ width = 0)

/-- Leaf 0x1F if it is supported and its subleaf 0 is valid, else leaf 0x0B likewise. -/
def chosenLeaf (m : Cpu) (maxBasicLeaf : UInt32) : Option UInt32 :=
  if maxBasicLeaf ≥ 0x1F ∧ ValidLevel m 0x1F 0 then some 0x1F
  else if maxBasicLeaf ≥ 0x0B ∧ ValidLevel m 0x0B 0 then some 0x0B
  else none

section Loop
variable (m : Cpu) (leaf : UInt32)

theorem takeWhile_levels (k n : Nat) :
    (List.range' k (n + 1)).takeWhile (ValidLevel m leaf ·) =
      if ValidLevel m leaf k then k :: (List.range' (k + 1) n).takeWhile (ValidLevel m leaf ·)
      else [] := by
  rw [List.range'_succ, List.takeWhile_cons]
  by_cases hk : ValidLevel m leaf k
  · rw [if_pos (decide_eq_true hk), if_pos hk]
  · rw [if_neg (by simpa using hk), if_neg hk]

theorem topologyLoop_val (left k : Nat) (w : UInt32 × UInt32) :
    (topologyLoop leaf left (UInt32.ofNat k) w).val m =
      ((List.range' k (left + 1)).takeWhile (ValidLevel m leaf ·)).foldl
        (fun w k => nextWidths w (levelAt m leaf k)) w := by
  induction left generalizing k w with
  | zero =>
    unfold topologyLoop
    simp only [↓Probe.val_bind, cpuidAsm_level, ↓Probe.val_ite, Probe.val_pure]
    rw [takeWhile_levels]
    by_cases hk : ValidLevel m leaf k
    · rw [if_neg hk, if_pos hk]
      rfl
    · rw [if_pos (not_not.mp hk), if_neg hk]
      rfl
  | succ left ih =>
    have hnext : UInt32.ofNat k + 1 = UInt32.ofNat (k + 1) := (UInt32.ofNat_add k 1).symm
    unfold topologyLoop
    simp only [↓Probe.val_bind, cpuidAsm_level, ↓Probe.val_ite, Probe.val_pure, hnext, ih]
    rw [takeWhile_levels m leaf k (left + 1)]
    by_cases hk : ValidLevel m leaf k
    · rw [if_neg hk, if_pos hk]
      rfl
    · rw [if_pos (not_not.mp hk), if_neg hk]
      rfl

theorem widthsBelow_succ (n : Nat) :
    widthsBelow m leaf (n + 1) = nextWidths (widthsBelow m leaf n) (levelAt m leaf n) := by
  unfold widthsBelow
  rw [List.range_succ, List.foldl_append]
  rfl

theorem widthsBelow_smt (n : Nat) : LastSmtWidth m leaf n (widthsBelow m leaf n).1 := by
  induction n with
  | zero => exact Or.inr ⟨fun k hk => absurd hk (Nat.not_lt_zero k), rfl⟩
  | succ n ih =>
    rw [widthsBelow_succ]
    unfold nextWidths
    by_cases hn : levelType (levelAt m leaf n) = 1
    · refine Or.inl ⟨n, Nat.lt_succ_self n, hn, if_pos hn, ?_⟩
      intro j hlt hj
      omega
    rw [if_neg hn]
    have hlast : ∀ j, j = n → levelType (levelAt m leaf j) ≠ 1 := by
      intro j hj
      subst j
      exact hn
    rcases ih with hsome | hnone
    · obtain ⟨k, hk, htype, hwidth, hafter⟩ := hsome
      refine Or.inl ⟨k, by omega, htype, hwidth, ?_⟩
      intro j hlt hj
      rcases Nat.lt_succ_iff_lt_or_eq.mp hj with hj | hj
      · exact hafter j hlt hj
      · exact hlast j hj
    · refine Or.inr ⟨?_, hnone.2⟩
      intro k hk
      rcases Nat.lt_succ_iff_lt_or_eq.mp hk with hk | hk
      · exact hnone.1 k hk
      · exact hlast k hk

/-- The loop ends after `n` levels: at one of type zero, or because it gives up. -/
theorem topologyLoop_ends :
    ∃ n, n ≤ 17 ∧ (topologyLoop leaf 16 0 (0, 0)).val m = widthsBelow m leaf n ∧
      (∀ k < n, ValidLevel m leaf k) ∧ (n < 17 → ¬ValidLevel m leaf n) := by
  obtain ⟨n, hn, htake, hbefore, hstop⟩ := takeWhile_range (ValidLevel m leaf ·) 17
  refine ⟨n, hn, ?_, fun k hk => of_decide_eq_true (hbefore k hk),
    fun hlt => of_decide_eq_false (hstop hlt)⟩
  rw [List.range_eq_range'] at htake
  have hloop := topologyLoop_val m leaf 16 0 (0, 0)
  rw [htake] at hloop
  exact hloop

theorem chosenLeaf_of_first {maxBasicLeaf : UInt32}
    (h : maxBasicLeaf ≥ 0x1F ∧ ValidLevel m 0x1F 0) : chosenLeaf m maxBasicLeaf = some 0x1F :=
  if_pos h

theorem chosenLeaf_of_not_first {maxBasicLeaf : UInt32}
    (h : ¬(maxBasicLeaf ≥ 0x1F ∧ ValidLevel m 0x1F 0)) : chosenLeaf m maxBasicLeaf =
      if maxBasicLeaf ≥ 0x0B ∧ ValidLevel m 0x0B 0 then some 0x0B else none :=
  if_neg h

theorem topologyLeaf_val (maxBasicLeaf : UInt32) :
    (topologyLeaf maxBasicLeaf).val m = chosenLeaf m maxBasicLeaf := by
  have hsecond : maxBasicLeaf ≥ 0x0B → (if levelType (levelAt m 0x0B 0) = 0 then none
      else some (0x0B : UInt32)) =
        if maxBasicLeaf ≥ 0x0B ∧ ValidLevel m 0x0B 0 then some 0x0B else none := by
    intro hbasic
    by_cases hvalid : ValidLevel m 0x0B 0
    · rw [if_neg hvalid, if_pos ⟨hbasic, hvalid⟩]
    · have hno : ¬(maxBasicLeaf ≥ 0x0B ∧ ValidLevel m 0x0B 0) := fun h => hvalid h.2
      rw [if_pos (not_not.mp hvalid), if_neg hno]
  unfold topologyLeaf
  simp only [↓Probe.val_bind, ↓Probe.val_ite, Probe.val_pure, cpuidAsm_level_zero]
  by_cases hsmall : maxBasicLeaf < 0x0B
  · have hbasic : ¬maxBasicLeaf ≥ 0x0B := UInt32.not_le.mpr hsmall
    have hwide : ¬maxBasicLeaf ≥ 0x1F := fun h => hbasic (UInt32.le_trans (by decide) h)
    rw [if_pos hsmall, chosenLeaf_of_not_first m fun h => hwide h.1]
    exact (if_neg fun h => hbasic h.1).symm
  have hbasic : maxBasicLeaf ≥ 0x0B := UInt32.not_lt.mp hsmall
  rw [if_neg hsmall]
  by_cases hwide : maxBasicLeaf ≥ 0x1F
  · simp only [if_pos hwide, if_true]
    by_cases hfirst : ValidLevel m 0x1F 0
    · rw [if_neg hfirst, chosenLeaf_of_first m ⟨hwide, hfirst⟩]
    · rw [if_pos (not_not.mp hfirst), chosenLeaf_of_not_first m fun h => hfirst h.2]
      exact hsecond hbasic
  · have hne : (0x0B : UInt32) ≠ 0x1F := by decide
    simp only [if_neg hwide, if_neg hne]
    rw [chosenLeaf_of_not_first m fun h => hwide h.1]
    exact hsecond hbasic

end Loop

/-- Topology is published only if the level enumeration ends, and then it is
that of the levels; without a valid leaf or an end, all fields are zero. -/
structure TopologyFailsClosed (m : Cpu) (maxBasicLeaf : UInt32) (t : CpuTopology) : Prop where
  available : t.topologyAvailable = true →
    ∃ leaf n, chosenLeaf m maxBasicLeaf = some leaf ∧ 1 ≤ n ∧ n ≤ 16 ∧
      levelType (levelAt m leaf n) = 0 ∧ (∀ k < n, levelType (levelAt m leaf k) ≠ 0) ∧
      t.logicalPerPackage = logicalAtLevel (levelAt m leaf (n - 1)) ∧
      t.logicalPerPackage ≠ 0 ∧ LastSmtWidth m leaf n t.smtPerCore
  closed : (∀ leaf, chosenLeaf m maxBasicLeaf = some leaf →
    ∀ k ≤ 16, levelType (levelAt m leaf k) ≠ 0) → t = {}

/-- A valid leaf all of whose 17 subleaves are of nonzero level type, the last
one with logical processors. -/
def EndlessLevels (m : Cpu) (maxBasicLeaf : UInt32) : Prop :=
  ∃ leaf, chosenLeaf m maxBasicLeaf = some leaf ∧
    (∀ k ≤ 16, levelType (levelAt m leaf k) ≠ 0) ∧ logicalAtLevel (levelAt m leaf 16) ≠ 0

section Result
variable {m : Cpu} {maxBasicLeaf leaf : UInt32}

theorem chosenLeaf_valid (h : chosenLeaf m maxBasicLeaf = some leaf) : ValidLevel m leaf 0 := by
  unfold chosenLeaf at h
  split at h
  · rename_i hfirst
    cases h
    exact hfirst.2
  · split at h
    · rename_i hsecond
      cases h
      exact hsecond.2
    · cases h

theorem collectTopology_of_none (h : chosenLeaf m maxBasicLeaf = none) :
    (collectTopology maxBasicLeaf).val m = {} := by
  unfold collectTopology
  simp only [↓Probe.val_bind, topologyLeaf_val, h, Probe.val_pure]

/-- The result after `n` levels of the chosen leaf. -/
theorem collectTopology_of_some (h : chosenLeaf m maxBasicLeaf = some leaf) :
    ∃ n, n ≤ 16 ∧ (∀ k ≤ n, ValidLevel m leaf k) ∧ (n < 16 → ¬ValidLevel m leaf (n + 1)) ∧
      (collectTopology maxBasicLeaf).val m =
        if logicalAtLevel (levelAt m leaf n) > 0 then
          { smtPerCore := (widthsBelow m leaf (n + 1)).1,
            logicalPerPackage := logicalAtLevel (levelAt m leaf n), topologyAvailable := true }
        else {} := by
  obtain ⟨n, hn, hloop, hvalid, hstop⟩ := topologyLoop_ends m leaf
  -- Level 0 is valid, or the leaf had not been chosen.
  have hpos : n ≠ 0 := by
    intro h0
    subst n
    exact hstop (by omega) (chosenLeaf_valid h)
  obtain ⟨n, rfl⟩ := Nat.exists_eq_succ_of_ne_zero hpos
  refine ⟨n, by omega, fun k hk => hvalid k (by omega), fun hlt => hstop (by omega), ?_⟩
  have hwide : (widthsBelow m leaf (n + 1)).2 = logicalAtLevel (levelAt m leaf n) := by
    rw [widthsBelow_succ]
    rfl
  unfold collectTopology
  simp only [↓Probe.val_bind, topologyLeaf_val, h, hloop, Nat.succ_eq_add_one, hwide,
    ↓Probe.val_ite, Probe.val_pure]

theorem not_endlessLevels_of_none (h : chosenLeaf m maxBasicLeaf = none) :
    ¬EndlessLevels m maxBasicLeaf := by
  intro hendless
  obtain ⟨leaf, hsome, -⟩ := hendless
  rw [h] at hsome
  cases hsome

/-- The loop has gone through `n` levels of a processor without an end iff it stopped at
its limit. -/
theorem endlessLevels_iff (h : chosenLeaf m maxBasicLeaf = some leaf) {n : Nat} (hn : n ≤ 16)
    (hvalid : ∀ k ≤ n, ValidLevel m leaf k) (hstop : n < 16 → ¬ValidLevel m leaf (n + 1)) :
    EndlessLevels m maxBasicLeaf ↔ n = 16 ∧ logicalAtLevel (levelAt m leaf n) ≠ 0 := by
  constructor
  · intro hendless
    obtain ⟨leaf', hsome, hall, hlast⟩ := hendless
    rw [h] at hsome
    cases hsome
    have heq : n = 16 := by
      by_contra hne
      exact hstop (by omega) (hall (n + 1) (by omega))
    subst n
    exact ⟨rfl, hlast⟩
  · intro hlimit
    obtain ⟨rfl, hlast⟩ := hlimit
    exact ⟨leaf, h, hvalid, hlast⟩

end Result

/-- Collection fails closed exactly on the processors whose level enumeration
does not run into the limit of the loop with a nonzero width. -/
theorem topologyFailsClosed_iff (m : Cpu) (maxBasicLeaf : UInt32) :
    TopologyFailsClosed m maxBasicLeaf ((collectTopology maxBasicLeaf).val m) ↔
      ¬EndlessLevels m maxBasicLeaf := by
  cases hleaf : chosenLeaf m maxBasicLeaf with
  | none =>
    rw [collectTopology_of_none hleaf]
    exact iff_of_true ⟨fun h => Bool.noConfusion h, fun _ => rfl⟩ (not_endlessLevels_of_none hleaf)
  | some leaf =>
    obtain ⟨n, hn, hvalid, hstop, hval⟩ := collectTopology_of_some hleaf
    rw [hval, endlessLevels_iff hleaf hn hvalid hstop]
    by_cases hwide : logicalAtLevel (levelAt m leaf n) > 0
    · have hne : logicalAtLevel (levelAt m leaf n) ≠ 0 := UInt32.pos_iff_ne_zero.mp hwide
      rw [if_pos hwide]
      constructor
      · intro hspec hlimit
        obtain ⟨leaf', k, hsome, -, hk, hzero, -⟩ := hspec.available rfl
        rw [hleaf] at hsome
        cases hsome
        exact hvalid k (by omega) hzero
      · intro hfinite
        have hlt : n < 16 := Nat.lt_of_le_of_ne hn fun heq => hfinite ⟨heq, hne⟩
        have hend := not_not.mp (hstop hlt)
        refine ⟨fun _ => ⟨leaf, n + 1, hleaf, by omega, by omega, hend,
          fun k hk => hvalid k (by omega), rfl, hne, widthsBelow_smt m leaf (n + 1)⟩, ?_⟩
        intro hall
        exact absurd hend (hall leaf hleaf (n + 1) (by omega))
    · rw [if_neg hwide]
      refine iff_of_true ⟨fun h => Bool.noConfusion h, fun _ => rfl⟩ ?_
      intro hlimit
      exact hwide (UInt32.pos_iff_ne_zero.mpr hlimit.2)

/-- Every leaf and subleaf reports an SMT level of two logical processors. -/
def loopingCpu : Cpu
  | .cpuid _ _ => ⟨0, 2, 0x100, 0⟩
  | .xgetbv _ => 0
  | .activeProcessorCount => 0
  | .systemProcessorCount => 0

/-- Its level enumeration never ends, and a topology is published. -/
theorem loopingCpu_published :
    ¬TopologyFailsClosed loopingCpu 0x0B ((collectTopology 0x0B).val loopingCpu) := by
  intro hspec
  have hvalid : levelType ⟨0, 2, 0x100, 0⟩ ≠ 0 := by decide
  have hzero := hspec.closed fun _ _ _ _ => hvalid
  have hval : (collectTopology 0x0B).val loopingCpu = ⟨2, 2, true⟩ := by decide
  rw [hval] at hzero
  exact absurd hzero (by decide)

end HwMon
