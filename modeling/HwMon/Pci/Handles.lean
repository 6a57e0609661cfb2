import HwMon.Pci.Resources

/-!
# Who frees a descriptor handle

The loop frees the previous descriptor once the next one has been asked for, and
the clean-up after the loop frees it again, unless the loop stopped at the cap.
-/

namespace HwMon
set_option autoImplicit false

def CmCall.Frees (h : CmHandle) : CmCall → Prop
  | .freeResDesHandle h' => h' = h
  | .freeLogConfHandle h' => h' = h
  | _ => False

def CmCall.Uses (h : CmHandle) : CmCall → Prop
  | .getFirstLogConf _ => False
  | .getNextResDes prev _ => prev = h
  | .getResDesDataSize h' => h' = h
  | .getResDesData h' => h' = h
  | .freeResDesHandle h' => h' = h
  | .freeLogConfHandle h' => h' = h

/-- No call uses a handle after a call that frees it. -/
def NoUseAfterFree (l : List CmCall) : Prop :=
  l.Pairwise fun a b => ∀ h, a.Frees h → ¬b.Uses h

structure HandlesReleased (l : List CmCall) : Prop where
  resDes : ∀ prev h, .getNextResDes prev (some h) ∈ l → l.count (.freeResDesHandle h) = 1
  unused : NoUseAfterFree l
  logConf : ∀ c, .getFirstLogConf (some c) ∈ l →
    l.count (.freeLogConfHandle c) = 1 ∧ .freeResDesHandle c ∉ l

section Loop
variable {sizes : ResSizes} {logConf prev : CmHandle} {dev : PciDevice}

/-- The calls of the loop and of the clean-up for the last descriptor. -/
def loopCalls (sizes : ResSizes) (logConf prev : CmHandle) (dev : PciDevice)
    (descs : List ResDes) : List CmCall :=
  (resourceLoop sizes logConf prev dev descs).2.2 ++
    freePrev logConf (resourceLoop sizes logConf prev dev descs).2.1

theorem loopCalls_full (h : ¬dev.resourceCount < pciMaxResources) (descs : List ResDes) :
    loopCalls sizes logConf prev dev descs = freePrev logConf prev := by
  cases descs with
  | nil =>
    rw [loopCalls, resourceLoop, if_neg h]
    rfl
  | cons d descs =>
    rw [loopCalls, resourceLoop, if_neg h]
    rfl

theorem loopCalls_nil (h : dev.resourceCount < pciMaxResources) :
    loopCalls sizes logConf prev dev [] =
      .getNextResDes prev none :: (freePrev logConf prev ++ freePrev logConf prev) := by
  rw [loopCalls, resourceLoop, if_pos h]
  rfl

theorem loopCalls_cons (h : dev.resourceCount < pciMaxResources) (d : ResDes)
    (descs : List ResDes) : loopCalls sizes logConf prev dev (d :: descs) =
      .getNextResDes prev (some d.handle) :: (freePrev logConf prev ++ ((d.read sizes dev).2 ++
        loopCalls sizes logConf d.handle (d.read sizes dev).1 descs)) := by
  rw [loopCalls, resourceLoop, if_pos h]
  simp only [loopCalls, List.cons_append, List.append_assoc]

theorem collectResources_calls (descs : List ResDes) :
    (collectResources sizes (some logConf) descs dev).2 = .getFirstLogConf (some logConf) ::
      (loopCalls sizes logConf logConf dev descs ++ [.freeLogConfHandle logConf]) := by
  simp only [collectResources, loopCalls, List.cons_append, List.append_assoc]

theorem ResDes.read_calls (d : ResDes) {a : CmCall} (ha : a ∈ (d.read sizes dev).2) :
    a = .getResDesDataSize d.handle ∨ a = .getResDesData d.handle := by
  rw [ResDes.read] at ha
  cases hbuffer : d.buffer with
  | none =>
    rw [hbuffer] at ha
    exact Or.inl (List.mem_singleton.mp ha)
  | some n =>
    rw [hbuffer] at ha
    simpa using ha

theorem mem_freePrev {h : CmHandle} {a : CmCall} :
    a ∈ freePrev logConf h ↔ h ≠ logConf ∧ a = .freeResDesHandle h := by
  rw [freePrev]
  split
  · rename_i hne
    rw [List.mem_singleton, and_iff_right hne]
  · rename_i heq
    exact iff_of_false List.not_mem_nil fun h => heq h.1

/-- Where the loop does not reach the cap, its last handle is freed twice. -/
theorem loopCalls_twice (logConf prev : CmHandle) {descs : List ResDes}
    (hcap : ¬CapReached sizes dev descs) :
    ∃ front, ∃ h ∈ prev :: descs.map ResDes.handle, loopCalls sizes logConf prev dev descs =
      front ++ (freePrev logConf h ++ freePrev logConf h) := by
  have hroom : dev.resourceCount < pciMaxResources := by
    rw [CapReached] at hcap
    omega
  induction descs generalizing prev dev with
  | nil => exact ⟨[.getNextResDes prev none], prev, List.mem_cons_self, loopCalls_nil hroom⟩
  | cons d descs ih =>
    rw [capReached_cons hroom] at hcap
    have hnext : (d.read sizes dev).1.resourceCount < pciMaxResources := by
      rw [CapReached] at hcap
      omega
    obtain ⟨front, h, hmem, hcalls⟩ := ih d.handle hcap hnext
    refine ⟨.getNextResDes prev (some d.handle) :: (freePrev logConf prev ++
      ((d.read sizes dev).2 ++ front)), h, List.mem_cons_of_mem _ hmem, ?_⟩
    rw [loopCalls_cons hroom, hcalls]
    simp only [List.cons_append, List.append_assoc]

theorem ResDes.read_frees (d : ResDes) {a : CmCall} (ha : a ∈ (d.read sizes dev).2)
    (h : CmHandle) : ¬a.Frees h := by
  rcases d.read_calls ha with rfl | rfl
  · exact id
  · exact id

theorem ResDes.read_uses (d : ResDes) {a : CmCall} (ha : a ∈ (d.read sizes dev).2)
    {h : CmHandle} (huse : a.Uses h) : h = d.handle := by
  rcases d.read_calls ha with rfl | rfl
  · exact huse.symm
  · exact huse.symm

theorem NoUseAfterFree.append {l r : List CmCall} (hl : ∀ a ∈ l, ∀ h, ¬a.Frees h)
    (hr : NoUseAfterFree r) : NoUseAfterFree (l ++ r) := by
  refine List.pairwise_append.mpr ⟨?_, hr, ?_⟩
  · exact List.pairwise_of_forall_mem_list fun a ha b _ h hfree => absurd hfree (hl a ha h)
  · intro a ha b _ h hfree
    exact absurd hfree (hl a ha h)

/-- What the loop does with handles when it reaches the cap, given the handle that it
starts with and those that it is handed. -/
structure LoopReleases (logConf prev : CmHandle) (handles : List CmHandle) (l : List CmCall) :
    Prop where
  uses : ∀ a ∈ l, ∀ h, a.Uses h → h ∈ prev :: handles
  frees : ∀ h, .freeResDesHandle h ∈ l → h ≠ logConf
  first : prev ≠ logConf → .freeResDesHandle prev ∈ l
  obtained : ∀ q h, .getNextResDes q (some h) ∈ l → .freeResDesHandle h ∈ l
  unused : NoUseAfterFree l
  noLogConf : ∀ c, .freeLogConfHandle c ∉ l ∧ .getFirstLogConf (some c) ∉ l

theorem freePrev_releases (handles : List CmHandle) :
    LoopReleases logConf prev handles (freePrev logConf prev) := by
  refine ⟨?_, ?_, ?_, ?_, ?_, ?_⟩
  · intro a ha h huse
    obtain ⟨_, rfl⟩ := mem_freePrev.mp ha
    obtain rfl : prev = h := huse
    exact List.mem_cons_self
  · intro h hmem
    obtain ⟨hne, heq⟩ := mem_freePrev.mp hmem
    cases heq
    exact hne
  · intro hne
    exact mem_freePrev.mpr ⟨hne, rfl⟩
  · intro q h hmem
    obtain ⟨_, heq⟩ := mem_freePrev.mp hmem
    cases heq
  · rw [freePrev]
    split
    · exact List.pairwise_singleton _ _
    · exact List.Pairwise.nil
  · intro c
    refine ⟨?_, ?_⟩
    · intro hmem
      obtain ⟨_, heq⟩ := mem_freePrev.mp hmem
      cases heq
    · intro hmem
      obtain ⟨_, heq⟩ := mem_freePrev.mp hmem
      cases heq

theorem mem_round {d : ResDes} {l : List CmCall} {a : CmCall}
    (ha : a ∈ .getNextResDes prev (some d.handle) ::
      (freePrev logConf prev ++ ((d.read sizes dev).2 ++ l))) :
    a = .getNextResDes prev (some d.handle) ∨ a ∈ freePrev logConf prev ∨
      a = .getResDesDataSize d.handle ∨ a = .getResDesData d.handle ∨ a ∈ l := by
  rcases List.mem_cons.mp ha with ha | ha
  · exact Or.inl ha
  rcases List.mem_append.mp ha with ha | ha
  · exact Or.inr (Or.inl ha)
  rcases List.mem_append.mp ha with ha | ha
  · rcases d.read_calls ha with ha | ha
    · exact Or.inr (Or.inr (Or.inl ha))
    · exact Or.inr (Or.inr (Or.inr (Or.inl ha)))
  · exact Or.inr (Or.inr (Or.inr (Or.inr ha)))

/-- The calls of a round that do not read the resource. -/
theorem mem_round_call {d : ResDes} {l : List CmCall} {a : CmCall}
    (ha : a ∈ .getNextResDes prev (some d.handle) ::
      (freePrev logConf prev ++ ((d.read sizes dev).2 ++ l)))
    (hread : a ≠ .getResDesDataSize d.handle ∧ a ≠ .getResDesData d.handle) :
    a = .getNextResDes prev (some d.handle) ∨ a ∈ freePrev logConf prev ∨ a ∈ l := by
  rcases mem_round ha with ha | ha | ha | ha | ha
  · exact Or.inl ha
  · exact Or.inr (Or.inl ha)
  · exact absurd ha hread.1
  · exact absurd ha hread.2
  · exact Or.inr (Or.inr ha)

/-- One round: the previous handle is freed, and never used again. -/
theorem LoopReleases.round {d : ResDes} {handles : List CmHandle} {l : List CmCall}
    (h : LoopReleases logConf d.handle handles l) (hfresh : prev ∉ d.handle :: handles)
    (hother : d.handle ≠ logConf) : LoopReleases logConf prev (d.handle :: handles)
      (.getNextResDes prev (some d.handle) ::
        (freePrev logConf prev ++ ((d.read sizes dev).2 ++ l))) := by
  have hprev : LoopReleases logConf prev (d.handle :: handles) (freePrev logConf prev) :=
    freePrev_releases _
  have hrest : ∀ a ∈ l, a ∈ .getNextResDes prev (some d.handle) ::
      (freePrev logConf prev ++ ((d.read sizes dev).2 ++ l)) := fun a ha =>
    List.mem_cons_of_mem _ (List.mem_append_right _ (List.mem_append_right _ ha))
  refine ⟨?_, ?_, ?_, ?_, ?_, ?_⟩
  · intro a ha c huse
    rcases mem_round ha with rfl | ha | rfl | rfl | ha
    · obtain rfl : prev = c := huse
      exact List.mem_cons_self
    · exact hprev.uses a ha c huse
    · obtain rfl : d.handle = c := huse
      exact List.mem_cons_of_mem _ List.mem_cons_self
    · obtain rfl : d.handle = c := huse
      exact List.mem_cons_of_mem _ List.mem_cons_self
    · exact List.mem_cons_of_mem _ (h.uses a ha c huse)
  · intro c hmem
    rcases mem_round_call hmem (by simp) with heq | hmem | hmem
    · cases heq
    · exact hprev.frees c hmem
    · exact h.frees c hmem
  · intro hne
    exact List.mem_cons_of_mem _ (List.mem_append_left _ (hprev.first hne))
  · intro q c hmem
    rcases mem_round_call hmem (by simp) with heq | hmem | hmem
    · cases heq
      exact hrest _ (h.first hother)
    · obtain ⟨_, heq⟩ := mem_freePrev.mp hmem
      cases heq
    · exact hrest _ (h.obtained q c hmem)
  · have hlater := h.unused.append (l := (d.read sizes dev).2) fun a ha => d.read_frees ha
    refine List.pairwise_cons.mpr ⟨fun b _ c hfree => absurd hfree id,
      List.pairwise_append.mpr ⟨hprev.unused, hlater, ?_⟩⟩
    intro a ha b hb c hfree huse
    obtain ⟨_, rfl⟩ := mem_freePrev.mp ha
    obtain rfl : prev = c := hfree
    rcases List.mem_append.mp hb with hb | hb
    · obtain rfl := d.read_uses hb huse
      exact hfresh List.mem_cons_self
    · exact hfresh (h.uses b hb prev huse)
  · intro c
    refine ⟨?_, ?_⟩
    · intro hmem
      rcases mem_round_call hmem (by simp) with heq | hmem | hmem
      · cases heq
      · exact (hprev.noLogConf c).1 hmem
      · exact (h.noLogConf c).1 hmem
    · intro hmem
      rcases mem_round_call hmem (by simp) with heq | hmem | hmem
      · cases heq
      · exact (hprev.noLogConf c).2 hmem
      · exact (h.noLogConf c).2 hmem

theorem loopCalls_releases {descs : List ResDes} (hcap : CapReached sizes dev descs)
    (hfresh : (prev :: descs.map ResDes.handle).Nodup)
    (hother : logConf ∉ descs.map ResDes.handle) :
    LoopReleases logConf prev (descs.map ResDes.handle)
      (loopCalls sizes logConf prev dev descs) := by
  induction descs generalizing prev dev with
  | nil =>
    have hfull : ¬dev.resourceCount < pciMaxResources := Nat.not_lt.mpr hcap
    rw [loopCalls_full hfull]
    exact freePrev_releases _
  | cons d descs ih =>
    by_cases hroom : dev.resourceCount < pciMaxResources
    · rw [loopCalls_cons hroom]
      rw [capReached_cons hroom] at hcap
      obtain ⟨hprev, hrest⟩ := List.nodup_cons.mp hfresh
      obtain ⟨hne, hothers⟩ := not_or.mp (List.mem_cons.not.mp hother)
      exact (ih hcap hrest hothers).round hprev (Ne.symm hne)
    · rw [loopCalls_full hroom]
      exact freePrev_releases _

theorem loopCalls_nil_releases (logConf : CmHandle) (dev : PciDevice) :
    LoopReleases logConf logConf [] (loopCalls sizes logConf logConf dev []) := by
  by_cases hroom : dev.resourceCount < pciMaxResources
  · have hnone : freePrev logConf logConf = [] := if_neg fun h => h rfl
    rw [loopCalls_nil hroom, hnone]
    refine ⟨?_, ?_, fun hne => absurd rfl hne, ?_, List.pairwise_singleton _ _, ?_⟩
    · intro a ha h huse
      obtain rfl := List.mem_singleton.mp ha
      obtain rfl : logConf = h := huse
      exact List.mem_cons_self
    · intro h hmem
      cases List.mem_singleton.mp hmem
    · intro q h hmem
      cases List.mem_singleton.mp hmem
    · intro c
      exact ⟨by simp, by simp⟩
  · rw [loopCalls_full hroom]
    exact freePrev_releases []

theorem NoUseAfterFree.count_le {l : List CmCall} (h : NoUseAfterFree l) (c : CmHandle) :
    l.count (.freeResDesHandle c) ≤ 1 := by
  by_contra hmany
  have htwice : (List.replicate 2 (.freeResDesHandle c)).Sublist l :=
    List.replicate_sublist_iff.mpr (by omega)
  have hpair := h.sublist htwice
  exact List.rel_of_pairwise_cons hpair List.mem_cons_self c rfl rfl

theorem LoopReleases.handlesReleased {handles : List CmHandle} {l : List CmCall}
    (h : LoopReleases logConf logConf handles l) :
    HandlesReleased (.getFirstLogConf (some logConf) :: (l ++ [.freeLogConfHandle logConf])) := by
  have hunused : NoUseAfterFree
      (.getFirstLogConf (some logConf) :: (l ++ [.freeLogConfHandle logConf])) := by
    refine List.pairwise_cons.mpr ⟨fun b _ c hfree => absurd hfree id,
      List.pairwise_append.mpr ⟨h.unused, List.pairwise_singleton _ _, ?_⟩⟩
    intro a ha b hb c hfree huse
    obtain rfl := List.mem_singleton.mp hb
    obtain rfl : logConf = c := huse
    cases a with
    | freeResDesHandle c' =>
      obtain rfl : c' = logConf := hfree
      exact h.frees c' ha rfl
    | freeLogConfHandle c' => exact (h.noLogConf c').1 ha
    | _ => exact hfree
  refine ⟨?_, hunused, ?_⟩
  · intro q c hmem
    have hinner : .getNextResDes q (some c) ∈ l := by simpa using hmem
    have hpos := List.count_pos_iff.mpr (List.mem_cons_of_mem (.getFirstLogConf (some logConf))
      (List.mem_append_left [.freeLogConfHandle logConf] (h.obtained q c hinner)))
    have hle := hunused.count_le c
    omega
  · intro c hmem
    have hconf : c = logConf := by
      rcases List.mem_cons.mp hmem with heq | hmem
      · cases heq
        rfl
      rcases List.mem_append.mp hmem with hmem | hmem
      · exact absurd hmem (h.noLogConf c).2
      · cases List.mem_singleton.mp hmem
    obtain rfl := hconf
    have hzero := List.count_eq_zero.mpr (h.noLogConf c).1
    refine ⟨?_, ?_⟩
    · rw [List.count_cons_of_ne (by simp), List.count_append, hzero, List.count_singleton_self]
    · intro hfree
      have hinner : .freeResDesHandle c ∈ l := by simpa using hfree
      exact h.frees c hinner rfl

end Loop

/-- The handles are released as they should be just when there is no descriptor to free
or the loop stops at the cap. -/
theorem handlesReleased_iff (sizes : ResSizes) (logConf : Option CmHandle) (descs : List ResDes)
    (dev : PciDevice) (hfresh : (logConf.toList ++ descs.map ResDes.handle).Nodup) :
    HandlesReleased (collectResources sizes logConf descs dev).2 ↔
      logConf = none ∨ descs = [] ∨ CapReached sizes dev descs := by
  cases logConf with
  | none =>
    refine iff_of_true ⟨?_, List.pairwise_singleton _ _, ?_⟩ (Or.inl rfl)
    · intro q c hmem
      cases List.mem_singleton.mp hmem
    · intro c hmem
      cases List.mem_singleton.mp hmem
  | some logConf =>
    obtain ⟨hother, hhandles⟩ := List.nodup_cons.mp hfresh
    rw [collectResources_calls]
    constructor
    · intro h
      refine Or.inr ?_
      cases descs with
      | nil => exact Or.inl rfl
      | cons d descs =>
        refine Or.inr ?_
        by_contra hcap
        have hroom : dev.resourceCount < pciMaxResources := by
          rw [CapReached] at hcap
          omega
        rw [capReached_cons hroom] at hcap
        obtain ⟨front, c, hc, hcalls⟩ := loopCalls_twice logConf d.handle hcap
        have hne : c ≠ logConf := fun heq => hother (heq ▸ hc)
        have hfree : freePrev logConf c = [.freeResDesHandle c] := if_pos hne
        have hle := h.unused.count_le c
        rw [loopCalls_cons hroom, hcalls, hfree] at hle
        simp only [List.count_cons, List.count_append, List.count_nil, beq_self_eq_true,
          if_true] at hle
        omega
    · intro h
      rcases h with h | rfl | hcap
      · cases h
      · exact (loopCalls_nil_releases logConf dev).handlesReleased
      · have hnodup : (logConf :: descs.map ResDes.handle).Nodup := hfresh
        exact (loopCalls_releases hcap hnodup hother).handlesReleased

/-- A memory descriptor with this handle, all of whose calls succeed. -/
def memoryDescriptor (handle : CmHandle) : ResDes := ⟨handle, .mem, some 40, true, some {}⟩

theorem twelveDescriptors_released :
    HandlesReleased (collectResources ⟨40, 40, 40⟩ (some 1)
      ([2, 3, 4, 5, 6, 7, 8, 9, 10, 11, 12, 13].map memoryDescriptor) {}).2 :=
  (handlesReleased_iff ⟨40, 40, 40⟩ (some 1) _ {} (by decide)).mpr
    (Or.inr (Or.inr (by unfold CapReached; decide)))

/-- The handle of a single descriptor is freed twice. -/
theorem oneDescriptor_freedTwice :
    ¬HandlesReleased (collectResources ⟨40, 40, 40⟩ (some 1) [memoryDescriptor 2] {}).2 := by
  intro h
  have hcount := h.resDes 1 2 (by decide)
  revert hcount
  decide

end HwMon
