import HwMon.Driver.Ioctl
import HwMon.Lib.Interleave

/-!
# Concurrent legacy reads

Any number of legacy requests run at once on one address port, one data port and
one spin lock. The lock owner, the point that a request has reached and the word
in the address port are linked, so every request gets the dword of its own word.
-/

namespace HwMon
set_option autoImplicit false

abbrev DriverTask (α : Type) := Task DriverRead DriverRead.Answer DriverEvent α

def readPciConfigDwordLegacyTask (bus device function offset : UInt8) : DriverTask UInt32 :=
  .note .acquireLock <|
  .note (.outdword 0xCF8 (legacyAddress bus device function offset)) <|
  .ask (.port 0xCFC) fun value =>
  .note .releaseLock <|
  .done value

def readInputTask (i : Nat) : Nat → DriverTask (List UInt8)
  | 0 => .done []
  | n + 1 => .ask (.input i) fun b => (readInputTask (i + 1) n).bind fun bs => .done (b :: bs)

def ioctlPciConfigTask (inLen outLen : Nat) : DriverTask IoResult :=
  if inLen < 4 ∨ outLen < 4 then .done (.error .bufferTooSmall)
  else
    (readInputTask 0 4).bind fun bytes =>
      let input := HwmonReadPciConfigInput.ofBytes bytes
      (readPciConfigDwordLegacyTask input.bus input.device input.function input.offset).bind
        fun value =>
          let bytes := leBytes 4 value.toNat
          .note (.output bytes) (.done ⟨.success, bytes.length, bytes⟩)

theorem readPciConfigDwordLegacyTask_toProbe (bus device function offset : UInt8) :
    (readPciConfigDwordLegacyTask bus device function offset).toProbe =
      readPciConfigDwordLegacy bus device function offset := rfl

theorem readInputTask_toProbe (i n : Nat) : (readInputTask i n).toProbe = readInput i n := by
  induction n generalizing i with
  | zero => rfl
  | succ n ih =>
    simp only [readInputTask, Task.toProbe, Task.toProbe_bind, ih]
    rfl

/-- The tasks run without a stop are the functions of the driver. -/
theorem ioctlPciConfigTask_toProbe (inLen outLen : Nat) :
    (ioctlPciConfigTask inLen outLen).toProbe =
      hwmonDeviceControl ioctlReadPciConfig inLen outLen := by
  change _ = ioctlPciConfig inLen outLen
  unfold ioctlPciConfigTask ioctlPciConfig
  split
  · rfl
  · simp only [Task.toProbe_bind, readInputTask_toProbe, readPciConfigDwordLegacyTask_toProbe]
    rfl

/-- A request: its system buffer and the two lengths. -/
structure ConfigIrp where
  input : Nat → UInt8
  inLen : Nat
  outLen : Nat

namespace ConfigIrp
variable (r : ConfigIrp)

def Short : Prop := r.inLen < 4 ∨ r.outLen < 4

instance : Decidable r.Short := inferInstanceAs (Decidable (_ ∨ _))

/-- The address word of the request. -/
def address : UInt32 := legacyAddress (r.input 0) (r.input 1) (r.input 2) (r.input 3)

def task : DriverTask IoResult := ioctlPciConfigTask r.inLen r.outLen

end ConfigIrp

structure PortState (τ : Type) where
  /-- Who holds `g_PciConfigLock`. -/
  owner : Option τ
  /-- The word in port `0xCF8`. -/
  latch : UInt32

section Requests
variable {τ : Type} (requests : τ → ConfigIrp) (space : Nat → UInt32 → UInt32)
  (elsewhere : τ → Nat → Machine)

/-- The data port answers with the dword that the word in the address port selects at
that time, and the lock is granted when nobody holds it. -/
def portWorld : World τ DriverRead DriverRead.Answer DriverEvent (PortState τ) where
  answer t n s
    | .input i => (requests t).input i
    | .port p => if p = 0xCFC then space n s.latch else elsewhere t n (.port p)
    | .msr i => elsewhere t n (.msr i)
    | .map phys size => elsewhere t n (.map phys size)
    | .mmio phys => elsewhere t n (.mmio phys)
  effect t s
    | .acquireLock =>
      match s.owner with
      | none => some { s with owner := some t }
      | some _ => none
    | .releaseLock => some { s with owner := none }
    | .outdword p w => some (if p = 0xCF8 then { s with latch := w } else s)
    | _ => some s

abbrev ConfigPool (τ : Type) :=
  Pool τ DriverRead DriverRead.Answer DriverEvent IoResult (PortState τ)

abbrev PortTrace (τ : Type) := List (τ × Access DriverRead DriverEvent)

/-- All requests are at their start and nobody holds the lock. -/
def ConfigPool.start (latch : UInt32) : ConfigPool τ :=
  { task := fun t => (requests t).task, shared := ⟨none, latch⟩, trace := [] }

/-- The dword that the address word of `t` selected when `t` read the data port. -/
def OwnDword (t : τ) (v : UInt32) (log : PortTrace τ) : Prop :=
  ∃ n, log[n]? = some (t, .read (.port 0xCFC)) ∧ v = space n (requests t).address

/-- The points of a request. -/
inductive Stage where
  | outside
  | locked
  | latched
  | served (value : UInt32)
  | finished (value : UInt32)

/-- What links a point of request `t` to the lock and the address port. -/
def Stage.Holds (t : τ) : Stage → PortState τ → PortTrace τ → Prop
  | .outside, s, _ => s.owner ≠ some t
  | .locked, s, _ => s.owner = some t
  | .latched, s, _ => s.owner = some t ∧ s.latch = (requests t).address
  | .served v, s, log => s.owner = some t ∧ OwnDword requests space t v log
  | .finished v, s, log => s.owner ≠ some t ∧ OwnDword requests space t v log

/-- The accesses that a request may make from each point. -/
inductive Follows (r : ConfigIrp) : Stage → DriverTask IoResult → Prop
  | short (h : r.Short) : Follows r .outside (.done (.error .bufferTooSmall))
  | input {i : Nat} {k : UInt8 → DriverTask IoResult} (h : Follows r .outside (k (r.input i))) :
      Follows r .outside (.ask (.input i) k)
  | acquire {k : DriverTask IoResult} (h : Follows r .locked k) :
      Follows r .outside (.note .acquireLock k)
  | address {k : DriverTask IoResult} (h : Follows r .latched k) :
      Follows r .locked (.note (.outdword 0xCF8 r.address) k)
  | data {k : UInt32 → DriverTask IoResult} (h : ∀ v, Follows r (.served v) (k v)) :
      Follows r .latched (.ask (.port 0xCFC) k)
  | release {v : UInt32} {k : DriverTask IoResult} (h : Follows r (.finished v) k) :
      Follows r (.served v) (.note .releaseLock k)
  | output {v : UInt32} {bytes : List UInt8} {k : DriverTask IoResult}
      (h : Follows r (.finished v) k) : Follows r (.finished v) (.note (.output bytes) k)
  | returns {v : UInt32} (h : ¬r.Short) :
      Follows r (.finished v) (.done ⟨.success, 4, leBytes 4 v.toNat⟩)

theorem task_follows (r : ConfigIrp) : Follows r .outside r.task := by
  by_cases h : r.Short
  · have htask : r.task = .done (.error .bufferTooSmall) := if_pos h
    rw [htask]
    exact .short h
  · have htask : r.task = _ := if_neg h
    rw [htask]
    apply Follows.input
    apply Follows.input
    apply Follows.input
    apply Follows.input
    apply Follows.acquire
    apply Follows.address
    apply Follows.data
    intro v
    apply Follows.release
    apply Follows.output
    exact .returns h

theorem task_within (r : ConfigIrp) : r.task.Within 9 := by
  by_cases h : r.Short
  · have htask : r.task = .done (.error .bufferTooSmall) := if_pos h
    rw [htask]
    exact .done _
  · have htask : r.task = _ := if_neg h
    rw [htask]
    refine .ask fun _ => .ask fun _ => .ask fun _ => .ask fun _ => ?_
    exact .note (.note (.ask fun _ => .note (.note (.done _))))

variable {requests space elsewhere} {t u : τ}

theorem OwnDword.append {v : UInt32} {log : PortTrace τ} (h : OwnDword requests space t v log)
    (e : τ × Access DriverRead DriverEvent) : OwnDword requests space t v (log ++ [e]) := by
  obtain ⟨n, hn, hv⟩ := h
  refine ⟨n, ?_, hv⟩
  have hlt : n < log.length := (List.getElem?_eq_some_iff.mp hn).1
  rw [List.getElem?_append_left hlt]
  exact hn

theorem Stage.Holds.append {stage : Stage} {s : PortState τ} {log : PortTrace τ}
    (h : stage.Holds requests space t s log) (e : τ × Access DriverRead DriverEvent) :
    stage.Holds requests space t s (log ++ [e]) := by
  cases stage with
  | outside => exact h
  | locked => exact h
  | latched => exact h
  | served v => exact ⟨h.1, h.2.append e⟩
  | finished v => exact ⟨h.1, h.2.append e⟩

/-- The owner of the lock keeps its assertion if the ports stay as they are, and every
other request if it does not become the owner. -/
theorem Stage.Holds.of_shared {stage : Stage} {s s' : PortState τ} {log : PortTrace τ}
    (h : stage.Holds requests space t s log) (howner : s.owner = some t → s' = s)
    (hother : s.owner ≠ some t → s'.owner ≠ some t) :
    stage.Holds requests space t s' log := by
  cases stage with
  | outside => exact hother h
  | locked =>
    rw [howner h]
    exact h
  | latched =>
    rw [howner h.1]
    exact h
  | served v =>
    rw [howner h.1]
    exact h
  | finished v => exact ⟨hother h.1, h.2⟩

theorem acquire_iff {s s' : PortState τ} :
    (portWorld requests space elsewhere).effect t s .acquireLock = some s' ↔
      s.owner = none ∧ s' = { s with owner := some t } := by
  unfold portWorld
  cases howner : s.owner with
  | none =>
    simp only [howner, true_and, Option.some.injEq]
    exact eq_comm
  | some v =>
    simp only [howner]
    exact iff_of_false (fun h => (nomatch h)) fun h => (nomatch h.1)

/-- What an event of another request leaves alone. -/
theorem Follows.keeps_others {stage : Stage} {w : DriverEvent} {k : DriverTask IoResult}
    {s s' : PortState τ} {log : PortTrace τ} (hfollows : Follows (requests u) stage (.note w k))
    (hholds : stage.Holds requests space u s log)
    (heffect : (portWorld requests space elsewhere).effect u s w = some s') (hne : u ≠ t) :
    (s.owner = some t → s' = s) ∧ (s.owner ≠ some t → s'.owner ≠ some t) := by
  have hnot : some u ≠ some t := fun h => hne (Option.some.inj h)
  cases hfollows with
  | acquire hk =>
    obtain ⟨howner, rfl⟩ := acquire_iff.mp heffect
    rw [howner]
    exact ⟨fun h => (nomatch h), fun _ => hnot⟩
  | address hk =>
    cases heffect
    have howner : s.owner = some u := hholds
    rw [howner]
    exact ⟨fun h => absurd h hnot, fun _ => hnot⟩
  | release hk =>
    cases heffect
    have howner : s.owner = some u := hholds.1
    rw [howner]
    exact ⟨fun h => absurd h hnot, fun _ h => (nomatch h)⟩
  | output hk =>
    cases heffect
    exact ⟨fun _ => rfl, fun h => h⟩

variable (requests space) in
/-- A request is at one of its points, and what the point promises holds. -/
def AtStage (t : τ) (p : DriverTask IoResult) (s : PortState τ) (log : PortTrace τ) : Prop :=
  ∃ stage, Follows (requests t) stage p ∧ stage.Holds requests space t s log

theorem atStage_outline :
    Pool.Outline (portWorld requests space elsewhere) (AtStage requests space) := by
  refine ⟨?_, ?_, ?_, ?_⟩
  · intro t i k s log h
    obtain ⟨stage, hfollows, hholds⟩ := h
    cases hfollows with
    | input hk => exact ⟨.outside, hk, hholds⟩
    | data hk =>
      obtain ⟨howner, hlatch⟩ := hholds
      refine ⟨.served (space log.length s.latch), hk _, howner, log.length, ?_, ?_⟩
      · exact List.getElem?_concat_length
      · rw [hlatch]
  · intro t w k s s' log h heffect
    obtain ⟨stage, hfollows, hholds⟩ := h
    cases hfollows with
    | acquire hk =>
      obtain ⟨-, rfl⟩ := acquire_iff.mp heffect
      exact ⟨.locked, hk, rfl⟩
    | address hk =>
      cases heffect
      exact ⟨.latched, hk, hholds, rfl⟩
    | release hk =>
      cases heffect
      exact ⟨.finished _, hk, fun h => (nomatch h), hholds.2.append _⟩
    | output hk =>
      cases heffect
      exact ⟨.finished _, hk, hholds.append _⟩
  · intro t u p i s log _ h
    obtain ⟨stage, hfollows, hholds⟩ := h
    exact ⟨stage, hfollows, hholds.append _⟩
  · intro t u p w k s s' log hne h hu heffect
    obtain ⟨stage, hfollows, hholds⟩ := h
    obtain ⟨_, hfollowsU, hholdsU⟩ := hu
    obtain ⟨howner, hother⟩ := hfollowsU.keeps_others hholdsU heffect hne
    exact ⟨stage, hfollows, (hholds.of_shared howner hother).append _⟩

/-- The result of a request that is done. -/
theorem done_result {c : ConfigPool τ} (h : c.Annotated (AtStage requests space))
    {result : IoResult} (htask : c.task t = .done result) :
    if (requests t).Short then result = .error .bufferTooSmall
    else ∃ v, OwnDword requests space t v c.trace ∧ result = ⟨.success, 4, leBytes 4 v.toNat⟩ := by
  obtain ⟨stage, hfollows, hholds⟩ := h t
  rw [htask] at hfollows
  cases hfollows with
  | short hshort => rw [if_pos hshort]
  | returns hshort =>
    rw [if_neg hshort]
    exact ⟨_, hholds.2, rfl⟩

theorem start_atStage (latch : UInt32) :
    (ConfigPool.start requests latch).Annotated (AtStage requests space) := by
  intro t
  exact ⟨.outside, task_follows _, fun h => (nomatch h)⟩

/-- A request that is done does not hold the lock. -/
theorem owner_not_done {c : ConfigPool τ} (h : c.Annotated (AtStage requests space))
    (howner : c.shared.owner = some t) (result : IoResult) : c.task t ≠ .done result := by
  intro htask
  obtain ⟨stage, hfollows, hholds⟩ := h t
  rw [htask] at hfollows
  cases hfollows with
  | short hshort => exact hholds howner
  | returns hshort => exact hholds.1 howner

section Runs
variable [DecidableEq τ]

variable (requests space elsewhere) in
/-- Every result is that of the own address word, some request can always go on until all
are done, and none makes more than nine accesses. -/
structure Uncorrupted (c : ConfigPool τ) : Prop where
  returns : ∀ t result, c.task t = .done result →
    if (requests t).Short then result = .error .bufferTooSmall
    else ∃ v, OwnDword requests space t v c.trace ∧ result = ⟨.success, 4, leBytes 4 v.toNat⟩
  progress : ∀ t, (∀ result, c.task t ≠ .done result) →
    ∃ u, (c.step (portWorld requests space elsewhere) u).trace.length = c.trace.length + 1
  bounded : ∀ t, Pool.ownAccesses t c.trace ≤ 9

theorem progress_of_effect {c : ConfigPool τ} {w : DriverEvent} {k : DriverTask IoResult}
    {s : PortState τ} (htask : c.task t = .note w k)
    (heffect : (portWorld requests space elsewhere).effect t c.shared w = some s) :
    (c.step (portWorld requests space elsewhere) t).trace.length = c.trace.length + 1 := by
  rw [Pool.step_note htask heffect, List.length_append]
  rfl

theorem progress_of_ask {c : ConfigPool τ} {i : DriverRead} {k : i.Answer → DriverTask IoResult}
    (htask : c.task t = .ask i k) :
    (c.step (portWorld requests space elsewhere) t).trace.length = c.trace.length + 1 := by
  rw [Pool.step_ask htask, List.length_append]
  rfl

/-- Only a lock that another request holds makes a request wait. -/
theorem progress_of_owner {c : ConfigPool τ} (h : c.Annotated (AtStage requests space))
    (howner : c.shared.owner = none ∨ c.shared.owner = some t)
    (hrest : ∀ result, c.task t ≠ .done result) :
    (c.step (portWorld requests space elsewhere) t).trace.length = c.trace.length + 1 := by
  obtain ⟨stage, hfollows, hholds⟩ := h t
  cases htask : c.task t with
  | ask i k => exact progress_of_ask htask
  | done a => exact absurd htask (hrest a)
  | note w k =>
    rw [htask] at hfollows
    cases hfollows with
    | acquire hk =>
      rcases howner with hfree | hself
      · exact progress_of_effect htask (acquire_iff.mpr ⟨hfree, rfl⟩)
      · exact absurd hself hholds
    | address hk => exact progress_of_effect htask rfl
    | release hk => exact progress_of_effect htask rfl
    | output hk => exact progress_of_effect htask rfl

variable (requests space elsewhere) in
/-- No schedule lets two requests corrupt each other, however many there are. -/
theorem concurrent_reads_uncorrupted (latch : UInt32) (schedule : List τ) :
    Uncorrupted requests space elsewhere
      ((ConfigPool.start requests latch).run (portWorld requests space elsewhere) schedule) := by
  have hrun : Pool.Annotated (AtStage requests space)
      ((ConfigPool.start requests latch).run (portWorld requests space elsewhere) schedule) :=
    atStage_outline.run (start_atStage latch) schedule
  refine ⟨?_, ?_, ?_⟩
  · intro t result htask
    exact done_result hrun htask
  · intro t hrest
    cases howner : ((ConfigPool.start requests latch).run
        (portWorld requests space elsewhere) schedule).shared.owner with
    | none => exact ⟨t, progress_of_owner hrun (.inl howner) hrest⟩
    | some u => exact ⟨u, progress_of_owner hrun (.inr howner) (owner_not_done hrun howner)⟩
  · intro t
    exact Pool.ownAccesses_run_le rfl (fun u => task_within (requests u)) t schedule

/-- What the request sees on its own when the data port answers `v`. -/
def ConfigIrp.machine (r : ConfigIrp) (v : UInt32) : Machine
  | .input i => r.input i
  | .msr _ => none
  | .port _ => v
  | .map _ _ => false
  | .mmio _ => none

theorem alone_val (r : ConfigIrp) (v : UInt32) :
    (hwmonDeviceControl ioctlReadPciConfig r.inLen r.outLen).val (r.machine v) =
      if r.Short then .error .bufferTooSmall else ⟨.success, 4, leBytes 4 v.toNat⟩ := by
  rw [← ioctlPciConfigTask_toProbe]
  unfold ioctlPciConfigTask
  by_cases h : r.Short
  · rw [if_pos h]
    exact congrArg (fun p : DriverTask IoResult => p.toProbe.val (r.machine v)) (if_pos h)
  · rw [if_neg h]
    exact congrArg (fun p : DriverTask IoResult => p.toProbe.val (r.machine v)) (if_neg h)

/-- Whatever runs besides it, a request gets what the driver gives it alone on a machine
that answers with its own dword. -/
theorem done_alone {latch : UInt32} {schedule : List τ} {result : IoResult}
    (htask : ((ConfigPool.start requests latch).run
      (portWorld requests space elsewhere) schedule).task t = .done result) :
    ∃ v, result = (hwmonDeviceControl ioctlReadPciConfig (requests t).inLen
        (requests t).outLen).val ((requests t).machine v) ∧
      ((requests t).Short ∨ OwnDword requests space t v
        ((ConfigPool.start requests latch).run
          (portWorld requests space elsewhere) schedule).trace) := by
  have hresult := done_result (atStage_outline.run (start_atStage latch) schedule) htask
  by_cases hshort : (requests t).Short
  · rw [if_pos hshort] at hresult
    refine ⟨0, ?_, .inl hshort⟩
    rw [alone_val, if_pos hshort, hresult]
  · rw [if_neg hshort] at hresult
    obtain ⟨v, hown, hv⟩ := hresult
    refine ⟨v, ?_, .inr hown⟩
    rw [alone_val, if_neg hshort, hv]

end Runs
end Requests
end HwMon
