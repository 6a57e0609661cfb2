import HwMon.Lib.Trace
import HwMon.Driver.Request

/-!
# The trace of a sequence of requests

Over any sequence of requests the driver reads listed registers only, writes
configuration addresses only, and takes back every mapping before the request
that made it is completed.
-/

namespace HwMon
set_option autoImplicit false

def DriverAccess.Completes (a : DriverAccess) : Prop :=
  ∃ status information, a = .note (.ioCompleteRequest status information)

/-- What may stand at a place of the trace, given what comes before and after it. -/
def ReadOnlyBalanced (pre : List DriverAccess) (a : DriverAccess) (post : List DriverAccess) :
    Prop :=
  match a with
  | .read (.msr msr) => msrIsWhitelisted msr = true
  | .note (.outdword port value) =>
    port = 0xCF8 ∧ ConfigAddress value ∧ [.note .acquireLock] <:+ pre ∧
      [.read (.port 0xCFC), .note .releaseLock] <+: post
  | .note (.mapped phys size protect) =>
    size = pageSize ∧ protect = pageReadOnlyNoCache ∧
      ∃ mid a rest, post = mid ++ a :: rest ∧ DriverAccess.Completes a ∧
        mid.count (.note (.unmap phys size)) = 1 ∧ ∀ b ∈ mid, ¬DriverAccess.Completes b
  | .note (.wrmsr _ _) => False
  | .note (.writeMapped _ _) => False
  | _ => True

/-- The trace ends with its only completion. -/
def CompletedOnce (l : List DriverAccess) : Prop :=
  ∃ front a, l = front ++ [a] ∧ DriverAccess.Completes a ∧ ∀ b ∈ front, ¬DriverAccess.Completes b

structure DriverRequest where
  code : UInt32
  inLen : Nat
  outLen : Nat
  hw : Machine

def DriverRequest.trace (r : DriverRequest) : List DriverAccess :=
  (serveDeviceControl r.code r.inLen r.outLen).log r.hw

/-- The trace of requests that are served one after the other. -/
def sessionTrace (rs : List DriverRequest) : List DriverAccess := rs.flatMap DriverRequest.trace

theorem readOnlyBalanced_extends : Extends ReadOnlyBalanced := by
  intro pre a post h front back
  cases a with
  | read q =>
    cases q <;> exact h
  | note w =>
    cases w with
    | outdword port value =>
      obtain ⟨hport, hvalue, hpre, hpost⟩ := h
      exact ⟨hport, hvalue, hpre.trans (List.suffix_append front pre),
        hpost.trans (List.prefix_append post back)⟩
    | mapped phys size protect =>
      obtain ⟨hsize, hprotect, mid, a, rest, rfl, hdone, hcount, hmid⟩ := h
      refine ⟨hsize, hprotect, mid, a, rest ++ back, ?_, hdone, hcount, hmid⟩
      rw [List.append_assoc, List.cons_append]
    | _ => exact h

section Request
variable {hw : Machine}

theorem inputLog_mem {k : Nat} {a : DriverAccess} (h : a ∈ inputLog k) :
    ∃ i < k, a = .read (.input i) := by
  obtain ⟨i, hi, rfl⟩ := List.mem_map.mp h
  exact ⟨i, List.mem_range.mp hi, rfl⟩

theorem inputLog_balanced (k : Nat) : Everywhere ReadOnlyBalanced (inputLog k) := by
  apply Everywhere.of_forall
  intro a ha pre post
  obtain ⟨i, _, rfl⟩ := inputLog_mem ha
  exact trivial

def ReplyLog (outs : List DriverAccess) : Prop := ∀ a ∈ outs, ∃ bytes, a = .note (.output bytes)

theorem HardwareAccess.not_completes {core : List DriverAccess} {answer : Option (List UInt8)}
    (h : HardwareAccess hw core answer) : ∀ a ∈ core, ¬DriverAccess.Completes a := by
  cases h <;> simp [DriverAccess.Completes]

theorem ReplyLog.not_completes {outs : List DriverAccess} (h : ReplyLog outs) :
    ∀ a ∈ outs, ¬DriverAccess.Completes a := by
  intro a ha hdone
  obtain ⟨bytes, rfl⟩ := h a ha
  obtain ⟨_, _, heq⟩ := hdone
  cases heq

theorem ReplyLog.balanced {outs : List DriverAccess} (h : ReplyLog outs) :
    Everywhere ReadOnlyBalanced outs := by
  apply Everywhere.of_forall
  intro a ha pre post
  obtain ⟨bytes, rfl⟩ := h a ha
  exact trivial

theorem completes_balanced {a : DriverAccess} (h : DriverAccess.Completes a) :
    Everywhere ReadOnlyBalanced [a] := by
  apply Everywhere.of_forall
  intro b hb pre post
  obtain rfl := List.mem_singleton.mp hb
  obtain ⟨status, information, rfl⟩ := h
  exact trivial

theorem ReplyLog.count_unmap {outs : List DriverAccess} (h : ReplyLog outs) (phys : UInt64)
    (size : Nat) : outs.count (.note (.unmap phys size)) = 0 := by
  apply List.count_eq_zero.mpr
  intro hmem
  obtain ⟨bytes, heq⟩ := h _ hmem
  cases heq

theorem mapped_balanced (phys b : UInt64) {outs : List DriverAccess} {a : DriverAccess}
    (houts : ReplyLog outs) (ha : DriverAccess.Completes a)
    (hreply : Everywhere ReadOnlyBalanced (outs ++ [a])) :
    Everywhere ReadOnlyBalanced ([.read (.map phys pageSize),
      .note (.mapped phys pageSize pageReadOnlyNoCache), .read (.mmio b),
      .note (.unmap phys pageSize)] ++ (outs ++ [a])) := by
  have hread : ¬DriverAccess.Completes (.read (.mmio b)) := by simp [DriverAccess.Completes]
  have hunmap : ¬DriverAccess.Completes (.note (.unmap phys pageSize)) := by
    simp [DriverAccess.Completes]
  have hmid : ∀ c ∈ .read (.mmio b) :: .note (.unmap phys pageSize) :: outs,
      ¬DriverAccess.Completes c :=
    List.forall_mem_cons.mpr ⟨hread, List.forall_mem_cons.mpr ⟨hunmap, houts.not_completes⟩⟩
  have hcount : (.read (.mmio b) :: .note (.unmap phys pageSize) :: outs : List DriverAccess).count
      (.note (.unmap phys pageSize)) = 1 := by
    rw [List.count_cons_of_ne (by simp), List.count_cons_self, houts.count_unmap]
  refine .cons readOnlyBalanced_extends trivial (.cons readOnlyBalanced_extends ?_ (.cons
    readOnlyBalanced_extends trivial (.cons readOnlyBalanced_extends trivial hreply)))
  exact ⟨rfl, rfl, _, a, [], rfl, ha, hcount, hmid⟩

theorem config_balanced {address : UInt32} (formed : ConfigAddress address) :
    Everywhere ReadOnlyBalanced [.note .acquireLock, .note (.outdword 0xCF8 address),
      .read (.port 0xCFC), .note .releaseLock] := by
  simp only [Everywhere.cons_iff]
  exact ⟨trivial, ⟨rfl, formed, List.suffix_refl _, List.prefix_refl _⟩, trivial, trivial,
    Everywhere.nil⟩

theorem access_balanced {core outs : List DriverAccess} {answer : Option (List UInt8)}
    {a : DriverAccess} (hcore : HardwareAccess hw core answer) (houts : ReplyLog outs)
    (ha : DriverAccess.Completes a) : Everywhere ReadOnlyBalanced (core ++ (outs ++ [a])) := by
  have hreply : Everywhere ReadOnlyBalanced (outs ++ [a]) :=
    houts.balanced.append readOnlyBalanced_extends (completes_balanced ha)
  cases hcore with
  | none => exact hreply
  | msr msr listed => exact .cons readOnlyBalanced_extends listed hreply
  | config address formed =>
    exact (config_balanced formed).append readOnlyBalanced_extends hreply
  | refusedMap phys => exact .cons readOnlyBalanced_extends trivial hreply
  | mapped phys b => exact mapped_balanced phys b houts ha hreply

theorem Outcome.parts {inLen outLen size : Nat} {l : List DriverAccess} {r : IoResult}
    (h : Outcome hw inLen outLen size l r) : ∃ k core answer outs,
      l = inputLog k ++ (core ++ outs) ∧ HardwareAccess hw core answer ∧ ReplyLog outs := by
  cases h with
  | @failed k core status inputs access error =>
    refine ⟨k, core, none, [], ?_, access, ?_⟩
    · rw [List.append_nil]
    · intro a ha
      exact absurd ha List.not_mem_nil
  | answered inputs access whole fits =>
    refine ⟨_, _, _, _, List.append_assoc _ _ _, access, ?_⟩
    intro a ha
    exact ⟨_, List.mem_singleton.mp ha⟩

theorem DriverRequest.trace_parts (r : DriverRequest) :
    ∃ k core answer outs a, r.trace = inputLog k ++ (core ++ (outs ++ [a])) ∧
      HardwareAccess r.hw core answer ∧ ReplyLog outs ∧ DriverAccess.Completes a := by
  obtain ⟨k, core, answer, outs, hlog, hcore, houts⟩ :=
    (hwmonDeviceControl_outcome r.hw r.code r.inLen r.outLen).parts
  have htrace : r.trace = inputLog k ++ (core ++ outs) ++ [.note (.ioCompleteRequest
      ((hwmonDeviceControl r.code r.inLen r.outLen).val r.hw).status
      ((hwmonDeviceControl r.code r.inLen r.outLen).val r.hw).information)] := by
    rw [DriverRequest.trace, serveDeviceControl, Probe.log_bind, hlog]
    rfl
  rw [List.append_assoc, List.append_assoc] at htrace
  exact ⟨k, core, answer, outs, _, htrace, hcore, houts, ⟨_, _, rfl⟩⟩

theorem inputLog_not_completes (k : Nat) : ∀ a ∈ inputLog k, ¬DriverAccess.Completes a := by
  intro a ha hdone
  obtain ⟨i, _, rfl⟩ := inputLog_mem ha
  obtain ⟨_, _, heq⟩ := hdone
  cases heq

theorem DriverRequest.trace_balanced (r : DriverRequest) : Everywhere ReadOnlyBalanced r.trace := by
  obtain ⟨k, core, answer, outs, a, htrace, hcore, houts, ha⟩ := r.trace_parts
  rw [htrace]
  exact (inputLog_balanced k).append readOnlyBalanced_extends (access_balanced hcore houts ha)

theorem DriverRequest.trace_completedOnce (r : DriverRequest) : CompletedOnce r.trace := by
  obtain ⟨k, core, answer, outs, a, htrace, hcore, houts, ha⟩ := r.trace_parts
  refine ⟨inputLog k ++ (core ++ outs), a, ?_, ha, ?_⟩
  · rw [htrace, List.append_assoc, List.append_assoc]
  · intro b hb
    rcases List.mem_append.mp hb with hb | hb
    · exact inputLog_not_completes k b hb
    rcases List.mem_append.mp hb with hb | hb
    · exact hcore.not_completes b hb
    · exact houts.not_completes b hb

end Request

/-- In the trace of any sequence of requests every access is read-only and balanced, and
every request is completed once, at its end. -/
theorem sessionTrace_readOnlyBalanced (rs : List DriverRequest) :
    Everywhere ReadOnlyBalanced (sessionTrace rs) ∧ ∀ r ∈ rs, CompletedOnce r.trace := by
  constructor
  · apply Everywhere.flatMap readOnlyBalanced_extends
    intro r _
    exact r.trace_balanced
  · intro r _
    exact r.trace_completedOnce

end HwMon
