import HwMon.Driver.Trace

/-!
# How a request is completed

Input and output share one buffer. The driver reads the input inside its
length, and writes an output record only when the request succeeds, so nothing
but a hardware value goes back to the caller.
-/

namespace HwMon
set_option autoImplicit false

/-- The machine with a system buffer of the given content. -/
def Machine.withBuffer (hw : Machine) (buffer : List UInt8) : Machine
  | .input i => buffer.getD i 0
  | .msr msr => hw (.msr msr)
  | .port port => hw (.port port)
  | .map phys size => hw (.map phys size)
  | .mmio phys => hw (.mmio phys)

def applyWrite (buffer : List UInt8) : DriverAccess → List UInt8
  | .note (.output bytes) => bytes ++ buffer.drop bytes.length
  | _ => buffer

/-- The system buffer after the writes of a trace. -/
def bufferAfter (buffer : List UInt8) (l : List DriverAccess) : List UInt8 :=
  l.foldl applyWrite buffer

/-- What the I/O manager and the caller may rely on, for a trace that ends in a completion
with the given result. -/
structure CompletionContract (hw : Machine) (code : UInt32) (inLen outLen : Nat)
    (buffer : List UInt8) (l : List DriverAccess) (r : IoResult) : Prop where
  reads : ∀ i, .read (.input i) ∈ l → i < inLen
  writes : ∀ bytes, .note (.output bytes) ∈ l → bytes.length ≤ outLen
  reported : ∀ status information, .note (.ioCompleteRequest status information) ∈ l →
    status = r.status ∧ information = r.information
  sameSize : (bufferAfter buffer l).length = buffer.length
  failed : r.status ≠ .success → r.information = 0 ∧ bufferAfter buffer l = buffer
  answered : r.status = .success → r.information = resultSize code ∧ r.information ≤ outLen ∧
    ∃ q bytes, .read q ∈ l ∧ hardwareBytes hw q = some bytes ∧ bytes.length = r.information ∧
      bufferAfter buffer l = bytes ++ buffer.drop r.information

section Parts
variable {hw : Machine}

theorem bufferAfter_append (buffer : List UInt8) (l r : List DriverAccess) :
    bufferAfter buffer (l ++ r) = bufferAfter (bufferAfter buffer l) r :=
  List.foldl_append

theorem bufferAfter_of_no_output {l : List DriverAccess}
    (h : ∀ bytes, .note (.output bytes) ∉ l) (buffer : List UInt8) :
    bufferAfter buffer l = buffer := by
  induction l with
  | nil => rfl
  | cons a l ih =>
    have hkeep : applyWrite buffer a = buffer := by
      unfold applyWrite
      split
      · exact absurd List.mem_cons_self (h _)
      · rfl
    rw [bufferAfter, List.foldl_cons, hkeep]
    exact ih fun bytes hmem => h bytes (List.mem_cons_of_mem a hmem)

theorem HardwareAccess.no_input {core : List DriverAccess} {answer : Option (List UInt8)}
    (h : HardwareAccess hw core answer) (i : Nat) : .read (.input i) ∉ core := by
  cases h <;> simp

theorem HardwareAccess.no_output {core : List DriverAccess} {answer : Option (List UInt8)}
    (h : HardwareAccess hw core answer) (bytes : List UInt8) : .note (.output bytes) ∉ core := by
  cases h <;> simp

theorem HardwareAccess.value {core : List DriverAccess} {answer : Option (List UInt8)}
    (h : HardwareAccess hw core answer) {bytes : List UInt8} (hanswer : answer = some bytes) :
    ∃ q, .read q ∈ core ∧ hardwareBytes hw q = some bytes := by
  cases h with
  | none => cases hanswer
  | msr msr listed => exact ⟨.msr msr, by simp, hanswer⟩
  | config address formed => exact ⟨.port 0xCFC, by simp, hanswer⟩
  | refusedMap phys => cases hanswer
  | mapped phys a => exact ⟨.mmio a, by simp, hanswer⟩

theorem inputLog_no_output (k : Nat) (bytes : List UInt8) : .note (.output bytes) ∉ inputLog k := by
  intro hmem
  obtain ⟨i, _, heq⟩ := inputLog_mem hmem
  cases heq

/-- What a request does before it writes an output record. -/
structure Before (k : Nat) (l : List DriverAccess) : Prop where
  reads : ∀ i, .read (.input i) ∈ l → i < k
  noOutput : ∀ bytes, .note (.output bytes) ∉ l
  notCompleted : ∀ status information, .note (.ioCompleteRequest status information) ∉ l

theorem HardwareAccess.before {core : List DriverAccess} {answer : Option (List UInt8)}
    (access : HardwareAccess hw core answer) (k : Nat) : Before k (inputLog k ++ core) := by
  refine ⟨?_, ?_, ?_⟩
  · intro i hmem
    rcases List.mem_append.mp hmem with hmem | hmem
    · obtain ⟨j, hj, heq⟩ := inputLog_mem hmem
      cases heq
      exact hj
    · exact absurd hmem (access.no_input i)
  · intro bytes hmem
    rcases List.mem_append.mp hmem with hmem | hmem
    · exact inputLog_no_output k bytes hmem
    · exact access.no_output bytes hmem
  · intro status information hmem
    rcases List.mem_append.mp hmem with hmem | hmem
    · exact inputLog_not_completes k _ hmem ⟨status, information, rfl⟩
    · exact access.not_completes _ hmem ⟨status, information, rfl⟩

end Parts

section Contract
variable {hw : Machine} {code : UInt32} {inLen outLen k : Nat} {buffer : List UInt8}
  {l : List DriverAccess}

theorem contract_failed (h : Before k l) (hk : k ≤ inLen) {status : NtStatus}
    (error : status ≠ .success) : CompletionContract hw code inLen outLen buffer
      (l ++ [.note (.ioCompleteRequest status 0)]) (.error status) := by
  have hbuffer : bufferAfter buffer (l ++ [.note (.ioCompleteRequest status 0)]) = buffer := by
    rw [bufferAfter_append, bufferAfter_of_no_output h.noOutput]
    rfl
  refine ⟨?_, ?_, ?_, ?_, fun _ => ⟨rfl, hbuffer⟩, fun hok => absurd hok error⟩
  · intro i hmem
    rcases List.mem_append.mp hmem with hmem | hmem
    · exact Nat.lt_of_lt_of_le (h.reads i hmem) hk
    · cases List.mem_singleton.mp hmem
  · intro bytes hmem
    rcases List.mem_append.mp hmem with hmem | hmem
    · exact absurd hmem (h.noOutput bytes)
    · cases List.mem_singleton.mp hmem
  · intro status' information hmem
    rcases List.mem_append.mp hmem with hmem | hmem
    · exact absurd hmem (h.notCompleted status' information)
    · cases List.mem_singleton.mp hmem
      exact ⟨rfl, rfl⟩
  · rw [hbuffer]

theorem contract_answered (h : Before k l) (hk : k ≤ inLen) {bytes : List UInt8}
    (whole : bytes.length = resultSize code) (fits : resultSize code ≤ outLen)
    (hsize : buffer.length = max inLen outLen) {q : DriverRead} (hq : .read q ∈ l)
    (hvalue : hardwareBytes hw q = some bytes) :
    CompletionContract hw code inLen outLen buffer (l ++ [.note (.output bytes)] ++
      [.note (.ioCompleteRequest .success bytes.length)]) ⟨.success, bytes.length, bytes⟩ := by
  have hbuffer : bufferAfter buffer (l ++ [.note (.output bytes)] ++
      [.note (.ioCompleteRequest .success bytes.length)]) =
        bytes ++ buffer.drop bytes.length := by
    rw [bufferAfter_append, bufferAfter_append, bufferAfter_of_no_output h.noOutput]
    rfl
  have hfits : bytes.length ≤ outLen := by omega
  rw [List.append_assoc] at hbuffer ⊢
  refine ⟨?_, ?_, ?_, ?_, fun herror => absurd rfl herror, fun _ =>
    ⟨whole, hfits, q, bytes, List.mem_append_left _ hq, hvalue, rfl, hbuffer⟩⟩
  · intro i hmem
    rcases List.mem_append.mp hmem with hmem | hmem
    · exact Nat.lt_of_lt_of_le (h.reads i hmem) hk
    · simp at hmem
  · intro bytes' hmem
    rcases List.mem_append.mp hmem with hmem | hmem
    · exact absurd hmem (h.noOutput bytes')
    · have heq : bytes' = bytes := by simpa using hmem
      rwa [heq]
  · intro status information hmem
    rcases List.mem_append.mp hmem with hmem | hmem
    · exact absurd hmem (h.notCompleted status information)
    · simpa using hmem
  · rw [hbuffer, List.length_append, List.length_drop]
    omega

theorem Outcome.contract {r : IoResult} (h : Outcome hw inLen outLen (resultSize code) l r)
    (hsize : buffer.length = max inLen outLen) :
    CompletionContract hw code inLen outLen buffer
      (l ++ [.note (.ioCompleteRequest r.status r.information)]) r := by
  cases h with
  | failed inputs access error => exact contract_failed (access.before _) inputs error
  | answered inputs access whole fits =>
    obtain ⟨q, hq, hvalue⟩ := access.value rfl
    exact contract_answered (access.before _) inputs whole fits hsize
      (List.mem_append_right _ hq) hvalue

end Contract

end HwMon
