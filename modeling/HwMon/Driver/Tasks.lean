import HwMon.Driver.Concurrent
import HwMon.Lib.Sequential

/-!
# Device-control requests that can be interrupted

Every request of the driver as a task, which run without a stop is the function of the
driver. No request repeats a question, and none makes more than nineteen accesses.
-/

namespace HwMon
set_option autoImplicit false

section Tasks

def safeReadMsrTask (msr : UInt32) : DriverTask (NtStatus × UInt64) :=
  .ask (.msr msr) fun value =>
    match value with
    | some value => .done (.success, value)
    | none => .done (.notSupported, 0)

def readPcieConfigDwordEcamTask (ecamBase : UInt64) (bus device function : UInt8)
    (offset : UInt16) : DriverTask (NtStatus × UInt32) :=
  if offset > 4092 ∨ device &&& ~~~0x1F ≠ 0 ∨ function &&& ~~~0x7 ≠ 0 then
    .done (.invalidParameter, 0)
  else
    let phys := ecamAddress ecamBase bus device function
    .ask (.map phys pageSize) fun granted =>
      if granted = true then
        .note (.mapped phys pageSize pageReadOnlyNoCache) <|
        .ask (.mmio (phys + (offset &&& 0xFFC).toUInt64)) fun value =>
        .note (.unmap phys pageSize) <|
        match value with
        | some value => .done (.success, value)
        | none => .done (.unsuccessful, 0)
      else .done (.unsuccessful, 0)

def writeOutputTask (bytes : List UInt8) : DriverTask IoResult :=
  .note (.output bytes) (.done ⟨.success, bytes.length, bytes⟩)

def ioctlMsrTask (inLen outLen : Nat) : DriverTask IoResult :=
  if inLen < 4 ∨ outLen < 8 then .done (.error .bufferTooSmall)
  else
    (readInputTask 0 4).bind fun bytes =>
      let input := HwmonReadMsrInput.ofBytes bytes
      if msrIsWhitelisted input.msr = false then .done (.error .accessDenied)
      else
        (safeReadMsrTask input.msr).bind fun result =>
          if result.1 = .success then writeOutputTask (leBytes 8 result.2.toNat)
          else .done (.error result.1)

def ioctlPcieEcamTask (inLen outLen : Nat) : DriverTask IoResult :=
  if inLen < 13 ∨ outLen < 4 then .done (.error .bufferTooSmall)
  else
    (readInputTask 0 13).bind fun bytes =>
      let input := HwmonReadPcieEcamInput.ofBytes bytes
      (readPcieConfigDwordEcamTask input.ecamBase input.bus input.device input.function
        input.offset).bind fun result =>
        if result.1 = .success then writeOutputTask (leBytes 4 result.2.toNat)
        else .done (.error result.1)

def hwmonDeviceControlTask (code : UInt32) (inLen outLen : Nat) : DriverTask IoResult :=
  if code = ioctlReadMsr then ioctlMsrTask inLen outLen
  else if code = ioctlReadPciConfig then ioctlPciConfigTask inLen outLen
  else if code = ioctlReadPcieEcam then ioctlPcieEcamTask inLen outLen
  else .done (.error .invalidDeviceRequest)

def serveDeviceControlTask (code : UInt32) (inLen outLen : Nat) : DriverTask IoResult :=
  (hwmonDeviceControlTask code inLen outLen).bind fun result =>
    .note (.ioCompleteRequest result.status result.information) (.done result)

end Tasks

section Functions

theorem safeReadMsrTask_toProbe (msr : UInt32) :
    (safeReadMsrTask msr).toProbe = safeReadMsr msr := by
  unfold safeReadMsrTask safeReadMsr
  rw [Task.toProbe]
  congr 1
  funext value
  cases value <;> rfl

theorem readPcieConfigDwordEcamTask_toProbe (ecamBase : UInt64) (bus device function : UInt8)
    (offset : UInt16) :
    (readPcieConfigDwordEcamTask ecamBase bus device function offset).toProbe =
      readPcieConfigDwordEcam ecamBase bus device function offset := by
  unfold readPcieConfigDwordEcamTask readPcieConfigDwordEcam
  split
  · rfl
  · simp only [Task.toProbe, mmMapIoSpaceEx, Probe.bind_assoc]
    congr 1
    funext granted
    cases granted with
    | false => rfl
    | true =>
      simp only [if_pos, Task.toProbe, Probe.bind_assoc, Probe.pure_bind]
      congr 1
      funext _
      congr 1
      funext value
      congr 1
      funext _
      cases value <;> rfl

theorem replyTask_toProbe (status : NtStatus) (bytes : List UInt8) :
    (if status = .success then writeOutputTask bytes else .done (.error status)).toProbe =
      if status = .success then writeOutput bytes else pure (.error status) := by
  split <;> rfl

theorem ioctlMsrTask_toProbe (inLen outLen : Nat) :
    (ioctlMsrTask inLen outLen).toProbe = ioctlMsr inLen outLen := by
  unfold ioctlMsrTask ioctlMsr
  split
  · rfl
  · rw [Task.toProbe_bind, readInputTask_toProbe]
    congr 1
    funext bytes
    dsimp only
    split
    · rfl
    · rw [Task.toProbe_bind, safeReadMsrTask_toProbe]
      simp only [replyTask_toProbe]

theorem ioctlPcieEcamTask_toProbe (inLen outLen : Nat) :
    (ioctlPcieEcamTask inLen outLen).toProbe = ioctlPcieEcam inLen outLen := by
  unfold ioctlPcieEcamTask ioctlPcieEcam
  split
  · rfl
  · rw [Task.toProbe_bind, readInputTask_toProbe]
    simp only [Task.toProbe_bind, readPcieConfigDwordEcamTask_toProbe, replyTask_toProbe]

theorem hwmonDeviceControlTask_toProbe (code : UInt32) (inLen outLen : Nat) :
    (hwmonDeviceControlTask code inLen outLen).toProbe = hwmonDeviceControl code inLen outLen := by
  unfold hwmonDeviceControlTask
  split
  · rename_i hcode
    rw [ioctlMsrTask_toProbe, hwmonDeviceControl, if_pos hcode]
  · rename_i hmsr
    split
    · rename_i hcode
      rw [ioctlPciConfigTask_toProbe, hcode]
    · rename_i hconfig
      split
      · rename_i hcode
        rw [ioctlPcieEcamTask_toProbe, hwmonDeviceControl, if_neg hmsr, if_neg hconfig,
          if_pos hcode]
      · rename_i hecam
        rw [hwmonDeviceControl, if_neg hmsr, if_neg hconfig, if_neg hecam]
        rfl

/-- The task run without a stop is the dispatch routine of the driver. -/
theorem serveDeviceControlTask_toProbe (code : UInt32) (inLen outLen : Nat) :
    (serveDeviceControlTask code inLen outLen).toProbe =
      serveDeviceControl code inLen outLen := by
  unfold serveDeviceControlTask serveDeviceControl
  rw [Task.toProbe_bind, hwmonDeviceControlTask_toProbe]
  rfl

end Functions

section Questions

/-- Nothing but input bytes before the `i`-th one has been asked for. -/
def InputsBelow (i : Nat) (asked : List DriverRead) : Prop := ∀ q ∈ asked, ∃ j < i, q = .input j

theorem InputsBelow.fresh {i : Nat} {asked : List DriverRead} (h : InputsBelow i asked) :
    .input i ∉ asked := by
  intro hmem
  obtain ⟨j, hj, heq⟩ := h _ hmem
  cases heq
  exact Nat.lt_irrefl _ hj

theorem InputsBelow.append {i : Nat} {asked : List DriverRead} (h : InputsBelow i asked) :
    InputsBelow (i + 1) (asked ++ [.input i]) := by
  intro q hq
  rcases List.mem_append.mp hq with hq | hq
  · obtain ⟨j, hj, heq⟩ := h q hq
    exact ⟨j, by omega, heq⟩
  · exact ⟨i, Nat.lt_succ_self i, List.mem_singleton.mp hq⟩

theorem readInputTask_asksOnce {α : Type} {f : List UInt8 → DriverTask α} {n : Nat}
    (hf : ∀ bytes asked, InputsBelow n asked → (f bytes).AsksOnce asked) :
    ((readInputTask 0 n).bind f).AsksOnce [] := by
  suffices h : ∀ k i asked (g : List UInt8 → DriverTask α), i + k = n → InputsBelow i asked →
      (∀ bytes asked, InputsBelow n asked → (g bytes).AsksOnce asked) →
      ((readInputTask i k).bind g).AsksOnce asked from
    h n 0 [] f (Nat.zero_add n) (fun _ hq => absurd hq List.not_mem_nil) hf
  intro k
  induction k with
  | zero =>
    intro i asked g hi hasked hg
    exact hg [] asked (by rwa [← hi])
  | succ k ih =>
    intro i asked g hi hasked hg
    refine .ask hasked.fresh fun b => ?_
    rw [Task.bind_bind]
    exact ih (i + 1) _ _ (by omega) hasked.append fun bytes asked => hg (b :: bytes) asked

variable {n : Nat} {asked : List DriverRead}

theorem InputsBelow.not_mem {q : DriverRead} (h : InputsBelow n asked)
    (hq : ∀ j, q ≠ .input j) : q ∉ asked := by
  intro hmem
  obtain ⟨j, _, heq⟩ := h q hmem
  exact hq j heq

theorem replyTask_asksOnce (status : NtStatus) (bytes : List UInt8) :
    (if status = .success then writeOutputTask bytes
      else Task.done (.error status)).AsksOnce asked := by
  split
  · exact .note (.done _)
  · exact .done _

theorem safeReadMsrTask_asksOnce (h : InputsBelow n asked) (msr : UInt32) :
    (safeReadMsrTask msr).AsksOnce asked := by
  refine .ask (h.not_mem fun j => DriverRead.noConfusion) fun value => ?_
  cases value <;> exact .done _

theorem ecamTask_asksOnce (h : InputsBelow n asked) (ecamBase : UInt64)
    (bus device function : UInt8) (offset : UInt16) :
    (readPcieConfigDwordEcamTask ecamBase bus device function offset).AsksOnce asked := by
  unfold readPcieConfigDwordEcamTask
  split
  · exact .done _
  · refine .ask (h.not_mem fun j => DriverRead.noConfusion) fun granted => ?_
    split
    · refine .note (.ask ?_ fun value => .note ?_)
      · rw [List.mem_append, not_or]
        refine ⟨h.not_mem fun j => DriverRead.noConfusion, ?_⟩
        intro heq
        cases List.mem_singleton.mp heq
      · cases value <;> exact .done _
    · exact .done _

theorem hwmonDeviceControlTask_asksOnce (code : UInt32) (inLen outLen : Nat) :
    (hwmonDeviceControlTask code inLen outLen).AsksOnce [] := by
  unfold hwmonDeviceControlTask
  split
  · unfold ioctlMsrTask
    split
    · exact .done _
    · apply readInputTask_asksOnce
      intro bytes asked hasked
      dsimp only
      split
      · exact .done _
      · exact (safeReadMsrTask_asksOnce hasked _).bind fun _ _ => replyTask_asksOnce _ _
  split
  · unfold ioctlPciConfigTask
    split
    · exact .done _
    · apply readInputTask_asksOnce
      intro bytes asked hasked
      exact .note (.note (.ask (hasked.not_mem fun j => DriverRead.noConfusion) fun v =>
        .note (.note (.done _))))
  split
  · unfold ioctlPcieEcamTask
    split
    · exact .done _
    · apply readInputTask_asksOnce
      intro bytes asked hasked
      exact (ecamTask_asksOnce hasked _ _ _ _ _).bind fun _ _ => replyTask_asksOnce _ _
  · exact .done _

theorem serveDeviceControlTask_asksOnce (code : UInt32) (inLen outLen : Nat) :
    (serveDeviceControlTask code inLen outLen).AsksOnce [] :=
  (hwmonDeviceControlTask_asksOnce code inLen outLen).bind fun _ _ => .note (.done _)

end Questions

section Accesses

theorem readInputTask_within {α : Type} {f : List UInt8 → DriverTask α} {i k n : Nat}
    (hf : ∀ bytes, (f bytes).Within k) : ((readInputTask i n).bind f).Within (k + n) := by
  induction n generalizing i f with
  | zero => exact hf []
  | succ n ih =>
    refine .ask fun b => ?_
    rw [Task.bind_bind]
    exact ih fun bytes => hf (b :: bytes)

theorem replyTask_within (status : NtStatus) (bytes : List UInt8) (j : Nat) :
    (if status = .success then writeOutputTask bytes
      else Task.done (.error status)).Within (1 + j) := by
  rw [Nat.add_comm]
  split
  · exact .note (.done _)
  · exact .done _

theorem safeReadMsrTask_within (msr : UInt32) (j : Nat) :
    (safeReadMsrTask msr).Within (j + 1) := by
  refine .ask fun value => ?_
  cases value <;> exact .done _

theorem ecamTask_within (ecamBase : UInt64) (bus device function : UInt8) (offset : UInt16) :
    (readPcieConfigDwordEcamTask ecamBase bus device function offset).Within 4 := by
  unfold readPcieConfigDwordEcamTask
  split
  · exact .done _
  · refine .ask fun granted => ?_
    split
    · refine .note (.ask fun value => .note ?_)
      cases value <;> exact .done _
    · exact .done _

theorem hwmonDeviceControlTask_within (code : UInt32) (inLen outLen : Nat) :
    (hwmonDeviceControlTask code inLen outLen).Within 18 := by
  unfold hwmonDeviceControlTask
  split
  · unfold ioctlMsrTask
    split
    · exact .done _
    · refine readInputTask_within (k := 14) (n := 4) fun bytes => ?_
      dsimp only
      split
      · exact .done _
      · exact (safeReadMsrTask_within _ 12).bind fun _ _ => replyTask_within _ _ _
  split
  · unfold ioctlPciConfigTask
    split
    · exact .done _
    · refine readInputTask_within (k := 14) (n := 4) fun bytes => ?_
      exact .note (.note (.ask fun v => .note (.note (.done _))))
  split
  · unfold ioctlPcieEcamTask
    split
    · exact .done _
    · refine readInputTask_within (k := 5) (n := 13) fun bytes => ?_
      exact (ecamTask_within _ _ _ _ _).bind fun _ _ => replyTask_within _ _ _
  · exact .done _

theorem serveDeviceControlTask_within (code : UInt32) (inLen outLen : Nat) :
    (serveDeviceControlTask code inLen outLen).Within 19 := by
  refine (hwmonDeviceControlTask_within code inLen outLen).bind (k := 1) fun _ j => ?_
  rw [Nat.add_comm]
  exact .note (.done _)

end Accesses
end HwMon
