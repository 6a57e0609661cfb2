import HwMon.Driver.Ecam

/-!
# What one device-control request does

A request reads some input bytes, makes at most one access to the hardware, and
writes an output record if the hardware has answered.
-/

namespace HwMon
set_option autoImplicit false

abbrev DriverAccess := Access DriverRead DriverEvent

def inputLog (k : Nat) : List DriverAccess := (List.range k).map fun i => .read (.input i)

/-- Bit 31 is set, bits 30 to 24 and bits 1 and 0 are clear. -/
def ConfigAddress (value : UInt32) : Prop := value &&& 0xFF000003 = 0x80000000

/-- The bytes of a hardware value; none if its read faults. -/
def hardwareBytes (hw : Machine) : DriverRead → Option (List UInt8)
  | .msr msr => (hw (.msr msr)).map fun value => leBytes 8 value.toNat
  | .port port => some (leBytes 4 (hw (.port port)).toNat)
  | .mmio phys => (hw (.mmio phys)).map fun value => leBytes 4 value.toNat
  | .input _ => none
  | .map _ _ => none

/-- The accesses of one request to the hardware, and the bytes they yield. -/
inductive HardwareAccess (hw : Machine) : List DriverAccess → Option (List UInt8) → Prop
  | none : HardwareAccess hw [] none
  | msr (msr : UInt32) (listed : msrIsWhitelisted msr = true) :
      HardwareAccess hw [.read (.msr msr)] (hardwareBytes hw (.msr msr))
  | config (address : UInt32) (formed : ConfigAddress address) :
      HardwareAccess hw [.note .acquireLock, .note (.outdword 0xCF8 address),
        .read (.port 0xCFC), .note .releaseLock] (hardwareBytes hw (.port 0xCFC))
  | refusedMap (phys : UInt64) : HardwareAccess hw [.read (.map phys pageSize)] none
  | mapped (phys a : UInt64) :
      HardwareAccess hw [.read (.map phys pageSize),
        .note (.mapped phys pageSize pageReadOnlyNoCache), .read (.mmio a),
        .note (.unmap phys pageSize)] (hardwareBytes hw (.mmio a))

/-- What a request does before it is completed, with its result. The output record has
`size` bytes. -/
inductive Outcome (hw : Machine) (inLen outLen size : Nat) : List DriverAccess → IoResult → Prop
  | failed {k : Nat} {core : List DriverAccess} {status : NtStatus} (inputs : k ≤ inLen)
      (access : HardwareAccess hw core none) (error : status ≠ .success) :
      Outcome hw inLen outLen size (inputLog k ++ core) (.error status)
  | answered {k : Nat} {core : List DriverAccess} {bytes : List UInt8} (inputs : k ≤ inLen)
      (access : HardwareAccess hw core (some bytes)) (whole : bytes.length = size)
      (fits : size ≤ outLen) :
      Outcome hw inLen outLen size (inputLog k ++ core ++ [.note (.output bytes)])
        ⟨.success, bytes.length, bytes⟩

/-- `sizeof` the output structure of a control code. -/
def resultSize (code : UInt32) : Nat := if code = ioctlReadMsr then 8 else 4

section Address

theorem and_or_right (x y z : UInt32) : (x ||| y) &&& z = (x &&& z) ||| (y &&& z) := by
  apply UInt32.toNat_inj.mp
  simp only [UInt32.toNat_and, UInt32.toNat_or, Nat.and_or_distrib_right]

theorem busBits : ∀ x : UInt8, (x.toUInt32 <<< 16) &&& 0xFF000003 = 0 :=
  forall_byte (by set_option maxRecDepth 4000 in decide)

theorem deviceBits : ∀ x : UInt8, ((x &&& 0x1F).toUInt32 <<< 11) &&& 0xFF000003 = 0 :=
  forall_byte (by set_option maxRecDepth 4000 in decide)

theorem functionBits : ∀ x : UInt8, ((x &&& 0x7).toUInt32 <<< 8) &&& 0xFF000003 = 0 :=
  forall_byte (by set_option maxRecDepth 4000 in decide)

theorem offsetBits : ∀ x : UInt8, (x &&& 0xFC).toUInt32 &&& 0xFF000003 = 0 :=
  forall_byte (by set_option maxRecDepth 4000 in decide)

theorem legacyAddress_formed (bus device function offset : UInt8) :
    ConfigAddress (legacyAddress bus device function offset) := by
  rw [ConfigAddress, legacyAddress]
  simp only [and_or_right, busBits, deviceBits, functionBits, offsetBits]
  rfl

end Address

section Handlers
variable {hw : Machine} {inLen outLen : Nat}

theorem readInput_log_range (hw : Machine) (i n : Nat) :
    (readInput i n).log hw = (List.range' i n).map fun k => .read (.input k) := by
  induction n generalizing i with
  | zero => rfl
  | succ n ih =>
    simp only [readInput, ↓Probe.log_bind, Probe.log_ask, Probe.log_pure, ih, List.append_nil]
    rfl

theorem readInput_inputLog (hw : Machine) (k : Nat) : (readInput 0 k).log hw = inputLog k := by
  rw [readInput_log_range, ← List.range_eq_range']
  rfl

theorem writeOutput_log (bytes : List UInt8) :
    (writeOutput bytes).log hw = [.note (.output bytes)] := rfl

theorem writeOutput_val (bytes : List UInt8) :
    (writeOutput bytes).val hw = ⟨.success, bytes.length, bytes⟩ := rfl

/-- A request that stops before it reaches the hardware. -/
theorem Outcome.refused {k size : Nat} {status : NtStatus} (inputs : k ≤ inLen)
    (error : status ≠ .success) : Outcome hw inLen outLen size (inputLog k) (.error status) := by
  have h : Outcome hw inLen outLen size (inputLog k ++ []) (.error status) :=
    .failed inputs .none error
  rwa [List.append_nil] at h

/-- The end of a handler, which answers just when its access succeeded. -/
theorem Outcome.reply {k size : Nat} {core : List DriverAccess} {answer : Option (List UInt8)}
    {status : NtStatus} {bytes : List UInt8} (inputs : k ≤ inLen)
    (access : HardwareAccess hw core answer)
    (hanswer : answer = if status = .success then some bytes else none)
    (whole : bytes.length = size) (fits : size ≤ outLen) :
    Outcome hw inLen outLen size
      (inputLog k ++ (core ++ (if status = .success then writeOutput bytes
        else pure (.error status)).log hw))
      ((if status = .success then writeOutput bytes else pure (.error status)).val hw) := by
  rw [hanswer] at access
  by_cases hok : status = .success
  · rw [if_pos hok] at access
    rw [if_pos hok, writeOutput_log, writeOutput_val, ← List.append_assoc]
    exact .answered inputs access whole fits
  · rw [if_neg hok] at access
    rw [if_neg hok, Probe.log_pure, List.append_nil]
    exact .failed inputs access hok

theorem safeReadMsr_log (msr : UInt32) : (safeReadMsr msr).log hw = [.read (.msr msr)] := by
  simp only [safeReadMsr, ↓Probe.log_bind, Probe.log_ask, Probe.val_ask]
  cases hw (.msr msr) <;> rfl

theorem safeReadMsr_val (msr : UInt32) : (safeReadMsr msr).val hw =
    match hw (.msr msr) with
    | some value => (.success, value)
    | none => (.notSupported, 0) := by
  simp only [safeReadMsr, ↓Probe.val_bind, Probe.val_ask]
  cases hw (.msr msr) <;> rfl

theorem ioctlMsr_outcome :
    Outcome hw inLen outLen 8 ((ioctlMsr inLen outLen).log hw) ((ioctlMsr inLen outLen).val hw) := by
  rw [ioctlMsr]
  split
  · exact Outcome.refused (Nat.zero_le inLen) NtStatus.noConfusion
  · rename_i hlen
    have hin : 4 ≤ inLen := by omega
    have hout : 8 ≤ outLen := by omega
    simp only [↓Probe.log_bind, ↓Probe.val_bind, readInput_inputLog]
    generalize HwmonReadMsrInput.ofBytes ((readInput 0 4).val hw) = input
    split
    · rw [Probe.log_pure, List.append_nil]
      exact Outcome.refused hin NtStatus.noConfusion
    · rename_i hlisted
      have haccess : HardwareAccess hw _ _ := .msr input.msr (by simpa using hlisted)
      rw [← safeReadMsr_log] at haccess
      simp only [↓Probe.log_bind, ↓Probe.val_bind]
      refine Outcome.reply hin haccess ?_ (leBytes_length 8 _) hout
      rw [safeReadMsr_val, hardwareBytes]
      cases hw (.msr input.msr) <;> rfl

theorem ioctlPciConfig_outcome :
    Outcome hw inLen outLen 4 ((ioctlPciConfig inLen outLen).log hw)
      ((ioctlPciConfig inLen outLen).val hw) := by
  rw [ioctlPciConfig]
  split
  · exact Outcome.refused (Nat.zero_le inLen) NtStatus.noConfusion
  · rename_i hlen
    have hin : 4 ≤ inLen := by omega
    have hout : 4 ≤ outLen := by omega
    simp only [↓Probe.log_bind, ↓Probe.val_bind, readInput_inputLog]
    generalize HwmonReadPciConfigInput.ofBytes ((readInput 0 4).val hw) = input
    have haccess : HardwareAccess hw _ _ := .config _
      (legacyAddress_formed input.bus input.device input.function input.offset)
    rw [← List.append_assoc]
    exact .answered hin haccess (leBytes_length 4 _) hout

theorem readPcieConfigDwordEcam_access (hw : Machine) (r : HwmonReadPcieEcamInput) :
    ∃ answer, HardwareAccess hw (r.read.log hw) answer ∧ answer =
      if (r.read.val hw).1 = .success then some (leBytes 4 (r.read.val hw).2.toNat) else none := by
  by_cases h : r.Accepted
  · rw [read_log hw h, read_of_accepted h]
    simp only [↓Probe.val_bind, mmMapIoSpaceEx_val]
    cases hmap : hw (.map r.page pageSize) with
    | false => exact ⟨none, .refusedMap r.page, rfl⟩
    | true =>
      refine ⟨_, .mapped r.page r.dword, ?_⟩
      simp only [if_pos, ↓Probe.val_bind, Probe.val_ask, hardwareBytes]
      cases hw (.mmio r.dword) <;> rfl
  · rw [read_of_not_accepted h]
    exact ⟨none, .none, rfl⟩

theorem ioctlPcieEcam_outcome :
    Outcome hw inLen outLen 4 ((ioctlPcieEcam inLen outLen).log hw)
      ((ioctlPcieEcam inLen outLen).val hw) := by
  rw [ioctlPcieEcam]
  split
  · exact Outcome.refused (Nat.zero_le inLen) NtStatus.noConfusion
  · rename_i hlen
    have hin : 13 ≤ inLen := by omega
    have hout : 4 ≤ outLen := by omega
    simp only [↓Probe.log_bind, ↓Probe.val_bind, readInput_inputLog]
    generalize HwmonReadPcieEcamInput.ofBytes ((readInput 0 13).val hw) = input
    obtain ⟨answer, haccess, hanswer⟩ := readPcieConfigDwordEcam_access hw input
    exact Outcome.reply hin haccess hanswer (leBytes_length 4 _) hout

theorem hwmonDeviceControl_outcome (hw : Machine) (code : UInt32) (inLen outLen : Nat) :
    Outcome hw inLen outLen (resultSize code) ((hwmonDeviceControl code inLen outLen).log hw)
      ((hwmonDeviceControl code inLen outLen).val hw) := by
  rw [hwmonDeviceControl, resultSize]
  split
  · exact ioctlMsr_outcome
  split
  · exact ioctlPciConfig_outcome
  split
  · exact ioctlPcieEcam_outcome
  · exact Outcome.refused (Nat.zero_le inLen) NtStatus.noConfusion

end Handlers
end HwMon
