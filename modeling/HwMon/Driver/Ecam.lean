import HwMon.Acpi.Data
import HwMon.Driver.Ioctl

/-!
# Which physical memory the driver maps

The request gives the base of the ECAM window. The driver checks the offset, the
device and the function, but not that the base is one that the firmware
publishes, so it maps a page of the caller's choice.
-/

namespace HwMon
set_option autoImplicit false

/-- Offset of a function's configuration page from the base of its window. -/
def ecamOffset (bus device function : UInt8) : Nat :=
  bus.toNat * 2 ^ 20 + device.toNat * 2 ^ 15 + function.toNat * 2 ^ 12

/-- The three fields do not overlap, so the bits are a sum. -/
theorem ecamBits_toNat {bus device function : UInt8} (hd : device.toNat < 32)
    (hf : function.toNat < 8) :
    ((bus.toUInt64 <<< 20) ||| (device.toUInt64 <<< 15) ||| (function.toUInt64 <<< 12)).toNat =
      ecamOffset bus device function := by
  have hb := bus.toNat_lt
  have hhigh : bus.toNat * 2 ^ 20 ||| device.toNat * 2 ^ 15 =
      bus.toNat * 2 ^ 20 + device.toNat * 2 ^ 15 :=
    or_eq_add (i := 20) (by omega) (by omega)
  have hlow : (bus.toNat * 2 ^ 20 + device.toNat * 2 ^ 15) ||| function.toNat * 2 ^ 12 =
      ecamOffset bus device function :=
    or_eq_add (i := 15) (by omega) (by omega)
  have hshift : ∀ (x : UInt8) (k : UInt64), k.toNat < 64 → x.toNat * 2 ^ k.toNat < 2 ^ 64 →
      (x.toUInt64 <<< k).toNat = x.toNat * 2 ^ k.toNat := by
    intro x k hk hx
    rw [UInt64.toNat_shiftLeft, UInt8.toNat_toUInt64, Nat.mod_eq_of_lt hk, Nat.shiftLeft_eq,
      Nat.mod_eq_of_lt hx]
  have hbus := hshift bus 20 (by decide) (by simp; omega)
  have hdevice := hshift device 15 (by decide) (by simp; omega)
  have hfunction := hshift function 12 (by decide) (by simp; omega)
  rw [UInt64.toNat_or, UInt64.toNat_or, hbus, hdevice, hfunction]
  exact (congrArg (· ||| function.toNat * 2 ^ 12) hhigh).trans hlow

/-- The checks of the driver, in their own terms. -/
def HwmonReadPcieEcamInput.Accepted (r : HwmonReadPcieEcamInput) : Prop :=
  r.offset.toNat ≤ 4092 ∧ r.device.toNat < 32 ∧ r.function.toNat < 8

instance (r : HwmonReadPcieEcamInput) : Decidable r.Accepted := inferInstanceAs (Decidable (_ ∧ _))

theorem deviceBits_iff : ∀ x : UInt8, x &&& ~~~0x1F ≠ 0 ↔ ¬x.toNat < 32 :=
  forall_byte (by set_option maxRecDepth 4000 in decide)

theorem functionBits_iff : ∀ x : UInt8, x &&& ~~~0x7 ≠ 0 ↔ ¬x.toNat < 8 :=
  forall_byte (by set_option maxRecDepth 4000 in decide)

theorem accepted_iff (r : HwmonReadPcieEcamInput) :
    r.Accepted ↔ ¬(r.offset > 4092 ∨ r.device &&& ~~~0x1F ≠ 0 ∨ r.function &&& ~~~0x7 ≠ 0) := by
  have hoff : r.offset > 4092 ↔ 4092 < r.offset.toNat := UInt16.lt_iff_toNat_lt
  rw [HwmonReadPcieEcamInput.Accepted, deviceBits_iff, functionBits_iff, hoff]
  omega

section Request
variable (hw : Machine)

/-- `n` bytes of the system buffer from byte `i`. -/
def inputBytes (i : Nat) : Nat → List UInt8
  | 0 => []
  | n + 1 => hw (.input i) :: inputBytes (i + 1) n

theorem readInput_val (i n : Nat) : (readInput i n).val hw = inputBytes hw i n := by
  induction n generalizing i with
  | zero => rfl
  | succ n ih =>
    simp only [readInput, ↓Probe.val_bind, Probe.val_ask, Probe.val_pure, ih]
    rfl

theorem readInput_log {i n : Nat} {a : Access DriverRead DriverEvent}
    (h : a ∈ (readInput i n).log hw) : ∃ k, a = .read (.input k) := by
  induction n generalizing i with
  | zero => exact absurd h List.not_mem_nil
  | succ n ih =>
    simp only [readInput, ↓Probe.log_bind, Probe.log_ask, Probe.log_pure, List.append_nil,
      List.singleton_append, List.mem_cons] at h
    rcases h with rfl | h
    · exact ⟨i, rfl⟩
    · exact ih h

def ecamRequest : HwmonReadPcieEcamInput := .ofBytes (inputBytes hw 0 13)

def HwmonReadPcieEcamInput.read (r : HwmonReadPcieEcamInput) : DriverProbe (NtStatus × UInt32) :=
  readPcieConfigDwordEcam r.ecamBase r.bus r.device r.function r.offset

/-- The page that a request selects; the sum is modulo `2 ^ 64`. -/
def HwmonReadPcieEcamInput.page (r : HwmonReadPcieEcamInput) : UInt64 :=
  r.ecamBase + UInt64.ofNat (ecamOffset r.bus r.device r.function)

def HwmonReadPcieEcamInput.dword (r : HwmonReadPcieEcamInput) : UInt64 :=
  r.page + UInt64.ofNat (r.offset.toNat / 4 * 4)

section Read
variable {r : HwmonReadPcieEcamInput}

theorem ecamAddress_eq_page (h : r.Accepted) :
    ecamAddress r.ecamBase r.bus r.device r.function = r.page := by
  obtain ⟨-, hd, hf⟩ := h
  rw [ecamAddress, HwmonReadPcieEcamInput.page, ← ecamBits_toNat hd hf, UInt64.ofNat_toNat]

theorem offsetBits_eq (h : r.Accepted) :
    (r.offset &&& 0xFFC).toUInt64 = UInt64.ofNat (r.offset.toNat / 4 * 4) := by
  obtain ⟨hoff, -⟩ := h
  have hdiv : (r.offset.toNat &&& 0xFFC) / 2 ^ 2 = r.offset.toNat / 4 := by
    rw [Nat.and_div_two_pow]
    exact (Nat.and_two_pow_sub_one_eq_mod _ 10).trans (Nat.mod_eq_of_lt (by omega))
  have hmod : (r.offset.toNat &&& 0xFFC) % 2 ^ 2 = 0 := by
    rw [Nat.and_mod_two_pow]
    exact Nat.and_zero _
  apply UInt64.toNat_inj.mp
  rw [UInt16.toNat_toUInt64, UInt16.toNat_and, UInt64.toNat_ofNat', Nat.mod_eq_of_lt (by omega)]
  exact (by omega : r.offset.toNat &&& 0xFFC = r.offset.toNat / 4 * 4)

theorem read_of_not_accepted (h : ¬r.Accepted) : r.read = pure (.invalidParameter, 0) := by
  rw [accepted_iff, not_not] at h
  exact if_pos h

theorem read_of_accepted (h : r.Accepted) :
    r.read = (do
      let mapped ← mmMapIoSpaceEx r.page pageSize pageReadOnlyNoCache
      if mapped = true then do
        let value ← readMapped r.dword
        .note (.unmap r.page pageSize)
        match value with
        | some value => pure (.success, value)
        | none => pure (.unsuccessful, 0)
      else pure (.unsuccessful, 0)) := by
  have hguard := (accepted_iff r).mp h
  rw [HwmonReadPcieEcamInput.dword, ← offsetBits_eq h, ← ecamAddress_eq_page h]
  exact if_neg hguard

theorem read_log (h : r.Accepted) :
    r.read.log hw = .read (.map r.page pageSize) ::
      if hw (.map r.page pageSize) = true then
        [.note (.mapped r.page pageSize pageReadOnlyNoCache), .read (.mmio r.dword),
          .note (.unmap r.page pageSize)]
      else [] := by
  rw [read_of_accepted h]
  simp only [↓Probe.log_bind, mmMapIoSpaceEx_log, mmMapIoSpaceEx_val]
  cases hmap : hw (.map r.page pageSize) with
  | false => rfl
  | true =>
    cases hvalue : hw (.mmio r.dword) <;>
      simp [Probe.log_bind, hvalue]

theorem read_success_iff :
    (r.read.val hw).1 = .success ↔ r.Accepted ∧ hw (.map r.page pageSize) = true ∧
      hw (.mmio r.dword) ≠ none := by
  by_cases h : r.Accepted
  · rw [read_of_accepted h, and_iff_right h]
    simp only [↓Probe.val_bind, mmMapIoSpaceEx_val]
    cases hmap : hw (.map r.page pageSize) with
    | false => simp
    | true =>
      cases hvalue : hw (.mmio r.dword) <;>
        simp [Probe.val_bind, hvalue]
  · rw [read_of_not_accepted h]
    exact iff_of_false (by simp) fun hacc => h hacc.1

end Read

section Control
variable (inLen outLen : Nat)

/-- The request is complete, accepted, and its page and dword can be read. -/
structure EcamServed : Prop where
  inLen : 13 ≤ inLen
  outLen : 4 ≤ outLen
  accepted : (ecamRequest hw).Accepted
  mapped : hw (.map (ecamRequest hw).page pageSize) = true
  answered : hw (.mmio (ecamRequest hw).dword) ≠ none

theorem ecamControl_short (h : inLen < 13 ∨ outLen < 4) :
    hwmonDeviceControl ioctlReadPcieEcam inLen outLen = pure (.error .bufferTooSmall) :=
  if_pos h

theorem ecamControl_eq (h : ¬(inLen < 13 ∨ outLen < 4)) :
    hwmonDeviceControl ioctlReadPcieEcam inLen outLen = (do
      let bytes ← readInput 0 13
      let result ← (HwmonReadPcieEcamInput.ofBytes bytes).read
      if result.1 = .success then writeOutput (leBytes 4 result.2.toNat)
      else pure (.error result.1)) :=
  if_neg h

theorem ecamControl_success_iff :
    ((hwmonDeviceControl ioctlReadPcieEcam inLen outLen).val hw).status = .success ↔
      EcamServed hw inLen outLen := by
  by_cases h : inLen < 13 ∨ outLen < 4
  · rw [ecamControl_short inLen outLen h]
    refine iff_of_false (by simp [IoResult.error]) ?_
    intro hserved
    obtain ⟨hin, hout, -⟩ := hserved
    omega
  · rw [ecamControl_eq inLen outLen h]
    simp only [↓Probe.val_bind, readInput_val, ↓Probe.val_ite]
    have hread := read_success_iff hw (r := ecamRequest hw)
    have hstatus : ∀ result : NtStatus × UInt32,
        (if result.1 = .success then (writeOutput (leBytes 4 result.2.toNat)).val hw
          else (pure (.error result.1) : DriverProbe IoResult).val hw).status = .success ↔
            result.1 = .success := by
      intro result
      by_cases hok : result.1 = .success
      · rw [if_pos hok]
        exact iff_of_true rfl hok
      · rw [if_neg hok]
        exact Iff.rfl
    refine (hstatus _).trans (hread.trans ⟨?_, ?_⟩)
    · intro hread
      obtain ⟨hacc, hmap, hvalue⟩ := hread
      exact ⟨by omega, by omega, hacc, hmap, hvalue⟩
    · intro hserved
      exact ⟨hserved.accepted, hserved.mapped, hserved.answered⟩

theorem served_log (h : EcamServed hw inLen outLen) :
    (hwmonDeviceControl ioctlReadPcieEcam inLen outLen).log hw = (readInput 0 13).log hw ++
      [.read (.map (ecamRequest hw).page pageSize),
        .note (.mapped (ecamRequest hw).page pageSize pageReadOnlyNoCache),
        .read (.mmio (ecamRequest hw).dword), .note (.unmap (ecamRequest hw).page pageSize),
        .note (.output (leBytes 4 ((ecamRequest hw).read.val hw).2.toNat))] := by
  have hshort : ¬(inLen < 13 ∨ outLen < 4) := by
    have hin := h.inLen
    have hout := h.outLen
    omega
  have hlog := read_log hw h.accepted
  rw [if_pos h.mapped] at hlog
  have hok := (read_success_iff hw).mpr ⟨h.accepted, h.mapped, h.answered⟩
  rw [ecamControl_eq inLen outLen hshort, Probe.log_bind, Probe.log_bind, readInput_val]
  change _ ++ ((ecamRequest hw).read.log hw ++
    (if ((ecamRequest hw).read.val hw).1 = .success then _ else _ : DriverProbe IoResult).log hw) = _
  rw [hlog, if_pos hok, writeOutput, Probe.log_bind]
  rfl

theorem served_map_iff (h : EcamServed hw inLen outLen) {phys : UInt64} {size : Nat} :
    .read (.map phys size) ∈ (hwmonDeviceControl ioctlReadPcieEcam inLen outLen).log hw ↔
      phys = (ecamRequest hw).page ∧ size = pageSize := by
  rw [served_log hw inLen outLen h, List.mem_append]
  constructor
  · intro hmem
    rcases hmem with hmem | hmem
    · obtain ⟨k, hk⟩ := readInput_log hw hmem
      cases hk
    · simpa using hmem
  · intro hpage
    obtain ⟨rfl, rfl⟩ := hpage
    exact .inr List.mem_cons_self

theorem served_mmio_iff (h : EcamServed hw inLen outLen) {a : UInt64} :
    .read (.mmio a) ∈ (hwmonDeviceControl ioctlReadPcieEcam inLen outLen).log hw ↔
      a = (ecamRequest hw).dword := by
  rw [served_log hw inLen outLen h, List.mem_append]
  constructor
  · intro hmem
    rcases hmem with hmem | hmem
    · obtain ⟨k, hk⟩ := readInput_log hw hmem
      cases hk
    · simpa using hmem
  · intro heq
    obtain rfl := heq
    exact .inr (List.mem_cons_of_mem _ (List.mem_cons_of_mem _ List.mem_cons_self))

end Control

section Windows
variable (windows : List AcpiMcfgEntry)

/-- `[phys, phys + size)` is the configuration page of the requested function in a
published window, at an address that does not wrap. -/
def HwmonReadPcieEcamInput.ConfigPage (r : HwmonReadPcieEcamInput) (phys : UInt64) (size : Nat) :
    Prop :=
  size = 4096 ∧ 4096 ∣ phys.toNat ∧
    r.ecamBase.toNat + ecamOffset r.bus r.device r.function < 2 ^ 64 ∧
    ∃ w ∈ windows, w.startBus ≤ r.bus ∧ r.bus ≤ w.endBus ∧
      phys.toNat = w.baseAddress.toNat + ecamOffset r.bus r.device r.function

/-- A request that returns a dword maps the requested configuration page and nothing
else, and reads inside the page. -/
def ConfigPageOnly (inLen outLen : Nat) : Prop :=
  ((hwmonDeviceControl ioctlReadPcieEcam inLen outLen).val hw).status = .success →
    (∀ phys size,
      .read (.map phys size) ∈ (hwmonDeviceControl ioctlReadPcieEcam inLen outLen).log hw →
        (ecamRequest hw).ConfigPage windows phys size) ∧
    ∀ a, .read (.mmio a) ∈ (hwmonDeviceControl ioctlReadPcieEcam inLen outLen).log hw →
      ∃ phys, (ecamRequest hw).ConfigPage windows phys 4096 ∧
        phys.toNat ≤ a.toNat ∧ a.toNat + 4 ≤ phys.toNat + 4096

/-- The base of the request is that of a published, page-aligned window that has the
requested bus and fits below `2 ^ 64`. -/
def HwmonReadPcieEcamInput.Published (r : HwmonReadPcieEcamInput) : Prop :=
  ∃ w ∈ windows, w.startBus ≤ r.bus ∧ r.bus ≤ w.endBus ∧ r.ecamBase = w.baseAddress ∧
    4096 ∣ w.baseAddress.toNat ∧
    w.baseAddress.toNat + ecamOffset r.bus r.device r.function < 2 ^ 64

section Page
variable {r : HwmonReadPcieEcamInput}

theorem ecamOffset_dvd (bus device function : UInt8) : 4096 ∣ ecamOffset bus device function := by
  unfold ecamOffset
  omega

theorem page_toNat (h : r.ecamBase.toNat + ecamOffset r.bus r.device r.function < 2 ^ 64) :
    r.page.toNat = r.ecamBase.toNat + ecamOffset r.bus r.device r.function := by
  have hoff : (UInt64.ofNat (ecamOffset r.bus r.device r.function)).toNat =
      ecamOffset r.bus r.device r.function := by
    rw [UInt64.toNat_ofNat', Nat.mod_eq_of_lt (by omega)]
  rw [HwmonReadPcieEcamInput.page, UInt64.toNat_add, hoff, Nat.mod_eq_of_lt h]

/-- Whatever the bus, the device and the function, a base can be given for every page. -/
theorem exists_request_page (bus device function : UInt8) (phys : UInt64)
    (hd : device.toNat < 32) (hf : function.toNat < 8) :
    ∃ r : HwmonReadPcieEcamInput, r.bus = bus ∧ r.device = device ∧ r.function = function ∧
      r.Accepted ∧ r.page = phys := by
  refine ⟨⟨phys - UInt64.ofNat (ecamOffset bus device function), bus, device, function, 0⟩,
    rfl, rfl, rfl, ⟨Nat.zero_le _, hd, hf⟩, ?_⟩
  exact UInt64.sub_add_cancel _ _

theorem configPage_iff : r.ConfigPage windows r.page pageSize ↔ r.Published windows := by
  constructor
  · intro h
    obtain ⟨-, haligned, hwrap, w, hw, hstart, hend, hphys⟩ := h
    rw [page_toNat hwrap] at haligned hphys
    have hoff := ecamOffset_dvd r.bus r.device r.function
    have hbase : r.ecamBase.toNat = w.baseAddress.toNat := by omega
    exact ⟨w, hw, hstart, hend, UInt64.toNat_inj.mp hbase, by omega, by omega⟩
  · intro h
    obtain ⟨w, hw, hstart, hend, hbase, haligned, hwrap⟩ := h
    rw [← hbase] at haligned hwrap
    have hphys := page_toNat hwrap
    have hoff := ecamOffset_dvd r.bus r.device r.function
    refine ⟨rfl, ?_, hwrap, w, hw, hstart, hend, ?_⟩
    · omega
    · rw [hphys, hbase]

theorem dword_mem_page (h : r.Accepted) (haligned : 4096 ∣ r.page.toNat) :
    r.page.toNat ≤ r.dword.toNat ∧ r.dword.toNat + 4 ≤ r.page.toNat + 4096 := by
  have hoff := h.1
  have hpage := r.page.toNat_lt
  have hdword : r.dword.toNat = r.page.toNat + r.offset.toNat / 4 * 4 := by
    have hofs : (UInt64.ofNat (r.offset.toNat / 4 * 4)).toNat = r.offset.toNat / 4 * 4 := by
      rw [UInt64.toNat_ofNat', Nat.mod_eq_of_lt (by omega)]
    rw [HwmonReadPcieEcamInput.dword, UInt64.toNat_add, hofs, Nat.mod_eq_of_lt (by omega)]
  omega

end Page

/-- The driver keeps to the published windows iff its caller does: it makes no check of
the base, of the bus or of the sum. -/
theorem configPageOnly_iff (inLen outLen : Nat) :
    ConfigPageOnly hw windows inLen outLen ↔
      (EcamServed hw inLen outLen → (ecamRequest hw).Published windows) := by
  rw [ConfigPageOnly, ecamControl_success_iff]
  refine forall_congr' fun h => ?_
  constructor
  · intro honly
    obtain ⟨hmap, -⟩ := honly
    exact (configPage_iff windows).mp (hmap _ _ ((served_map_iff hw inLen outLen h).mpr ⟨rfl, rfl⟩))
  · intro hpub
    have hpage := (configPage_iff windows).mpr hpub
    constructor
    · intro phys size hmem
      obtain ⟨rfl, rfl⟩ := (served_map_iff hw inLen outLen h).mp hmem
      exact hpage
    · intro a hmem
      obtain rfl := (served_mmio_iff hw inLen outLen h).mp hmem
      exact ⟨_, hpage, dword_mem_page h.accepted hpage.2.1⟩

end Windows

end Request

/-- Every mapping succeeds, and the request is for the page at `0x1000`. -/
def lowMemoryMachine : Machine
  | .input 1 => 0x10
  | .input _ => 0
  | .msr _ => none
  | .port _ => 0
  | .map _ _ => true
  | .mmio _ => some 0

theorem lowMemory_mapped :
    ¬ConfigPageOnly lowMemoryMachine [{ baseAddress := 0xE0000000, endBus := 255 }] 13 4 := by
  intro h
  have hserved : EcamServed lowMemoryMachine 13 4 :=
    ⟨Nat.le_refl _, Nat.le_refl _, by decide, rfl, by decide⟩
  have hmap := (served_map_iff lowMemoryMachine 13 4 hserved).mpr ⟨rfl, rfl⟩
  obtain ⟨-, -, -, w, hw, -, -, hphys⟩ :=
    (h ((ecamControl_success_iff lowMemoryMachine 13 4).mpr hserved)).1 _ _ hmap
  obtain rfl := List.mem_singleton.mp hw
  revert hphys
  decide

end HwMon
