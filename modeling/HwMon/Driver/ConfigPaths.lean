import HwMon.Driver.Ecam

/-!
# The two ways to read configuration space

The registers that the ports and the memory window select, read off the runs of
the two functions. The ports mask the device and the function where the window
rejects them, and the window rejects the last three offsets of a function's page.
-/

namespace HwMon
set_option autoImplicit false

theorem maskedDevice_toNat (x : UInt8) : (x &&& 0x1F).toNat = x.toNat % 32 := by
  rw [UInt8.toNat_and]
  exact Nat.and_two_pow_sub_one_eq_mod _ 5

theorem maskedFunction_toNat (x : UInt8) : (x &&& 0x7).toNat = x.toNat % 8 := by
  rw [UInt8.toNat_and]
  exact Nat.and_two_pow_sub_one_eq_mod _ 3

theorem maskedOffset_toNat : ∀ x : UInt8, (x &&& 0xFC).toNat = x.toNat / 4 * 4 :=
  forall_byte (by set_option maxRecDepth 4000 in decide)

theorem legacyAddress_toNat (bus device function offset : UInt8) :
    (legacyAddress bus device function offset).toNat = 2 ^ 31 + bus.toNat * 2 ^ 16 +
      device.toNat % 32 * 2 ^ 11 + function.toNat % 8 * 2 ^ 8 + offset.toNat / 4 * 4 := by
  have hb := bus.toNat_lt
  have ho := offset.toNat_lt
  have hshift : ∀ (x : UInt8) (k : UInt32), k.toNat < 32 → x.toNat * 2 ^ k.toNat < 2 ^ 32 →
      (x.toUInt32 <<< k).toNat = x.toNat * 2 ^ k.toNat := by
    intro x k hk hx
    rw [UInt32.toNat_shiftLeft, UInt8.toNat_toUInt32, Nat.mod_eq_of_lt hk, Nat.shiftLeft_eq,
      Nat.mod_eq_of_lt hx]
  have hbus := hshift bus 16 (by decide) (by simp; omega)
  have hdevice := hshift (device &&& 0x1F) 11 (by decide)
    (by rw [maskedDevice_toNat]; change _ * 2 ^ 11 < _; omega)
  have hfunction := hshift (function &&& 0x7) 8 (by decide)
    (by rw [maskedFunction_toNat]; change _ * 2 ^ 8 < _; omega)
  rw [maskedDevice_toNat] at hdevice
  rw [maskedFunction_toNat] at hfunction
  have henable : 2 ^ 31 ||| bus.toNat * 2 ^ 16 = 2 ^ 31 + bus.toNat * 2 ^ 16 :=
    or_eq_add (i := 31) (by omega) (by omega)
  have hbits : (2 ^ 31 + bus.toNat * 2 ^ 16) ||| device.toNat % 32 * 2 ^ 11 =
      2 ^ 31 + bus.toNat * 2 ^ 16 + device.toNat % 32 * 2 ^ 11 :=
    or_eq_add (i := 16) (by omega) (by omega)
  have hmiddle : (2 ^ 31 + bus.toNat * 2 ^ 16 + device.toNat % 32 * 2 ^ 11) |||
      function.toNat % 8 * 2 ^ 8 =
      2 ^ 31 + bus.toNat * 2 ^ 16 + device.toNat % 32 * 2 ^ 11 + function.toNat % 8 * 2 ^ 8 :=
    or_eq_add (i := 11) (by omega) (by omega)
  have hlow : (2 ^ 31 + bus.toNat * 2 ^ 16 + device.toNat % 32 * 2 ^ 11 +
      function.toNat % 8 * 2 ^ 8) ||| offset.toNat / 4 * 4 = 2 ^ 31 + bus.toNat * 2 ^ 16 +
      device.toNat % 32 * 2 ^ 11 + function.toNat % 8 * 2 ^ 8 + offset.toNat / 4 * 4 :=
    or_eq_add (i := 8) (by omega) (by omega)
  rw [legacyAddress, UInt32.toNat_or, UInt32.toNat_or, UInt32.toNat_or, UInt32.toNat_or, hbus,
    hdevice, hfunction, UInt8.toNat_toUInt32, maskedOffset_toNat]
  calc ((2 ^ 31 ||| bus.toNat * 2 ^ 16) ||| device.toNat % 32 * 2 ^ 11 |||
        function.toNat % 8 * 2 ^ 8) ||| offset.toNat / 4 * 4
      = _ := by rw [henable, hbits, hmiddle, hlow]

/-- A dword register of the configuration space of a segment. -/
structure PciRegister where
  bus : Nat
  device : Nat
  function : Nat
  dword : Nat
  deriving DecidableEq, Repr

/-- The register that a word in port `0xCF8` selects. -/
def mechanismRegister (w : UInt32) : PciRegister where
  bus := w.toNat / 2 ^ 16 % 2 ^ 8
  device := w.toNat / 2 ^ 11 % 2 ^ 5
  function := w.toNat / 2 ^ 8 % 2 ^ 3
  dword := w.toNat / 2 ^ 2 % 2 ^ 6

/-- The register at an address of the window with base `base`. -/
def ecamRegister (base a : UInt64) : PciRegister where
  bus := (a - base).toNat / 2 ^ 20 % 2 ^ 8
  device := (a - base).toNat / 2 ^ 15 % 2 ^ 5
  function := (a - base).toNat / 2 ^ 12 % 2 ^ 3
  dword := (a - base).toNat / 2 ^ 2 % 2 ^ 10

theorem mechanismRegister_legacyAddress (bus device function offset : UInt8) :
    mechanismRegister (legacyAddress bus device function offset) =
      ⟨bus.toNat, device.toNat % 32, function.toNat % 8, offset.toNat / 4⟩ := by
  have hb := bus.toNat_lt
  have ho := offset.toNat_lt
  have haddr := legacyAddress_toNat bus device function offset
  unfold mechanismRegister
  congr 1 <;> omega

theorem ecamRegister_dword {r : HwmonReadPcieEcamInput} (h : r.Accepted) :
    ecamRegister r.ecamBase r.dword =
      ⟨r.bus.toNat, r.device.toNat, r.function.toNat, r.offset.toNat / 4⟩ := by
  obtain ⟨hoff, hd, hf⟩ := h
  have hb := r.bus.toNat_lt
  have hbits : ecamOffset r.bus r.device r.function =
      r.bus.toNat * 2 ^ 20 + r.device.toNat * 2 ^ 15 + r.function.toNat * 2 ^ 12 := rfl
  have hdiff : r.dword - r.ecamBase = UInt64.ofNat (ecamOffset r.bus r.device r.function) +
      UInt64.ofNat (r.offset.toNat / 4 * 4) := by
    rw [HwmonReadPcieEcamInput.dword, HwmonReadPcieEcamInput.page, UInt64.add_assoc,
      UInt64.add_comm r.ecamBase, UInt64.add_sub_cancel]
  have hvalue : (r.dword - r.ecamBase).toNat =
      ecamOffset r.bus r.device r.function + r.offset.toNat / 4 * 4 := by
    rw [hdiff, UInt64.toNat_add, UInt64.toNat_ofNat', UInt64.toNat_ofNat']
    omega
  unfold ecamRegister
  congr 1 <;> omega

/-- The fields of a request for a register, whichever path it takes. -/
structure ConfigRequest where
  bus : UInt8
  device : UInt8
  function : UInt8
  offset : UInt16
  deriving DecidableEq, Repr

namespace ConfigRequest
variable (hw : Machine) (base : UInt64) (x y : ConfigRequest)

/-- The run of the legacy path, whose offset is one byte. -/
def legacyRead : DriverProbe UInt32 :=
  readPciConfigDwordLegacy x.bus x.device x.function x.offset.toUInt8

def ecamInput : HwmonReadPcieEcamInput := ⟨base, x.bus, x.device, x.function, x.offset⟩

def LegacyAccepts : Prop := .read (.port 0xCFC) ∈ x.legacyRead.log hw

def EcamAccepts : Prop := ((x.ecamInput base).read.val hw).1 ≠ .invalidParameter

def LegacyAddresses (reg : PciRegister) : Prop :=
  x.offset.toNat < 256 ∧
    ∃ w, .note (.outdword 0xCF8 w) ∈ x.legacyRead.log hw ∧ mechanismRegister w = reg

def EcamAddresses (reg : PciRegister) : Prop :=
  ∃ a, .read (.mmio a) ∈ (x.ecamInput base).read.log hw ∧ ecamRegister base a = reg

/-- The register that the fields name. -/
def register : PciRegister :=
  ⟨x.bus.toNat, x.device.toNat, x.function.toNat, x.offset.toNat / 4⟩

/-- The two paths agree on one request. -/
structure PathsAgree : Prop where
  sameValues : LegacyAccepts hw { x with offset := 0 } ↔ EcamAccepts hw base { x with offset := 0 }
  everyOffset : x.offset.toNat ≤ 4095 → EcamAccepts hw base { x with device := 0, function := 0 }
  sameRegister : x.offset.toNat < 256 → x.LegacyAddresses hw x.register ∧
    (hw (.map (x.ecamInput base).page pageSize) = true → x.EcamAddresses hw base x.register)
  ownData : ∀ reg, x.LegacyAddresses hw reg ∨ x.EcamAddresses hw base reg →
    reg.bus = x.bus.toNat ∧ reg.device = x.device.toNat ∧ reg.function = x.function.toNat

/-- Requests that address one register have equal fields. -/
def Separate : Prop :=
  ∀ reg, x.LegacyAddresses hw reg ∨ x.EcamAddresses hw base reg →
    y.LegacyAddresses hw reg ∨ y.EcamAddresses hw base reg →
      x.bus = y.bus ∧ x.device = y.device ∧ x.function = y.function ∧
        x.offset.toNat / 4 = y.offset.toNat / 4

/-- A device and a function that exist, and an offset on which the two paths do not differ. -/
def Proper : Prop :=
  x.device.toNat < 32 ∧ x.function.toNat < 8 ∧ ¬(4093 ≤ x.offset.toNat ∧ x.offset.toNat ≤ 4095)

theorem legacyRead_log : x.legacyRead.log hw =
    [.note .acquireLock,
      .note (.outdword 0xCF8 (legacyAddress x.bus x.device x.function x.offset.toUInt8)),
      .read (.port 0xCFC), .note .releaseLock] := rfl

theorem legacyAccepts : x.LegacyAccepts hw := by
  rw [LegacyAccepts, legacyRead_log]
  simp

theorem ecamAccepts_iff : x.EcamAccepts hw base ↔ (x.ecamInput base).Accepted := by
  unfold EcamAccepts
  by_cases h : (x.ecamInput base).Accepted
  · rw [read_of_accepted h, iff_true_right h]
    simp only [↓Probe.val_bind, mmMapIoSpaceEx_val]
    cases hmap : hw (.map (x.ecamInput base).page pageSize) with
    | false => simp
    | true => cases hvalue : hw (.mmio (x.ecamInput base).dword) <;> simp [hvalue]
  · rw [read_of_not_accepted h]
    exact iff_of_false (fun hne => hne rfl) h

theorem legacyAddresses_iff {reg : PciRegister} : x.LegacyAddresses hw reg ↔
    x.offset.toNat < 256 ∧ reg =
      ⟨x.bus.toNat, x.device.toNat % 32, x.function.toNat % 8, x.offset.toNat / 4⟩ := by
  unfold LegacyAddresses
  rw [legacyRead_log]
  apply and_congr_right
  intro hoff
  have hregister := mechanismRegister_legacyAddress x.bus x.device x.function x.offset.toUInt8
  rw [UInt16.toNat_toUInt8, Nat.mod_eq_of_lt hoff] at hregister
  constructor
  · intro h
    obtain ⟨w, hw, rfl⟩ := h
    obtain rfl : w = legacyAddress x.bus x.device x.function x.offset.toUInt8 := by simpa using hw
    exact hregister
  · intro h
    subst h
    exact ⟨_, by simp, hregister⟩

theorem ecamAddresses_iff {reg : PciRegister} : x.EcamAddresses hw base reg ↔
    (x.ecamInput base).Accepted ∧ hw (.map (x.ecamInput base).page pageSize) = true ∧
      reg = x.register := by
  unfold EcamAddresses
  by_cases hacc : (x.ecamInput base).Accepted
  · rw [read_log hw hacc, and_iff_right hacc]
    have hregister : ecamRegister base (x.ecamInput base).dword = x.register :=
      ecamRegister_dword hacc
    by_cases hmap : hw (.map (x.ecamInput base).page pageSize) = true
    · rw [if_pos hmap, and_iff_right hmap]
      constructor
      · intro h
        obtain ⟨a, ha, rfl⟩ := h
        obtain rfl : a = (x.ecamInput base).dword := by simpa using ha
        exact hregister
      · intro h
        subst h
        exact ⟨_, by simp, hregister⟩
    · rw [if_neg hmap]
      refine iff_of_false ?_ fun h => hmap h.1
      intro h
      obtain ⟨a, ha, -⟩ := h
      simp at ha
  · rw [read_of_not_accepted hacc]
    refine iff_of_false ?_ fun h => hacc h.1
    intro h
    obtain ⟨a, ha, -⟩ := h
    exact absurd ha List.not_mem_nil

variable {x} in
theorem eq_register_of_proper (h : x.Proper) {reg : PciRegister}
    (ha : x.LegacyAddresses hw reg ∨ x.EcamAddresses hw base reg) : reg = x.register := by
  obtain ⟨hd, hf, -⟩ := h
  rcases ha with ha | ha
  · obtain ⟨-, rfl⟩ := (legacyAddresses_iff hw x).mp ha
    rw [register, Nat.mod_eq_of_lt hd, Nat.mod_eq_of_lt hf]
  · exact ((ecamAddresses_iff hw base x).mp ha).2.2

theorem pathsAgree_iff : x.PathsAgree hw base ↔ x.Proper := by
  constructor
  · intro h
    have hvalues := (ecamAccepts_iff hw base _).mp (h.sameValues.mp (legacyAccepts hw _))
    refine ⟨hvalues.2.1, hvalues.2.2, ?_⟩
    intro hlast
    have hoff := ((ecamAccepts_iff hw base _).mp (h.everyOffset hlast.2)).1
    change x.offset.toNat ≤ 4092 at hoff
    omega
  · intro h
    obtain ⟨hd, hf, hlast⟩ := h
    refine ⟨?_, ?_, ?_, ?_⟩
    · refine iff_of_true (legacyAccepts hw _) ((ecamAccepts_iff hw base _).mpr ?_)
      exact ⟨Nat.zero_le _, hd, hf⟩
    · intro hoff
      apply (ecamAccepts_iff hw base _).mpr
      refine ⟨?_, (by decide : (0 : UInt8).toNat < 32), (by decide : (0 : UInt8).toNat < 8)⟩
      change x.offset.toNat ≤ 4092
      omega
    · intro hoff
      constructor
      · apply (legacyAddresses_iff hw x).mpr
        refine ⟨hoff, ?_⟩
        rw [register, Nat.mod_eq_of_lt hd, Nat.mod_eq_of_lt hf]
      · intro hmap
        refine (ecamAddresses_iff hw base x).mpr ⟨⟨?_, hd, hf⟩, hmap, rfl⟩
        change x.offset.toNat ≤ 4092
        omega
    · intro reg ha
      obtain rfl := eq_register_of_proper hw base ⟨hd, hf, hlast⟩ ha
      exact ⟨rfl, rfl, rfl⟩

variable {x y} in
theorem separate_of_proper (hx : x.Proper) (hy : y.Proper) : x.Separate hw base y := by
  intro reg hax hay
  have heq := (eq_register_of_proper hw base hx hax).symm.trans
    (eq_register_of_proper hw base hy hay)
  simp only [register, PciRegister.mk.injEq, UInt8.toNat_inj] at heq
  exact heq

/-- The paths agree, and addresses are injective, exactly on the proper requests. -/
theorem paths_agree_iff_proper :
    (x.PathsAgree hw base ∧ y.PathsAgree hw base ∧ x.Separate hw base y) ↔
      x.Proper ∧ y.Proper := by
  rw [pathsAgree_iff, pathsAgree_iff]
  constructor
  · intro h
    exact ⟨h.1, h.2.1⟩
  · intro h
    obtain ⟨hx, hy⟩ := h
    exact ⟨hx, hy, separate_of_proper hw base hx hy⟩

end ConfigRequest

/-- Device `0x20` gets the data of device zero, and the last byte of a page is rejected. -/
theorem aliased_device_answered :
    ¬(ConfigRequest.mk 0 0x20 0 0).PathsAgree lowMemoryMachine 0 ∧
    ¬(ConfigRequest.mk 0 0x20 0 0).Separate lowMemoryMachine 0 ⟨0, 0, 0, 0⟩ ∧
    ¬(ConfigRequest.mk 0 0 0 4095).PathsAgree lowMemoryMachine 0 := by
  refine ⟨?_, ?_, ?_⟩
  · intro h
    have hproper := (ConfigRequest.pathsAgree_iff _ _ _).mp h
    exact absurd hproper.1 (by decide)
  · intro h
    have hsame := h ⟨0, 0, 0, 0⟩ (.inl ((ConfigRequest.legacyAddresses_iff _ _).mpr (by decide)))
      (.inl ((ConfigRequest.legacyAddresses_iff _ _).mpr (by decide)))
    exact absurd hsame.2.1 (by decide)
  · intro h
    have hproper := (ConfigRequest.pathsAgree_iff _ _ _).mp h
    exact absurd hproper.2.2 (by decide)

end HwMon
