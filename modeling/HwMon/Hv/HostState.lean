import HwMon.Hv.Guest
import HwMon.Hv.Segments

/-!
# The host selectors of the VMCS

The selectors are masked with `F8`h, which also clears bits 15..8, while the base
of TR comes from the descriptor of the whole index.
-/

namespace HwMon
set_option autoImplicit false

/-- The host selector fields with the selectors that they are made of. -/
def hostSelectors (e : HvEnv) : List (UInt32 × UInt16) :=
  [(vmcsHostEsSelector, e.es), (vmcsHostCsSelector, e.cs), (vmcsHostSsSelector, e.ss),
   (vmcsHostDsSelector, e.ds), (vmcsHostFsSelector, e.fs), (vmcsHostGsSelector, e.gs),
   (vmcsHostTrSelector, e.tr)]

/-- The base that a system descriptor encodes. -/
def EncodesBase (e : HvEnv) (address base : UInt64) : Prop :=
  baseOf (leNat ((List.range 16).map fun i => e.memory (address + UInt64.ofNat i))) = base.toNat

/-- Host selectors and bases designate the same descriptors. -/
structure HostMatches (e : HvEnv) (vmcs : UInt32 → UInt64) : Prop where
  selectors : ∀ w ∈ hostSelectors e, vmcs w.1 = (w.2 &&& ~~~0x7).toUInt64
  trBase : e.tr ≠ 0 → EncodesBase e (e.gdtr.base + vmcs vmcsHostTrSelector) (vmcs vmcsHostTrBase)
  bases : ∀ gdtBase selector base, selector ≠ 0 →
    EncodesBase e (descriptorAddress gdtBase selector) base →
    computeSegmentBase e gdtBase selector true = base

section Masks
variable (selector : UInt16)

theorem maskedSelector_toNat :
    (selector &&& 0xF8).toNat = 2 ^ 3 * (selector.toNat / 2 ^ 3 % 2 ^ 5) := by
  have hmask : (0xF8 : UInt16).toNat = (2 ^ 5 - 1) * 2 ^ 3 := by decide
  rw [UInt16.toNat_and, hmask, and_mask]

/-- The mask keeps the index of a selector below 100h only. -/
theorem maskedSelector_eq_iff :
    selector &&& 0xF8 = selector &&& ~~~(0x7 : UInt16) ↔ selector < 0x100 := by
  rw [← UInt16.toNat_inj, clearedSelector_toNat, maskedSelector_toNat, UInt16.lt_iff_toNat_lt]
  have hlimit : (0x100 : UInt16).toNat = 256 := rfl
  omega

end Masks

section Host
variable {e : HvEnv} {s : HvState}

theorem encodesBase_iff {gdtBase : UInt64} {selector : UInt16} {base : UInt64} :
    EncodesBase e (descriptorAddress gdtBase selector) base ↔
      baseOf (gdtEntry e gdtBase (selector >>> 3) 16) = base.toNat := by
  rw [EncodesBase, gdtEntry_eq]

/-- For a selector that is not null the base is the one that its descriptor encodes. -/
theorem systemBase_encoded (e : HvEnv) (gdtBase : UInt64) {selector : UInt16} (h : selector ≠ 0) :
    EncodesBase e (descriptorAddress gdtBase selector)
      (computeSegmentBase e gdtBase selector true) :=
  encodesBase_iff.mpr (segmentBase_toNat e gdtBase selector h true).symm

theorem systemBase_eq {gdtBase : UInt64} {selector : UInt16} {base : UInt64} (h : selector ≠ 0)
    (hbase : EncodesBase e (descriptorAddress gdtBase selector) base) :
    computeSegmentBase e gdtBase selector true = base := by
  have hcode : _ = _ := systemBase_encoded e gdtBase h
  rw [EncodesBase] at hbase
  exact UInt64.toNat_inj.mp (hcode.symm.trans hbase)

/-- The host fields after `SetupVmcsFields` in VMX root operation. -/
theorem setup_hostField {f : UInt32} {v : UInt64}
    (hmem : (f, v) ∈ hostFields e e.locals s.cr4 s.gHvState) :
    (setupVmcsFields.run e { s with mode := .root }).2.vmcs f = v := by
  rw [setupVmcsFields_root VmxMode.noConfusion]
  exact setupFields_vmcs
    (List.mem_append_left _ (List.mem_append_left _ (List.mem_append_right _ hmem)))

theorem hostSelector_mem {w : UInt32 × UInt16} (hw : w ∈ hostSelectors e) (cr4 gHvState : UInt64) :
    (w.1, (w.2 &&& 0xF8).toUInt64) ∈ hostFields e e.locals cr4 gHvState := by
  have hmasked : (w.1, (w.2 &&& 0xF8).toUInt64) ∈
      (hostSelectors e).map fun w => (w.1, (w.2 &&& 0xF8).toUInt64) := List.mem_map_of_mem hw
  exact List.mem_append_left (hostFields e e.locals cr4 gHvState |>.drop 7) hmasked

theorem hostTrBase_mem (e : HvEnv) (cr4 gHvState : UInt64) :
    (vmcsHostTrBase, computeSegmentBase e e.gdtr.base e.tr true) ∈
      hostFields e e.locals cr4 gHvState := by
  simp [hostFields, HvEnv.locals]

/-- The host state designates the current descriptors just when every selector is below
100h. -/
theorem hostMatches_iff (e : HvEnv) (s : HvState) :
    HostMatches e (setupVmcsFields.run e { s with mode := .root }).2.vmcs ↔
      ∀ w ∈ hostSelectors e, w.2 < 0x100 := by
  have hwritten : ∀ w ∈ hostSelectors e,
      (setupVmcsFields.run e { s with mode := .root }).2.vmcs w.1 = (w.2 &&& 0xF8).toUInt64 :=
    fun w hw => setup_hostField (hostSelector_mem hw _ _)
  have hbase := setup_hostField (s := s) (hostTrBase_mem e s.cr4 s.gHvState)
  constructor
  · intro h w hw
    have hboth := (hwritten w hw).symm.trans (h.selectors w hw)
    rw [← UInt64.toNat_inj, UInt16.toNat_toUInt64, UInt16.toNat_toUInt64, UInt16.toNat_inj] at hboth
    exact (maskedSelector_eq_iff w.2).mp hboth
  · intro h
    have hselectors : ∀ w ∈ hostSelectors e,
        (setupVmcsFields.run e { s with mode := .root }).2.vmcs w.1 =
          (w.2 &&& ~~~(0x7 : UInt16)).toUInt64 := by
      intro w hw
      rw [hwritten w hw, (maskedSelector_eq_iff w.2).mpr (h w hw)]
    refine ⟨hselectors, ?_, fun gdtBase selector base => systemBase_eq⟩
    intro htr
    have hselector := hselectors (vmcsHostTrSelector, e.tr) (by simp [hostSelectors])
    rw [hselector, hbase]
    exact systemBase_encoded e e.gdtr.base htr

end Host

/-- A task register with index 32. -/
def farTaskRegister : HvEnv := { lockedOff with tr := 0x100 }

/-- HOST_TR_SELECTOR is the null selector then. -/
theorem farTaskRegister_mismatch :
    ¬HostMatches farTaskRegister (setupVmcsFields.run farTaskRegister
      { poweredOn with mode := .root }).2.vmcs := by
  intro h
  have hselector := h.selectors (vmcsHostTrSelector, 0x100) (by decide)
  revert hselector
  decide

end HwMon
