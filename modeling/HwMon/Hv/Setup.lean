import HwMon.Lib.Bytes
import HwMon.Hv.Machine

/-!
# The fields of the VMCS

`SetupVmcsFields`, cut in two where the context is captured. Runs of calls of
`__vmx_vmwrite` are lists of fields and values, in the order of the source.
-/

namespace HwMon
set_option autoImplicit false

def hvPageSize : UInt64 := 4096

def hvHostStackSize : UInt64 := 16 * 1024

/-- Offsets of `VmxonRegion`, `VmcsRegion` and `HostStack` in `HV_STATE`, and its size. -/
def hvVmxonRegion : UInt64 := 0

def hvVmcsRegion : UInt64 := hvPageSize

def hvHostStack : UInt64 := 2 * hvPageSize

def sizeofHvState : Nat := 2 * 4096 + 16 * 1024

def HvEnv.dword (e : HvEnv) (address : UInt64) : UInt32 :=
  UInt32.ofNat (leNat [e.memory address, e.memory (address + 1), e.memory (address + 2),
    e.memory (address + 3)])

def descriptorAddress (gdtBase : UInt64) (selector : UInt16) : UInt64 :=
  gdtBase + (selector &&& ~~~0x7).toUInt64

def computeSegmentAccessRights (e : HvEnv) (gdtBase : UInt64) (selector : UInt16) : UInt32 :=
  if selector = 0 then 0x10000
  else
    let descriptor := descriptorAddress gdtBase selector
    (e.memory (descriptor + 5)).toUInt32 ||| (((e.memory (descriptor + 6)).toUInt32 &&& 0xF0) <<< 8)

def computeSegmentBase (e : HvEnv) (gdtBase : UInt64) (selector : UInt16) (isTr : Bool) : UInt64 :=
  if selector = 0 then 0
  else
    let descriptor := descriptorAddress gdtBase selector
    let base := (e.memory (descriptor + 2)).toUInt64 |||
      ((e.memory (descriptor + 3)).toUInt64 <<< 8) |||
      ((e.memory (descriptor + 4)).toUInt64 <<< 16) |||
      ((e.memory (descriptor + 7)).toUInt64 <<< 24)
    if isTr then base ||| ((e.dword (descriptor + 8)).toUInt64 <<< 32) else base

def adjustedControl (value : UInt64) (desired : UInt32) : UInt32 :=
  let allowed0 := value.toUInt32
  let allowed1 := (value >>> 32).toUInt32
  (desired ||| allowed0) &&& allowed1

/-- The status, which is always true, and the adjusted value. -/
def adjustControlValue (msr desired : UInt32) : HvM (Bool × UInt32) := do
  let value ← readMsr msr
  pure (true, adjustedControl value desired)

def vmwriteAll : List (UInt32 × UInt64) → HvM Unit
  | [] => pure ()
  | w :: ws => do
    vmwrite w.1 w.2
    vmwriteAll ws

/-- The local variables of `SetupVmcsFields` after the context is captured. -/
structure SetupLocals where
  gdtr : HvDescriptorTableRegister
  idtr : HvDescriptorTableRegister
  tr : UInt16
  ctx : HvContext
  deriving DecidableEq, Repr

def guestFields (e : HvEnv) (l : SetupLocals) (cr4 : UInt64) : List (UInt32 × UInt64) :=
  [(vmcsGuestEsSelector, e.es.toUInt64),
   (vmcsGuestCsSelector, e.cs.toUInt64),
   (vmcsGuestSsSelector, e.ss.toUInt64),
   (vmcsGuestDsSelector, e.ds.toUInt64),
   (vmcsGuestFsSelector, e.fs.toUInt64),
   (vmcsGuestGsSelector, e.gs.toUInt64),
   (vmcsGuestLdtrSelector, e.ldtr.toUInt64),
   (vmcsGuestTrSelector, l.tr.toUInt64),
   (vmcsGuestEsLimit, 0xFFFFFFFF),
   (vmcsGuestCsLimit, 0xFFFFFFFF),
   (vmcsGuestSsLimit, 0xFFFFFFFF),
   (vmcsGuestDsLimit, 0xFFFFFFFF),
   (vmcsGuestFsLimit, 0xFFFFFFFF),
   (vmcsGuestGsLimit, 0xFFFFFFFF),
   (vmcsGuestLdtrLimit, 0),
   (vmcsGuestTrLimit, 0x67),
   (vmcsGuestGdtrLimit, l.gdtr.limit.toUInt64),
   (vmcsGuestIdtrLimit, l.idtr.limit.toUInt64),
   (vmcsGuestEsAccessRights, (computeSegmentAccessRights e l.gdtr.base e.es).toUInt64),
   (vmcsGuestCsAccessRights, (computeSegmentAccessRights e l.gdtr.base e.cs).toUInt64),
   (vmcsGuestSsAccessRights, (computeSegmentAccessRights e l.gdtr.base e.ss).toUInt64),
   (vmcsGuestDsAccessRights, (computeSegmentAccessRights e l.gdtr.base e.ds).toUInt64),
   (vmcsGuestFsAccessRights, (computeSegmentAccessRights e l.gdtr.base e.fs).toUInt64),
   (vmcsGuestGsAccessRights, (computeSegmentAccessRights e l.gdtr.base e.gs).toUInt64),
   (vmcsGuestLdtrAccessRights, 0x10000),
   (vmcsGuestTrAccessRights, (computeSegmentAccessRights e l.gdtr.base l.tr).toUInt64),
   (vmcsGuestEsBase, 0),
   (vmcsGuestCsBase, 0),
   (vmcsGuestSsBase, 0),
   (vmcsGuestDsBase, 0),
   (vmcsGuestFsBase, e.msr 0xC0000100),
   (vmcsGuestGsBase, e.msr 0xC0000101),
   (vmcsGuestLdtrBase, 0),
   (vmcsGuestTrBase, computeSegmentBase e l.gdtr.base l.tr true),
   (vmcsGuestGdtrBase, l.gdtr.base),
   (vmcsGuestIdtrBase, l.idtr.base),
   (vmcsGuestCr0, e.cr0),
   (vmcsGuestCr3, e.cr3),
   (vmcsGuestCr4, cr4),
   (vmcsGuestDr7, 0x400),
   (vmcsGuestRsp, l.ctx.rsp),
   (vmcsGuestRip, l.ctx.rip),
   (vmcsGuestRflags, l.ctx.eFlags.toUInt64),
   (vmcsGuestSysenterCs, (e.msr 0x174).toUInt32.toUInt64),
   (vmcsGuestSysenterEsp, e.msr 0x175),
   (vmcsGuestSysenterEip, e.msr 0x176),
   (vmcsGuestInterruptibility, 0),
   (vmcsGuestActivityState, 0),
   (vmcsVmcsLinkPointer, 0xFFFFFFFFFFFFFFFF)]

def hostFields (e : HvEnv) (l : SetupLocals) (cr4 gHvState : UInt64) : List (UInt32 × UInt64) :=
  [(vmcsHostEsSelector, (e.es &&& 0xF8).toUInt64),
   (vmcsHostCsSelector, (e.cs &&& 0xF8).toUInt64),
   (vmcsHostSsSelector, (e.ss &&& 0xF8).toUInt64),
   (vmcsHostDsSelector, (e.ds &&& 0xF8).toUInt64),
   (vmcsHostFsSelector, (e.fs &&& 0xF8).toUInt64),
   (vmcsHostGsSelector, (e.gs &&& 0xF8).toUInt64),
   (vmcsHostTrSelector, (l.tr &&& 0xF8).toUInt64),
   (vmcsHostCr0, e.cr0),
   (vmcsHostCr3, e.cr3),
   (vmcsHostCr4, cr4),
   (vmcsHostFsBase, e.msr 0xC0000100),
   (vmcsHostGsBase, e.msr 0xC0000101),
   (vmcsHostTrBase, computeSegmentBase e l.gdtr.base l.tr true),
   (vmcsHostGdtrBase, l.gdtr.base),
   (vmcsHostIdtrBase, l.idtr.base),
   (vmcsHostSysenterCs, (e.msr 0x174).toUInt32.toUInt64),
   (vmcsHostSysenterEsp, e.msr 0x175),
   (vmcsHostSysenterEip, e.msr 0x176),
   (vmcsHostRsp, gHvState + hvHostStack + hvHostStackSize - 0x20),
   (vmcsHostRip, e.exitHandler)]

/-- The fields after the adjusted controls. -/
def controlFields (e : HvEnv) (cr4 : UInt64) : List (UInt32 × UInt64) :=
  [(vmcsExceptionBitmap, 0),
   (vmcsCr3TargetCount, 0),
   (vmcsExitMsrStoreCount, 0),
   (vmcsExitMsrLoadCount, 0),
   (vmcsEntryMsrLoadCount, 0),
   (vmcsEntryInterruptInfo, 0),
   (vmcsEntryInstructionLen, 0),
   (vmcsCr0GuestHostMask, 0),
   (vmcsCr4GuestHostMask, 0),
   (vmcsCr0ReadShadow, e.cr0),
   (vmcsCr4ReadShadow, cr4)]

/-- `SetupVmcsFields` from the point on where the context is captured. -/
def setupAfterCapture (l : SetupLocals) : HvM Bool := do
  let e ← .env id
  let cr4 ← readcr4
  vmwriteAll (guestFields e l cr4)
  let cr4 ← readcr4
  let gHvState ← .get HvState.gHvState
  vmwriteAll (hostFields e l cr4 gHvState)
  let pinControls ← adjustControlValue ia32VmxPinbasedCtlsMsr 0
  vmwrite vmcsPinBasedControls pinControls.2.toUInt64
  let procControls ← adjustControlValue ia32VmxProcbasedCtlsMsr 0
  vmwrite vmcsProcBasedControls procControls.2.toUInt64
  let exitControls ← adjustControlValue ia32VmxExitCtlsMsr ((1 : UInt32) <<< 9)
  vmwrite vmcsExitControls exitControls.2.toUInt64
  let entryControls ← adjustControlValue ia32VmxEntryCtlsMsr ((1 : UInt32) <<< 9)
  vmwrite vmcsEntryControls entryControls.2.toUInt64
  let cr4 ← readcr4
  vmwriteAll (controlFields e cr4)
  pure true

def setupVmcsFields : HvM Bool := do
  let gdtr ← .env HvEnv.gdtr
  let idtr ← .env HvEnv.idtr
  let tr ← .env HvEnv.tr
  let ctx ← .env HvEnv.context
  setupAfterCapture { gdtr, idtr, tr, ctx }

/-- All the fields that `SetupVmcsFields` writes, in order. -/
def setupFields (e : HvEnv) (l : SetupLocals) (cr4 gHvState : UInt64) : List (UInt32 × UInt64) :=
  guestFields e l cr4 ++ hostFields e l cr4 gHvState ++
    [(vmcsPinBasedControls, (adjustedControl (e.msr ia32VmxPinbasedCtlsMsr) 0).toUInt64),
     (vmcsProcBasedControls, (adjustedControl (e.msr ia32VmxProcbasedCtlsMsr) 0).toUInt64),
     (vmcsExitControls,
       (adjustedControl (e.msr ia32VmxExitCtlsMsr) ((1 : UInt32) <<< 9)).toUInt64),
     (vmcsEntryControls,
       (adjustedControl (e.msr ia32VmxEntryCtlsMsr) ((1 : UInt32) <<< 9)).toUInt64)] ++
    controlFields e cr4

/-- The state after some fields have been written. -/
def HvState.write (s : HvState) (ws : List (UInt32 × UInt64)) : HvState :=
  { s with
    vmcs := ws.foldl (fun vmcs w f => if f = w.1 then w.2 else vmcs f) s.vmcs
    log := s.log ++ ws.map fun w => .vmwrite w.1 w.2 }

section Writes
variable {e : HvEnv} {s : HvState}

@[simp] theorem write_cr4 (ws : List (UInt32 × UInt64)) : (s.write ws).cr4 = s.cr4 := rfl

@[simp] theorem write_gHvState (ws : List (UInt32 × UInt64)) :
    (s.write ws).gHvState = s.gHvState := rfl

theorem write_nil : s.write [] = s := by
  rw [HvState.write, List.map_nil, List.append_nil]
  rfl

theorem write_write (ws us : List (UInt32 × UInt64)) :
    (s.write ws).write us = s.write (ws ++ us) := by
  simp only [HvState.write, List.foldl_append, List.map_append, List.append_assoc]

theorem vmxInstruction_root {α : Type} {reason : UInt64} {body : HvM α} (h : s.mode ≠ .nonRoot) :
    (vmxInstruction reason body).run e s = body.run e s := by
  rw [vmxInstruction, Prog.run_bind, Prog.run_get]
  simp only [h, if_false]

theorem vmxInstruction_nonRoot {α : Type} {reason : UInt64} {body : HvM α}
    (h : s.mode = .nonRoot) :
    (vmxInstruction reason body).run e s = (.error .vmExit, s.exit reason) := by
  rw [vmxInstruction, Prog.run_bind, Prog.run_get]
  simp only [h, if_true, Prog.run_stop]

theorem vmwrite_root (h : s.mode ≠ .nonRoot) (field : UInt32) (value : UInt64) :
    (vmwrite field value).run e s = (.ok (), s.write [(field, value)]) :=
  vmxInstruction_root h

theorem vmwriteAll_root (h : s.mode ≠ .nonRoot) (ws : List (UInt32 × UInt64)) :
    (vmwriteAll ws).run e s = (.ok (), s.write ws) := by
  induction ws generalizing s with
  | nil =>
    rw [write_nil]
    rfl
  | cons w ws ih =>
    rw [vmwriteAll, Prog.bind_of_ok (vmwrite_root h w.1 w.2), ih (s := s.write [w]) h, write_write]
    rfl

theorem vmwriteAll_nonRoot (h : s.mode = .nonRoot) (w : UInt32 × UInt64)
    (ws : List (UInt32 × UInt64)) :
    (vmwriteAll (w :: ws)).run e s = (.error .vmExit, s.exit 25) := by
  have hwrite : (vmwrite w.1 w.2).run e s = (.error .vmExit, s.exit 25) :=
    vmxInstruction_nonRoot h
  rw [vmwriteAll, Prog.bind_of_error hwrite]

theorem setupAfterCapture_root (h : s.mode ≠ .nonRoot) (l : SetupLocals) :
    (setupAfterCapture l).run e s =
      (.ok true, s.write (setupFields e l s.cr4 s.gHvState)) := by
  have hroot : ∀ ws, (s.write ws).mode ≠ .nonRoot := fun _ => h
  simp only [setupAfterCapture, Prog.run_bind, Prog.run_env, readcr4, Prog.run_get, id,
    vmwriteAll_root h, vmwriteAll_root (hroot _), vmwrite_root (hroot _), adjustControlValue,
    readMsr, Prog.run_pure, write_write, write_cr4, write_gHvState, setupFields,
    List.append_assoc, List.cons_append, List.nil_append]

theorem setupAfterCapture_nonRoot (h : s.mode = .nonRoot) (l : SetupLocals) :
    (setupAfterCapture l).run e s = (.error .vmExit, s.exit 25) := by
  have hguest : (vmwriteAll (guestFields e l s.cr4)).run e s = (.error .vmExit, s.exit 25) :=
    vmwriteAll_nonRoot h _ _
  simp only [setupAfterCapture, Prog.run_bind, Prog.run_env, readcr4, Prog.run_get, id, hguest]

end Writes
end HwMon
