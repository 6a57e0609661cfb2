import Mathlib.Data.List.Basic

/-!
# VMCS fields and model-specific registers

The encodings that `hwmon_hv.c` uses, under its names.
-/

namespace HwMon
set_option autoImplicit false

def vmcsGuestEsSelector : UInt32 := 0x0800
def vmcsGuestCsSelector : UInt32 := 0x0802
def vmcsGuestSsSelector : UInt32 := 0x0804
def vmcsGuestDsSelector : UInt32 := 0x0806
def vmcsGuestFsSelector : UInt32 := 0x0808
def vmcsGuestGsSelector : UInt32 := 0x080A
def vmcsGuestLdtrSelector : UInt32 := 0x080C
def vmcsGuestTrSelector : UInt32 := 0x080E

def vmcsHostEsSelector : UInt32 := 0x0C00
def vmcsHostCsSelector : UInt32 := 0x0C02
def vmcsHostSsSelector : UInt32 := 0x0C04
def vmcsHostDsSelector : UInt32 := 0x0C06
def vmcsHostFsSelector : UInt32 := 0x0C08
def vmcsHostGsSelector : UInt32 := 0x0C0A
def vmcsHostTrSelector : UInt32 := 0x0C0C

def vmcsVmcsLinkPointer : UInt32 := 0x2800

def vmcsPinBasedControls : UInt32 := 0x4000
def vmcsProcBasedControls : UInt32 := 0x4002
def vmcsExceptionBitmap : UInt32 := 0x4004
def vmcsCr3TargetCount : UInt32 := 0x400A
def vmcsExitControls : UInt32 := 0x400C
def vmcsExitMsrStoreCount : UInt32 := 0x400E
def vmcsExitMsrLoadCount : UInt32 := 0x4010
def vmcsEntryControls : UInt32 := 0x4012
def vmcsEntryMsrLoadCount : UInt32 := 0x4014
def vmcsEntryInterruptInfo : UInt32 := 0x4016
def vmcsEntryInstructionLen : UInt32 := 0x401A

def vmcsVmInstructionError : UInt32 := 0x4400
def vmcsVmExitReason : UInt32 := 0x4402
def vmcsVmExitInstructionLen : UInt32 := 0x440C

def vmcsGuestEsLimit : UInt32 := 0x4800
def vmcsGuestCsLimit : UInt32 := 0x4802
def vmcsGuestSsLimit : UInt32 := 0x4804
def vmcsGuestDsLimit : UInt32 := 0x4806
def vmcsGuestFsLimit : UInt32 := 0x4808
def vmcsGuestGsLimit : UInt32 := 0x480A
def vmcsGuestLdtrLimit : UInt32 := 0x480C
def vmcsGuestTrLimit : UInt32 := 0x480E
def vmcsGuestGdtrLimit : UInt32 := 0x4810
def vmcsGuestIdtrLimit : UInt32 := 0x4812
def vmcsGuestEsAccessRights : UInt32 := 0x4814
def vmcsGuestCsAccessRights : UInt32 := 0x4816
def vmcsGuestSsAccessRights : UInt32 := 0x4818
def vmcsGuestDsAccessRights : UInt32 := 0x481A
def vmcsGuestFsAccessRights : UInt32 := 0x481C
def vmcsGuestGsAccessRights : UInt32 := 0x481E
def vmcsGuestLdtrAccessRights : UInt32 := 0x4820
def vmcsGuestTrAccessRights : UInt32 := 0x4822
def vmcsGuestInterruptibility : UInt32 := 0x4824
def vmcsGuestActivityState : UInt32 := 0x4826
def vmcsGuestSysenterCs : UInt32 := 0x482A

def vmcsHostSysenterCs : UInt32 := 0x4C00

def vmcsCr0GuestHostMask : UInt32 := 0x6000
def vmcsCr4GuestHostMask : UInt32 := 0x6004
def vmcsCr0ReadShadow : UInt32 := 0x6008
def vmcsCr4ReadShadow : UInt32 := 0x600A

def vmcsGuestCr0 : UInt32 := 0x6800
def vmcsGuestCr3 : UInt32 := 0x6802
def vmcsGuestCr4 : UInt32 := 0x6804
def vmcsGuestEsBase : UInt32 := 0x6806
def vmcsGuestCsBase : UInt32 := 0x6808
def vmcsGuestSsBase : UInt32 := 0x680A
def vmcsGuestDsBase : UInt32 := 0x680C
def vmcsGuestFsBase : UInt32 := 0x680E
def vmcsGuestGsBase : UInt32 := 0x6810
def vmcsGuestLdtrBase : UInt32 := 0x6812
def vmcsGuestTrBase : UInt32 := 0x6814
def vmcsGuestGdtrBase : UInt32 := 0x6816
def vmcsGuestIdtrBase : UInt32 := 0x6818
def vmcsGuestDr7 : UInt32 := 0x681A
def vmcsGuestRsp : UInt32 := 0x681C
def vmcsGuestRip : UInt32 := 0x681E
def vmcsGuestRflags : UInt32 := 0x6820
def vmcsGuestSysenterEsp : UInt32 := 0x6824
def vmcsGuestSysenterEip : UInt32 := 0x6826

def vmcsHostCr0 : UInt32 := 0x6C00
def vmcsHostCr3 : UInt32 := 0x6C02
def vmcsHostCr4 : UInt32 := 0x6C04
def vmcsHostFsBase : UInt32 := 0x6C06
def vmcsHostGsBase : UInt32 := 0x6C08
def vmcsHostTrBase : UInt32 := 0x6C0A
def vmcsHostGdtrBase : UInt32 := 0x6C0C
def vmcsHostIdtrBase : UInt32 := 0x6C0E
def vmcsHostSysenterEsp : UInt32 := 0x6C10
def vmcsHostSysenterEip : UInt32 := 0x6C12
def vmcsHostRsp : UInt32 := 0x6C14
def vmcsHostRip : UInt32 := 0x6C16

def ia32FeatureControlMsr : UInt32 := 0x3A
def ia32VmxBasicMsr : UInt32 := 0x480
def ia32VmxPinbasedCtlsMsr : UInt32 := 0x481
def ia32VmxProcbasedCtlsMsr : UInt32 := 0x482
def ia32VmxExitCtlsMsr : UInt32 := 0x483
def ia32VmxEntryCtlsMsr : UInt32 := 0x484

def exitReasonCpuid : UInt64 := 10

end HwMon
