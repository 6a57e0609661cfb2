import HwMon.Lib.Capped
import HwMon.Lib.Text

/-!
# The SMBIOS records

The records of `smbios.h`. Every default value is zero, so `{}` is the record
after `memset`. A `char` array is the string that it holds, and the array of
memory devices with its counter is a capped list.
-/

namespace HwMon
set_option autoImplicit false

def smbiosMaxMemoryDevices : Nat := 64

def smbiosStrMax : Nat := 64

instance : NeZero smbiosStrMax := ⟨by decide⟩

instance neZeroUuid : NeZero 37 := ⟨by decide⟩

structure SmbiosBiosInfo where
  available : Bool := false
  vendor : CStr smbiosStrMax := .empty
  version : CStr smbiosStrMax := .empty
  releaseDate : CStr smbiosStrMax := .empty
  deriving DecidableEq

structure SmbiosSystemInfo where
  available : Bool := false
  manufacturer : CStr smbiosStrMax := .empty
  product : CStr smbiosStrMax := .empty
  version : CStr smbiosStrMax := .empty
  serial : CStr smbiosStrMax := .empty
  uuidAvailable : Bool := false
  uuid : CStr 37 := .empty
  deriving DecidableEq

structure SmbiosBaseboardInfo where
  available : Bool := false
  manufacturer : CStr smbiosStrMax := .empty
  product : CStr smbiosStrMax := .empty
  version : CStr smbiosStrMax := .empty
  serial : CStr smbiosStrMax := .empty
  deriving DecidableEq

structure SmbiosChassisInfo where
  available : Bool := false
  chassisType : UInt8 := 0
  manufacturer : CStr smbiosStrMax := .empty
  serial : CStr smbiosStrMax := .empty
  deriving DecidableEq

structure SmbiosMemoryDevice where
  populated : Bool := false
  sizeMb : UInt32 := 0
  speedMts : UInt32 := 0
  configuredSpeedMts : UInt32 := 0
  memoryType : UInt8 := 0
  manufacturer : CStr smbiosStrMax := .empty
  partNumber : CStr smbiosStrMax := .empty
  serial : CStr smbiosStrMax := .empty
  locator : CStr smbiosStrMax := .empty
  deriving DecidableEq

structure SmbiosData where
  available : Bool := false
  majorVersion : UInt8 := 0
  minorVersion : UInt8 := 0
  bios : SmbiosBiosInfo := {}
  system : SmbiosSystemInfo := {}
  baseboard : SmbiosBaseboardInfo := {}
  chassis : SmbiosChassisInfo := {}
  memoryDevices : Capped SmbiosMemoryDevice smbiosMaxMemoryDevices := .empty
  structuresParsed : Nat := 0
  structuresMalformedSkipped : Nat := 0
  deriving DecidableEq

def SmbiosData.memoryDeviceCount (d : SmbiosData) : Nat := d.memoryDevices.count

end HwMon
