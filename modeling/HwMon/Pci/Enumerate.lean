import HwMon.Lib.Counted
import HwMon.Pci.ClassBounds
import HwMon.Pci.Tokens

/-!
# Enumerating the devices

`pci_enumerate`. The text buffers of an iteration keep what earlier iterations
left behind the bytes that are read into them; the properties end with a NUL, as
registry texts do, so no device depends on that. Entries behind a full array are
counted unseen.
-/

namespace HwMon
set_option autoImplicit false

def pciMaxDevices : Nat := 512

/-- `VEN_` -/
def venKey : List UInt8 := [86, 69, 78, 95]

/-- `DEV_` -/
def devKey : List UInt8 := [68, 69, 86, 95]

/-- `REV_` -/
def revKey : List UInt8 := [82, 69, 86, 95]

/-- A registry text that a buffer of `size` bytes can take. -/
structure RegText (size : Nat) where
  bytes : List UInt8
  ends : bytes.getLast? = some 0
  fits : bytes.length ≤ size
  deriving DecidableEq

/-- What the system answers for one device; none where a call fails. -/
structure PciEntry where
  hardwareId : Option (RegText 512)
  compatibleIds : Option (RegText 1024)
  busNumber : Option UInt32
  address : Option UInt32
  deviceDesc : Option (RegText 128)
  logConf : Option CmHandle
  resDes : List ResDes
  deriving DecidableEq

/-- The buffers `hwid_multi`, `compat_multi` and `desc`. -/
structure PciBuffers where
  hwidMulti : Mem
  compatMulti : Mem
  desc : Mem

structure PciEnumeration where
  devices : Capped PciDevice pciMaxDevices := .empty
  truncated : UInt32 := 0

/-- `get_registry_property_multi_sz` into a buffer. -/
def RegText.into {size : Nat} (text : RegText size) (buf : Mem) : Mem :=
  fun i => if i < text.bytes.length then text.bytes.getD i 0 else buf i

/-- The string at the start of a buffer. -/
def bufferString (buf : Mem) (size : Nat) : List UInt8 := (segment buf 0 size).takeWhile (· ≠ 0)

section Fields
variable (dev : PciDevice)

def PciDevice.withRevision (hwid : List UInt8) : PciDevice :=
  let rev := extractHexToken hwid revKey 0
  if rev.1 = true then { dev with revision := rev.2.toUInt8 } else dev

def PciDevice.withBus (busNumber : Option UInt32) : PciDevice :=
  match busNumber with
  | none => dev
  | some n => { dev with bus := n.toUInt8 }

def PciDevice.withAddress (address : Option UInt32) : PciDevice :=
  match address with
  | none => dev
  | some n =>
    { dev with device := ((n >>> 16) &&& 0xFF).toUInt8, function := (n &&& 0xFF).toUInt8 }

/-- The compatible IDs, with the buffer afterwards. -/
def PciDevice.withCompatible (ids : Option (RegText 1024)) (buf : Mem) : PciDevice × Mem :=
  match ids with
  | none => (dev, buf)
  | some ids =>
    (((extractClassCode (UInt64.ofNat ids.bytes.length) dev).val (ids.into buf)).2, ids.into buf)

/-- The description, with the buffer afterwards. -/
def PciDevice.withDescription (desc : Option (RegText 128)) (buf : Mem) : PciDevice × Mem :=
  match desc with
  | none => (dev, buf)
  | some desc =>
    if 0 < desc.bytes.length then
      ({ dev with description := .ofBytes (segment (desc.into buf) 0 128) }, desc.into buf)
    else (dev, desc.into buf)

end Fields

/-- The body of the loop for an entry that finds room: the device, if there is one, and
the buffers afterwards. -/
def enumerateEntry (sizes : ResSizes) (e : PciEntry) (bufs : PciBuffers) :
    Option PciDevice × PciBuffers :=
  match e.hardwareId with
  | none => (none, bufs)
  | some id =>
    let hwidMulti := id.into bufs.hwidMulti
    let hwid := bufferString hwidMulti 512
    let ven := extractHexToken hwid venKey 0
    let devid := extractHexToken hwid devKey 0
    if ven.1 = false ∨ devid.1 = false then (none, { bufs with hwidMulti })
    else
      let dev : PciDevice := { vendorId := ven.2.toUInt16, deviceId := devid.2.toUInt16 }
      let dev := dev.withRevision hwid
      let compat := dev.withCompatible e.compatibleIds bufs.compatMulti
      let dev := (compat.1.withBus e.busNumber).withAddress e.address
      let described := dev.withDescription e.deviceDesc bufs.desc
      let dev := (collectResources sizes e.logConf e.resDes described.1).1
      (some dev, { hwidMulti, compatMulti := compat.2, desc := described.2 })

/-- The loop over the entries that `SetupDiEnumDeviceInfo` hands out. -/
def enumerateLoop (sizes : ResSizes) :
    List PciEntry → PciBuffers → PciEnumeration → PciEnumeration
  | [], _, out => out
  | e :: entries, bufs, out =>
    if pciMaxDevices ≤ out.devices.count then
      enumerateLoop sizes entries bufs { out with truncated := out.truncated + 1 }
    else
      let body := enumerateEntry sizes e bufs
      match body.1 with
      | none => enumerateLoop sizes entries body.2 out
      | some dev => enumerateLoop sizes entries body.2 { out with devices := out.devices.push dev }

/-- The result and `*out`; none stands for `INVALID_HANDLE_VALUE`. -/
def pciEnumerate (sizes : ResSizes) (hdi : Option (List PciEntry)) (bufs : PciBuffers) :
    Bool × PciEnumeration :=
  match hdi with
  | none => (false, {})
  | some entries => (true, enumerateLoop sizes entries bufs {})

/-!
## What is left in the buffers does not matter
-/

section Texts
variable {size : Nat} (text : RegText size) (buf : Mem)

theorem RegText.segment_into {n : Nat} (hn : text.bytes.length ≤ n) :
    segment (text.into buf) 0 n = text.bytes ++
      segment (text.into buf) text.bytes.length (n - text.bytes.length) := by
  have hfront : segment (text.into buf) 0 text.bytes.length = text.bytes := by
    have hmem : segment (text.into buf) 0 text.bytes.length =
        segment (memOf text.bytes) 0 text.bytes.length := segment_congr fun i _ hi => by
      rw [Nat.zero_add] at hi
      exact if_pos hi
    rw [hmem, segment_memOf text.bytes 0 _ (Nat.zero_add _).le, List.drop_zero, List.take_length]
  have hsplit : n = text.bytes.length + (n - text.bytes.length) := by omega
  conv_lhs => rw [hsplit]
  rw [segment_add, hfront, Nat.zero_add]

theorem RegText.zero_mem : 0 ∈ text.bytes := List.mem_of_getLast? text.ends

/-- The string at the start of the buffer is the first string of the text. -/
theorem RegText.takeWhile_into {n : Nat} (hn : text.bytes.length ≤ n) :
    (segment (text.into buf) 0 n).takeWhile (· ≠ 0) = text.bytes.takeWhile (· ≠ 0) := by
  obtain ⟨t, u, hbytes, hz⟩ := List.eq_append_cons_of_mem text.zero_mem
  rw [text.segment_into buf hn, hbytes, List.append_assoc, List.cons_append,
    takeWhile_noNul hz, takeWhile_noNul hz]

theorem RegText.bufferString_into :
    bufferString (text.into buf) size = text.bytes.takeWhile (· ≠ 0) :=
  text.takeWhile_into buf text.fits

/-- A text that ends with a NUL has no last string without one. -/
theorem RegText.endsSettled : EndsSettled text.bytes := by
  intro ids t hdata _ hne ht
  have hlast := text.ends
  rw [hdata, List.getLast?_append_of_ne_nil _ hne] at hlast
  exact absurd (List.mem_of_getLast? hlast) ht

end Texts
end HwMon
