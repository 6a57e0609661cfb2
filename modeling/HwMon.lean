import HwMon.Smbios.Malformed
import HwMon.Smbios.Records
import HwMon.Smbios.RoundTrip
import HwMon.Memory.Isolation
import HwMon.Acpi.Bounds
import HwMon.Acpi.Trust
import HwMon.Driver.Ecam
import HwMon.Lib.Chunks
import HwMon.Acpi.Decode
import HwMon.Acpi.Madt
import HwMon.Acpi.Collect
import HwMon.Acpi.Complete
import HwMon.Acpi.Irrelevant
import HwMon.Driver.Request
import HwMon.Lib.Trace
import HwMon.Driver.Trace
import HwMon.Driver.Completion
import HwMon.Pci.Resources
import HwMon.Pci.Handles
import HwMon.Smbios.Type17
import HwMon.Hv.Fields
import HwMon.Hv.Machine
import HwMon.Hv.Setup
import HwMon.Hv.Launch
import HwMon.Hv.Atomic
import HwMon.Hv.Guest
import HwMon.Memory.Ranges
import HwMon.Smbios.Lookup
import HwMon.Cpu.CpuId
import HwMon.Cpu.Topology
import HwMon.Cpu.Gating
import HwMon.Uefi.Acpi
import HwMon.Uefi.Trust
import HwMon.Uefi.Xsdt
import HwMon.Driver.ConfigPaths
import HwMon.Lib.Interleave
import HwMon.Driver.Concurrent
import HwMon.Hv.ExitHandler
import HwMon.Hv.ExitStack
import HwMon.Lib.Hex
import HwMon.Lib.Search
import HwMon.Lib.Best
import HwMon.Pci.ClassCode
import HwMon.Pci.ClassChoice
import HwMon.Pci.ClassBounds
import HwMon.Lib.Counted
import HwMon.Pci.Collected
import HwMon.Pci.Enumerate
import HwMon.Pci.Truncation
import HwMon.Pci.Identifiers
import HwMon.Storage.TrimCopy
import HwMon.Storage.QueryDevice
import HwMon.Hv.Controls
import HwMon.Hv.Segments
import HwMon.Hv.NullSelectors
import HwMon.Hv.HostState
import HwMon.Lib.Prefer
import HwMon.Uefi.ConfigTable
import HwMon.Memory.StructureEnd
import HwMon.Lib.Trim
import HwMon.Storage.Trimmed
import HwMon.Lib.Lines
import HwMon.Output.Logger
import HwMon.Output.LogLines
import HwMon.Lib.Mutex
import HwMon.Driver.Tasks
import HwMon.Driver.Mixed
import HwMon.Hv.GuestRun
import HwMon.Lib.Heap
import HwMon.Firmware.Platform
import HwMon.Memory.Bounds
import HwMon.Firmware.Collect
import HwMon.Acpi.RoundTrip
import HwMon.Storage.Enumerate
import HwMon.Uefi.MemoryMap
import HwMon.Uefi.CpuInfo
import HwMon.Cpu.Primitives
import HwMon.Lib.Words
import HwMon.Output.Features
import HwMon.Cpu.Telemetry
import HwMon.Lib.Printf
import HwMon.Output.Report
import HwMon.Output.Vouched
import HwMon.Output.Main
import HwMon.Driver.Lifetime
import HwMon.Uefi.SmbiosEntry
