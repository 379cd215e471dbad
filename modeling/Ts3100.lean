import Ts3100.Library.LabelledRuns
import Ts3100.Library.Traces
import Ts3100.Library.BlockStore
import Ts3100.Library.RealMode.StringMove
import Ts3100.Library.RealMode.Services
import Ts3100.Kvm.MemorySlots
import Ts3100.Flash.Commands
import Ts3100.Flash.MmioExit
import Ts3100.Serial.Interrupts
import Ts3100.Serial.Consistency
import Ts3100.Serial.Transmit
import Ts3100.Serial.Receive
import Ts3100.Timer.Counting
import Ts3100.Timer.Latches
import Ts3100.Timer.Reloads
import Ts3100.Timer.Decimal
import Ts3100.Timer.Readings
import Ts3100.Timer.Prescaler
import Ts3100.EventLoop.Dispatch
import Ts3100.EventLoop.Agreement
import Ts3100.EventLoop.Ownership
import Ts3100.Pio.AddressRange
import Ts3100.Pio.Accesses
import Ts3100.Pio.Routing
import Ts3100.Kvm.Contents
import Ts3100.Kvm.RomScan
import Ts3100.Kvm.DiskWindow
import Ts3100.Kvm.PortExits
import Ts3100.Kvm.GuestMemory
import Ts3100.Kvm.MainLoop
import Ts3100.Kvm.Disassembler
import Ts3100.Serial.Cleanup
import Ts3100.Disk.Coherence
import Ts3100.Disk.Boot
import Ts3100.Disk.Sessions
import Ts3100.Disk.Geometry
import Ts3100.Disk.Forwarding
import Ts3100.Serial.RegisterFile
import Ts3100.Disk.RegisterAccess
import Ts3100.Disk.Increment
import Ts3100.Rtc.Alarms
import Ts3100.Rtc.Nvram
import Ts3100.Rtc.Clock
import Ts3100.Pio.ChipSelect
import Ts3100.Timer.ByteSelect
import Ts3100.Library.Digits
import Ts3100.Library.RealMode.Output386
import Ts3100.StringFormat.Documented
import Ts3100.Tools.FlashBlocks
