import Ts3100.Flash.Decoder
import Ts3100.Library.Descriptors
import Ts3100.Library.LabelledRuns

/-! # The 16450 UART on a unix socket

`Serial16450` maps a serial port to the clients of a unix socket. The guest reaches it through
`iowrite8` and `ioread8` on the vCPU's thread; the event loop's thread runs the accept handler, the
two timer handlers and `handleClientEvent`. All of them work on the registers, on the mask
`mEventFlags` and on the descriptors under one mutex, so a run is a sequence of their critical
sections, in any order the two threads and the peers allow: `step`, over the labels `Event`.

The state holds the device and what it shares with the kernel: the sockets of its clients, their
`epoll` registrations, the two timers, the interrupts raised, and what the event loop has in hand.
`due` and `returned` record what the guest wrote and read; no transition depends on them.

The event loop hands out one event for each `epoll_wait`: `n = epoll_wait(…) != -1` is 1. -/

namespace Ts3100

open Descriptors LabelledRuns

/-! ## Registers -/

/-- The eight register addresses. -/
inductive Register where
  | dataDivisorLowByte
  | interruptControlDivisorHighByte
  | interruptStatusFifoControl
  | lineControl
  | modemControl
  | lineStatus
  | modemStatus
  | scratchpad
  deriving DecidableEq, Repr

/-- `static_cast<Register>(address & 0x7)`. -/
def Register.ofAddress (address : BitVec 16) : Register :=
  match (address &&& 0x7#16).toNat with
  | 0 => .dataDivisorLowByte
  | 1 => .interruptControlDivisorHighByte
  | 2 => .interruptStatusFifoControl
  | 3 => .lineControl
  | 4 => .modemControl
  | 5 => .lineStatus
  | 6 => .modemStatus
  | _ => .scratchpad

/-- The registers, and the flags the others are made of. -/
structure Registers where
  receive : Byte := 0#8
  divisor : BitVec 16 := 0#16
  interruptControl : Byte := 0#8
  lineControl : Byte := 0#8
  modemControl : Byte := 0#8
  scratchpad : Byte := 0#8
  readable : Bool := false
  writable : Bool := false
  readInterruptFlag : Bool := false
  writeInterruptFlag : Bool := false
  readInterruptEnabled : Bool := false
  writeInterruptEnabled : Bool := false
  deriving DecidableEq, Repr

namespace Registers

/-- The divisor latch access bit. -/
def dlab (r : Registers) : Bool := r.lineControl &&& 0x80#8 != 0#8

/-- The nanoseconds of one character: `1600000000ULL * divisor / 18432ULL`. -/
def delay (r : Registers) : Nat := 1600000000 * r.divisor.toNat / 18432

/-- Some enabled interrupt condition is pending. -/
def interruptPending (r : Registers) : Bool :=
  (r.readInterruptEnabled && r.readInterruptFlag) ||
    (r.writeInterruptEnabled && r.writeInterruptFlag)

/-- The registers after a write to the interrupt enable register. -/
def enableInterrupts (r : Registers) (data : Byte) : Registers :=
  let interruptControl := data &&& 0x0f#8
  let readInterruptEnabled := interruptControl &&& 0x01#8 != 0#8
  let writeInterruptEnabled := interruptControl &&& 0x02#8 != 0#8
  { r with
    interruptControl
    readInterruptEnabled
    writeInterruptEnabled
    readInterruptFlag := if readInterruptEnabled then r.readable else r.readInterruptFlag
    writeInterruptFlag := if writeInterruptEnabled then r.writable else r.writeInterruptFlag }

/-- Registers that differ at most in what interrupts and readiness do not depend on. -/
structure SameFlags (r r' : Registers) : Prop where
  readable : r'.readable = r.readable
  writable : r'.writable = r.writable
  readInterruptFlag : r'.readInterruptFlag = r.readInterruptFlag
  writeInterruptFlag : r'.writeInterruptFlag = r.writeInterruptFlag
  readInterruptEnabled : r'.readInterruptEnabled = r.readInterruptEnabled
  writeInterruptEnabled : r'.writeInterruptEnabled = r.writeInterruptEnabled

end Registers

/-! ## State -/

/-- The two directions of the line, as the guest sees them. -/
inductive Direction where
  | read
  | write
  deriving DecidableEq, Repr

instance : Fintype Direction := ⟨{.read, .write}, fun d => by cases d <;> decide⟩

/-- What the event loop's thread is about to do. -/
inductive Handler where
  /-- `accept` a connection on the server socket -/
  | server
  /-- `read` the expired timer of a direction -/
  | timer (d : Direction)
  /-- take the lock and listen again, the timer having been read -/
  | listen (d : Direction)
  /-- `handleClientEvent(fd, events)` -/
  | client (fd : Nat) (events : EpollEvents)
  deriving DecidableEq, Repr

/-- The device together with the descriptors it owns. -/
structure Serial16450 where
  registers : Registers := {}
  mEventFlags : EpollEvents := { epollIn := true, epollOut := true, epollErr := true }
  /-- `fds.clients`, a `std::set<int>` -/
  clients : FdSet := FdSet.empty
  sockets : Nat → Socket Byte := fun _ => {}
  /-- the mask each descriptor is registered with -/
  interest : Nat → EpollEvents := fun _ => {}
  timers : Direction → Timer := fun _ => .idle
  /-- how often the interrupt has been triggered -/
  irq : Nat := 0
  inflight : Option Handler := none
  /-- what the guest has written while the client was connected -/
  due : Nat → List Byte := fun _ => []
  /-- what the guest has read from the receive buffer register -/
  returned : List Byte := []

/-- The mask's bit for a direction. -/
def listens (d : Direction) (events : EpollEvents) : Bool :=
  match d with
  | .read => events.epollIn
  | .write => events.epollOut

/-- The mask with the bit for a direction set to `on`. -/
def setListens (d : Direction) (on : Bool) (events : EpollEvents) : EpollEvents :=
  match d with
  | .read => { events with epollIn := on }
  | .write => { events with epollOut := on }

namespace Serial16450

/-! ## Interrupts and the event loop's handlers -/

/-- `triggerInterrupt`: one count on the interrupt's eventfd. -/
def triggerInterrupt (s : Serial16450) : Serial16450 := { s with irq := s.irq + 1 }

/-- `mEventLoop.modifyEvent(fd, mEventFlags)`. -/
def modifyEvent (s : Serial16450) (fd : Nat) : Serial16450 :=
  { s with interest := Function.update s.interest fd s.mEventFlags }

/-- `reloadEventLoop`: every client is registered with the current mask. -/
def reloadEventLoop (s : Serial16450) : Serial16450 :=
  { s with
    interest := s.clients.toList.foldl
      (fun interest fd => Function.update interest fd s.mEventFlags) s.interest }

/-- The `EPOLLIN` branch of `handleClientEvent`. -/
def handleReadable (s : Serial16450) : Serial16450 :=
  let s := { s with
    registers := { s.registers with readable := true, readInterruptFlag := true },
    mEventFlags := setListens .read false s.mEventFlags }
  if s.registers.readInterruptEnabled &&
      (!s.registers.writeInterruptEnabled || !s.registers.writeInterruptFlag) then
    s.triggerInterrupt
  else
    s

/-- The `EPOLLOUT` branch of `handleClientEvent`. -/
def handleWritable (s : Serial16450) : Serial16450 :=
  let s := { s with
    registers := { s.registers with writable := true, writeInterruptFlag := true },
    mEventFlags := setListens .write false s.mEventFlags }
  if s.registers.writeInterruptEnabled &&
      (!s.registers.readInterruptEnabled || !s.registers.readInterruptFlag) then
    s.triggerInterrupt
  else
    s

/-- `handleClientEvent`. -/
def handleClientEvent (s : Serial16450) (fd : Nat) (events : EpollEvents) : Serial16450 :=
  let s := if events.epollIn then s.handleReadable else s
  let s := if events.epollOut then s.handleWritable else s
  s.modifyEvent fd

/-- The accept handler, with the new client's descriptor and socket. -/
def acceptClient (s : Serial16450) (fd : Nat) (socket : Socket Byte) : Serial16450 :=
  { s with
    sockets := Function.update s.sockets fd socket
    interest := Function.update s.interest fd s.mEventFlags
    due := Function.update s.due fd []
    clients := s.clients.insert fd }

/-- The critical section of a timer's handler. -/
def listenAgain (s : Serial16450) (d : Direction) : Serial16450 :=
  { s with mEventFlags := setListens d true s.mEventFlags }.reloadEventLoop

/-! ## Guest accesses -/

/-- `timerfd_settime` on the timer of a direction with the delay of one character. -/
def startTimer (s : Serial16450) (d : Direction) : Serial16450 :=
  { s with timers := Function.update s.timers d ((s.timers d).settime s.registers.delay) }

/-- `write(fd, &data, 1)` for every client. -/
def writeClients (s : Serial16450) (data : Byte) : Serial16450 :=
  { s with
    sockets := s.clients.toList.foldl
      (fun sockets fd => Function.update sockets fd ((sockets fd).write data)) s.sockets }

/-- `read(fd, &registers.receive, 1)` for the clients in turn, up to the first that has a byte. -/
def readClients (s : Serial16450) : List Nat → Serial16450
  | [] => s
  | fd :: fds =>
      match (s.sockets fd).read with
      | some (data, socket) =>
          { s with
            sockets := Function.update s.sockets fd socket
            registers := { s.registers with receive := data } }
      | none => s.readClients fds

/-- A write to the transmit holding register. -/
def writeData (s : Serial16450) (data : Byte) : Serial16450 :=
  let s := s.writeClients data
  let s := { s with
    registers := { s.registers with writable := false, writeInterruptFlag := false } }
  s.startTimer .write

/-- A read of the receive buffer register. -/
def readData (s : Serial16450) : Serial16450 :=
  let s := s.readClients s.clients.toList
  let s := { s with
    registers := { s.registers with readable := false, readInterruptFlag := false } }
  s.startTimer .read

/-- A write to the interrupt enable register. -/
def writeInterruptControl (s : Serial16450) (data : Byte) : Serial16450 :=
  let registers := s.registers.enableInterrupts data
  -- the old enables are combined with the flags as they are after the write
  if (!s.registers.readInterruptEnabled || !registers.readInterruptFlag) &&
      (!s.registers.writeInterruptEnabled || !registers.writeInterruptFlag) &&
      registers.interruptPending then
    { s with registers }.triggerInterrupt
  else
    { s with registers }

/-- `iowrite8`. -/
def iowrite8 (s : Serial16450) (address : BitVec 16) (data : Byte) : Serial16450 :=
  match Register.ofAddress address with
  | .dataDivisorLowByte =>
      if !s.registers.dlab then
        s.writeData data
      else
        { s with registers :=
          { s.registers with divisor := s.registers.divisor.extractLsb' 8 8 ++ data } }
  | .interruptControlDivisorHighByte =>
      if !s.registers.dlab then
        s.writeInterruptControl data
      else
        { s with registers :=
          { s.registers with divisor := data ++ s.registers.divisor.extractLsb' 0 8 } }
  | .interruptStatusFifoControl => s
  | .lineControl => { s with registers := { s.registers with lineControl := data } }
  | .modemControl => { s with registers := { s.registers with modemControl := data &&& 0x1F#8 } }
  | .lineStatus => s
  | .modemStatus => s
  | .scratchpad => { s with registers := { s.registers with scratchpad := data } }

/-- The value and the effect of a read of the interrupt status register. -/
def readInterruptStatus (s : Serial16450) : Byte × Serial16450 :=
  if s.registers.readInterruptEnabled && s.registers.readInterruptFlag then
    (0x04#8, s)
  else if s.registers.writeInterruptEnabled && s.registers.writeInterruptFlag then
    (0x02#8, { s with registers := { s.registers with writeInterruptFlag := false } })
  else
    (0x01#8, s)

/-- The line status register. -/
def lineStatus (s : Serial16450) : Byte :=
  (if s.registers.writable then 0x60#8 else 0x00#8) |||
    (if s.registers.readable then 0x01#8 else 0x00#8)

/-- `ioread8`: the value read and the state after. -/
def ioread8 (s : Serial16450) (address : BitVec 16) : Byte × Serial16450 :=
  match Register.ofAddress address with
  | .dataDivisorLowByte =>
      if !s.registers.dlab then
        (s.readData.registers.receive, s.readData)
      else
        (s.registers.divisor.extractLsb' 0 8, s)
  | .interruptControlDivisorHighByte =>
      if !s.registers.dlab then
        (s.registers.interruptControl, s)
      else
        (s.registers.divisor.extractLsb' 8 8, s)
  | .interruptStatusFifoControl => s.readInterruptStatus
  | .lineControl => (s.registers.lineControl, s)
  | .modemControl => (s.registers.modemControl, s)
  | .lineStatus => (s.lineStatus, s)
  | .modemStatus => (0x00#8, s)
  | .scratchpad => (s.registers.scratchpad, s)

end Serial16450

end Ts3100
