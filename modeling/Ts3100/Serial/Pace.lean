import Ts3100.Serial.Runs

/-! # How readiness is handed on

A direction of the line is ready, or the event loop listens for the clients to become ready, or the
timer of the last character runs. Readiness travels between the three through the flag of the
direction, the mask and the masks of the clients, the timer and the event loop's thread: the `Pace`
of a state. `pace_step` says once what a step can do to it, and every result on readiness follows
from its cases. -/

namespace Ts3100

open Descriptors LabelledRuns

/-- The components that readiness is handed through. -/
@[ext]
structure Pace where
  ready : Direction → Bool
  mask : EpollEvents
  clients : FdSet
  interest : Nat → EpollEvents
  timers : Direction → Timer
  inflight : Option Handler

/-- The pace of a state. -/
def Serial16450.pace (s : Serial16450) : Pace where
  ready := s.ready
  mask := s.mEventFlags
  clients := s.clients
  interest := s.interest
  timers := s.timers
  inflight := s.inflight

namespace Pace

/-- The guest uses the data register of `d`: the flag falls and the timer is set. -/
def access (p : Pace) (d : Direction) (delay : Nat) : Pace :=
  { p with
    ready := Function.update p.ready d false
    timers := Function.update p.timers d ((p.timers d).settime delay) }

/-- A client is registered with the mask. -/
def accept (p : Pace) (fd : Nat) : Pace :=
  { p with
    clients := p.clients.insert fd
    interest := Function.update p.interest fd p.mask
    inflight := none }

/-- The timer of `d` is read. -/
def readTimer (p : Pace) (d : Direction) : Pace :=
  { p with
    timers := Function.update p.timers d (p.timers d).read
    inflight := some (.listen d) }

/-- The event loop listens again for `d`, at every client. -/
def listen (p : Pace) (d : Direction) : Pace :=
  { p with
    mask := setListens d true p.mask
    interest := fun fd => if fd ∈ p.clients then setListens d true p.mask else p.interest fd
    inflight := none }

/-- The mask after a client's events: a direction that was reported is not listened for. -/
def maskAfter (p : Pace) (events : EpollEvents) : EpollEvents :=
  { p.mask with
    epollIn := p.mask.epollIn && !events.epollIn
    epollOut := p.mask.epollOut && !events.epollOut }

/-- A client's events: the directions reported are ready, and that client alone is registered with
the new mask. -/
def handle (p : Pace) (fd : Nat) (events : EpollEvents) : Pace :=
  { p with
    ready := fun d => p.ready d || listens d events
    mask := p.maskAfter events
    interest := Function.update p.interest fd (p.maskAfter events)
    inflight := none }

end Pace

/-- What one step, with its label, can do to the pace of a state. -/
inductive PaceStep (s : Serial16450) : Event → Pace → Prop where
  | rest {e : Event} (hnone : s.accesses e = none) : PaceStep s e s.pace
  | access {e : Event} {d : Direction} (hd : s.accesses e = some d) :
      PaceStep s e (s.pace.access d s.registers.delay)
  | wait {handler : Handler} (hidle : s.inflight = none) (hreports : s.Reports handler) :
      PaceStep s (.wait handler) { s.pace with inflight := some handler }
  | acceptFails (hserver : s.inflight = some .server) :
      PaceStep s (.accept none) { s.pace with inflight := none }
  | accept {c : Connection} (hserver : s.inflight = some .server) (hfresh : c.fd ∉ s.clients) :
      PaceStep s (.accept (some c)) (s.pace.accept c.fd)
  | readTimer {d : Direction} (htimer : s.inflight = some (.timer d)) :
      PaceStep s .dispatch (s.pace.readTimer d)
  | listen {d : Direction} (hlisten : s.inflight = some (.listen d)) :
      PaceStep s .dispatch (s.pace.listen d)
  | handle {fd : Nat} {events : EpollEvents} (hclient : s.inflight = some (.client fd events)) :
      PaceStep s .dispatch (s.pace.handle fd events)
  | expires {d : Direction} {nsec : Nat} (harmed : s.timers d = .armed nsec) :
      PaceStep s (.timerExpires d)
        { s.pace with timers := Function.update s.timers d .expired }

namespace Serial16450

variable {s s' : Serial16450} {e : Event}

/-- The pace does not depend on the registers beyond the two flags. -/
theorem pace_registers {registers : Registers} (hreadable : registers.readable = s.registers.readable)
    (hwritable : registers.writable = s.registers.writable) :
    Serial16450.pace { s with registers } = s.pace := by
  have hready : Serial16450.ready { s with registers } = s.ready := by
    funext d
    cases d with
    | read => exact hreadable
    | write => exact hwritable
  simp only [pace, hready]

/-- A write to the transmit holding register. -/
theorem pace_writeData (s : Serial16450) (data : Byte) (due : Nat → List Byte) :
    Serial16450.pace { s.writeData data with due } = s.pace.access .write s.registers.delay := by
  rw [writeData, writeClients_eq]
  refine Pace.ext (funext fun d => ?_) rfl rfl rfl rfl rfl
  cases d <;> rfl

/-- A read of the receive buffer register. -/
theorem pace_readData (s : Serial16450) (returned : List Byte) :
    Serial16450.pace { s.readData with returned } = s.pace.access .read s.registers.delay := by
  rw [readData, readClients_eq]
  refine Pace.ext (funext fun d => ?_) rfl rfl rfl rfl rfl
  cases d <;> rfl

/-- Writing the interrupt enable register leaves the pace. -/
theorem pace_writeInterruptControl (s : Serial16450) (data : Byte) :
    (s.writeInterruptControl data).pace = s.pace := by
  have hregisters : Serial16450.pace { s with registers := s.registers.enableInterrupts data }
      = s.pace := pace_registers rfl rfl
  unfold writeInterruptControl
  dsimp only
  split <;> exact hregisters

/-- So does reading the interrupt status. -/
theorem pace_readInterruptStatus (s : Serial16450) : s.readInterruptStatus.2.pace = s.pace := by
  unfold readInterruptStatus
  split
  · rfl
  · split
    · exact pace_registers rfl rfl
    · rfl

/-- The `EPOLLIN` branch in one piece. -/
theorem handleReadable_eq (s : Serial16450) : s.handleReadable =
    { s with
      registers := { s.registers with readable := true, readInterruptFlag := true }
      mEventFlags := setListens .read false s.mEventFlags
      irq := if s.registers.readInterruptEnabled &&
          (!s.registers.writeInterruptEnabled || !s.registers.writeInterruptFlag) then
        s.irq + 1
      else
        s.irq } := by
  unfold handleReadable
  dsimp only
  split
  · rfl
  · rfl

/-- The `EPOLLOUT` branch in one piece. -/
theorem handleWritable_eq (s : Serial16450) : s.handleWritable =
    { s with
      registers := { s.registers with writable := true, writeInterruptFlag := true }
      mEventFlags := setListens .write false s.mEventFlags
      irq := if s.registers.writeInterruptEnabled &&
          (!s.registers.readInterruptEnabled || !s.registers.readInterruptFlag) then
        s.irq + 1
      else
        s.irq } := by
  unfold handleWritable
  dsimp only
  split
  · rfl
  · rfl

/-- The handler of a client's events in one piece. -/
theorem handleClientEvent_eq (s : Serial16450) (fd : Nat) (events : EpollEvents) :
    s.handleClientEvent fd events = { s with
      registers := { s.registers with
        readable := s.registers.readable || events.epollIn
        writable := s.registers.writable || events.epollOut
        readInterruptFlag := s.registers.readInterruptFlag || events.epollIn
        writeInterruptFlag := s.registers.writeInterruptFlag || events.epollOut }
      mEventFlags := s.pace.maskAfter events
      interest := Function.update s.interest fd (s.pace.maskAfter events)
      irq := (s.handleClientEvent fd events).irq } := by
  unfold handleClientEvent
  cases hin : events.epollIn <;> cases hout : events.epollOut
  · simp [modifyEvent, Pace.maskAfter, pace, hin, hout]
  · simp [modifyEvent, Pace.maskAfter, pace, hin, hout, handleWritable_eq, setListens]
  · simp [modifyEvent, Pace.maskAfter, pace, hin, hout, handleReadable_eq, setListens]
  · simp [modifyEvent, Pace.maskAfter, pace, hin, hout, handleReadable_eq, handleWritable_eq,
      setListens]

/-- The handler of a client's events. -/
theorem pace_handleClientEvent (s : Serial16450) (fd : Nat) (events : EpollEvents) :
    Serial16450.pace { s.handleClientEvent fd events with inflight := none }
      = s.pace.handle fd events := by
  rw [handleClientEvent_eq]
  refine Pace.ext (funext fun d => ?_) rfl rfl rfl rfl rfl
  cases d <;> rfl

/-- **The pace of a step.** -/
theorem pace_step (h : s.step e = some s') : PaceStep s e s'.pace := by
  cases step_cases h with
  | writeData hd =>
      rw [pace_writeData]
      exact .access hd
  | writeInterruptControl hnone =>
      rw [pace_writeInterruptControl]
      exact .rest hnone
  | setup hnone _ hsame =>
      rw [pace_registers hsame.readable hsame.writable]
      exact .rest hnone
  | readData hd =>
      rw [pace_readData]
      exact .access hd
  | readInterruptStatus hnone =>
      rw [pace_readInterruptStatus]
      exact .rest hnone
  | readOther hnone => exact .rest hnone
  | wait hidle hreports => exact .wait hidle hreports
  | acceptFails hserver => exact .acceptFails hserver
  | accept hserver hfresh => exact .accept hserver hfresh
  | readTimer htimer => exact .readTimer htimer
  | listen hlisten =>
      rw [listenAgain, reloadEventLoop_eq]
      exact .listen hlisten
  | handle hclient =>
      rw [pace_handleClientEvent]
      exact .handle hclient
  | expires harmed => exact .expires harmed
  | sends | hangsUp | drains => exact .rest rfl

end Serial16450

end Ts3100
