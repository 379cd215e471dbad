import Ts3100.Kvm.MainLoop
import Ts3100.Pio.Accesses

/-! # The port devices are independent

Each port belongs to one device or handler, and each of these has its own part of the system's state.
This file gives every part on its own, with what an access does to it, and shows that the dispatch
of an exit is that access on the part of its port and nothing on the others. Over runs of the main
loop, what becomes of a part, and what the guest reads from it, is what the accesses to its own
ports give alone (`independent_of_run`).

* `PioPart.access` — an access to a part alone.
* `PioPart.routes_of_dispatch` — what the dispatch of an exit does to a part.
* `PioPart.part` — the part as a part of the main loop, in the sense of `LabelledRuns.Part`. -/

namespace Ts3100

open LabelledRuns

/-! ## Parts of the system -/

/-- The parts of the system that have a state. -/
inductive PioPart where
  | prescaler
  | com (i : Fin 4)
  | csu (i : Fin 8)
  | rtc
  | timerConfiguration
  | a20Gate
  | diskRegisters
  deriving DecidableEq, Repr

namespace PioPart

/-- The state of a part. -/
def State : PioPart → Type
  | .prescaler => ClockPrescaler
  | .com _ => Serial16450
  | .csu _ => ChipSelectUnit
  | .rtc => DS12887
  | .timerConfiguration => Byte
  | .a20Gate => Byte
  | .diskRegisters => DiskRegisters

/-- The part in the system. -/
def view (s : PioSystem) : (p : PioPart) → p.State
  | .prescaler => s.prescaler
  | .com i => s.com i
  | .csu i => s.csus i
  | .rtc => s.rtc
  | .timerConfiguration => s.timerConfiguration
  | .a20Gate => s.a20register
  | .diskRegisters => s.disk

/-- The part behind a device. -/
def ofDevice : PioDevice → Option PioPart
  | .prescaler => some .prescaler
  | .com i => some (.com i)
  | .hexDisplay => none
  | .csu i => some (.csu i)
  | .rtc => some .rtc

/-- The part behind a handler. -/
def ofHandler : IoHandler → Option PioPart
  | .timerConfiguration => some .timerConfiguration
  | .a20Gate => some .a20Gate
  | .diskRegisters => some .diskRegisters
  | _ => none

/-- The part behind a port, if there is one. -/
def ofPort (port : BitVec 16) : Option PioPart :=
  match PioTarget.ofPort port with
  | .device d => ofDevice d
  | .handler h => ofHandler h

/-! ## Accesses to a part alone -/

/-- An access to a device. -/
def deviceAccess {σ : Type} (d : DevicePio σ) (s : σ) (exit : IoExit) :
    Except PioFault (σ × List Byte) :=
  if exit.count = 1 then
    d.performKVMExitOperation s exit.isWrite exit.port exit.data exit.size
  else
    .error .assertionFailed

/-- An access to a register of one byte. -/
def byteAccess (value : Byte) (exit : IoExit) : Except PioFault (Byte × List Byte) :=
  if exit.size = 1 ∧ exit.count = 1 then
    .ok (if exit.isWrite then (exit.data.getD 0 0#8, exit.data) else (value, exit.data.set 0 value))
  else
    .error .assertionFailed

/-- An access to the disk's registers. -/
def diskAccess (disk : DiskRegisters) (exit : IoExit) :
    Except PioFault (DiskRegisters × List Byte) :=
  match handlerDiskRegisters exit.isWrite exit.port exit.data exit.count disk with
  | .ok result => .ok result
  | .error .assertionFailed => .error .assertionFailed
  | .error .copyOutOfBounds => .error .copyOutOfBounds

/-- An access to a part alone, at the time `tm`. -/
def access (tm : CalendarTime) :
    (p : PioPart) → p.State → IoExit → Except PioFault (p.State × List Byte)
  | .prescaler, d, exit => deviceAccess ClockPrescaler.pio d exit
  | .com _, d, exit => deviceAccess Serial16450.pio d exit
  | .csu _, d, exit => deviceAccess ChipSelectUnit.pio d exit
  | .rtc, d, exit => deviceAccess (DS12887.pio tm) d exit
  | .timerConfiguration, value, exit => byteAccess value exit
  | .a20Gate, value, exit => byteAccess value exit
  | .diskRegisters, disk, exit => diskAccess disk exit

/-! ## Dispatch -/

section dispatch

variable {tm : CalendarTime} {s s' : PioSystem} {exit : IoExit} {data : List Byte}

/-- What the dispatch to a device leaves, in terms of the device alone. -/
theorem handleIo_lift {d : PioDevice} {σ : Type} {dev : DevicePio σ} {get : PioSystem → σ}
    {set : PioSystem → σ → PioSystem} (hport : PioTarget.ofPort exit.port = .device d)
    (hdev : d.pio tm = dev.lift get set) (hdispatch : exit.dispatch tm s = .ok (s', data)) :
    ∃ x, deviceAccess dev (get s) exit = .ok (x, data) ∧ s' = set s x := by
  rw [IoExit.dispatch, handleIo, hport] at hdispatch
  dsimp only at hdispatch
  split at hdispatch
  · rename_i hcount
    rw [hdev, DevicePio.performKVMExitOperation_lift] at hdispatch
    rw [deviceAccess, if_pos hcount]
    cases hperform : dev.performKVMExitOperation (get s) exit.isWrite exit.port exit.data
        exit.size with
    | error fault => simp [hperform, Except.map] at hdispatch
    | ok r =>
        obtain ⟨x, data'⟩ := r
        rw [hperform] at hdispatch
        obtain ⟨rfl, rfl⟩ := Prod.mk.inj (Except.ok.inj hdispatch)
        exact ⟨x, rfl, rfl⟩
  · cases hdispatch

/-- What a handler of single bytes leaves. -/
theorem oneByteHandler_ok {value : Option Byte} {written : PioSystem} {isWrite : Bool}
    {data data' : List Byte} {length count : Nat}
    (h : oneByteHandler s isWrite data length count value written = .ok (s', data')) :
    (length = 1 ∧ count = 1) ∧ s' = (if isWrite then written else s) ∧
      data' = if isWrite then data else (value.map (data.set 0)).getD data := by
  unfold oneByteHandler at h
  split at h
  · rename_i hone
    cases isWrite with
    | false =>
        obtain ⟨rfl, rfl⟩ := Prod.mk.inj (Except.ok.inj h)
        exact ⟨hone, rfl, rfl⟩
    | true =>
        obtain ⟨rfl, rfl⟩ := Prod.mk.inj (Except.ok.inj h)
        exact ⟨hone, rfl, rfl⟩
  · cases h

/-- What the dispatch of an exit does to a part: an access to the part alone where the port is its
own, nothing elsewhere. -/
def Routes (tm : CalendarTime) (s s' : PioSystem) (exit : IoExit) (data : List Byte) (p : PioPart) :
    Prop :=
  if ofPort exit.port = some p then p.access tm (p.view s) exit = .ok (p.view s', data)
  else p.view s' = p.view s

/-- A dispatch to a part `q`, which leaves the others alone. -/
theorem routes_of_part {q : PioPart} (hq : ofPort exit.port = some q)
    (hown : q.access tm (q.view s) exit = .ok (q.view s', data))
    (hother : ∀ p, p ≠ q → p.view s' = p.view s) (p : PioPart) : Routes tm s s' exit data p := by
  unfold Routes
  split
  · rename_i hp
    obtain rfl := Option.some.inj (hq.symm.trans hp)
    exact hown
  · rename_i hp
    exact hother p fun h => hp (h ▸ hq)

/-- A dispatch that goes to no part. -/
theorem routes_of_none (hnone : ofPort exit.port = none) (hsame : s' = s) (p : PioPart) :
    Routes tm s s' exit data p := by
  unfold Routes
  rw [hnone, if_neg (Option.some_ne_none p).symm, hsame]

/-- The dispatch to a device. -/
theorem routes_of_device {d : PioDevice} (hport : PioTarget.ofPort exit.port = .device d)
    (hdispatch : exit.dispatch tm s = .ok (s', data)) (p : PioPart) :
    Routes tm s s' exit data p := by
  have hpart : ofPort exit.port = ofDevice d := by rw [ofPort, hport]
  -- a device among several of its kind is one entry of its array
  cases d with
  | prescaler =>
      obtain ⟨x, hx, rfl⟩ := handleIo_lift hport rfl hdispatch
      refine routes_of_part hpart ?_ ?_ p
      · exact hx
      · intro p hp
        cases p <;> first | rfl | exact absurd rfl hp
  | rtc =>
      obtain ⟨x, hx, rfl⟩ := handleIo_lift hport rfl hdispatch
      refine routes_of_part hpart ?_ ?_ p
      · exact hx
      · intro p hp
        cases p <;> first | rfl | exact absurd rfl hp
  | hexDisplay =>
      obtain ⟨x, -, rfl⟩ := handleIo_lift hport rfl hdispatch
      exact routes_of_none hpart rfl p
  | com i =>
      obtain ⟨x, hx, rfl⟩ := handleIo_lift hport rfl hdispatch
      refine routes_of_part hpart ?_ ?_ p
      · show deviceAccess Serial16450.pio (s.com i) exit = .ok (Function.update s.com i x i, data)
        rw [Function.update_self]
        exact hx
      · intro p hp
        cases p with
        | com j => exact Function.update_of_ne (fun h => hp (congrArg PioPart.com h)) _ _
        | _ => rfl
  | csu i =>
      obtain ⟨x, hx, rfl⟩ := handleIo_lift hport rfl hdispatch
      refine routes_of_part hpart ?_ ?_ p
      · show deviceAccess ChipSelectUnit.pio (s.csus i) exit =
          .ok (Function.update s.csus i x i, data)
        rw [Function.update_self]
        exact hx
      · intro p hp
        cases p with
        | csu j => exact Function.update_of_ne (fun h => hp (congrArg PioPart.csu h)) _ _
        | _ => rfl

/-- The dispatch to a handler. -/
theorem routes_of_handler {h : IoHandler} (hport : PioTarget.ofPort exit.port = .handler h)
    (hdispatch : exit.dispatch tm s = .ok (s', data)) (p : PioPart) :
    Routes tm s s' exit data p := by
  have hpart : ofPort exit.port = ofHandler h := by rw [ofPort, hport]
  rw [IoExit.dispatch, handleIo_handler hport] at hdispatch
  -- a register of one byte is its handler's part
  have hbyte {value : Byte} (hone : exit.size = 1 ∧ exit.count = 1)
      (hdata : data = if exit.isWrite then exit.data else exit.data.set 0 value) :
      byteAccess value exit =
        .ok (if exit.isWrite then exit.data.getD 0 0#8 else value, data) := by
    rw [byteAccess, if_pos hone, hdata]
    cases exit.isWrite <;> rfl
  cases h with
  | a20Gate =>
      obtain ⟨hone, rfl, hdata⟩ := oneByteHandler_ok hdispatch
      refine routes_of_part hpart ?_ ?_ p
      · refine (hbyte hone hdata).trans ?_
        cases exit.isWrite <;> rfl
      · intro p hp
        cases p <;> cases exit.isWrite <;> first | rfl | exact absurd rfl hp
  | timerConfiguration =>
      obtain ⟨hone, rfl, hdata⟩ := oneByteHandler_ok hdispatch
      refine routes_of_part hpart ?_ ?_ p
      · refine (hbyte hone hdata).trans ?_
        cases exit.isWrite <;> rfl
      · intro p hp
        cases p <;> cases exit.isWrite <;> first | rfl | exact absurd rfl hp
  | diskRegisters =>
      simp only [IoHandler.handle, handleDiskRegisters] at hdispatch
      split at hdispatch
      · rename_i disk data' hdisk
        obtain ⟨rfl, rfl⟩ := Prod.mk.inj (Except.ok.inj hdispatch)
        refine routes_of_part hpart ?_ ?_ p
        · show diskAccess s.disk exit = _
          rw [diskAccess, hdisk]
          rfl
        · intro p hp
          cases p <;> first | rfl | exact absurd rfl hp
      · cases hdispatch
      · cases hdispatch
  -- the others have no state
  | keyboard | lcd =>
      obtain ⟨rfl, -⟩ := Prod.mk.inj (Except.ok.inj hdispatch)
      exact routes_of_none hpart rfl p
  | unhandled =>
      simp only [IoHandler.handle, handlerUnhandled] at hdispatch
      split at hdispatch
      all_goals
        obtain ⟨rfl, -⟩ := Prod.mk.inj (Except.ok.inj hdispatch)
        exact routes_of_none hpart rfl p
  | productCode | optionCode | jumperRegister | postCode | manufacturerSpecific | port1Pin
    | port3Pin =>
      obtain ⟨-, hsame, -⟩ := oneByteHandler_ok hdispatch
      rw [ite_self] at hsame
      exact routes_of_none hpart hsame p

/-- **Routing.** An exit is an access to the part of its port, and leaves every other part alone. -/
theorem routes_of_dispatch (hdispatch : exit.dispatch tm s = .ok (s', data)) (p : PioPart) :
    Routes tm s s' exit data p := by
  cases hport : PioTarget.ofPort exit.port with
  | device d => exact routes_of_device hport hdispatch p
  | handler h => exact routes_of_handler hport hdispatch p

end dispatch

/-! ## Runs of the main loop -/

/-- What the main loop does to the part after an exit: it serves a request to remap the disk. -/
def settle : (p : PioPart) → p.State → p.State
  | .diskRegisters, disk => ({ disk with updateDiskMapping := false } : DiskRegisters)
  | .prescaler, d => d
  | .com _, d => d
  | .csu _, d => d
  | .rtc, d => d
  | .timerConfiguration, value => value
  | .a20Gate, value => value

/-- What the event loop's thread does to the part. -/
def background (ports : Fin 4 → Serial16450) : (p : PioPart) → p.State → p.State
  | .com i, _ => ports i
  | .prescaler, d => d
  | .csu _, d => d
  | .rtc, d => d
  | .timerConfiguration, value => value
  | .a20Gate, value => value
  | .diskRegisters, disk => disk

/-- The events that touch the part: exits for its ports, and for a serial port those of the event
loop's thread. -/
def touches (p : PioPart) : LoopEvent → Bool
  | .run _ _ (.io exit) => ofPort exit.port = some p
  | .background _ =>
      match p with
      | .com _ => true
      | _ => false
  | _ => false

/-- An event on the part alone, and what it leaves for the guest. -/
def partStep (p : PioPart) (d : p.State) : LoopEvent → Option (List Byte × p.State)
  | .run tm _ (.io exit) => (p.access tm d exit).toOption.map fun r => (r.2, p.settle r.1)
  | .background ports => some ([], p.background ports d)
  | _ => some ([], d)

/-- Settled disk registers stay as they are. -/
theorem settle_view {s : PioSystem} (hidle : s.disk.updateDiskMapping = false) (p : PioPart) :
    p.settle (p.view s) = p.view s := by
  cases p with
  | diskRegisters =>
      show ({ s.disk with updateDiskMapping := false } : DiskRegisters) = s.disk
      rw [← hidle]
  | _ => rfl

/-- The settled part of a system with a request. -/
theorem view_settled (s : PioSystem) (p : PioPart) :
    p.view { s with disk.updateDiskMapping := false } = p.settle (p.view s) := by
  cases p <;> rfl

section runs

variable {host : HostPointers} {e e' : Emulator} {event : LoopEvent} {data : List Byte}

/-- What a port exit leaves of the port devices. -/
theorem view_handlePort (h : e.Sound host) {tm : CalendarTime} {page : Nat} {exit : IoExit}
    (hhandle : e.handlePort host tm page exit = .ok (data, e')) :
    ∃ pio, exit.dispatch tm e.port.pio = .ok (pio, data) ∧
      ∀ p : PioPart, p.view e'.port.pio = p.settle (p.view pio) := by
  cases hdispatch : exit.dispatch tm e.port.pio with
  | error fault => simp [Emulator.handlePort, hdispatch] at hhandle
  | ok result =>
      obtain ⟨pio, data'⟩ := result
      cases hrequested : pio.disk.updateDiskMapping with
      | false =>
          obtain ⟨port, hport, -, hpio, -⟩ :=
            Emulator.handlePort_idle h page hdispatch hrequested
          rw [hport] at hhandle
          obtain ⟨rfl, rfl⟩ := Prod.mk.inj (Except.ok.inj hhandle)
          refine ⟨pio, rfl, fun p => ?_⟩
          rw [settle_view hrequested, ← hpio]
      | true =>
          -- the loop has not ended, so the page was mapped
          have hcases := Emulator.handlePort_requested h page hdispatch hrequested
          split at hcases
          · obtain ⟨port, hport, -, hpio, -⟩ := hcases
            rw [hport] at hhandle
            obtain ⟨rfl, rfl⟩ := Prod.mk.inj (Except.ok.inj hhandle)
            refine ⟨pio, rfl, fun p => ?_⟩
            show p.view port.pio = _
            rw [hpio, view_settled]
          · rw [hcases] at hhandle
            cases hhandle

/-- An event that touches the part. -/
theorem partStep_of_touches (p : PioPart) (h : e.Sound host)
    (hanswer : e.answer host event = some (data, e')) (htouches : p.touches event = true) :
    p.partStep (p.view e.port.pio) event = some (data, p.view e'.port.pio) := by
  cases event with
  | store | sigint => cases htouches
  | background ports =>
      obtain ⟨rfl, rfl⟩ := Prod.mk.inj (Option.some.inj hanswer)
      cases p <;> rfl
  | run tm page run =>
      cases run with
      | io exit =>
          obtain ⟨hhandle, -⟩ := Emulator.answer_run hanswer
          obtain ⟨pio, hdispatch, hview⟩ := view_handlePort h hhandle
          have hroutes := routes_of_dispatch hdispatch p
          rw [Routes, if_pos (by simpa [touches] using htouches)] at hroutes
          rw [partStep, hroutes, hview]
          rfl
      | _ => cases htouches

/-- An event that does not. -/
theorem view_of_not_touches (p : PioPart) (h : e.Sound host)
    (hanswer : e.answer host event = some (data, e')) (htouches : p.touches event = false) :
    p.view e'.port.pio = p.view e.port.pio := by
  cases event with
  | store | sigint =>
      obtain ⟨-, rfl⟩ := Prod.mk.inj (Option.some.inj hanswer)
      rfl
  | background ports =>
      obtain ⟨-, rfl⟩ := Prod.mk.inj (Option.some.inj hanswer)
      cases p <;> first | rfl | cases htouches
  | run tm page run =>
      obtain ⟨hhandle, -⟩ := Emulator.answer_run hanswer
      cases run with
      | interrupted | debug | hlt =>
          obtain ⟨-, rfl⟩ := Prod.mk.inj (Except.ok.inj hhandle)
          rfl
      | failed | unhandled => cases hhandle
      | mmio exit =>
          rw [Emulator.handleRun, Emulator.handleFlash_eq] at hhandle
          obtain ⟨-, rfl⟩ := Prod.mk.inj (Except.ok.inj hhandle)
          rfl
      | io exit =>
          obtain ⟨pio, hdispatch, hview⟩ := view_handlePort h hhandle
          have hroutes := routes_of_dispatch hdispatch p
          rw [Routes, if_neg (by simpa [touches] using htouches)] at hroutes
          rw [hview, hroutes]
          exact settle_view h.follow.noUpdate p

/-- The part of the main loop. -/
def part (host : HostPointers) (p : PioPart) :
    Part (Emulator.answer host) (Emulator.Sound host) p.State where
  view e := p.view e.port.pio
  touches := p.touches
  partStep := p.partStep
  own _ _ _ _ h hanswer htouches := partStep_of_touches p h hanswer htouches
  other _ _ _ _ h hanswer htouches := view_of_not_touches p h hanswer htouches

variable {ram : Fin 114 → Byte} {pages : Finset Nat} {flash memory image : Nat → Byte}

/-- **The port devices are independent.** In every run of the main loop, what becomes of a device or
register and what the guest reads from it are what the accesses to its own ports, and for a serial
port the event loop's changes to it, give alone, whatever is done to other ports, to memory or to the
emulator in between. -/
theorem independent_of_run (h : HostReady host pages) (events : List LoopEvent)
    (answers : List (List Byte))
    (htrace : trace (Emulator.answer host) (.boot host ram pages flash memory image) events =
      some (answers, e)) (p : PioPart) :
    trace p.partStep (p.view (.init ram)) (events.filter p.touches) =
      some (((events.zip answers).filter fun x => p.touches x.1).map Prod.snd,
        p.view e.port.pio) :=
  (p.part host).trace (fun _ _ _ _ hsound hanswer => (Emulator.sound_answer hsound hanswer).1)
    (Emulator.sound_boot h) htrace

/-- The clock's memory is written and read, with accesses to the first serial port and a store
to memory in between. -/
def clockAndPort : List LoopEvent :=
  [.run newYear 0 (.io (.byte true 0x70#16 0x20#8)),
   .run newYear 0 (.io (.byte true 0x3ff#16 0x77#8)),
   .store 0x500 0x11#8,
   .run newYear 0 (.io (.byte true 0x71#16 0x5A#8)),
   .run newYear 0 (.io (.byte false 0x3ff#16 0#8)),
   .run newYear 0 (.io (.byte false 0x71#16 0#8))]

/-- The clock's part of that run, and the serial port's. -/
theorem independent_of_run_clock :
    ∃ e, trace (Emulator.answer sampleHost) Emulator.sampleBoot clockAndPort =
        some ([[0x20#8], [0x77#8], [], [0x5A#8], [0x77#8], [0x5A#8]], e) ∧
      trace PioPart.rtc.partStep (PioPart.rtc.view (.init fun _ => 0#8))
          [.run newYear 0 (.io (.byte true 0x70#16 0x20#8)),
            .run newYear 0 (.io (.byte true 0x71#16 0x5A#8)),
            .run newYear 0 (.io (.byte false 0x71#16 0#8))] =
        some ([[0x20#8], [0x5A#8], [0x5A#8]], PioPart.rtc.view e.port.pio) ∧
      trace (PioPart.com 0).partStep ((PioPart.com 0).view (.init fun _ => 0#8))
          [.run newYear 0 (.io (.byte true 0x3ff#16 0x77#8)),
            .run newYear 0 (.io (.byte false 0x3ff#16 0#8))] =
        some ([[0x77#8], [0x77#8]], (PioPart.com 0).view e.port.pio) := by
  obtain ⟨e, htrace⟩ : ∃ e, trace (Emulator.answer sampleHost) Emulator.sampleBoot clockAndPort =
      some ([[0x20#8], [0x77#8], [], [0x5A#8], [0x77#8], [0x5A#8]], e) := ⟨_, rfl⟩
  exact ⟨e, htrace, independent_of_run hostReady_sampleHost clockAndPort _ htrace .rtc,
    independent_of_run hostReady_sampleHost clockAndPort _ htrace (.com 0)⟩

end runs

end PioPart

end Ts3100
