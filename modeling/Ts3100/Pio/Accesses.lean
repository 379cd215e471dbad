import Ts3100.Pio.Dispatch

/-! # Which port accesses are performed

A port access is performed if its dispatch completes, is what its elements would do one after the
other, and leaves in the buffer of a read only what the target put there.

* `IoExit.PassesGuards` — the access meets the assertions of the main loop and of the handlers, and
  the device implements the accessor.
* `performsAll_of_passesGuards` — an access that passes is performed, and one that does not ends the
  emulator. -/

namespace Ts3100

/-! ## Performing -/

/-- The elements of a buffer. -/
def elements (size count : Nat) (data : List Byte) : List (List Byte) :=
  (List.range count).map fun i => (data.drop (i * size)).take size

/-- Elements dispatched one after the other, each as an exit of its own. -/
def dispatchEach (tm : CalendarTime) (isWrite : Bool) (port : BitVec 16) (size : Nat) :
    PioSystem → List (List Byte) → Except PioFault (PioSystem × List Byte)
  | s, [] => .ok (s, [])
  | s, element :: rest => do
      let (s, element) ← handleIo tm s isWrite port element size 1
      let (s, rest) ← dispatchEach tm isWrite port size s rest
      return (s, element ++ rest)

/-- The dispatch of an exit completes and performs all of its transfers in order; the bytes left by
a read do not depend on what the buffer held. -/
def IoExit.PerformsAll (exit : IoExit) (tm : CalendarTime) (s : PioSystem) : Prop :=
  ∃ s' data each, exit.dispatch tm s = .ok (s', data) ∧
    dispatchEach tm exit.isWrite exit.port exit.size s
      (elements exit.size exit.count exit.data) = .ok (s', each) ∧
    (exit.isWrite = false → data = each ∧ ∀ buffer, buffer.length = exit.data.length →
      handleIo tm s false exit.port buffer exit.size exit.count = .ok (s', data))

/-- An exit of one element is its own element. -/
theorem dispatchEach_one (tm : CalendarTime) (s : PioSystem) (exit : IoExit)
    (hcount : exit.count = 1) {s' : PioSystem} {data : List Byte}
    (h : exit.dispatch tm s = .ok (s', data)) :
    dispatchEach tm exit.isWrite exit.port exit.size s
      (elements exit.size exit.count exit.data) = .ok (s', data) := by
  have hlength := exit.length_data
  rw [hcount, Nat.mul_one] at hlength
  have hone : elements exit.size exit.count exit.data = [exit.data] := by
    simp [elements, hcount, ← hlength]
  rw [IoExit.dispatch, hcount] at h
  rw [hone, dispatchEach, h]
  simp [dispatchEach, bind, Except.bind, pure, Except.pure]

/-- Elements that change nothing. -/
theorem dispatchEach_ignored {tm : CalendarTime} {isWrite : Bool} {port : BitVec 16} {size : Nat}
    {s : PioSystem} (h : ∀ element, ∃ element', handleIo tm s isWrite port element size 1 =
      .ok (s, element')) (rest : List (List Byte)) :
    ∃ each, dispatchEach tm isWrite port size s rest = .ok (s, each) := by
  induction rest with
  | nil => exact ⟨[], rfl⟩
  | cons element rest ih =>
      obtain ⟨element', helement⟩ := h element
      obtain ⟨each, heach⟩ := ih
      refine ⟨element' ++ each, ?_⟩
      rw [dispatchEach, helement]
      simp [heach, bind, Except.bind, pure, Except.pure]

/-- A single element is performed if its dispatch completes and, for a read, does not depend on the
buffer. -/
theorem performsAll_of_one {tm : CalendarTime} {s s' : PioSystem} {exit : IoExit} {data : List Byte}
    (hcount : exit.count = 1) (h : exit.dispatch tm s = .ok (s', data))
    (hread : exit.isWrite = false → ∀ buffer, buffer.length = exit.size →
      handleIo tm s false exit.port buffer exit.size 1 =
        handleIo tm s false exit.port exit.data exit.size 1) :
    exit.PerformsAll tm s := by
  refine ⟨s', data, data, h, dispatchEach_one tm s exit hcount h, fun hisRead => ⟨rfl, ?_⟩⟩
  intro buffer hlength
  rw [exit.length_data, hcount, Nat.mul_one] at hlength
  rw [hcount, hread hisRead buffer hlength]
  rw [IoExit.dispatch, hisRead, hcount] at h
  exact h

/-! ## Devices -/

/-- A device overrides the accessor of a direction and size. -/
def PioDevice.implements (isWrite : Bool) (size : Nat) : PioDevice → Bool
  | .prescaler => size = 1 || size = 2
  | .com _ | .rtc => size = 1
  | .hexDisplay => isWrite
  | .csu _ => size = 2

/-- The access is a transmission while the peer of some client has closed its socket. -/
def PioDevice.BreaksPipe (s : PioSystem) (isWrite : Bool) (port : BitVec 16) : PioDevice → Prop
  | .com i => isWrite = true ∧ (s.com i).WritesBrokenPipe port
  | _ => False

section devices

variable {tm : CalendarTime} {s : PioSystem} {isWrite : Bool} {port : BitVec 16}
  {data : List Byte} {size : Nat}

/-- A device completes an access that it implements. -/
theorem PioDevice.completes (d : PioDevice) (tm : CalendarTime) (data : List Byte) (hrtc : s.rtc.Valid)
    (hsize : size = 1 ∨ size = 2 ∨ size = 4) (himplements : d.implements isWrite size = true)
    (hpipe : ¬ d.BreaksPipe s isWrite port) :
    ∃ r, (d.pio tm).performKVMExitOperation s isWrite port data size = .ok r := by
  cases d with
  | prescaler =>
      have hsize' : size = 1 ∨ size = 2 := by simpa [implements] using himplements
      rw [pio, DevicePio.performKVMExitOperation_lift]
      rcases hsize' with rfl | rfl <;> cases isWrite <;> exact ⟨_, rfl⟩
  | com i =>
      obtain rfl : size = 1 := by simpa [implements] using himplements
      rw [pio, DevicePio.performKVMExitOperation_lift]
      cases isWrite with
      | false => exact ⟨_, rfl⟩
      | true =>
          -- a write to the data register may meet a client that has hung up
          have hopen : ¬ (s.com i).WritesBrokenPipe port := fun h => hpipe ⟨rfl, h⟩
          simp only [DevicePio.performKVMExitOperation, Serial16450.pio, if_neg hopen, if_pos]
          exact ⟨_, rfl⟩
  | hexDisplay =>
      obtain rfl : isWrite = true := by simpa [implements] using himplements
      rw [pio, DevicePio.performKVMExitOperation_lift]
      rcases hsize with rfl | rfl | rfl <;> exact ⟨_, rfl⟩
  | csu i =>
      obtain rfl : size = 2 := by simpa [implements] using himplements
      rw [pio, DevicePio.performKVMExitOperation_lift]
      cases isWrite <;> exact ⟨_, rfl⟩
  | rtc =>
      obtain rfl : size = 1 := by simpa [implements] using himplements
      rw [pio, DevicePio.performKVMExitOperation_lift]
      cases isWrite with
      | false =>
          -- the index register is at most 127, so the array access does not throw
          obtain ⟨value, hvalue⟩ := hrtc.ioread8 tm port
          simp only [DevicePio.performKVMExitOperation, DS12887.pio, hvalue]
          exact ⟨_, rfl⟩
      | true =>
          obtain ⟨rtc, hwrite, -⟩ := hrtc.iowrite8 port (wordAt 1 data)
          simp only [DevicePio.performKVMExitOperation, DS12887.pio, if_pos, hwrite]
          exact ⟨_, rfl⟩

/-- A device throws on an access that it does not implement. -/
theorem PioDevice.not_completes (d : PioDevice) (tm : CalendarTime) (s : PioSystem)
    (port : BitVec 16) (data : List Byte) (hsize : size = 1 ∨ size = 2 ∨ size = 4)
    (himplements : d.implements isWrite size = false) :
    ∃ message, (d.pio tm).performKVMExitOperation s isWrite port data size =
      .error (.runtimeError message) := by
  cases d with
  | prescaler =>
      rw [pio, DevicePio.performKVMExitOperation_lift]
      rcases hsize with rfl | rfl | rfl
      · cases himplements
      · cases himplements
      · cases isWrite <;> exact ⟨_, rfl⟩
  | com i =>
      rw [pio, DevicePio.performKVMExitOperation_lift]
      rcases hsize with rfl | rfl | rfl
      · cases himplements
      · cases isWrite <;> exact ⟨_, rfl⟩
      · cases isWrite <;> exact ⟨_, rfl⟩
  | hexDisplay =>
      obtain rfl : isWrite = false := himplements
      rw [pio, DevicePio.performKVMExitOperation_lift]
      rcases hsize with rfl | rfl | rfl <;> exact ⟨_, rfl⟩
  | csu i =>
      rw [pio, DevicePio.performKVMExitOperation_lift]
      rcases hsize with rfl | rfl | rfl
      · cases isWrite <;> exact ⟨_, rfl⟩
      · cases himplements
      · cases isWrite <;> exact ⟨_, rfl⟩
  | rtc =>
      rw [pio, DevicePio.performKVMExitOperation_lift]
      rcases hsize with rfl | rfl | rfl
      · cases himplements
      · cases isWrite <;> exact ⟨_, rfl⟩
      · cases isWrite <;> exact ⟨_, rfl⟩

/-- The clock keeps its index in range. -/
theorem DS12887.Valid.performKVMExitOperation {rtc rtc' : DS12887} (h : rtc.Valid)
    {data' : List Byte}
    (hperform : (DS12887.pio tm).performKVMExitOperation rtc isWrite port data size =
      .ok (rtc', data')) : rtc'.Valid := by
  unfold DevicePio.performKVMExitOperation at hperform
  split at hperform
  · cases isWrite with
    | false =>
        obtain ⟨value, hvalue⟩ := h.ioread8 tm port
        simp only [DS12887.pio, hvalue, Except.map] at hperform
        simp only [Bool.false_eq_true, if_false, Except.ok.injEq, Prod.mk.injEq] at hperform
        exact hperform.1 ▸ h
    | true =>
        obtain ⟨written, hwrite, hvalid⟩ := h.iowrite8 port (wordAt 1 data)
        simp only [DS12887.pio, hwrite, Except.map, if_pos, Except.ok.injEq,
          Prod.mk.injEq] at hperform
        exact hperform.1 ▸ hvalid
  all_goals cases isWrite <;> cases hperform

/-- No device but the clock touches the clock, which keeps its index in range. -/
theorem PioDevice.keeps_rtc (d : PioDevice) (hrtc : s.rtc.Valid) {s' : PioSystem}
    {data' : List Byte}
    (h : (d.pio tm).performKVMExitOperation s isWrite port data size = .ok (s', data')) :
    s'.rtc.Valid := by
  have hlift : ∀ {σ : Type} (dev : DevicePio σ) (get : PioSystem → σ)
      (set : PioSystem → σ → PioSystem) (P : PioSystem → Prop),
      (∀ x data', dev.performKVMExitOperation (get s) isWrite port data size = .ok (x, data') →
        P (set s x)) →
      (dev.lift get set).performKVMExitOperation s isWrite port data size = .ok (s', data') →
        P s' := by
    intro σ dev get set P hset hperform
    rw [DevicePio.performKVMExitOperation_lift] at hperform
    cases hdev : dev.performKVMExitOperation (get s) isWrite port data size with
    | error fault => simp [hdev, Except.map] at hperform
    | ok r =>
        obtain ⟨x, data''⟩ := r
        have hs' : set s x = s' := by
          simp only [hdev, Except.map, Except.ok.injEq, Prod.mk.injEq] at hperform
          exact hperform.1
        exact hs' ▸ hset x data'' hdev
  cases d with
  | prescaler | com | hexDisplay | csu =>
      exact hlift _ _ _ (fun s => s.rtc.Valid) (fun _ _ _ => hrtc) h
  | rtc =>
      refine hlift (DS12887.pio tm) (·.rtc) (fun s d => { s with rtc := d }) (·.rtc.Valid) ?_ h
      exact fun rtc data'' hperform => hrtc.performKVMExitOperation hperform

end devices

/-! ## Handlers -/

/-- A handler asserts that the access is of a single byte. -/
def IoHandler.oneByte : IoHandler → Bool
  | .keyboard | .lcd | .diskRegisters | .unhandled => false
  | _ => true

/-- A read on a handler that leaves bytes of the buffer as they are, or a copy that leaves the LBA
register. -/
def IoHandler.Lapses (isWrite : Bool) (port : BitVec 16) (size count : Nat) : IoHandler → Prop
  | .keyboard => isWrite = false ∧ 1 < size * count
  | .lcd | .postCode => isWrite = false
  | .unhandled => isWrite = false ∧ 1 < count
  | .diskRegisters =>
      4 < (port &&& 0x03#16).toNat + size ∧ (isWrite = true → (port &&& 0x07#16).toNat < 4)
  | _ => False

section handlers

variable {tm : CalendarTime} {s : PioSystem} {isWrite : Bool} {port : BitVec 16}
  {data : List Byte} {size count : Nat}

/-- The dispatch to a handler. -/
theorem handleIo_handler {h : IoHandler} (hport : PioTarget.ofPort port = .handler h) :
    handleIo tm s isWrite port data size count = h.handle s isWrite port data size count := by
  rw [handleIo, hport]

/-- The dispatch of a single element to a device. -/
theorem handleIo_device {d : PioDevice} (hport : PioTarget.ofPort port = .device d)
    (hcount : count = 1) :
    handleIo tm s isWrite port data size count =
      (d.pio tm).performKVMExitOperation s isWrite port data size := by
  rw [handleIo, hport]
  exact if_pos hcount

/-- A handler of single bytes, for one byte. -/
theorem oneByteHandler_one (value : Option Byte) (written : PioSystem) :
    oneByteHandler s isWrite data 1 1 value written =
      .ok (if isWrite then (written, data) else (s, (value.map (data.set 0)).getD data)) :=
  if_pos ⟨rfl, rfl⟩

/-- A byte put in a buffer of one byte is all of it. -/
theorem set_of_length_one {data : List Byte} (h : data.length = 1) (value : Byte) :
    data.set 0 value = [value] := by
  obtain ⟨old, rfl⟩ := List.length_eq_one_iff.mp h
  rfl

/-- A handler of single bytes completes on one, and on a read replaces it. -/
theorem IoHandler.handle_oneByte (h : IoHandler) (s : PioSystem) (port : BitVec 16)
    (hone : h.oneByte = true) :
    ∃ (value : Option Byte) (written : List Byte → PioSystem),
      (∀ isWrite data, h.handle s isWrite port data 1 1 =
        .ok (if isWrite then (written data, data) else
          (s, (value.map (data.set 0)).getD data))) ∧
      (h ≠ .postCode → value ≠ none) := by
  cases h with
  | keyboard | lcd | diskRegisters | unhandled => cases hone
  | postCode =>
      exact ⟨none, fun _ => s, fun _ _ => oneByteHandler_one _ _, fun h => absurd rfl h⟩
  | timerConfiguration =>
      exact ⟨some s.timerConfiguration,
        fun data => { s with timerConfiguration := data.getD 0 0#8 },
        fun _ _ => oneByteHandler_one _ _, fun _ => by simp⟩
  | a20Gate =>
      exact ⟨some s.a20register, fun data => { s with a20register := data.getD 0 0#8 },
        fun _ _ => oneByteHandler_one _ _, fun _ => by simp⟩
  | productCode | optionCode | jumperRegister | manufacturerSpecific | port1Pin | port3Pin =>
      exact ⟨some _, fun _ => s, fun _ _ => oneByteHandler_one _ _, fun _ => by simp⟩

/-- A handler of single bytes does not complete on anything else. -/
theorem IoHandler.handle_oneByte_error (h : IoHandler) (hone : h.oneByte = true)
    (hsize : ¬ (size = 1 ∧ count = 1)) :
    h.handle s isWrite port data size count = .error .assertionFailed := by
  have hassert : ∀ value written, oneByteHandler s isWrite data size count value written =
      .error .assertionFailed := fun _ _ => if_neg hsize
  cases h with
  | keyboard | lcd | diskRegisters | unhandled => cases hone
  | _ => exact hassert _ _

/-- A read that stays in the LBA register gives its bytes. -/
theorem handleDiskRegisters_read (s : PioSystem) (port : BitVec 16) (data : List Byte)
    (hbounds : (port &&& 0x03#16).toNat + data.length ≤ 4) :
    handleDiskRegisters s false port data 1 = .ok (s,
      (List.range data.length).map fun i => s.disk.lbaByte ((port &&& 0x03#16).toNat + i)) := by
  simp only [handleDiskRegisters, handlerDiskRegisters, if_neg (show ¬ 1 ≠ 1 by decide),
    Bool.false_eq_true, if_false, if_pos hbounds]

/-- A write that stays in the LBA register, or goes to the update register, completes. -/
theorem handleDiskRegisters_write (s : PioSystem) (port : BitVec 16) (data : List Byte)
    (hbounds : (port &&& 0x07#16).toNat < 4 → (port &&& 0x03#16).toNat + data.length ≤ 4) :
    ∃ disk, handleDiskRegisters s true port data 1 = .ok ({ s with disk }, data) := by
  obtain ⟨disk, hdisk⟩ : ∃ disk, handlerDiskRegisters true port data 1 s.disk =
      .ok (disk, data) := by
    unfold handlerDiskRegisters
    rw [if_neg (by decide)]
    by_cases hlba : (port &&& 0x07#16).toNat < 4
    · simp only [if_pos, if_pos hlba, if_pos (hbounds hlba)]
      exact ⟨_, rfl⟩
    · simp only [if_pos, if_neg hlba]
      exact ⟨_, rfl⟩
  exact ⟨disk, by rw [handleDiskRegisters, hdisk]⟩

end handlers

/-! ## Exits -/

namespace IoExit

/-- The access meets the assertions on its way, and the device implements its accessor. -/
def PassesGuards (exit : IoExit) : Prop :=
  match PioTarget.ofPort exit.port with
  | .device d => exit.count = 1 ∧ d.implements exit.isWrite exit.size = true
  | .handler .diskRegisters => exit.count = 1
  | .handler h => h.oneByte = true → exit.size = 1 ∧ exit.count = 1

/-- The access is one that its target lets through and does not serve. -/
def Lapses (exit : IoExit) (s : PioSystem) : Prop :=
  match PioTarget.ofPort exit.port with
  | .device d => d.BreaksPipe s exit.isWrite exit.port
  | .handler h => h.Lapses exit.isWrite exit.port exit.size exit.count

variable {tm : CalendarTime} {s : PioSystem} {exit : IoExit}

/-- An exit for a device is performed. -/
theorem performsAll_device {d : PioDevice} (hport : PioTarget.ofPort exit.port = .device d)
    (hrtc : s.rtc.Valid) (hcount : exit.count = 1)
    (himplements : d.implements exit.isWrite exit.size = true)
    (hpipe : ¬ d.BreaksPipe s exit.isWrite exit.port) : exit.PerformsAll tm s := by
  obtain ⟨⟨s', data⟩, hperform⟩ :=
    d.completes tm exit.data hrtc exit.size_mem himplements hpipe
  have hlength := exit.length_data
  rw [hcount, Nat.mul_one] at hlength
  refine performsAll_of_one hcount
    (by rw [IoExit.dispatch, handleIo_device hport hcount]; exact hperform) ?_
  intro hread buffer hbuffer
  rw [handleIo_device hport rfl, handleIo_device hport rfl]
  exact DevicePio.performKVMExitOperation_read _ _ _ hbuffer hlength

/-- An exit for a handler that asserts a single byte is performed. -/
theorem performsAll_oneByte {h : IoHandler} (hport : PioTarget.ofPort exit.port = .handler h)
    (hone : h.oneByte = true) (hsize : exit.size = 1) (hcount : exit.count = 1)
    (hread : exit.isWrite = false → h ≠ .postCode) : exit.PerformsAll tm s := by
  obtain ⟨value, written, hhandle, hvalue⟩ :=
    h.handle_oneByte s exit.port hone
  have hdispatch : ∀ isWrite data, handleIo tm s isWrite exit.port data 1 1 =
      .ok (if isWrite then (written data, data) else
        (s, (value.map (data.set 0)).getD data)) := by
    intro isWrite data
    rw [handleIo_handler hport]
    exact hhandle isWrite data
  have hlength := exit.length_data
  rw [hsize, hcount, Nat.mul_one] at hlength
  refine performsAll_of_one hcount (by rw [IoExit.dispatch, hsize, hcount, hdispatch]) ?_
  intro hisRead buffer hbuffer
  obtain ⟨byte, hbyte⟩ := Option.ne_none_iff_exists'.mp (hvalue (hread hisRead))
  rw [hsize] at hbuffer
  rw [hsize, hdispatch, hdispatch, hbyte]
  simp [set_of_length_one hlength, set_of_length_one hbuffer]

/-- Elements written to a handler that ignores them are all performed. -/
theorem performsAll_ignored (hwrite : exit.isWrite = true)
    (hignored : ∀ data size count, ∃ data',
      handleIo tm s true exit.port data size count = .ok (s, data')) :
    exit.PerformsAll tm s := by
  obtain ⟨data, hdata⟩ := hignored exit.data exit.size exit.count
  obtain ⟨each, heach⟩ := dispatchEach_ignored
    (fun element => hignored element exit.size 1) (elements exit.size exit.count exit.data)
  refine ⟨s, data, each, ?_, ?_, fun hread => ?_⟩
  · rw [IoExit.dispatch, hwrite]
    exact hdata
  · rw [hwrite]
    exact heach
  · rw [hwrite] at hread
    cases hread

/-- A read that gives the same answer whatever the buffer holds is performed. -/
theorem performsAll_read (answer : List Byte) (hread : exit.isWrite = false)
    (hcount : exit.count = 1) (hanswer : ∀ buffer, buffer.length = exit.size →
      handleIo tm s false exit.port buffer exit.size 1 = .ok (s, answer)) :
    exit.PerformsAll tm s := by
  have hlength := exit.length_data
  rw [hcount, Nat.mul_one] at hlength
  have hdispatch : exit.dispatch tm s = .ok (s, answer) := by
    rw [IoExit.dispatch, hcount, hread]
    exact hanswer exit.data hlength
  refine performsAll_of_one hcount hdispatch fun _ buffer hbuffer => ?_
  rw [hanswer buffer hbuffer, hanswer exit.data hlength]

/-- An exit for the disk registers is performed. -/
theorem performsAll_diskRegisters
    (hport : PioTarget.ofPort exit.port = .handler .diskRegisters) (hcount : exit.count = 1)
    (hbounds : ¬ IoHandler.diskRegisters.Lapses exit.isWrite exit.port exit.size exit.count) :
    exit.PerformsAll tm s := by
  have hlength := exit.length_data
  rw [hcount, Nat.mul_one] at hlength
  cases hisWrite : exit.isWrite with
  | true =>
      obtain ⟨disk, hdisk⟩ := handleDiskRegisters_write s exit.port exit.data fun hlba => by
        by_contra hgt
        exact hbounds ⟨by omega, fun _ => hlba⟩
      have hdispatch : exit.dispatch tm s = .ok ({ s with disk }, exit.data) := by
        rw [IoExit.dispatch, hcount, hisWrite, handleIo_handler hport]
        exact hdisk
      refine performsAll_of_one hcount hdispatch fun hread => ?_
      rw [hisWrite] at hread
      cases hread
  | false =>
      have hle : (exit.port &&& 0x03#16).toNat + exit.size ≤ 4 := by
        by_contra hgt
        exact hbounds ⟨by omega, fun hwrite => by rw [hisWrite] at hwrite; cases hwrite⟩
      refine performsAll_read ((List.range exit.size).map fun i =>
        s.disk.lbaByte ((exit.port &&& 0x03#16).toNat + i)) hisWrite hcount fun buffer hbuffer => ?_
      rw [handleIo_handler hport, ← hbuffer]
      exact handleDiskRegisters_read s exit.port buffer (by rw [hbuffer]; exact hle)

/-- An exit for the keyboard controller is performed: a write is ignored, and a read of one byte
answers 0. -/
theorem performsAll_keyboard (hport : PioTarget.ofPort exit.port = .handler .keyboard)
    (hlapses : ¬ IoHandler.keyboard.Lapses exit.isWrite exit.port exit.size exit.count) :
    exit.PerformsAll tm s := by
  cases hisWrite : exit.isWrite with
  | true =>
      exact performsAll_ignored hisWrite fun data size count => ⟨data, handleIo_handler hport⟩
  | false =>
      have hone : exit.size * exit.count = 1 := by
        have hpos := Nat.mul_pos (show 0 < exit.size by have := exit.size_mem; omega)
          exit.count_pos
        simp only [IoHandler.Lapses, hisWrite, true_and, not_lt] at hlapses
        omega
      have hcount : exit.count = 1 := Nat.eq_one_of_mul_eq_one_left hone
      have hsize : exit.size = 1 := Nat.eq_one_of_mul_eq_one_right hone
      refine performsAll_read [0#8] hisWrite hcount fun buffer hbuffer => ?_
      rw [handleIo_handler hport, ← set_of_length_one (hbuffer.trans hsize) 0#8]
      rfl

/-- An exit for a port without a handler is performed: a write is ignored, and a read of one
element answers zeros. -/
theorem performsAll_unhandled (hport : PioTarget.ofPort exit.port = .handler .unhandled)
    (hlapses : ¬ IoHandler.unhandled.Lapses exit.isWrite exit.port exit.size exit.count) :
    exit.PerformsAll tm s := by
  cases hisWrite : exit.isWrite with
  | true =>
      refine performsAll_ignored hisWrite fun data size count => ?_
      rw [handleIo_handler hport]
      simp only [IoHandler.handle, handlerUnhandled]
      split <;> exact ⟨_, rfl⟩
  | false =>
      have hcount : exit.count = 1 := by
        have hpos := exit.count_pos
        simp only [IoHandler.Lapses, hisWrite, true_and, not_lt] at hlapses
        omega
      refine performsAll_read (List.replicate exit.size 0#8) hisWrite hcount fun buffer hbuffer => ?_
      rw [handleIo_handler hport]
      simp [IoHandler.handle, handlerUnhandled, hbuffer]

/-- **An access that its target serves is performed.** -/
theorem performsAll_of_passesGuards (hrtc : s.rtc.Valid) (hpasses : exit.PassesGuards)
    (hlapses : ¬ exit.Lapses s) : exit.PerformsAll tm s := by
  unfold PassesGuards at hpasses
  unfold Lapses at hlapses
  cases hport : PioTarget.ofPort exit.port with
  | device d =>
      simp only [hport] at hpasses hlapses
      exact performsAll_device hport hrtc hpasses.1 hpasses.2 hlapses
  | handler h =>
      simp only [hport] at hpasses hlapses
      cases h with
      | diskRegisters => exact performsAll_diskRegisters hport hpasses hlapses
      | keyboard => exact performsAll_keyboard hport hlapses
      | unhandled => exact performsAll_unhandled hport hlapses
      | lcd =>
          have hisWrite : exit.isWrite = true := by simpa [IoHandler.Lapses] using hlapses
          exact performsAll_ignored hisWrite fun data size count => ⟨data, handleIo_handler hport⟩
      | postCode =>
          have hisWrite : exit.isWrite = true := by simpa [IoHandler.Lapses] using hlapses
          obtain ⟨hsize, hcount⟩ := hpasses rfl
          exact performsAll_oneByte hport rfl hsize hcount fun hread => by
            rw [hisWrite] at hread
            cases hread
      | productCode | optionCode | jumperRegister | a20Gate | manufacturerSpecific
        | timerConfiguration | port1Pin | port3Pin =>
          obtain ⟨hsize, hcount⟩ := hpasses rfl
          exact performsAll_oneByte hport rfl hsize hcount fun _ => by simp

/-- An access that does not pass stops the emulator. -/
theorem dispatch_of_not_passesGuards (hpasses : ¬ exit.PassesGuards) :
    exit.dispatch tm s = .error .assertionFailed ∨
      ∃ message, exit.dispatch tm s = .error (.runtimeError message) := by
  unfold PassesGuards at hpasses
  cases hport : PioTarget.ofPort exit.port with
  | device d =>
      simp only [hport, not_and] at hpasses
      by_cases hcount : exit.count = 1
      · obtain ⟨message, hmessage⟩ := d.not_completes tm s exit.port exit.data exit.size_mem
          (Bool.eq_false_iff.mpr (hpasses hcount))
        refine Or.inr ⟨message, ?_⟩
        rw [IoExit.dispatch, handleIo_device hport hcount]
        exact hmessage
      · left
        rw [IoExit.dispatch, handleIo, hport]
        exact if_neg hcount
  | handler h =>
      left
      rw [IoExit.dispatch, handleIo_handler hport]
      cases h with
      | keyboard | lcd | unhandled => simp [hport, IoHandler.oneByte] at hpasses
      | diskRegisters =>
          simp only [hport] at hpasses
          simp [IoHandler.handle, handleDiskRegisters, handlerDiskRegisters, hpasses]
      | _ =>
          simp only [hport, IoHandler.oneByte, forall_const] at hpasses
          exact IoHandler.handle_oneByte_error _ rfl hpasses

end IoExit

/-! ## Reachable states -/

/-- The states the port devices can be in: dispatched exits, and in between anything that the event
loop does to the serial ports and the main loop to the update flag. -/
inductive PioSystem.Reachable : PioSystem → Prop
  | init (ram : Fin 114 → Byte) : Reachable (.init ram)
  | dispatch {s s' : PioSystem} {exit : IoExit} {tm : CalendarTime} {data : List Byte}
      (before : Reachable s) (dispatched : exit.dispatch tm s = .ok (s', data)) : Reachable s'
  | background {s : PioSystem} (before : Reachable s) (com : Fin 4 → Serial16450)
      (updateDiskMapping : Bool) :
      Reachable { s with com, disk := { s.disk with updateDiskMapping } }

/-- A handler leaves the clock alone. -/
theorem IoHandler.handle_rtc {h : IoHandler} {s s' : PioSystem} {isWrite : Bool}
    {port : BitVec 16} {data data' : List Byte} {size count : Nat}
    (hhandle : h.handle s isWrite port data size count = .ok (s', data')) : s'.rtc = s.rtc := by
  have hone : ∀ value written, written.rtc = s.rtc →
      oneByteHandler s isWrite data size count value written = .ok (s', data') →
      s'.rtc = s.rtc := by
    intro value written hwritten hdone
    unfold oneByteHandler at hdone
    split at hdone
    · split at hdone
      · cases hdone
        exact hwritten
      · cases hdone
        rfl
    · cases hdone
  cases h with
  | keyboard | lcd =>
      cases hhandle
      rfl
  | unhandled =>
      simp only [IoHandler.handle, handlerUnhandled] at hhandle
      split at hhandle <;> cases hhandle <;> rfl
  | diskRegisters =>
      simp only [IoHandler.handle, handleDiskRegisters] at hhandle
      split at hhandle <;> cases hhandle
      rfl
  | _ =>
      refine hone _ _ ?_ hhandle
      rfl

/-- The clock's index stays in range. -/
theorem PioSystem.Reachable.rtc_valid {s : PioSystem} (h : s.Reachable) : s.rtc.Valid := by
  induction h with
  | init ram => exact (by decide : (0#8).toNat < 128)
  | background before com updateDiskMapping ih => exact ih
  | @dispatch s s' exit tm data before dispatched ih =>
      rw [IoExit.dispatch] at dispatched
      cases hport : PioTarget.ofPort exit.port with
      | handler h =>
          rw [handleIo_handler hport] at dispatched
          unfold DS12887.Valid
          rw [IoHandler.handle_rtc dispatched]
          exact ih
      | device d =>
          rw [handleIo, hport] at dispatched
          dsimp only at dispatched
          split at dispatched
          · exact d.keeps_rtc ih dispatched
          · cases dispatched

/-- **Which port accesses are performed.** In every reachable state, an access that passes the
guards on its way, and that its target serves, is dispatched to the end with all of its transfers
performed in order; one that does not pass ends the emulator, by a failed assertion or by the
exception of an unimplemented accessor. The target is what the maps of the two tables find, however
they are balanced. -/
theorem performsAll_or_stops (s : PioSystem) (hreachable : s.Reachable) (tm : CalendarTime)
    (exit : IoExit) :
    (exit.PassesGuards → ¬ exit.Lapses s → exit.PerformsAll tm s) ∧
      (¬ exit.PassesGuards → exit.dispatch tm s = .error .assertionFailed ∨
        ∃ message, exit.dispatch tm s = .error (.runtimeError message)) ∧
      ∀ devices handlers, DispatchMaps devices handlers →
        PioTarget.ofMaps devices handlers exit.port = PioTarget.ofPort exit.port :=
  ⟨IoExit.performsAll_of_passesGuards hreachable.rtc_valid,
    IoExit.dispatch_of_not_passesGuards, fun _ _ hmaps => hmaps.ofMaps_eq exit.port⟩

/-- A read of the Scratchpad register of the first serial port. -/
def readScratchpad : IoExit := .byte false 0x3ff#16 0xAA#8

/-- It is performed, by the device that the maps find. -/
theorem performsAll_or_stops_readScratchpad :
    readScratchpad.PerformsAll newYear (.init fun _ => 0#8) ∧
      ∃ devices handlers, DispatchMaps devices handlers ∧
        PioTarget.ofMaps devices handlers readScratchpad.port = .device (.com 0) := by
  have hport : PioTarget.ofPort readScratchpad.port = .device (.com 0) := by decide
  obtain ⟨hperforms, -, htarget⟩ :=
    performsAll_or_stops _ (.init fun _ => 0#8) newYear readScratchpad
  obtain ⟨devices, handlers, hmaps⟩ := exists_dispatchMaps
  refine ⟨hperforms ?_ ?_, devices, handlers, hmaps, (htarget _ _ hmaps).trans hport⟩
  · rw [IoExit.PassesGuards, hport]
    exact ⟨rfl, rfl⟩
  · rw [IoExit.Lapses, hport]
    exact fun hpipe => absurd hpipe.1 (by decide)

/-- **An output of a word to a serial port ends the emulator**: the port has accessors for bytes
only. -/
theorem not_performsAll :
    ¬ ∀ (s : PioSystem), s.Reachable → ∀ (tm : CalendarTime) (exit : IoExit),
      exit.PerformsAll tm s := by
  intro hclaim
  obtain ⟨s', data, each, hdispatch, -⟩ := hclaim _ (.init fun _ => 0#8) newYear
    (.word true 0x3f8#16 [0x41#8, 0x42#8] rfl)
  obtain ⟨message, hstops⟩ : ∃ message,
      (IoExit.word true 0x3f8#16 [0x41#8, 0x42#8] rfl).dispatch newYear (.init fun _ => 0#8) =
        .error (.runtimeError message) := by
    have hport : PioTarget.ofPort 0x3f8#16 = .device (.com 0) := by decide
    rw [IoExit.dispatch, IoExit.word, handleIo, hport]
    exact ⟨_, rfl⟩
  rw [hstops] at hdispatch
  cases hdispatch

end Ts3100
