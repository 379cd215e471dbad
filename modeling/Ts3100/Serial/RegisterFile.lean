import Ts3100.Library.WriteLog
import Ts3100.Serial.Pace

/-! # The register file of the UART

Six registers only keep what the guest writes, four of them at the two addresses that the divisor
latch access bit switches between two banks.

* `BankedRegister` — the six registers; `BankedRegister.select` finds the one an access addresses.
* `Holds` — the device refines the cells of the registers, each up to the bits it keeps.
* `registerFile_run` — after every run a read returns what the guest last wrote to the register, and
  an access to the divisor latches leaves the line alone. -/

namespace Ts3100

open LabelledRuns WriteLog

/-- The registers that keep what is written to them. -/
inductive BankedRegister where
  | lineControl
  | modemControl
  | scratchpad
  | interruptControl
  | divisorLowByte
  | divisorHighByte
  deriving DecidableEq, Repr

namespace BankedRegister

/-- The register at an address, in the bank that the divisor latch access bit selects. -/
def select (dlab : Bool) (address : BitVec 16) : Option BankedRegister :=
  match Register.ofAddress address with
  | .dataDivisorLowByte => if dlab then some .divisorLowByte else none
  | .interruptControlDivisorHighByte =>
      if dlab then some .divisorHighByte else some .interruptControl
  | .lineControl => some .lineControl
  | .modemControl => some .modemControl
  | .scratchpad => some .scratchpad
  | .interruptStatusFifoControl | .lineStatus | .modemStatus => none

/-- The bits that a register keeps. -/
def mask : BankedRegister → Byte
  | .modemControl => 0x1F#8
  | .interruptControl => 0x0f#8
  | .lineControl | .scratchpad | .divisorLowByte | .divisorHighByte => 0xFF#8

end BankedRegister

namespace Serial16450

variable {s s' : Serial16450} {e : Event} {file : BankedRegister → Byte}

/-- The register that an event writes, with the value. -/
def registerWrites (s : Serial16450) : Event → List (BankedRegister × Byte)
  | .iowrite8 address data =>
      ((BankedRegister.select s.registers.dlab address).map fun r => (r, data)).toList
  | _ => []

/-- What the guest last wrote to each register in a run of the device, 0 if nothing. -/
def lastWritten (events : List Event) : BankedRegister → Byte :=
  contents (fun _ => 0#8) (logOf step registerWrites {} events)

/-- Nothing has happened to the clients, the timers, the interrupt or the flags. -/
structure LeavesLineAlone (s s' : Serial16450) : Prop where
  clients : s'.clients = s.clients
  sockets : s'.sockets = s.sockets
  timers : s'.timers = s.timers
  irq : s'.irq = s.irq
  sameFlags : s.registers.SameFlags s'.registers

/-- A value in a register of the device. -/
def bankedValue (s : Serial16450) : BankedRegister → Byte
  | .lineControl => s.registers.lineControl
  | .modemControl => s.registers.modemControl
  | .scratchpad => s.registers.scratchpad
  | .interruptControl => s.registers.interruptControl
  | .divisorLowByte => s.registers.divisor.extractLsb' 0 8
  | .divisorHighByte => s.registers.divisor.extractLsb' 8 8

/-- The device holds the values of a register file. -/
def Holds (s : Serial16450) (file : BankedRegister → Byte) : Prop :=
  ∀ r, s.bankedValue r = file r &&& r.mask

/-! ## Reads and writes -/

/-- A mask of eight bits keeps a byte. -/
theorem and_full (data : Byte) : data &&& 0xFF#8 = data := BitVec.and_allOnes

/-- The low byte of a divisor made of two bytes. -/
theorem lowByte_divisor {high low : Byte} {divisor : BitVec 16} (h : divisor = high ++ low) :
    divisor.extractLsb' 0 8 = low := by
  rw [h]
  exact BitVec.extractLsb'_append_eq_right

/-- The high byte of a divisor made of two bytes. -/
theorem highByte_divisor {high low : Byte} {divisor : BitVec 16} (h : divisor = high ++ low) :
    divisor.extractLsb' 8 8 = high := by
  rw [h]
  exact BitVec.extractLsb'_append_eq_left

/-- A read of a register returns the value in it. -/
theorem ioread8_banked {address : BitVec 16} {r : BankedRegister}
    (hr : BankedRegister.select s.registers.dlab address = some r) :
    s.ioread8 address = (s.bankedValue r, s) := by
  unfold BankedRegister.select at hr
  unfold ioread8
  cases hreg : Register.ofAddress address with
  | dataDivisorLowByte =>
      cases hdlab : s.registers.dlab with
      | true =>
          obtain rfl : .divisorLowByte = r := by simpa [hreg, hdlab] using hr
          rfl
      | false => simp [hreg, hdlab] at hr
  | interruptControlDivisorHighByte =>
      cases hdlab : s.registers.dlab with
      | true =>
          obtain rfl : .divisorHighByte = r := by simpa [hreg, hdlab] using hr
          rfl
      | false =>
          obtain rfl : .interruptControl = r := by simpa [hreg, hdlab] using hr
          rfl
  | lineControl | modemControl | scratchpad =>
      rw [hreg] at hr
      obtain rfl := Option.some.inj hr
      rfl
  | interruptStatusFifoControl | lineStatus | modemStatus => simp [hreg] at hr

/-- What is stored elsewhere leaves the values alone. -/
theorem bankedValue_writeData (data : Byte) (r : BankedRegister) :
    (s.writeData data).bankedValue r = s.bankedValue r := by
  rw [writeData, writeClients_eq]
  cases r <;> rfl

/-- Reading data leaves the banked registers. -/
theorem bankedValue_readData (r : BankedRegister) :
    s.readData.bankedValue r = s.bankedValue r := by
  rw [readData, readClients_eq]
  cases r <;> rfl

/-- So does reading the interrupt status. -/
theorem bankedValue_readInterruptStatus (r : BankedRegister) :
    s.readInterruptStatus.2.bankedValue r = s.bankedValue r := by
  unfold readInterruptStatus
  split
  · rfl
  · split <;> cases r <;> rfl

/-- Writing the interrupt enable register writes its four bits. -/
theorem bankedValue_writeInterruptControl (data : Byte) (r : BankedRegister) :
    (s.writeInterruptControl data).bankedValue r =
      if r = .interruptControl then data &&& 0x0f#8 else s.bankedValue r := by
  unfold writeInterruptControl
  dsimp only
  split <;> cases r <;> rfl

/-- A write puts the value in the register it addresses, up to the bits that the register keeps. -/
theorem bankedValue_iowrite8 (address : BitVec 16) (data : Byte) (r : BankedRegister) :
    (s.iowrite8 address data).bankedValue r =
      if BankedRegister.select s.registers.dlab address = some r then data &&& r.mask
      else s.bankedValue r := by
  unfold BankedRegister.select iowrite8
  cases hreg : Register.ofAddress address with
  | dataDivisorLowByte =>
      cases hdlab : s.registers.dlab with
      | true =>
          cases r with
          | divisorLowByte => exact (lowByte_divisor rfl).trans (and_full data).symm
          | divisorHighByte => exact highByte_divisor rfl
          | lineControl | modemControl | scratchpad | interruptControl => rfl
      | false => simpa using bankedValue_writeData data r
  | interruptControlDivisorHighByte =>
      cases hdlab : s.registers.dlab with
      | true =>
          cases r with
          | divisorLowByte => exact lowByte_divisor rfl
          | divisorHighByte => exact (highByte_divisor rfl).trans (and_full data).symm
          | lineControl | modemControl | scratchpad | interruptControl => rfl
      | false =>
          have hwrite := bankedValue_writeInterruptControl (s := s) data r
          cases r <;> simpa [BankedRegister.mask] using hwrite
  | lineControl | modemControl | scratchpad =>
      cases r <;> simp [bankedValue, BankedRegister.mask, and_full]
  | interruptStatusFifoControl | lineStatus | modemStatus => simp

/-- The value of a register after a read. -/
theorem bankedValue_ioread8 (address : BitVec 16) (r : BankedRegister) :
    (s.ioread8 address).2.bankedValue r = s.bankedValue r := by
  unfold ioread8
  cases Register.ofAddress address with
  | dataDivisorLowByte =>
      dsimp only
      split
      · exact bankedValue_readData r
      · rfl
  | interruptControlDivisorHighByte =>
      dsimp only
      split <;> rfl
  | interruptStatusFifoControl => exact bankedValue_readInterruptStatus r
  | lineControl | modemControl | lineStatus | modemStatus | scratchpad => rfl

/-! ## Runs -/

/-- **Step.** Every step that keeps a register file in the device keeps it after the step's write. -/
theorem holds_step (s : Serial16450) (e : Event) (s' : Serial16450) (file : BankedRegister → Byte)
    (hs : s.Holds file) (h : s.step e = some s') :
    s'.Holds (contents file (s.registerWrites e)) := by
  intro r
  cases e with
  | iowrite8 address data =>
      obtain rfl := Option.some.inj h
      -- the write goes to the register that the address and DLAB select, if to any
      refine (bankedValue_iowrite8 address data r).trans ?_
      simp only [registerWrites]
      cases BankedRegister.select s.registers.dlab address with
      | none => exact hs r
      | some r' =>
          show _ = Function.update file r' data r &&& r.mask
          by_cases hr : r' = r
          · subst hr
            rw [if_pos rfl, Function.update_self]
          · rw [if_neg (by simpa using hr), Function.update_of_ne (Ne.symm hr)]
            exact hs r
  | ioread8 address =>
      obtain rfl := Option.some.inj h
      exact (bankedValue_ioread8 address r).trans (hs r)
  | dispatch =>
      cases step_cases h with
      | readTimer => exact hs r
      | listen =>
          rw [listenAgain, reloadEventLoop_eq]
          exact hs r
      | handle =>
          rw [handleClientEvent_eq]
          exact hs r
  | accept connection => cases step_cases h <;> exact hs r
  | wait | timerExpires | peerSends | peerHangsUp | peerDrains =>
      cases step_cases h
      exact hs r

/-- An access to a divisor latch does nothing else. -/
theorem leavesLineAlone_of_dlab (hdlab : s.registers.dlab = true) {address : BitVec 16}
    (haddress : Register.ofAddress address = .dataDivisorLowByte ∨
      Register.ofAddress address = .interruptControlDivisorHighByte) (data : Byte) :
    s.LeavesLineAlone (s.iowrite8 address data) ∧ s.LeavesLineAlone (s.ioread8 address).2 := by
  rcases haddress with hreg | hreg
  · simp only [iowrite8, ioread8, hreg, hdlab]
    exact ⟨⟨rfl, rfl, rfl, rfl, ⟨rfl, rfl, rfl, rfl, rfl, rfl⟩⟩,
      ⟨rfl, rfl, rfl, rfl, ⟨rfl, rfl, rfl, rfl, rfl, rfl⟩⟩⟩
  · simp only [iowrite8, ioread8, hreg, hdlab]
    exact ⟨⟨rfl, rfl, rfl, rfl, ⟨rfl, rfl, rfl, rfl, rfl, rfl⟩⟩,
      ⟨rfl, rfl, rfl, rfl, ⟨rfl, rfl, rfl, rfl, rfl, rfl⟩⟩⟩

/-- The divisor latch access bit is bit 7 of what was last written to the line control register. -/
theorem Holds.dlab (hs : s.Holds file) : s.registers.dlab = (file .lineControl).getLsbD 7 := by
  have hline : s.registers.lineControl = file .lineControl := (hs .lineControl).trans (and_full _)
  rw [Registers.dlab, hline]
  generalize file .lineControl = line
  decide +revert

/-- What the guest sees of the register file, where the values `file` were last written: reads of a
register in its bank return its value, and accesses to the divisor latches leave the line alone. -/
structure ShowsRegisterFile (s : Serial16450) (file : BankedRegister → Byte) : Prop where
  read : ∀ address r, BankedRegister.select ((file .lineControl).getLsbD 7) address = some r →
    (s.ioread8 address).1 = file r &&& r.mask
  latches : (file .lineControl).getLsbD 7 = true → ∀ address,
    Register.ofAddress address = .dataDivisorLowByte ∨
      Register.ofAddress address = .interruptControlDivisorHighByte →
    (∀ data s', s.step (.iowrite8 address data) = some s' → s.LeavesLineAlone s') ∧
      ∀ s', s.step (.ioread8 address) = some s' → s.LeavesLineAlone s'

/-- **A banked register file.** After every run, a read of a register in its bank returns what the
guest last wrote to it there, and an access to a divisor latch sends or takes no byte, arms no timer,
triggers no interrupt and changes no flag. -/
theorem registerFile_run {events : List Event} (hrun : run step {} events = some s) :
    s.ShowsRegisterFile (lastWritten events) := by
  have hinit : Holds {} fun _ => 0#8 := fun r => by cases r <;> rfl
  have hs : s.Holds (lastWritten events) := rel_of_run holds_step hinit hrun
  constructor
  · intro address r hr
    rw [← hs.dlab] at hr
    rw [ioread8_banked hr]
    exact hs r
  · intro hlatches address haddress
    rw [← hs.dlab] at hlatches
    constructor
    · rintro data s' hstep
      obtain rfl := Option.some.inj hstep
      have halone := (leavesLineAlone_of_dlab hlatches haddress data).1
      exact ⟨halone.clients, halone.sockets, halone.timers, halone.irq, halone.sameFlags⟩
    · rintro s' hstep
      obtain rfl := Option.some.inj hstep
      have halone := (leavesLineAlone_of_dlab hlatches haddress 0#8).2
      exact ⟨halone.clients, halone.sockets, halone.timers, halone.irq, halone.sameFlags⟩

/-- A guest that programs a divisor and closes the latches. -/
def programDivisor : List Event :=
  [.iowrite8 3#16 0x83#8, .iowrite8 0#16 0x0C#8, .iowrite8 1#16 0x00#8, .iowrite8 3#16 0x03#8]

/-- It reads back what it wrote last. -/
theorem registerFile_run_programDivisor :
    ∃ s, run step {} programDivisor = some s ∧ s.ShowsRegisterFile (lastWritten programDivisor) := by
  obtain ⟨s, hrun⟩ : ∃ s, run step {} programDivisor = some s := ⟨_, rfl⟩
  exact ⟨s, hrun, registerFile_run hrun⟩

example : lastWritten programDivisor .divisorLowByte = 0x0C#8 := by decide

end Serial16450

end Ts3100
