import Ts3100.Flash.Decoder
import Ts3100.Library.LabelledRuns

/-! # The programmable interval timer

Three down-counters behind four ports. The counts are kept lazily: `resolveTimers` brings the
running channels up to a time, and every command, read and prescaler write calls it first. The
model takes the time of the clock at each operation, in nanoseconds. -/

namespace Ts3100

/-- There are timers. -/
instance instNeZeroTimers : NeZero 3 := ⟨by decide⟩

/-- What a count byte read or written next stands for. -/
inductive ByteSelect where
  | lowByte
  | highByte
  | statusByte
  deriving DecidableEq, Repr

/-- Which bytes of the count an access mode moves. -/
inductive AccessMode where
  | latchCountValue
  | lowByteOnly
  | highByteOnly
  | lowByteHighByte
  deriving DecidableEq, Repr

/-- `AccessMode` from its two bits. -/
def AccessMode.ofBits (bits : BitVec 2) : AccessMode :=
  match bits.toNat with
  | 0 => .latchCountValue
  | 1 => .lowByteOnly
  | 2 => .highByteOnly
  | _ => .lowByteHighByte

/-- The two bits of an `AccessMode`. -/
def AccessMode.toBits : AccessMode → BitVec 2
  | .latchCountValue => 0#2
  | .lowByteOnly => 1#2
  | .highByteOnly => 2#2
  | .lowByteHighByte => 3#2

/-- One channel of the timer. -/
structure TimerChannel where
  lastRecord : Nat
  value : BitVec 16 := 0#16
  latch : BitVec 16 := 0#16
  reload : BitVec 16 := 0#16
  pendingLoad : Bool := false
  waitingForLoad : Bool := true
  outputState : Bool := false
  accessMode : AccessMode := .lowByteHighByte
  operatingMode : BitVec 3 := 0#3
  /-- the number format is binary coded decimal -/
  binaryCodedDecimal : Bool := false
  writeByte : ByteSelect := .lowByte
  accessByte : ByteSelect := .lowByte
  latched : Bool := false
  deriving DecidableEq, Repr

/-- The timer: the prescaler and the three channels. -/
structure ProgrammableIntervalTimer where
  timerPrescaler : BitVec 16 := 2#16
  state : Fin 3 → TimerChannel

/-- The period of the 25 MHz source clock in nanoseconds. -/
def sourceClockPeriod : Nat := 40

/-- The nanoseconds of one tick. -/
def tickPeriod (prescaler : BitVec 16) : Nat := sourceClockPeriod * prescaler.toNat

/-- The low byte of a count. -/
def lowByte (count : BitVec 16) : Byte := count.extractLsb' 0 8

/-- The high byte of a count. -/
def highByte (count : BitVec 16) : Byte := count.extractLsb' 8 8

/-- A count from its two bytes. -/
def joinBytes (high low : Byte) : BitVec 16 := high ++ low

/-- The bits of two bytes. -/
theorem getLsbD_joinBytes (high low : Byte) (k : Nat) :
    (joinBytes high low).getLsbD k = if k < 8 then low.getLsbD k else high.getLsbD (k - 8) := by
  unfold joinBytes
  rw [BitVec.getLsbD_append]

/-- The low byte of two. -/
@[simp] theorem lowByte_joinBytes (high low : Byte) : lowByte (joinBytes high low) = low := by
  refine BitVec.eq_of_getLsbD_eq fun k hk => ?_
  simp [lowByte, getLsbD_joinBytes, hk]

/-! ## Counting -/

/-- The count after `ticks` ticks from `value`, as `resolveTimers` computes it. -/
def countAfter (value reload : BitVec 16) (ticks : Nat) : BitVec 16 :=
  if value.toNat < ticks then
    BitVec.ofNat 16 (reload.toNat - (ticks - value.toNat) % (reload.toNat + 1))
  else
    BitVec.ofNat 16 (value.toNat - ticks)

namespace TimerChannel

/-- The ticks since the channel was last brought up to date. -/
def elapsedTicks (c : TimerChannel) (prescaler : BitVec 16) (now : Nat) : Nat :=
  (now - c.lastRecord) / tickPeriod prescaler

/-- `resolveTimers` for one channel. -/
def resolve (c : TimerChannel) (prescaler : BitVec 16) (now : Nat) : TimerChannel :=
  if c.waitingForLoad then
    c
  else
    let ticks := c.elapsedTicks prescaler now
    { c with
      lastRecord := now
      value := countAfter c.value c.reload ticks
      pendingLoad := if c.value.toNat < ticks then false else c.pendingLoad }

/-- The effect of the last byte of a reload: a channel that waits for it starts counting. -/
def finishLoad (c : TimerChannel) (now : Nat) : TimerChannel :=
  if c.waitingForLoad then
    { c with waitingForLoad := false, pendingLoad := false, value := c.reload, lastRecord := now }
  else
    c

/-- `writeRegister`: one byte of the reload value. -/
def writeCount (c : TimerChannel) (value : Byte) (now : Nat) : TimerChannel :=
  let c := { c with pendingLoad := true }
  match c.writeByte with
  | .lowByte =>
      let reload :=
        if c.binaryCodedDecimal then
          BitVec.ofNat 16 (c.reload.toNat - c.reload.toNat % 100 + value.toNat)
        else
          (c.reload &&& 0xFF00#16) ||| value.setWidth 16
      let c := { c with reload }
      if c.accessMode = .lowByteHighByte then
        { c with writeByte := .highByte }
      else
        c.finishLoad now
  | .highByte =>
      let reload :=
        if c.binaryCodedDecimal then
          BitVec.ofNat 16 (100 * value.toNat + c.reload.toNat % 100)
        else
          (c.reload &&& 0x00FF#16) ||| (value.setWidth 16 <<< 8)
      let c := { c with reload }
      let c := if c.accessMode = .lowByteHighByte then { c with writeByte := .lowByte } else c
      c.finishLoad now
  | .statusByte => c

/-- The status byte. -/
def status (c : TimerChannel) : Byte :=
  BitVec.ofBool c.outputState ++ BitVec.ofBool (c.pendingLoad || c.waitingForLoad) ++
    c.accessMode.toBits ++ c.operatingMode ++ BitVec.ofBool c.binaryCodedDecimal

/-- The byte that a read returns, for the count `value`. -/
def readByte (c : TimerChannel) (value : BitVec 16) : Byte :=
  match c.accessByte with
  | .lowByte =>
      if c.binaryCodedDecimal then
        BitVec.ofNat 8 (value.toNat % 100)
      else
        (value &&& 0x00FF#16).setWidth 8
  | .highByte =>
      if c.binaryCodedDecimal then
        BitVec.ofNat 8 (value.toNat / 100)
      else
        ((value >>> 8) &&& 0x00FF#16).setWidth 8
  | .statusByte => c.status

/-- The next byte to access. -/
def nextByte (c : TimerChannel) : TimerChannel :=
  match c.accessByte with
  | .lowByte =>
      if c.accessMode = .lowByteOnly then
        { c with latched := false }
      else
        { c with accessByte := .highByte }
  | .highByte =>
      let c := { c with latched := false }
      if c.accessMode ≠ .highByteOnly then { c with accessByte := .lowByte } else c
  | .statusByte =>
      if c.accessMode = .highByteOnly then
        { c with accessByte := .highByte }
      else
        { c with accessByte := .lowByte }

/-- Latch the count. -/
def latchCount (c : TimerChannel) : TimerChannel := { c with latch := c.value, latched := true }

/-- The read-back command for one selected channel; its two flags are active low. -/
def readBack (c : TimerChannel) (latchStatus latchCount : Bool) : TimerChannel :=
  let accessByte :=
    if !latchStatus then ByteSelect.statusByte
    else if c.accessMode = .highByteOnly then .highByte
    else .lowByte
  let c := { c with accessByte }
  if !latchCount then c.latchCount else c

/-- The configure command: the channel pauses until it is loaded. -/
def configure (c : TimerChannel) (accessMode : AccessMode) (operatingMode : BitVec 3)
    (binaryCodedDecimal : Bool) : TimerChannel :=
  let c := { c with accessMode, operatingMode, binaryCodedDecimal, waitingForLoad := true }
  match accessMode with
  | .lowByteHighByte | .lowByteOnly => { c with accessByte := .lowByte, writeByte := .lowByte }
  | .highByteOnly => { c with accessByte := .highByte, writeByte := .highByte }
  | .latchCountValue => c

end TimerChannel

/-! ## Operations -/

namespace ProgrammableIntervalTimer

/-- The timer as constructed at a time. -/
def init (now : Nat) : ProgrammableIntervalTimer := { state := fun _ => { lastRecord := now } }

/-- `resolveTimers`. -/
def resolveTimers (t : ProgrammableIntervalTimer) (now : Nat) : ProgrammableIntervalTimer :=
  { t with state := fun i => (t.state i).resolve t.timerPrescaler now }

/-- One channel changed. -/
def update (t : ProgrammableIntervalTimer) (i : Fin 3) (c : TimerChannel) :
    ProgrammableIntervalTimer :=
  { t with state := Function.update t.state i c }

/-- `setPrescaler`. -/
def setPrescaler (t : ProgrammableIntervalTimer) (prescaler : BitVec 16) (now : Nat) :
    ProgrammableIntervalTimer :=
  { t.resolveTimers now with timerPrescaler := prescaler }

/-- The counter latch command and the configure command. -/
def channelCommand (t : ProgrammableIntervalTimer) (i : Fin 3) (accessMode : AccessMode)
    (command : Byte) : ProgrammableIntervalTimer :=
  if accessMode = .latchCountValue then
    t.update i (t.state i).latchCount
  else
    t.update i ((t.state i).configure accessMode (command.extractLsb' 1 3) (command.getLsbD 0))

/-- `writeCommand`, for a command byte. -/
def writeCommand (t : ProgrammableIntervalTimer) (command : Byte) (now : Nat) :
    ProgrammableIntervalTimer :=
  let t := t.resolveTimers now
  let accessMode := AccessMode.ofBits (command.extractLsb' 4 2)
  match (command.extractLsb' 6 2).toNat with
  | 0 => t.channelCommand 0 accessMode command
  | 1 => t.channelCommand 1 accessMode command
  | 2 => t.channelCommand 2 accessMode command
  | _ =>
      { t with state := fun i =>
        if command.getLsbD (1 + i) then
          (t.state i).readBack (command.getLsbD 4) (command.getLsbD 5)
        else
          t.state i }

/-- `writeRegister`. -/
def writeRegister (t : ProgrammableIntervalTimer) (timer : Fin 3) (value : Byte) (now : Nat) :
    ProgrammableIntervalTimer :=
  t.update timer ((t.state timer).writeCount value now)

/-- `readRegister`: the count is taken before the timers are resolved. -/
def readRegister (t : ProgrammableIntervalTimer) (timer : Fin 3) (now : Nat) :
    Byte × ProgrammableIntervalTimer :=
  let value := if (t.state timer).latched then (t.state timer).latch else (t.state timer).value
  let t := t.resolveTimers now
  ((t.state timer).readByte value, t.update timer (t.state timer).nextByte)

/-- `iowrite8`. -/
def iowrite8 (t : ProgrammableIntervalTimer) (address : BitVec 16) (data : Byte) (now : Nat) :
    ProgrammableIntervalTimer :=
  match (address &&& 0x3#16).toNat with
  | 0 => t.writeRegister 0 data now
  | 1 => t.writeRegister 1 data now
  | 2 => t.writeRegister 2 data now
  | _ => t.writeCommand data now

/-- `ioread8`. -/
def ioread8 (t : ProgrammableIntervalTimer) (address : BitVec 16) (now : Nat) :
    Byte × ProgrammableIntervalTimer :=
  match (address &&& 0x3#16).toNat with
  | 0 => t.readRegister 0 now
  | 1 => t.readRegister 1 now
  | 2 => t.readRegister 2 now
  | _ => (0#8, t)

end ProgrammableIntervalTimer

/-- An operation on the timer. -/
inductive TimerOperation where
  | setPrescaler (prescaler : BitVec 16)
  | writeCommand (command : Byte)
  | writeRegister (timer : Fin 3) (value : Byte)
  | readRegister (timer : Fin 3)
  deriving DecidableEq, Repr

namespace ProgrammableIntervalTimer

/-- The timer after an operation at a time. -/
def perform (t : ProgrammableIntervalTimer) (now : Nat) : TimerOperation →
    ProgrammableIntervalTimer
  | .setPrescaler prescaler => t.setPrescaler prescaler now
  | .writeCommand command => t.writeCommand command now
  | .writeRegister timer value => t.writeRegister timer value now
  | .readRegister timer => (t.readRegister timer now).2

end ProgrammableIntervalTimer

/-! ## One channel -/

namespace TimerChannel

/-- What a command byte does to channel `i`, once it has been resolved. -/
def command (c : TimerChannel) (i : Fin 3) (command : Byte) : TimerChannel :=
  if (command.extractLsb' 6 2).toNat = 3 then
    if command.getLsbD (1 + i) then
      c.readBack (command.getLsbD 4) (command.getLsbD 5)
    else
      c
  else if (command.extractLsb' 6 2).toNat = i then
    if AccessMode.ofBits (command.extractLsb' 4 2) = .latchCountValue then
      c.latchCount
    else
      c.configure (AccessMode.ofBits (command.extractLsb' 4 2)) (command.extractLsb' 1 3)
        (command.getLsbD 0)
  else
    c

/-- What an operation does to channel `i`. -/
def perform (c : TimerChannel) (i : Fin 3) (prescaler : BitVec 16) (now : Nat) :
    TimerOperation → TimerChannel
  | .setPrescaler _ => c.resolve prescaler now
  | .writeCommand command => (c.resolve prescaler now).command i command
  | .writeRegister timer value => if timer = i then c.writeCount value now else c
  | .readRegister timer =>
      if timer = i then (c.resolve prescaler now).nextByte else c.resolve prescaler now

end TimerChannel

namespace ProgrammableIntervalTimer

/-- An update of one channel leaves the others. -/
theorem state_update (t : ProgrammableIntervalTimer) (i j : Fin 3) (c : TimerChannel) :
    (t.update j c).state i = if j = i then c else t.state i := by
  by_cases h : j = i
  · subst h
    simp [update]
  · rw [if_neg h]
    exact Function.update_of_ne (Ne.symm h) _ _

/-- A command for a channel, channel by channel. -/
theorem state_channelCommand (t : ProgrammableIntervalTimer) (i j : Fin 3) (command : Byte) :
    (t.channelCommand j (AccessMode.ofBits (command.extractLsb' 4 2)) command).state i =
      if j = i then
        if AccessMode.ofBits (command.extractLsb' 4 2) = .latchCountValue then
          (t.state i).latchCount
        else
          (t.state i).configure (AccessMode.ofBits (command.extractLsb' 4 2))
            (command.extractLsb' 1 3) (command.getLsbD 0)
      else
        t.state i := by
  unfold channelCommand
  split <;> rw [state_update] <;> by_cases h : j = i
  · subst h
    rfl
  · rw [if_neg h, if_neg h]
  · subst h
    rfl
  · rw [if_neg h, if_neg h]

/-- A command resolves every channel, and is carried out on its own. -/
theorem state_writeCommand (t : ProgrammableIntervalTimer) (i : Fin 3) (command : Byte)
    (now : Nat) :
    (t.writeCommand command now).state i
      = ((t.state i).resolve t.timerPrescaler now).command i command := by
  have hlt := (command.extractLsb' 6 2).isLt
  unfold writeCommand TimerChannel.command
  generalize (command.extractLsb' 6 2).toNat = channel at hlt
  have hchannel : channel = 0 ∨ channel = 1 ∨ channel = 2 ∨ channel = 3 := by omega
  rcases hchannel with rfl | rfl | rfl | rfl
  · simp only [state_channelCommand]
    fin_cases i <;> simp [resolveTimers]
  · simp only [state_channelCommand]
    fin_cases i <;> simp [resolveTimers]
  · simp only [state_channelCommand]
    fin_cases i <;> simp [resolveTimers]
  · rfl

/-- The channels are independent: an operation does to each channel what `TimerChannel.perform`
says. -/
theorem state_perform (t : ProgrammableIntervalTimer) (i : Fin 3) (now : Nat)
    (op : TimerOperation) :
    (t.perform now op).state i = (t.state i).perform i t.timerPrescaler now op := by
  cases op with
  | setPrescaler => rfl
  | writeCommand command => exact state_writeCommand t i command now
  | writeRegister timer value =>
      show (t.update timer _).state i = _
      rw [state_update]
      by_cases h : timer = i
      · subst h
        rfl
      · rw [if_neg h]
        exact (if_neg h).symm
  | readRegister timer =>
      show ((t.resolveTimers now).update timer _).state i = _
      rw [state_update]
      by_cases h : timer = i
      · subst h
        rw [if_pos rfl]
        exact (if_pos rfl).symm
      · rw [if_neg h]
        exact (if_neg h).symm

/-- A command leaves the prescaler. -/
theorem timerPrescaler_channelCommand (t : ProgrammableIntervalTimer) (j : Fin 3)
    (accessMode : AccessMode) (command : Byte) :
    (t.channelCommand j accessMode command).timerPrescaler = t.timerPrescaler := by
  unfold channelCommand
  split <;> rfl

/-- Only a prescaler write changes the prescaler. -/
theorem timerPrescaler_perform (t : ProgrammableIntervalTimer) (now : Nat) (op : TimerOperation) :
    (t.perform now op).timerPrescaler =
      match op with
      | .setPrescaler prescaler => prescaler
      | _ => t.timerPrescaler := by
  cases op with
  | setPrescaler | writeRegister | readRegister => rfl
  | writeCommand command =>
      show (t.writeCommand command now).timerPrescaler = t.timerPrescaler
      unfold writeCommand
      dsimp only
      split
      · exact timerPrescaler_channelCommand _ _ _ _
      · exact timerPrescaler_channelCommand _ _ _ _
      · exact timerPrescaler_channelCommand _ _ _ _
      · rfl

/-- The timer after timed operations. -/
def after (t : ProgrammableIntervalTimer) (run : List (Nat × TimerOperation)) :
    ProgrammableIntervalTimer :=
  run.foldl (fun t e => t.perform e.1 e.2) t

/-- No operations change nothing. -/
@[simp] theorem after_nil (t : ProgrammableIntervalTimer) : t.after [] = t := rfl

/-- The first operation comes first. -/
@[simp] theorem after_cons (t : ProgrammableIntervalTimer) (e : Nat × TimerOperation)
    (run : List (Nat × TimerOperation)) :
    t.after (e :: run) = (t.perform e.1 e.2).after run := rfl

/-- Two runs one after the other. -/
theorem after_append (t : ProgrammableIntervalTimer) (run run' : List (Nat × TimerOperation)) :
    t.after (run ++ run') = (t.after run).after run' :=
  List.foldl_append

/-- A run that configures channel 0 for two binary bytes and loads `0x0100`. -/
def loadChannel0 : List (Nat × TimerOperation) :=
  [(0, .writeCommand 0x34#8), (0, .writeRegister 0 0x00#8), (0, .writeRegister 0 0x01#8)]

end ProgrammableIntervalTimer

/-- Operations at times that do not run backwards, the first not before `start`. -/
def Timed (start : Nat) (run : List (Nat × TimerOperation)) : Prop :=
  (start :: run.map Prod.fst).Pairwise (· ≤ ·)

instance (start : Nat) (run : List (Nat × TimerOperation)) : Decidable (Timed start run) :=
  inferInstanceAs (Decidable (List.Pairwise _ _))

end Ts3100
