import Ts3100.Timer.Programming
import Ts3100.Timer.Latches

/-! # Reading an unlatched count

`readRegister` takes the count aside before it resolves the timers, so that an unlatched read
returns a byte of the count as it was at the last resolve.

* `readRegister_current_iff` — when that is the byte of the count at the time of the read. -/

namespace Ts3100

/-! ## Bytes of a count -/

/-- The number in the byte of a count that is selected, in the binary or the decimal format. -/
def ByteSelect.part (select : ByteSelect) (decimal : Bool) (count : Nat) : Nat :=
  match select, decimal with
  | .lowByte, false => count % 256
  | .lowByte, true => count % 100
  | .highByte, false => count / 256
  | .highByte, true => count / 100 % 256
  | .statusByte, _ => 0

/-- The low byte is the remainder by 256. -/
theorem toNat_lowByte (count : BitVec 16) : (lowByte count).toNat = count.toNat % 256 := by
  simp [lowByte]

/-- The high byte is the quotient. -/
theorem toNat_highByte (count : BitVec 16) : (highByte count).toNat = count.toNat / 256 := by
  have hlt := count.isLt
  simp only [highByte, BitVec.extractLsb'_toNat, Nat.shiftRight_eq_div_pow]
  omega

namespace TimerChannel

variable {c : TimerChannel} {prescaler : BitVec 16} {now n : Nat}

/-- A data byte that is read is the selected part of the count. -/
theorem toNat_readByte (hdata : c.accessByte ≠ .statusByte) (count : BitVec 16) :
    (c.readByte count).toNat = c.accessByte.part c.binaryCodedDecimal count.toNat := by
  unfold readByte
  cases hbyte : c.accessByte with
  | statusByte => exact absurd hbyte hdata
  | lowByte =>
      cases hdecimal : c.binaryCodedDecimal with
      | false =>
          simp only [ByteSelect.part, Bool.false_eq_true, if_false, setWidth_and_eq_lowByte,
            toNat_lowByte]
      | true =>
          simp only [ByteSelect.part, if_pos, BitVec.toNat_ofNat]
          omega
  | highByte =>
      cases hdecimal : c.binaryCodedDecimal with
      | false =>
          simp only [ByteSelect.part, Bool.false_eq_true, if_false, setWidth_shift_eq_highByte,
            toNat_highByte]
      | true => simp [ByteSelect.part]

/-- Counting `n` ticks down leaves the selected part of the count as it is: short of zero, the low part
where `n` is a multiple of its range, and the high part where no multiple of the low part's range is
passed, or, as the decimal high part is cut to a byte, a multiple of 256 of them. Past zero the two
counts are compared. -/
def KeepsPart (c : TimerChannel) (n : Nat) : Prop :=
  if n ≤ c.value.toNat then
    match c.accessByte, c.binaryCodedDecimal with
    | .lowByte, false => n % 256 = 0
    | .lowByte, true => n % 100 = 0
    | .highByte, false => n ≤ c.value.toNat % 256
    | .highByte, true => (n + 99 - c.value.toNat % 100) / 100 % 256 = 0
    | .statusByte, _ => True
  else
    c.accessByte.part c.binaryCodedDecimal
        (c.reload.toNat - (n - c.value.toNat) % (c.reload.toNat + 1)) =
      c.accessByte.part c.binaryCodedDecimal c.value.toNat

instance (c : TimerChannel) (n : Nat) : Decidable (c.KeepsPart n) := by
  unfold KeepsPart
  split
  · split <;> infer_instance
  · infer_instance

/-- `KeepsPart` compares the counts. -/
theorem keepsPart_iff (hdata : c.accessByte ≠ .statusByte) :
    c.KeepsPart n ↔
      c.accessByte.part c.binaryCodedDecimal (countAfter c.value c.reload n).toNat =
        c.accessByte.part c.binaryCodedDecimal c.value.toNat := by
  unfold KeepsPart
  by_cases hle : n ≤ c.value.toNat
  · rw [if_pos hle, toNat_countAfter_of_le hle]
    cases hbyte : c.accessByte with
    | statusByte => exact absurd hbyte hdata
    | lowByte =>
        cases c.binaryCodedDecimal with
        | false =>
            simp only [ByteSelect.part]
            omega
        | true =>
            simp only [ByteSelect.part]
            omega
    | highByte =>
        cases c.binaryCodedDecimal with
        | false =>
            simp only [ByteSelect.part]
            omega
        | true =>
            simp only [ByteSelect.part]
            omega
  · rw [if_neg hle, toNat_countAfter_of_lt (by omega)]

/-- The elapsed ticks of a channel that is read in its `n`-th tick period. -/
theorem elapsedTicks_eq
    (hticks : c.lastRecord + n * tickPeriod prescaler ≤ now ∧
      now < c.lastRecord + (n + 1) * tickPeriod prescaler) : c.elapsedTicks prescaler now = n := by
  have hpos : 0 < tickPeriod prescaler := by
    rcases Nat.eq_zero_or_pos (tickPeriod prescaler) with hzero | hpos
    · rw [hzero] at hticks
      omega
    · exact hpos
  rw [Nat.add_mul, Nat.one_mul] at hticks
  unfold elapsedTicks
  refine Nat.div_eq_of_lt_le (by omega) ?_
  rw [Nat.add_mul, Nat.one_mul]
  omega

end TimerChannel

namespace ProgrammableIntervalTimer

/-- **When an unlatched read is current.** A counting channel with nothing latched and a data byte
next, read when `n` tick periods have passed since it was last resolved: the byte is that of the
count the channel holds when the read returns, iff `n` ticks leave that byte as it is. -/
theorem readRegister_current_iff (t : ProgrammableIntervalTimer) (i : Fin 3) (now n : Nat)
    (hcounting : (t.state i).waitingForLoad = false) (hunlatched : (t.state i).latched = false)
    (hdata : (t.state i).accessByte ≠ .statusByte)
    (hticks : (t.state i).lastRecord + n * tickPeriod t.timerPrescaler ≤ now ∧
      now < (t.state i).lastRecord + (n + 1) * tickPeriod t.timerPrescaler) :
    let read := t.readRegister i now
    read.1 = (t.state i).readByte (read.2.state i).value ↔ (t.state i).KeepsPart n := by
  intro read
  have hrunning : ¬ (t.state i).waitingForLoad = true := by simp [hcounting]
  have hvalue : (read.2.state i).value = countAfter (t.state i).value (t.state i).reload n := by
    have hnext : read.2.state i = ((t.state i).resolve t.timerPrescaler now).nextByte := by
      simp only [read, readRegister, state_update, if_pos]
      rfl
    rw [hnext, (TimerChannel.sameLoad_nextByte _).value, TimerChannel.resolve, if_neg hrunning,
      TimerChannel.elapsedTicks_eq hticks]
  have hbyte : read.1 = (t.state i).readByte (t.state i).value := by
    have hselect : ((t.resolveTimers now).state i).readByte (t.state i).value =
        (t.state i).readByte (t.state i).value := by
      show ((t.state i).resolve t.timerPrescaler now).readByte _ = _
      rw [TimerChannel.resolve, if_neg hrunning]
      unfold TimerChannel.readByte
      cases haccess : (t.state i).accessByte with
      | statusByte => exact absurd haccess hdata
      | lowByte | highByte => rfl
    simp only [read, readRegister, hunlatched, Bool.false_eq_true, if_false]
    exact hselect
  rw [hbyte, hvalue, ← BitVec.toNat_inj, TimerChannel.toNat_readByte hdata,
    TimerChannel.toNat_readByte hdata, TimerChannel.keepsPart_iff hdata]
  exact eq_comm

/-- A run that loads `0x0210` into channel 0 and reads its low byte. -/
def loadAndRead : List (Nat × TimerOperation) :=
  [(0, .writeCommand 0x34#8), (0, .writeRegister 0 0x10#8), (0, .writeRegister 0 0x02#8),
    (80, .readRegister 0)]

/-- A read of the high byte, four ticks after that of the low byte. -/
theorem readRegister_current_iff_loaded :
    (((init 0).after loadAndRead).readRegister 0 400).1 = 0x02#8 :=
  (readRegister_current_iff ((init 0).after loadAndRead) 0 400 4 (by decide) (by decide) (by decide)
    (by decide)).mpr (by decide)

/-- **A stale read.** One tick after `0x0100` has been loaded, the low byte read is still `00`. -/
theorem not_readRegister_current :
    ¬ ∀ (setup : List (Nat × TimerOperation)) (i : Fin 3) (now : Nat),
      let t := (init 0).after setup
      Timed 0 (setup ++ [(now, .readRegister i)]) →
      (t.state i).waitingForLoad = false → (t.state i).latched = false →
      (t.state i).accessByte ≠ .statusByte → (t.state i).lastRecord ≤ now →
      let read := t.readRegister i now
      read.1 = (t.state i).readByte (read.2.state i).value := by
  intro hclaim
  have hstale := hclaim loadChannel0 0 80 (by decide) (by decide) (by decide) (by decide)
    (by decide)
  exact absurd hstale (by decide)

end ProgrammableIntervalTimer

end Ts3100
