import Ts3100.Timer.Programming
import Ts3100.Timer.Counting
import Ts3100.Timer.Latches

/-! # Decimal counts

In the decimal format the writer takes a byte as a number below 256, not as two digits, and the reader
returns the remainder and the quotient of the count by 100.

* `TimerChannel.decimalLoad` — the count that two bytes load.
* `decimal_roundTrip_iff` — when two bytes of digits are read back, and load the number they
  denote: both are a single digit. -/

namespace Ts3100

/-! ## Bytes of digits -/

/-- Both nibbles of a byte are decimal digits. -/
def IsDecimal (b : Byte) : Prop := b.toNat / 16 ≤ 9 ∧ b.toNat % 16 ≤ 9

instance (b : Byte) : Decidable (IsDecimal b) := inferInstanceAs (Decidable (_ ∧ _))

/-- The number that the digits of two bytes denote. -/
def decimalNumber (low high : Byte) : Nat :=
  1000 * (high.toNat / 16) + 100 * (high.toNat % 16) + 10 * (low.toNat / 16) + low.toNat % 16

namespace TimerChannel

/-! ## Loading -/

/-- The count loaded by two bytes in decimal format, over a reload register. -/
def decimalLoad (register : BitVec 16) (low high : Byte) : BitVec 16 :=
  BitVec.ofNat 16 (100 * high.toNat +
    (BitVec.ofNat 16 (register.toNat - register.toNat % 100 + low.toNat)).toNat % 100)

/-- What two decimal bytes load, as a number. -/
theorem toNat_decimalLoad (register : BitVec 16) (low high : Byte) :
    (decimalLoad register low high).toNat =
      100 * high.toNat + (register.toNat - register.toNat % 100 + low.toNat) % 65536 % 100 := by
  have hhigh := high.isLt
  rw [decimalLoad, BitVec.toNat_ofNat, BitVec.toNat_ofNat]
  -- a byte of hundreds and a remainder fit into the counter
  have hrest := Nat.mod_lt
    ((register.toNat - register.toNat % 100 + low.toNat) % 65536) (y := 100) (by omega)
  exact Nat.mod_eq_of_lt (by omega)

/-- A decimal configure command and two bytes. -/
theorem load_decimal (c : TimerChannel) (operatingMode : BitVec 3) (low high : Byte)
    (first second : Nat) :
    ((c.configure .lowByteHighByte operatingMode true).writeCount low first).writeCount high second =
      { c with
        lastRecord := second
        value := decimalLoad c.reload low high
        reload := decimalLoad c.reload low high
        pendingLoad := false
        waitingForLoad := false
        accessMode := .lowByteHighByte
        operatingMode
        binaryCodedDecimal := true
        writeByte := .lowByte
        accessByte := .lowByte } := rfl

/-! ## Reading -/

/-- The channel holds a latched count, and reads the bytes of a decimal count in turn. -/
structure LatchedDecimal (c : TimerChannel) (next : ByteSelect) (count : BitVec 16) : Prop where
  accessMode : c.accessMode = .lowByteHighByte
  decimal : c.binaryCodedDecimal = true
  latched : c.latched = true
  accessByte : c.accessByte = next
  latch : c.latch = count

variable {c : TimerChannel} {next : ByteSelect} {count : BitVec 16}

/-- Time passing keeps what is latched. -/
theorem LatchedDecimal.resolve (h : c.LatchedDecimal next count) (prescaler : BitVec 16)
    (now : Nat) : (c.resolve prescaler now).LatchedDecimal next count := by
  unfold TimerChannel.resolve
  split
  · exact h
  · exact ⟨h.accessMode, h.decimal, h.latched, h.accessByte, h.latch⟩

/-- After the low byte comes the high byte. -/
theorem LatchedDecimal.nextByte (h : c.LatchedDecimal .lowByte count) :
    c.nextByte.LatchedDecimal .highByte count := by
  have hmode : c.accessMode ≠ .lowByteOnly := by simp [h.accessMode]
  simp only [TimerChannel.nextByte, h.accessByte]
  rw [if_neg hmode]
  exact ⟨h.accessMode, h.decimal, h.latched, rfl, h.latch⟩

/-- A channel resolved before a tick has elapsed keeps its count. -/
theorem value_resolve_of_lt {prescaler : BitVec 16} {now : Nat}
    (hticks : now - c.lastRecord < tickPeriod prescaler) :
    (c.resolve prescaler now).value = c.value := by
  have hnone : c.elapsedTicks prescaler now = 0 := by
    unfold elapsedTicks
    exact Nat.div_eq_of_lt hticks
  unfold TimerChannel.resolve
  split
  · rfl
  · apply BitVec.eq_of_toNat_eq
    simp only [hnone]
    rw [toNat_countAfter_of_le (by omega), Nat.sub_zero]

end TimerChannel

/-! ## The round trip -/

namespace ProgrammableIntervalTimer

variable {t : ProgrammableIntervalTimer} {i : Fin 3} {count : BitVec 16}

/-- The first of the two reads. -/
theorem readRegister_decimal_low (now : Nat) (h : (t.state i).LatchedDecimal .lowByte count) :
    (t.readRegister i now).1 = BitVec.ofNat 8 (count.toNat % 100) ∧
      ((t.readRegister i now).2.state i).LatchedDecimal .highByte count := by
  have hresolve := h.resolve t.timerPrescaler now
  constructor
  · have hdecimal : ((t.resolveTimers now).state i).binaryCodedDecimal = true := hresolve.decimal
    have hnext : ((t.resolveTimers now).state i).accessByte = .lowByte := hresolve.accessByte
    simp only [readRegister, h.latched, h.latch, if_pos, TimerChannel.readByte, hnext, hdecimal]
  · simp only [readRegister, state_update, if_pos]
    show ((t.state i).resolve t.timerPrescaler now).nextByte.LatchedDecimal _ _
    exact hresolve.nextByte

/-- The second read. -/
theorem readRegister_decimal_high (now : Nat) (h : (t.state i).LatchedDecimal .highByte count) :
    (t.readRegister i now).1 = BitVec.ofNat 8 (count.toNat / 100) := by
  have hresolve := h.resolve t.timerPrescaler now
  have hdecimal : ((t.resolveTimers now).state i).binaryCodedDecimal = true := hresolve.decimal
  have hnext : ((t.resolveTimers now).state i).accessByte = .highByte := hresolve.accessByte
  simp only [readRegister, h.latched, h.latch, if_pos, TimerChannel.readByte, hnext, hdecimal]

/-- The channel after the configure command and two bytes. -/
theorem state_load_decimal (t : ProgrammableIntervalTimer) {command : Byte}
    (hchannel : (command.extractLsb' 6 2).toNat = i.val) (hdecimal : command.getLsbD 0 = true)
    (hmode : AccessMode.ofBits (command.extractLsb' 4 2) = .lowByteHighByte)
    (start first second : Nat) (low high : Byte) :
    let c := (t.after [(start, .writeCommand command), (first, .writeRegister i low),
      (second, .writeRegister i high)]).state i
    c.accessMode = .lowByteHighByte ∧ c.binaryCodedDecimal = true ∧ c.accessByte = .lowByte ∧
      c.lastRecord = second ∧
      c.value = TimerChannel.decimalLoad (t.state i).reload low high := by
  have hreload : ((t.state i).resolve t.timerPrescaler start).reload = (t.state i).reload := by
    unfold TimerChannel.resolve
    split <;> rfl
  have hconfigured : (t.perform start (.writeCommand command)).state i =
      ((t.state i).resolve t.timerPrescaler start).configure .lowByteHighByte
        (command.extractLsb' 1 3) true := by
    rw [state_perform, TimerChannel.perform, TimerChannel.command, if_neg (by omega),
      if_pos hchannel, hmode, if_neg (by decide), hdecimal]
  have hwrite (t' : ProgrammableIntervalTimer) (now : Nat) (value : Byte) :
      (t'.perform now (.writeRegister i value)).state i = (t'.state i).writeCount value now := by
    rw [state_perform, TimerChannel.perform, if_pos rfl]
  intro c
  have hc : c = _ := (hwrite _ second high).trans (congrArg (·.writeCount high second)
    ((hwrite _ first low).trans (congrArg (·.writeCount low first) hconfigured)))
  rw [hc, TimerChannel.load_decimal, hreload]
  exact ⟨rfl, rfl, rfl, rfl, rfl⟩

/-- A Counter Latch command issued within a tick period of the load. -/
theorem latchedDecimal_perform {now : Nat} {op : TimerOperation}
    (hmode : (t.state i).accessMode = .lowByteHighByte)
    (hdecimal : (t.state i).binaryCodedDecimal = true) (hnext : (t.state i).accessByte = .lowByte)
    (hticks : now - (t.state i).lastRecord < tickPeriod t.timerPrescaler)
    (hlatches : op.latchesCount i = true) :
    ((t.perform now op).state i).LatchedDecimal .lowByte (t.state i).value := by
  cases op with
  | setPrescaler | writeRegister | readRegister => simp [TimerOperation.latchesCount] at hlatches
  | writeCommand command =>
      obtain ⟨hchannel, hlatch⟩ : (command.extractLsb' 6 2).toNat = i.val ∧
          AccessMode.ofBits (command.extractLsb' 4 2) = .latchCountValue := by
        simpa [TimerOperation.latchesCount] using hlatches
      have hkept : ∀ c : TimerChannel, c = (t.state i).resolve t.timerPrescaler now →
          c.accessMode = .lowByteHighByte ∧ c.binaryCodedDecimal = true ∧
            c.accessByte = .lowByte := by
        rintro c rfl
        unfold TimerChannel.resolve
        split <;> exact ⟨hmode, hdecimal, hnext⟩
      obtain ⟨hmode', hdecimal', hnext'⟩ := hkept _ rfl
      rw [state_perform, TimerChannel.perform, TimerChannel.command, if_neg (by omega),
        if_pos hchannel, if_pos hlatch]
      exact ⟨hmode', hdecimal', rfl, hnext', TimerChannel.value_resolve_of_lt hticks⟩

/-- Read as hexadecimal digits, four digits are the same number as in decimal only if there are no
tens in either byte. -/
theorem tens_eq_zero {a b c d : Nat}
    (h : 100 * (16 * c + d) + (16 * a + b) = 1000 * c + 100 * d + 10 * a + b) : a = 0 ∧ c = 0 := by
  omega

/-- Two bytes of digits are what is read back, and denote the count they load, iff neither has a
tens digit. -/
theorem decimalLoad_iff (register : BitVec 16) {low high : Byte} (hlow : IsDecimal low)
    (hhigh : IsDecimal high) :
    let count := TimerChannel.decimalLoad register low high
    ((BitVec.ofNat 8 (count.toNat % 100) = low ∧ BitVec.ofNat 8 (count.toNat / 100) = high) ∧
      count.toNat = decimalNumber low high) ↔ low.toNat ≤ 9 ∧ high.toNat ≤ 9 := by
  intro count
  have hcount : count.toNat = _ := TimerChannel.toNat_decimalLoad register low high
  have hregister := register.isLt
  have hlt := high.isLt
  obtain ⟨hlowTens, hlowOnes⟩ := hlow
  obtain ⟨hhighTens, hhighOnes⟩ := hhigh
  rw [← BitVec.toNat_inj, ← BitVec.toNat_inj, BitVec.toNat_ofNat, BitVec.toNat_ofNat, hcount,
    decimalNumber]
  generalize hrest :
    (register.toNat - register.toNat % 100 + low.toNat) % 65536 % 100 = rest
  have hrestLt : rest < 100 := hrest ▸ Nat.mod_lt _ (by omega)
  have hmod : (100 * high.toNat + rest) % 100 = rest := by omega
  have hdiv : (100 * high.toNat + rest) / 100 = high.toNat := by omega
  rw [hmod, hdiv]
  constructor
  · -- the low byte is a remainder, so both sides are the same number split at 100
    rintro ⟨⟨hlow, -⟩, hnumber⟩
    have hrestEq : rest = low.toNat := by omega
    have hlowDigits := Nat.div_add_mod low.toNat 16
    have hhighDigits := Nat.div_add_mod high.toNat 16
    rw [hrestEq] at hnumber
    obtain ⟨hlowNone, hhighNone⟩ := tens_eq_zero (a := low.toNat / 16) (b := low.toNat % 16)
      (c := high.toNat / 16) (d := high.toNat % 16) (by rwa [hlowDigits, hhighDigits])
    rw [hlowNone] at hlowDigits
    rw [hhighNone] at hhighDigits
    exact ⟨by omega, by omega⟩
  · rintro ⟨hl, hh⟩
    -- one digit each: the old hundreds are replaced, and nothing wraps
    obtain ⟨q, hq⟩ : ∃ q, register.toNat - register.toNat % 100 = 100 * q :=
      ⟨register.toNat / 100, by omega⟩
    have hfits : 100 * q + low.toNat < 65536 := by omega
    rw [hq, Nat.mod_eq_of_lt hfits, Nat.mul_add_mod, Nat.mod_eq_of_lt (by omega)] at hrest
    omega

/-- **When decimal counts round-trip.** From any state, a decimal configure command for two bytes,
the bytes, a Counter Latch command within a tick period of the second one, and two reads: the bytes
are read back, and the count they load is the number that their digits denote, iff both are below
10. -/
theorem decimal_roundTrip_iff (t : ProgrammableIntervalTimer) (i : Fin 3) (command : Byte)
    (hchannel : (command.extractLsb' 6 2).toNat = i.val) (hdecimal : command.getLsbD 0 = true)
    (hmode : AccessMode.ofBits (command.extractLsb' 4 2) = .lowByteHighByte) (low high : Byte)
    (hlow : IsDecimal low) (hhigh : IsDecimal high) (op : TimerOperation)
    (hlatches : op.latchesCount i = true) (start first second latch third fourth : Nat)
    (hticks : latch - second < tickPeriod t.timerPrescaler) :
    let t₀ := t.after [(start, .writeCommand command), (first, .writeRegister i low),
      (second, .writeRegister i high)]
    let low' := (t₀.perform latch op).readRegister i third
    let high' := low'.2.readRegister i fourth
    ((low'.1 = low ∧ high'.1 = high) ∧ (t₀.state i).value.toNat = decimalNumber low high) ↔
      low.toNat ≤ 9 ∧ high.toNat ≤ 9 := by
  intro t₀ low' high'
  obtain ⟨hmode', hdecimal', hnext, hrecord, hvalue⟩ :=
    state_load_decimal t hchannel hdecimal hmode start first second low high
  have hprescaler : t₀.timerPrescaler = t.timerPrescaler := by
    simp only [t₀, after_cons, after_nil, timerPrescaler_perform]
  have hlatched := latchedDecimal_perform hmode' hdecimal' hnext
    (by rw [hrecord, hprescaler]; exact hticks) hlatches
  obtain ⟨hread, hlatched'⟩ := readRegister_decimal_low third hlatched
  have hread' := readRegister_decimal_high fourth hlatched'
  rw [show low'.1 = _ from hread, show high'.1 = _ from hread', hvalue]
  exact decimalLoad_iff _ hlow hhigh

/-- The two digits 4 and 7. -/
theorem decimal_roundTrip_iff_digits :
    let t := (init 0).after [(0, .writeCommand 0x35#8), (0, .writeRegister 0 0x07#8),
      (0, .writeRegister 0 0x04#8)]
    let low := (t.perform 40 (.writeCommand 0x00#8)).readRegister 0 400
    let high := low.2.readRegister 0 480
    (low.1 = 0x07#8 ∧ high.1 = 0x04#8) ∧ (t.state 0).value.toNat = 407 :=
  (decimal_roundTrip_iff (init 0) 0 0x35#8 (by decide) (by decide) (by decide) 0x07#8 0x04#8
    (by decide) (by decide) (.writeCommand 0x00#8) (by decide) 0 0 0 40 400 480 (by decide)).mpr
    (by decide)

/-- **The digits 99 are read back as 53.** The count 1299, written as `99` and `12`. -/
theorem not_decimal_roundTrip :
    ¬ ∀ (setup : List (Nat × TimerOperation)) (i : Fin 3) (command low high : Byte)
        (op : TimerOperation) (start first second latch third fourth : Nat),
      let t := (init 0).after setup
      let run := [(start, .writeCommand command), (first, .writeRegister i low),
        (second, .writeRegister i high)]
      Timed 0 (setup ++ run ++ [(latch, op), (third, .readRegister i), (fourth, .readRegister i)]) →
      (command.extractLsb' 6 2).toNat = i.val → command.getLsbD 0 = true →
      AccessMode.ofBits (command.extractLsb' 4 2) = .lowByteHighByte →
      IsDecimal low → IsDecimal high → op.latchesCount i = true →
      latch - second < tickPeriod t.timerPrescaler →
      let low' := ((t.after run).perform latch op).readRegister i third
      let high' := low'.2.readRegister i fourth
      (low'.1 = low ∧ high'.1 = high) ∧
        ((t.after run).state i).value.toNat = decimalNumber low high := by
  intro hclaim
  have hdigits := (hclaim [] 0 0x35#8 0x99#8 0x12#8 (.writeCommand 0x00#8) 0 0 0 0 0 0 (by decide)
    (by decide) (by decide) (by decide) (by decide) (by decide) (by decide) (by decide)).1.1
  exact absurd hdigits (by decide)

end ProgrammableIntervalTimer

end Ts3100
