import Ts3100.Rtc.Accesses

/-! # The alarms of the real-time clock

The guest writes and reads an alarm in the format that register B selects: BCD or binary, 24 hours or
12 hours with the afternoon marked in bit 7. The clock keeps the number that the byte denotes, so it
decodes what is written and encodes what is read.

* `Alarm.encode` — the byte that denotes a number in a format.
* `roundTrips_iff` — when a byte comes back, and denotes the same time after a change of the format:
  for all but 12 o'clock in a 12-hour format. -/

namespace Ts3100

open LabelledRuns

/-- The three alarms. -/
inductive Alarm where
  | seconds
  | minutes
  | hours
  deriving DecidableEq, Repr

namespace Alarm

/-- The index of an alarm. -/
def index : Alarm → Byte
  | .seconds => 1#8
  | .minutes => 3#8
  | .hours => 5#8

/-- How many numbers an alarm can be set to. -/
def bound : Alarm → Nat
  | .seconds | .minutes => 60
  | .hours => 24

/-- A number below 100 in binary, or in BCD. -/
def digits (binary : Bool) (n : Nat) : Byte :=
  if binary then BitVec.ofNat 8 n else BitVec.ofNat 8 (16 * (n / 10) + n % 10)

/-- The hour on the face of a 12-hour clock. -/
def clockFace (hour : Nat) : Nat := if hour % 12 = 0 then 12 else hour % 12

/-- Register B selects the 24-hour format. -/
def is24Hour (registerB : Byte) : Bool := registerB.getLsbD 1

/-- Register B selects binary values. -/
def isBinary (registerB : Byte) : Bool := registerB.getLsbD 2

/-- The byte that denotes a number, in the format that register B selects. -/
def encode (registerB : Byte) : Alarm → Nat → Byte
  | .seconds, n | .minutes, n => digits (isBinary registerB) n
  | .hours, hour =>
      if is24Hour registerB then
        digits (isBinary registerB) hour
      else
        -- bit 7 marks the afternoon
        digits (isBinary registerB) (clockFace hour) ||| if 12 ≤ hour then 0x80#8 else 0x00#8

/-- 12 o'clock, in a 12-hour format. -/
def IsTwelve (registerB : Byte) (alarm : Alarm) (n : Nat) : Prop :=
  alarm = .hours ∧ n % 12 = 0 ∧ is24Hour registerB = false

instance (registerB : Byte) (alarm : Alarm) (n : Nat) : Decidable (IsTwelve registerB alarm n) :=
  inferInstanceAs (Decidable (_ ∧ _ ∧ _))

end Alarm

namespace DS12887

variable {s s' : DS12887} {alarm : Alarm} {a : RtcAccess} {n : Nat}

/-- The number that the clock keeps for an alarm. -/
def alarmValue (s : DS12887) : Alarm → Byte
  | .seconds => s.secondsAlarm
  | .minutes => s.minutesAlarm
  | .hours => s.hoursAlarm

/-- The access does not write the alarm or register B. -/
def Spares (alarm : Alarm) (s : DS12887) : RtcAccess → Prop
  | .iowrite8 address _ =>
      address.getLsbD 0 = true → s.selectedRegister ≠ alarm.index ∧ s.selectedRegister ≠ 11#8
  | .ioread8 _ _ => True

instance (alarm : Alarm) (s : DS12887) (a : RtcAccess) : Decidable (Spares alarm s a) := by
  cases a <;> unfold Spares <;> infer_instance

/-- The alarm reads back as `value`, is kept as `n`, and reads as `n` in the format of `mode` once
register B is set to it. -/
structure Keeps (s : DS12887) (alarm : Alarm) (value : Byte) (n : Nat) (mode : Byte) : Prop where
  reads : ∀ tm, s.readIndex tm alarm.index = .ok value
  stored : s.alarmValue alarm = BitVec.ofNat 8 n
  switched : ∀ s', s.writeIndex 11#8 mode = .ok s' →
    ∀ tm, s'.readIndex tm alarm.index = .ok (alarm.encode mode n)

/-! ## Decoding -/

/-- A seconds or minutes alarm is decoded to the number it denotes. -/
theorem alarmOf_digits (s : DS12887) (hn : n < 60) :
    s.alarmOf (Alarm.digits s.dataMode n) 0x07#8 0x3f#8 = BitVec.ofNat 8 n := by
  unfold alarmOf
  generalize s.dataMode = binary
  revert n binary
  decide

/-- An hours alarm is decoded to the hour it denotes, except at 12 o'clock in a 12-hour format. -/
theorem hoursOf_encode_iff (s : DS12887) (hn : n < 24) :
    s.hoursOf (Alarm.encode s.registerB .hours n) = BitVec.ofNat 8 n ↔
      ¬ Alarm.IsTwelve s.registerB .hours n := by
  have hmode : s.twentyFourHourTime = Alarm.is24Hour s.registerB := rfl
  have hdata : s.dataMode = Alarm.isBinary s.registerB := rfl
  unfold hoursOf alarmOf Alarm.encode Alarm.IsTwelve
  rw [hmode, hdata]
  generalize Alarm.isBinary s.registerB = binary
  generalize Alarm.is24Hour s.registerB = is24
  revert n binary is24
  decide

/-! ## Encoding -/

/-- A seconds or minutes alarm is encoded in the current format. -/
theorem format_eq_digits (s : DS12887) (hn : n < 60) :
    s.format (BitVec.ofNat 8 n) = Alarm.digits s.dataMode n := by
  unfold format
  generalize s.dataMode = binary
  revert n binary
  decide

/-- An hours alarm is encoded in the current format, except at 12 o'clock in a 12-hour format. -/
theorem formatHour_eq_encode_iff (s : DS12887) (hn : n < 24) :
    s.formatHour (BitVec.ofNat 8 n) = Alarm.encode s.registerB .hours n ↔
      ¬ Alarm.IsTwelve s.registerB .hours n := by
  have hmode : s.twentyFourHourTime = Alarm.is24Hour s.registerB := rfl
  have hdata : s.dataMode = Alarm.isBinary s.registerB := rfl
  unfold formatHour format Alarm.encode Alarm.IsTwelve
  rw [hmode, hdata]
  generalize Alarm.isBinary s.registerB = binary
  generalize Alarm.is24Hour s.registerB = is24
  revert n binary is24
  decide

/-! ## Writes and reads -/

/-- What the data port shows of an alarm. -/
def shown (s : DS12887) : Alarm → Byte
  | .seconds => s.format s.secondsAlarm
  | .minutes => s.format s.minutesAlarm
  | .hours => s.formatHour s.hoursAlarm

/-- A read of an alarm shows it. -/
theorem readIndex_alarm (s : DS12887) (tm : CalendarTime) (alarm : Alarm) :
    s.readIndex tm alarm.index = .ok (s.shown alarm) := by
  rw [readIndex_eq]
  cases alarm <;> rfl

/-- A write of an alarm: the number it is decoded to. -/
theorem alarmValue_of_dataWrite {value : Byte} (hwrite : (s.select alarm.index).DataWrite value s') :
    s'.alarmValue alarm = match alarm with
      | .seconds | .minutes => s.alarmOf value 0x07#8 0x3f#8
      | .hours => s.hoursOf value := by
  cases alarm with
  | seconds => exact hwrite.secondsAlarm
  | minutes => exact hwrite.minutesAlarm
  | hours => exact hwrite.hoursAlarm

/-- A write at another index keeps an alarm. -/
theorem DataWrite.alarmValue_of_ne {value : Byte} (hwrite : s.DataWrite value s')
    (hne : s.selectedRegister ≠ alarm.index) : s'.alarmValue alarm = s.alarmValue alarm := by
  have hindex : s.selectedRegister.toNat ≠ alarm.index.toNat := fun h =>
    hne (BitVec.eq_of_toNat_eq h)
  cases alarm with
  | seconds => exact hwrite.secondsAlarm.trans (if_neg hindex)
  | minutes => exact hwrite.minutesAlarm.trans (if_neg hindex)
  | hours => exact hwrite.hoursAlarm.trans (if_neg hindex)

/-- **Step.** An access that spares an alarm and register B keeps them. -/
theorem alarmValue_access (hs : s.Valid) (hspares : Spares alarm s a) (h : s.access a = some s') :
    s'.alarmValue alarm = s.alarmValue alarm ∧ s'.registerB = s.registerB := by
  rcases access_cases hs h with ⟨address, value, rfl, -, rfl⟩ | ⟨address, value, rfl, haddress, hwrite⟩
    | ⟨-, rfl⟩
  · exact ⟨by cases alarm <;> rfl, rfl⟩
  · obtain ⟨hne, hneB⟩ := hspares haddress
    have hindex : s.selectedRegister.toNat ≠ 11 := fun h => hneB (BitVec.eq_of_toNat_eq h)
    exact ⟨hwrite.alarmValue_of_ne hne, hwrite.registerB.trans (if_neg hindex)⟩
  · exact ⟨rfl, rfl⟩

/-- **Run.** Accesses that spare an alarm and register B keep them. -/
theorem alarmValue_run {accesses : List RtcAccess} (hs : s.Valid)
    (hspares : StepsMeet access (Spares alarm) s accesses) (hrun : run access s accesses = some s') :
    s'.alarmValue alarm = s.alarmValue alarm ∧ s'.registerB = s.registerB := by
  have hkeeps : StatesMeet access (fun t => t.Valid ∧ t.alarmValue alarm = s.alarmValue alarm ∧
      t.registerB = s.registerB) s accesses := by
    refine statesMeet_of_stepsMeet ?_ ⟨hs, rfl, rfl⟩ hspares
    rintro t a t' ⟨ht, hvalue, hB⟩ hspare hstep
    obtain ⟨t₁, ht₁, hvalid⟩ := ht.access a
    obtain rfl : t₁ = t' := Option.some.inj (ht₁.symm.trans hstep)
    obtain ⟨hvalue', hB'⟩ := alarmValue_access ht hspare hstep
    exact ⟨hvalid, hvalue'.trans hvalue, hB'.trans hB⟩
  exact (hkeeps.last hrun).2

/-- The clock decodes a byte to the number that it denotes, but for 12 o'clock in a 12-hour format. -/
theorem alarmValue_encode_iff (hn : n < alarm.bound)
    (hwrite : (s.select alarm.index).DataWrite (alarm.encode s.registerB n) s') :
    s'.alarmValue alarm = BitVec.ofNat 8 n ↔ ¬ alarm.IsTwelve s.registerB n := by
  rw [alarmValue_of_dataWrite hwrite]
  cases alarm with
  | seconds => exact iff_of_true (alarmOf_digits s hn) (by simp [Alarm.IsTwelve])
  | minutes => exact iff_of_true (alarmOf_digits s hn) (by simp [Alarm.IsTwelve])
  | hours => exact hoursOf_encode_iff s hn

/-- The clock shows a number as the byte that denotes it, but for 12 o'clock in a 12-hour format. -/
theorem shown_eq_encode_iff (hn : n < alarm.bound) (hvalue : s.alarmValue alarm = BitVec.ofNat 8 n) :
    s.shown alarm = alarm.encode s.registerB n ↔ ¬ alarm.IsTwelve s.registerB n := by
  cases alarm with
  | seconds =>
      have hshown : s.shown .seconds = s.format (BitVec.ofNat 8 n) := congrArg s.format hvalue
      exact iff_of_true (hshown.trans (format_eq_digits s hn)) (by simp [Alarm.IsTwelve])
  | minutes =>
      have hshown : s.shown .minutes = s.format (BitVec.ofNat 8 n) := congrArg s.format hvalue
      exact iff_of_true (hshown.trans (format_eq_digits s hn)) (by simp [Alarm.IsTwelve])
  | hours =>
      have hshown : s.shown .hours = s.formatHour (BitVec.ofNat 8 n) := congrArg s.formatHour hvalue
      rw [hshown]
      exact formatHour_eq_encode_iff s hn

/-- **When an alarm time round-trips.** The guest writes the byte that denotes `n` in the current
format, accesses the clock without writing that alarm or register B, reads the alarm, switches the
format and reads it again. It gets the byte it wrote, and the byte that denotes `n` in the new format,
and the clock keeps `n`, iff `n` is not 12 o'clock in either format, the 12-hour one. -/
theorem roundTrips_iff (s : DS12887) (hn : n < alarm.bound) (mode : Byte) :
    ∃ s₁, s.writeIndex alarm.index (alarm.encode s.registerB n) = .ok s₁ ∧
      ∀ accesses, StepsMeet access (Spares alarm) s₁ accesses →
        ∃ s₂, run access s₁ accesses = some s₂ ∧
          (s₂.Keeps alarm (alarm.encode s.registerB n) n mode ↔
            ¬ alarm.IsTwelve s.registerB n ∧ ¬ alarm.IsTwelve mode n) := by
  obtain ⟨s₁, hwrite, hdata, hvalid⟩ := s.writeIndex_eq alarm.index (alarm.encode s.registerB n)
  refine ⟨s₁, hwrite, fun accesses hspares => ?_⟩
  obtain ⟨s₂, hrun, -⟩ := hvalid.run accesses
  obtain ⟨hvalue, hB⟩ := alarmValue_run hvalid hspares hrun
  have hB₁ : s₁.registerB = s.registerB := by
    rw [hdata.registerB, selectedRegister_select, if_neg]
    · rfl
    · cases alarm <;> decide
  rw [hB₁] at hB
  have hdecoded := alarmValue_encode_iff hn hdata
  rw [← hvalue] at hdecoded
  refine ⟨s₂, hrun, ?_⟩
  -- after the switch, the alarm and the new register B
  obtain ⟨s₃, hswitch, hdata₃, -⟩ := s₂.writeIndex_eq 11#8 mode
  have hvalue₃ : s₃.alarmValue alarm = s₂.alarmValue alarm := by
    rw [hdata₃.alarmValue_of_ne]
    · cases alarm <;> rfl
    · rw [selectedRegister_select]
      cases alarm <;> decide
  have hB₃ : s₃.registerB = mode := by
    rw [hdata₃.registerB, if_pos]
    rfl
  constructor
  · rintro ⟨-, hstored, hswitched⟩
    refine ⟨hdecoded.mp hstored, ?_⟩
    have hread := hswitched s₃ hswitch newYear
    rw [readIndex_alarm, ← hB₃] at hread
    rw [← hB₃]
    exact (shown_eq_encode_iff hn (hvalue₃.trans hstored)).mp (Except.ok.inj hread)
  · rintro ⟨htwelve, htwelve'⟩
    have hstored := hdecoded.mpr htwelve
    constructor
    · intro tm
      rw [readIndex_alarm, ← hB]
      rw [← hB] at htwelve
      exact congrArg _ ((shown_eq_encode_iff hn hstored).mpr htwelve)
    · exact hstored
    · intro s' hs' tm
      obtain rfl : s₃ = s' := Except.ok.inj (hswitch.symm.trans hs')
      rw [readIndex_alarm, ← hB₃]
      rw [← hB₃] at htwelve'
      exact congrArg _ ((shown_eq_encode_iff hn (hvalue₃.trans hstored)).mpr htwelve')

/-- The clock as constructed without a file. -/
def blank : DS12887 := { ram := fun _ => 0#8 }

/-- Accesses to the seconds alarm and to the clock's memory. -/
def otherAccesses : List RtcAccess :=
  [.iowrite8 0x70#16 1#8, .iowrite8 0x71#16 0x30#8, .iowrite8 0x70#16 0x20#8, .iowrite8 0x71#16 0x5A#8,
    .ioread8 newYear 0x71#16]

/-- An alarm at 7 in the evening, written in 12-hour BCD, and read in 24-hour binary after these
accesses. -/
theorem roundTrips_iff_evening : ∃ s₁, blank.writeIndex 5#8 0x87#8 = .ok s₁ ∧
    ∃ s₂, run access s₁ otherAccesses = some s₂ ∧ s₂.Keeps .hours 0x87#8 19 0x06#8 := by
  have hbound : 19 < Alarm.hours.bound := by decide
  obtain ⟨s₁, hwrite, hall⟩ := roundTrips_iff blank hbound 0x06#8
  have hspares : StepsMeet access (Spares .hours) s₁ otherAccesses := by
    obtain rfl := Except.ok.inj hwrite
    refine stepsMeet_cons.mpr ⟨by decide, fun s h => ?_⟩
    cases h
    refine stepsMeet_cons.mpr ⟨by decide, fun s h => ?_⟩
    cases h
    refine stepsMeet_cons.mpr ⟨by decide, fun s h => ?_⟩
    cases h
    refine stepsMeet_cons.mpr ⟨by decide, fun s h => ?_⟩
    cases h
    exact stepsMeet_cons.mpr ⟨by decide, fun s h => stepsMeet_nil⟩
  obtain ⟨s₂, hrun, hiff⟩ := hall otherAccesses hspares
  exact ⟨s₁, hwrite, s₂, hrun, hiff.mpr (by decide)⟩

/-- **Midnight.** Written as 12 AM, it is kept as 12 and reads back as 0 PM. -/
theorem not_roundTrips : ¬ ∀ (s : DS12887) (alarm : Alarm) (n : Nat) (mode : Byte), n < alarm.bound →
    ∃ s₁, s.writeIndex alarm.index (alarm.encode s.registerB n) = .ok s₁ ∧
      ∀ accesses, StepsMeet access (Spares alarm) s₁ accesses →
        ∃ s₂, run access s₁ accesses = some s₂ ∧
          s₂.Keeps alarm (alarm.encode s.registerB n) n mode := by
  intro hclaim
  obtain ⟨s₁, hwrite, hall⟩ := hclaim blank .hours 0 0x00#8 (by decide)
  obtain ⟨s₂, hrun, hkeeps⟩ := hall [] stepsMeet_nil
  obtain rfl : s₁ = s₂ := by simpa using hrun
  have hkept : s₁.hoursAlarm = 12#8 := by
    obtain rfl := Except.ok.inj hwrite
    rfl
  exact absurd (hkept.symm.trans hkeeps.stored) (by decide)

end DS12887

end Ts3100
