import Ts3100.Rtc.Accesses

/-! # The time of the real-time clock

The clock shows the host's local time in its registers, in the format that register B selects, and the
century in BCD in any format. A guest reads the registers and decodes them.

* `ClockFormat`, `ClockFormat.decode` — what the registers denote.
* `clockFormat_of_run` — the format is the one the guest has last selected.
* `clock_of_run` — whatever the guest has written, the registers denote the local time, but for 12
  o'clock in a 12-hour format. -/

namespace Ts3100

open LabelledRuns WriteLog

/-! ## What the registers denote -/

/-- The format that register B selects. -/
structure ClockFormat where
  binary : Bool
  hours24 : Bool
  deriving DecidableEq, Repr

namespace ClockFormat

/-- The format for a value of register B. -/
def ofRegisterB (registerB : Byte) : ClockFormat where
  binary := registerB.getLsbD 2
  hours24 := registerB.getLsbD 1

/-- A number of two digits in BCD. -/
def bcd (b : Byte) : Nat := 10 * (b.toNat / 16) + b.toNat % 16

variable (f : ClockFormat)

/-- The number that a register denotes. -/
def number (b : Byte) : Nat := if f.binary then b.toNat else bcd b

/-- The hour that a register denotes. On the face of a 12-hour clock there is no 0, and the afternoon is
marked in bit 7. -/
def hour (b : Byte) : Option Nat :=
  if f.hours24 then
    some (f.number b)
  else
    let face := f.number (b &&& 0x7F#8)
    if 1 ≤ face ∧ face ≤ 12 then some (face % 12 + if b.getLsbD 7 then 12 else 0) else none

/-- The time that the registers for seconds, minutes, hours, weekday, day, month, year and century
denote. -/
def decode : List Byte → Option CalendarTime
  | [sec, min, hour, wday, mday, mon, year, century] =>
      (f.hour hour).map fun hour =>
        { sec := f.number sec
          min := f.number min
          hour := hour
          mday := f.number mday
          mon := f.number mon - 1
          year := bcd century * 100 + f.number year - 1900
          wday := wday.toNat - 1 }
  | _ => none

end ClockFormat

/-- The fields are in their ranges, as `localtime` returns them, in a year of four digits. -/
structure CalendarTime.Valid (tm : CalendarTime) : Prop where
  sec : tm.sec ≤ 60
  min : tm.min < 60
  hour : tm.hour < 24
  mday : 1 ≤ tm.mday ∧ tm.mday ≤ 31
  mon : tm.mon < 12
  year : tm.year < 8100
  wday : tm.wday < 7

instance (tm : CalendarTime) : Decidable tm.Valid :=
  decidable_of_iff (tm.sec ≤ 60 ∧ tm.min < 60 ∧ tm.hour < 24 ∧ (1 ≤ tm.mday ∧ tm.mday ≤ 31) ∧
      tm.mon < 12 ∧ tm.year < 8100 ∧ tm.wday < 7)
    ⟨fun ⟨hs, hm, hh, hd, hmon, hy, hw⟩ => ⟨hs, hm, hh, hd, hmon, hy, hw⟩,
      fun h => ⟨h.sec, h.min, h.hour, h.mday, h.mon, h.year, h.wday⟩⟩

namespace DS12887

variable {s s' : DS12887} {tm : CalendarTime}

/-- The format that the clock is in. -/
def clockFormat (s : DS12887) : ClockFormat := .ofRegisterB s.registerB

/-- The guest selects and reads the registers of the clock one after the other. -/
def readClock (s : DS12887) (tm : CalendarTime) : Except PioFault (List Byte) :=
  [0#8, 2#8, 4#8, 6#8, 7#8, 8#8, 9#8, 0x32#8].mapM (s.readIndex tm)

/-! ## Reading -/

/-- What the registers show. -/
theorem readClock_eq (s : DS12887) (tm : CalendarTime) :
    s.readClock tm = .ok
      [s.format (BitVec.ofNat 8 tm.sec), s.format (BitVec.ofNat 8 tm.min),
        s.formatHour (BitVec.ofNat 8 tm.hour), BitVec.ofNat 8 (tm.wday + 1),
        s.format (BitVec.ofNat 8 tm.mday), s.format (BitVec.ofNat 8 (tm.mon + 1)),
        s.format (BitVec.ofNat 8 (tm.year % 100)),
        mapToBCD (BitVec.ofNat 8 ((tm.year + 1900) / 100))] := by
  have hsub (index : Byte) : s.readIndex tm index = (s.select index).ioread8 tm 0x71#16 :=
    readIndex_eq s tm index
  simp only [readClock, List.mapM_cons, List.mapM_nil, hsub]
  rfl

/-- A number of two digits is denoted by what shows it. -/
theorem number_format {n : Nat} (hn : n < 100) :
    s.clockFormat.number (s.format (BitVec.ofNat 8 n)) = n := by
  have hmode : s.dataMode = s.clockFormat.binary := rfl
  unfold format ClockFormat.number ClockFormat.bcd
  rw [hmode]
  generalize s.clockFormat.binary = binary
  revert n binary
  decide

/-- A number below 100 is what its BCD digits denote. -/
theorem bcd_mapToBCD {n : Nat} (hn : n < 100) : ClockFormat.bcd (mapToBCD (BitVec.ofNat 8 n)) = n := by
  revert n
  decide

/-- An hour is denoted by what shows it, but for 12 o'clock in a 12-hour format. -/
theorem hour_formatHour (htm : tm.hour < 24) :
    s.clockFormat.hour (s.formatHour (BitVec.ofNat 8 tm.hour)) =
      if tm.hour % 12 = 0 ∧ s.clockFormat.hours24 = false then none else some tm.hour := by
  have hmode : s.dataMode = s.clockFormat.binary := rfl
  have hhours : s.twentyFourHourTime = s.clockFormat.hours24 := rfl
  unfold formatHour format ClockFormat.hour ClockFormat.number ClockFormat.bcd
  rw [hmode, hhours]
  generalize s.clockFormat.binary = binary
  generalize s.clockFormat.hours24 = hours24
  generalize tm.hour = n at htm
  revert n binary hours24
  decide

/-- **The registers denote the local time**, but for 12 o'clock in a 12-hour format, which they show as
an hour 0 that the face of a clock does not have. -/
theorem decode_readClock (s : DS12887) (htm : tm.Valid) :
    ∃ bytes, s.readClock tm = .ok bytes ∧
      s.clockFormat.decode bytes =
        if tm.hour % 12 = 0 ∧ s.clockFormat.hours24 = false then none else some tm := by
  refine ⟨_, readClock_eq s tm, ?_⟩
  obtain ⟨hsec, hmin, hhour, ⟨hmday, hmday'⟩, hmon, hyear, hwday⟩ := htm
  have hwday' : (BitVec.ofNat 8 (tm.wday + 1)).toNat = tm.wday + 1 := by
    rw [BitVec.toNat_ofNat]
    omega
  have hyear' : (tm.year + 1900) / 100 * 100 + tm.year % 100 - 1900 = tm.year := by omega
  rw [ClockFormat.decode, hour_formatHour hhour, number_format (by omega), number_format (by omega),
    number_format (by omega), number_format (by omega), number_format (by omega),
    bcd_mapToBCD (by omega), hwday', hyear', Nat.add_sub_cancel, Nat.add_sub_cancel]
  split <;> rfl

/-! ## Over a run -/

/-- The value that an access writes to register B. -/
def registerBWrites (s : DS12887) : RtcAccess → List (Unit × Byte)
  | .iowrite8 address value =>
      if address.getLsbD 0 = true ∧ s.selectedRegister.toNat = 11 then [((), value)] else []
  | .ioread8 _ _ => []

/-- The format that the guest has last selected in a run, or that of the start. -/
def formatAfter (s : DS12887) (accesses : List RtcAccess) : ClockFormat :=
  .ofRegisterB (contents (fun _ => s.registerB) (logOf access registerBWrites s accesses) ())

/-- **Step.** Register B holds what was last written to it. -/
theorem registerB_access (hs : s.Valid) {a : RtcAccess} (h : s.access a = some s') :
    s'.Valid ∧ s'.registerB = contents (fun _ => s.registerB) (s.registerBWrites a) () := by
  obtain ⟨s₁, hs₁, hvalid⟩ := hs.access a
  obtain rfl := Option.some.inj (h.symm.trans hs₁)
  refine ⟨hvalid, ?_⟩
  rcases access_cases hs h with
    ⟨address, value, rfl, haddress, rfl⟩ | ⟨address, value, rfl, haddress, hwrite⟩ |
      ⟨⟨tm, address, rfl⟩, rfl⟩
  · have hindex : ¬ (address.getLsbD 0 = true ∧ s.selectedRegister.toNat = 11) := by
      rw [haddress]
      exact fun h => Bool.false_ne_true h.1
    rw [registerBWrites, if_neg hindex]
    rfl
  · rw [hwrite.registerB, registerBWrites]
    by_cases hselected : s.selectedRegister.toNat = 11
    · rw [if_pos hselected, if_pos ⟨haddress, hselected⟩]
      rfl
    · rw [if_neg hselected, if_neg fun h => hselected h.2]
      rfl
  · rfl

/-- Over a run, the clock is in the format that the guest has last selected. -/
theorem clockFormat_of_run {accesses : List RtcAccess} (hs : s.Valid)
    (hrun : run access s accesses = some s') : s'.clockFormat = s.formatAfter accesses := by
  have hstep : ∀ (s : DS12887) (a : RtcAccess) (s' : DS12887) (cells : Unit → Byte),
      (s.Valid ∧ (fun _ => s.registerB) = cells) → s.access a = some s' →
        s'.Valid ∧ (fun _ => s'.registerB) = contents cells (s.registerBWrites a) := by
    rintro s a s' _ ⟨hs, rfl⟩ haccess
    obtain ⟨hs', hregister⟩ := registerB_access hs haccess
    exact ⟨hs', funext fun _ => hregister⟩
  obtain ⟨-, hregister⟩ := rel_of_run hstep ⟨hs, rfl⟩ hrun
  rw [clockFormat, formatAfter, ← hregister]

/-- **The time that the guest reads.** Whatever the guest has written to the clock before, the eight
registers denote the host's local time in the format that it has last selected, but for 12 o'clock in
a 12-hour format, which they show as an hour 0 that the face of a clock does not have. -/
theorem clock_of_run {accesses : List RtcAccess} (hs : s.Valid)
    (hrun : run access s accesses = some s') (htm : tm.Valid) :
    ∃ bytes, s'.readClock tm = .ok bytes ∧
      (s.formatAfter accesses).decode bytes =
        if tm.hour % 12 = 0 ∧ (s.formatAfter accesses).hours24 = false then none else some tm := by
  rw [← clockFormat_of_run hs hrun]
  exact decode_readClock s' htm

/-- The guest selects binary values and 24 hours, and tries to set the seconds: at midnight on January 1
it reads midnight. -/
theorem clock_of_run_newYear :
    let s : DS12887 := { ram := fun _ => 0#8 }
    let accesses : List RtcAccess :=
      [.iowrite8 0x70#16 11#8, .iowrite8 0x71#16 0x06#8, .iowrite8 0x70#16 0#8,
        .iowrite8 0x71#16 0x30#8]
    ∃ s', run access s accesses = some s' ∧ ∃ bytes, s'.readClock newYear = .ok bytes ∧
      (s.formatAfter accesses).decode bytes =
        if newYear.hour % 12 = 0 ∧ (s.formatAfter accesses).hours24 = false then none
        else some newYear := by
  intro s accesses
  have hs : s.Valid := by
    show (0 : Nat) < 128
    decide
  obtain ⟨s', hrun, -⟩ := hs.run accesses
  exact ⟨s', hrun, clock_of_run hs hrun (by decide)⟩

end DS12887

end Ts3100
