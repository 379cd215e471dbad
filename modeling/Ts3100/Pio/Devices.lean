import Ts3100.Serial.Device

/-! # Devices behind I/O ports

`DevicePio` is the interface of a device: eight accessors, for reads and writes of 8 to 64 bits, each
of which throws unless the device overrides it. `performKVMExitOperation` calls the one for a port
access. This file models the interface and the devices on it: the clock prescaler, the chip select
units, the hex display, the serial ports and the real-time clock. -/

namespace Ts3100

/-- Why an access to a port does not complete. -/
inductive PioFault where
  | assertionFailed
  | runtimeError (message : String)
  /-- an index outside the clock's `ram` -/
  | ramOutOfBounds
  /-- a copy that leaves the disk's LBA register -/
  | copyOutOfBounds
  /-- `SIGPIPE`, on a write to a socket whose peer has closed it -/
  | brokenPipe
  deriving DecidableEq, Repr

/-! ## The interface -/

/-- `DevicePio`: the virtual accessors with the base class's bodies as defaults. -/
structure DevicePio (σ : Type) where
  iowrite8 : σ → BitVec 16 → BitVec 8 → Except PioFault σ := fun _ _ _ =>
    .error (.runtimeError "iowrite8 is unimplemented for this device")
  iowrite16 : σ → BitVec 16 → BitVec 16 → Except PioFault σ := fun _ _ _ =>
    .error (.runtimeError "iowrite16 is unimplemented for this device")
  iowrite32 : σ → BitVec 16 → BitVec 32 → Except PioFault σ := fun _ _ _ =>
    .error (.runtimeError "iowrite32 is unimplemented for this device")
  iowrite64 : σ → BitVec 16 → BitVec 64 → Except PioFault σ := fun _ _ _ =>
    .error (.runtimeError "iowrite64 is unimplemented for this device")
  ioread8 : σ → BitVec 16 → Except PioFault (BitVec 8 × σ) := fun _ _ =>
    .error (.runtimeError "ioread8 is unimplemented for this device")
  ioread16 : σ → BitVec 16 → Except PioFault (BitVec 16 × σ) := fun _ _ =>
    .error (.runtimeError "ioread16 is unimplemented for this device")
  ioread32 : σ → BitVec 16 → Except PioFault (BitVec 32 × σ) := fun _ _ =>
    .error (.runtimeError "ioread32 is unimplemented for this device")
  ioread64 : σ → BitVec 16 → Except PioFault (BitVec 64 × σ) := fun _ _ =>
    .error (.runtimeError "ioread64 is unimplemented for this device")

/-- The little-endian word in the first `n` bytes of a buffer. -/
def wordAt (n : Nat) (data : List Byte) : BitVec (8 * n) :=
  (List.range n).foldr (fun i w => w <<< 8 ||| (data.getD i 0#8).setWidth (8 * n)) 0

/-- The `n` bytes of a word, little-endian. -/
def wordBytes (n : Nat) (w : BitVec (8 * n)) : List Byte :=
  (List.range n).map fun i => w.extractLsb' (8 * i) 8

namespace DevicePio

variable {σ τ : Type}

/-- `performKVMExitOperation`: the device after the access and the bytes left in the buffer. -/
def performKVMExitOperation (d : DevicePio σ) (s : σ) (isWrite : Bool) (address : BitVec 16)
    (data : List Byte) (length : Nat) : Except PioFault (σ × List Byte) :=
  match length with
  | 1 =>
      if isWrite then
        (d.iowrite8 s address (wordAt 1 data)).map (·, data)
      else
        (d.ioread8 s address).map fun (v, s) => (s, wordBytes 1 v ++ data.drop 1)
  | 2 =>
      if isWrite then
        (d.iowrite16 s address (wordAt 2 data)).map (·, data)
      else
        (d.ioread16 s address).map fun (v, s) => (s, wordBytes 2 v ++ data.drop 2)
  | 4 =>
      if isWrite then
        (d.iowrite32 s address (wordAt 4 data)).map (·, data)
      else
        (d.ioread32 s address).map fun (v, s) => (s, wordBytes 4 v ++ data.drop 4)
  | 8 =>
      if isWrite then
        (d.iowrite64 s address (wordAt 8 data)).map (·, data)
      else
        (d.ioread64 s address).map fun (v, s) => (s, wordBytes 8 v ++ data.drop 8)
  | _ => .error (.runtimeError "oddly sized operation length.")

/-- A device as part of a larger state. -/
def lift (d : DevicePio σ) (get : τ → σ) (set : τ → σ → τ) : DevicePio τ where
  iowrite8 s address data := (d.iowrite8 (get s) address data).map (set s)
  iowrite16 s address data := (d.iowrite16 (get s) address data).map (set s)
  iowrite32 s address data := (d.iowrite32 (get s) address data).map (set s)
  iowrite64 s address data := (d.iowrite64 (get s) address data).map (set s)
  ioread8 s address := (d.ioread8 (get s) address).map fun (v, s') => (v, set s s')
  ioread16 s address := (d.ioread16 (get s) address).map fun (v, s') => (v, set s s')
  ioread32 s address := (d.ioread32 (get s) address).map fun (v, s') => (v, set s s')
  ioread64 s address := (d.ioread64 (get s) address).map fun (v, s') => (v, set s s')

/-- A device as part of a larger state does what it does on its own. -/
theorem performKVMExitOperation_lift (d : DevicePio σ) (get : τ → σ) (set : τ → σ → τ) (s : τ)
    (isWrite : Bool) (address : BitVec 16) (data : List Byte) (length : Nat) :
    (d.lift get set).performKVMExitOperation s isWrite address data length =
      (d.performKVMExitOperation (get s) isWrite address data length).map
        fun r => (set s r.1, r.2) := by
  have hwrite : ∀ result : Except PioFault σ,
      ((result.map (set s)).map (·, data)) =
        (result.map (·, data)).map fun r => (set s r.1, r.2) := by
    intro result
    cases result <;> rfl
  have hread : ∀ (n : Nat) (result : Except PioFault (BitVec (8 * n) × σ)),
      ((result.map fun (v, s') => (v, set s s')).map
          fun (v, s) => (s, wordBytes n v ++ data.drop n)) =
        (result.map fun (v, s) => (s, wordBytes n v ++ data.drop n)).map
          fun r => (set s r.1, r.2) := by
    intro n result
    cases result <;> rfl
  unfold performKVMExitOperation
  split
  · split
    · exact hwrite _
    · exact hread 1 _
  · split
    · exact hwrite _
    · exact hread 2 _
  · split
    · exact hwrite _
    · exact hread 4 _
  · split
    · exact hwrite _
    · exact hread 8 _
  · rfl

/-- A read fills a buffer of its size, whatever was in it. -/
theorem performKVMExitOperation_read (d : DevicePio σ) (s : σ) (address : BitVec 16)
    {data buffer : List Byte} {length : Nat} (hdata : data.length = length)
    (hbuffer : buffer.length = length) :
    d.performKVMExitOperation s false address data length =
      d.performKVMExitOperation s false address buffer length := by
  have hdrop : ∀ n, length = n → data.drop n = buffer.drop n := by
    rintro n rfl
    rw [List.drop_of_length_le (by omega), List.drop_of_length_le (by omega)]
  unfold performKVMExitOperation
  split
  · rw [hdrop 1 rfl]
    rfl
  · rw [hdrop 2 rfl]
    rfl
  · rw [hdrop 4 rfl]
    rfl
  · rw [hdrop 8 rfl]
    rfl
  · rfl

end DevicePio

/-! ## The clock prescaler -/

/-- `i386EXClockPrescaler`; no device is attached to it, so a write reaches no `setPrescaler`. -/
structure ClockPrescaler where
  prescaler : BitVec 16 := 0#16
  deriving DecidableEq, Repr

namespace ClockPrescaler

/-- `prescalerByte[address & 1] = data`. -/
def iowrite8 (s : ClockPrescaler) (address : BitVec 16) (data : Byte) : ClockPrescaler :=
  if address.getLsbD 0 then
    { s with prescaler := data ++ s.prescaler.extractLsb' 0 8 }
  else
    { s with prescaler := s.prescaler.extractLsb' 8 8 ++ data }

/-- `prescalerByte[address & 1]`. -/
def ioread8 (s : ClockPrescaler) (address : BitVec 16) : Byte :=
  if address.getLsbD 0 then s.prescaler.extractLsb' 8 8 else s.prescaler.extractLsb' 0 8

/-- The prescaler's accessors, of 8 and 16 bits. -/
def pio : DevicePio ClockPrescaler where
  iowrite8 s address data := .ok (s.iowrite8 address data)
  iowrite16 s _ data := .ok { s with prescaler := data }
  ioread8 s address := .ok (s.ioread8 address, s)
  ioread16 s _ := .ok (s.prescaler, s)

end ClockPrescaler

/-! ## Chip select units -/

/-- The registers of `ChipSelectUnit`. -/
structure ChipSelectUnit where
  addressLowRegister : BitVec 16 := 0#16
  addressHighRegister : BitVec 16 := 0#16
  addressMaskLowRegister : BitVec 16 := 0#16
  addressMaskHighRegister : BitVec 16 := 0#16
  deriving DecidableEq, Repr

namespace ChipSelectUnit

/-- `iowrite16`. -/
def iowrite16 (s : ChipSelectUnit) (address : BitVec 16) (value : BitVec 16) : ChipSelectUnit :=
  match (address &&& 0x7#16).toNat with
  | 0 => { s with addressLowRegister := value }
  | 2 => { s with addressHighRegister := value }
  | 4 => { s with addressMaskLowRegister := value }
  | 6 => { s with addressMaskHighRegister := value }
  | _ => s

/-- `ioread16`. -/
def ioread16 (s : ChipSelectUnit) (address : BitVec 16) : BitVec 16 :=
  match (address &&& 0x7#16).toNat with
  | 0 => s.addressLowRegister
  | 2 => s.addressHighRegister
  | 4 => s.addressMaskLowRegister
  | 6 => s.addressMaskHighRegister
  | _ => 0xffff#16

/-- A unit's accessors, of 16 bits only. -/
def pio : DevicePio ChipSelectUnit where
  iowrite16 s address value := .ok (s.iowrite16 address value)
  ioread16 s address := .ok (s.ioread16 address, s)

end ChipSelectUnit

/-! ## The hex display and the serial ports -/

/-- `HexDisplay`: writes of all sizes, which are printed, and no reads. -/
def HexDisplay.pio : DevicePio Unit where
  iowrite8 s _ _ := .ok s
  iowrite16 s _ _ := .ok s
  iowrite32 s _ _ := .ok s
  iowrite64 s _ _ := .ok s

namespace Serial16450

/-- The access transmits a byte while the peer of some client has closed its socket. -/
def WritesBrokenPipe (s : Serial16450) (address : BitVec 16) : Prop :=
  Register.ofAddress address = .dataDivisorLowByte ∧ s.registers.dlab = false ∧
    ∃ fd ∈ s.clients.toList, (s.sockets fd).closed = true

instance (s : Serial16450) (address : BitVec 16) : Decidable (s.WritesBrokenPipe address) :=
  inferInstanceAs (Decidable (_ ∧ _ ∧ _))

/-- A serial port's accessors, of 8 bits only. `SIGPIPE` is not ignored. -/
def pio : DevicePio Serial16450 where
  iowrite8 s address data :=
    if s.WritesBrokenPipe address then .error .brokenPipe else .ok (s.iowrite8 address data)
  ioread8 s address := .ok (s.ioread8 address)

end Serial16450

/-! ## The real-time clock -/

/-- The fields of `struct tm` that the clock shows, as `localtime` returns them. -/
structure CalendarTime where
  sec : Nat
  min : Nat
  hour : Nat
  mday : Nat
  mon : Nat
  /-- years since 1900 -/
  year : Nat
  wday : Nat
  deriving DecidableEq, Repr

/-- Midnight on January 1, 2021. -/
def newYear : CalendarTime := ⟨0, 0, 0, 1, 0, 121, 5⟩

/-- `DS12887`: the alarm and control registers and the battery-backed memory. -/
structure DS12887 where
  secondsAlarm : Byte := 0#8
  minutesAlarm : Byte := 0#8
  hoursAlarm : Byte := 0#8
  registerA : Byte := 0#8
  registerB : Byte := 0#8
  registerC : Byte := 0#8
  /-- `validRamAndTime` is its top bit -/
  registerD : Byte := 0x80#8
  selectedRegister : Byte := 0#8
  ram : Fin 114 → Byte

/-- `mapToBCD`. -/
def mapToBCD (value : Byte) : Byte := ((value / 10#8) <<< 4) + ((value % 10#8) &&& 0x0f#8)

namespace DS12887

/-- `registers.B.twentyFourHourTime`. -/
def twentyFourHourTime (s : DS12887) : Bool := s.registerB.getLsbD 1

/-- `registers.B.DataMode`: values are binary, not BCD. -/
def dataMode (s : DS12887) : Bool := s.registerB.getLsbD 2

/-- A seconds or minutes alarm written in the current format, with `tens` the bits of the tens. -/
def alarmOf (s : DS12887) (value tens binary : Byte) : Byte :=
  if !s.dataMode then (value &&& 0x0f#8) + 10#8 * ((value >>> 4) &&& tens) else value &&& binary

/-- A byte of the memory is written. -/
def writeRam (s : DS12887) (value : Byte) : Except PioFault DS12887 :=
  if h : s.selectedRegister.toNat - 14 < 114 then
    .ok { s with ram := Function.update s.ram ⟨s.selectedRegister.toNat - 14, h⟩ value }
  else
    .error .ramOutOfBounds

/-- `iowrite8`. -/
def iowrite8 (s : DS12887) (address : BitVec 16) (value : Byte) : Except PioFault DS12887 :=
  if !address.getLsbD 0 then
    .ok { s with selectedRegister := value &&& 0x7F#8 }
  else
    match s.selectedRegister.toNat with
    | 0 | 2 | 4 | 6 | 7 | 8 | 9 => .ok s
    | 1 => .ok { s with secondsAlarm := s.alarmOf value 0x07#8 0x3f#8 }
    | 3 => .ok { s with minutesAlarm := s.alarmOf value 0x07#8 0x3f#8 }
    | 5 =>
        let hours := s.alarmOf value 0x03#8 0x1f#8
        .ok { s with
          hoursAlarm :=
            if !s.twentyFourHourTime then
              hours + (if value &&& 0x80#8 ≠ 0#8 then 12#8 else 0#8)
            else
              hours }
    | 10 => .ok { s with registerA := value &&& 0x7f#8 }
    | 11 => .ok { s with registerB := value }
    | 12 | 13 => .ok s
    | 0x32 => .ok s
    | _ => s.writeRam value

/-- A value in the current format. -/
def format (s : DS12887) (value : Byte) : Byte := if !s.dataMode then mapToBCD value else value

/-- An hour in the current format; the top bit marks the afternoon in 12-hour mode. -/
def formatHour (s : DS12887) (hour : Byte) : Byte :=
  if s.twentyFourHourTime then
    s.format hour
  else
    s.format (hour % 12#8) + (if hour / 12#8 ≠ 0#8 then 0x80#8 else 0x00#8)

/-- A byte of the memory is read. -/
def readRam (s : DS12887) : Except PioFault Byte :=
  if h : s.selectedRegister.toNat - 14 < 114 then
    .ok (s.ram ⟨s.selectedRegister.toNat - 14, h⟩)
  else
    .error .ramOutOfBounds

/-- `ioread8`, at the time `tm`. -/
def ioread8 (s : DS12887) (tm : CalendarTime) (address : BitVec 16) : Except PioFault Byte :=
  if !address.getLsbD 0 then
    .ok 0#8
  else
    match s.selectedRegister.toNat with
    | 0 => .ok (s.format (BitVec.ofNat 8 tm.sec))
    | 1 => .ok (s.format s.secondsAlarm)
    | 2 => .ok (s.format (BitVec.ofNat 8 tm.min))
    | 3 => .ok (s.format s.minutesAlarm)
    | 4 => .ok (s.formatHour (BitVec.ofNat 8 tm.hour))
    | 5 => .ok (s.formatHour s.hoursAlarm)
    | 6 => .ok (BitVec.ofNat 8 (tm.wday + 1))
    | 7 => .ok (s.format (BitVec.ofNat 8 tm.mday))
    | 8 => .ok (s.format (BitVec.ofNat 8 (tm.mon + 1)))
    | 9 => .ok (s.format (BitVec.ofNat 8 (tm.year % 100)))
    | 0x32 => .ok (mapToBCD (BitVec.ofNat 8 ((tm.year + 1900) / 100)))
    | 10 => .ok s.registerA
    | 11 => .ok s.registerB
    | 12 => .ok s.registerC
    | 13 => .ok s.registerD
    | _ => s.readRam

/-- The clock's accessors, of 8 bits only, at the time `tm`. -/
def pio (tm : CalendarTime) : DevicePio DS12887 where
  iowrite8 s address value := s.iowrite8 address value
  ioread8 s address := (s.ioread8 tm address).map (·, s)

/-- The index register selects a register or a byte of the memory. -/
def Valid (s : DS12887) : Prop := s.selectedRegister.toNat < 128

/-- A write to the clock's memory has an index inside it. -/
theorem Valid.writeRam {s : DS12887} (h : s.Valid) (value : Byte) :
    ∃ s', s.writeRam value = .ok s' ∧ s'.Valid := by
  unfold Valid at h
  have hindex : s.selectedRegister.toNat - 14 < 114 := by omega
  rw [DS12887.writeRam, dif_pos hindex]
  exact ⟨_, rfl, h⟩

/-- So does a read. -/
theorem Valid.readRam {s : DS12887} (h : s.Valid) : ∃ value, s.readRam = .ok value := by
  unfold Valid at h
  have hindex : s.selectedRegister.toNat - 14 < 114 := by omega
  rw [DS12887.readRam, dif_pos hindex]
  exact ⟨_, rfl⟩

/-- Writes complete, and keep the index in range. -/
theorem Valid.iowrite8 {s : DS12887} (h : s.Valid) (address : BitVec 16) (value : Byte) :
    ∃ s', s.iowrite8 address value = .ok s' ∧ s'.Valid := by
  unfold DS12887.iowrite8
  split
  · refine ⟨_, rfl, ?_⟩
    show (value &&& 0x7F#8).toNat < 128
    have hle : (value &&& 0x7F#8).toNat ≤ 0x7F := by
      rw [BitVec.toNat_and]
      exact Nat.and_le_right
    omega
  · split <;> first | exact ⟨_, rfl, h⟩ | exact h.writeRam value

/-- Reads complete. -/
theorem Valid.ioread8 {s : DS12887} (h : s.Valid) (tm : CalendarTime) (address : BitVec 16) :
    ∃ value, s.ioread8 tm address = .ok value := by
  unfold DS12887.ioread8
  split
  · exact ⟨_, rfl⟩
  · split <;> first | exact ⟨_, rfl⟩ | exact h.readRam

end DS12887

end Ts3100
