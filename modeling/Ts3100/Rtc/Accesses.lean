import Ts3100.Library.WriteLog
import Ts3100.Pio.Devices

/-! # Accesses to the real-time clock

The guest reaches the clock through an index port and a data port. `DS12887.access` is one access as a
step of a labelled system, and `DataWrite` says once what a write to the data port can change; what
happens to the alarms and to the memory over runs is read off it. -/

namespace Ts3100

open LabelledRuns

/-- An access of the guest; a read happens at a time. -/
inductive RtcAccess where
  | iowrite8 (address : BitVec 16) (value : Byte)
  | ioread8 (tm : CalendarTime) (address : BitVec 16)

namespace DS12887

variable {s s' : DS12887} {address : BitVec 16} {value index : Byte}

/-- The clock after an access, if it completes. -/
def access (s : DS12887) : RtcAccess → Option DS12887
  | .iowrite8 address value => (s.iowrite8 address value).toOption
  | .ioread8 tm address => (s.ioread8 tm address).toOption.map fun _ => s

/-- The guest selects an index and writes a byte there. -/
def writeIndex (s : DS12887) (index value : Byte) : Except PioFault DS12887 := do
  let s ← s.iowrite8 0x70#16 index
  s.iowrite8 0x71#16 value

/-- The guest selects an index and reads a byte there. -/
def readIndex (s : DS12887) (tm : CalendarTime) (index : Byte) : Except PioFault Byte := do
  let s ← s.iowrite8 0x70#16 index
  s.ioread8 tm 0x71#16

/-- The clock with a register selected. -/
def select (s : DS12887) (index : Byte) : DS12887 := { s with selectedRegister := index &&& 0x7F#8 }

/-- The index that is selected has seven bits. -/
@[simp] theorem selectedRegister_select (s : DS12887) (index : Byte) :
    (s.select index).selectedRegister = index &&& 0x7F#8 := rfl

/-- The position in the memory of an index, which is that of a byte of the memory. -/
def ramIndex (n : Nat) : Option (Fin 114) :=
  if h : 14 ≤ n ∧ n < 128 ∧ n ≠ 0x32 then some ⟨n - 14, by omega⟩ else none

/-- An hours alarm written in the current format. -/
def hoursOf (s : DS12887) (value : Byte) : Byte :=
  if !s.twentyFourHourTime then
    s.alarmOf value 0x03#8 0x1f#8 + (if value &&& 0x80#8 ≠ 0#8 then 12#8 else 0#8)
  else
    s.alarmOf value 0x03#8 0x1f#8

/-- What a write to the data port can change: the register that is selected. -/
structure DataWrite (s : DS12887) (value : Byte) (s' : DS12887) : Prop where
  selectedRegister : s'.selectedRegister = s.selectedRegister
  secondsAlarm : s'.secondsAlarm =
    if s.selectedRegister.toNat = 1 then s.alarmOf value 0x07#8 0x3f#8 else s.secondsAlarm
  minutesAlarm : s'.minutesAlarm =
    if s.selectedRegister.toNat = 3 then s.alarmOf value 0x07#8 0x3f#8 else s.minutesAlarm
  hoursAlarm : s'.hoursAlarm =
    if s.selectedRegister.toNat = 5 then s.hoursOf value else s.hoursAlarm
  registerB : s'.registerB = if s.selectedRegister.toNat = 11 then value else s.registerB
  ram : s'.ram = match ramIndex s.selectedRegister.toNat with
    | some i => Function.update s.ram i value
    | none => s.ram

/-! ## One access -/

/-- A write to the index port selects a register. -/
theorem iowrite8_index (haddress : address.getLsbD 0 = false) (value : Byte) :
    s.iowrite8 address value = .ok (s.select value) := by
  unfold iowrite8
  rw [haddress]
  rfl

/-- It is a valid one. -/
theorem Valid.select (s : DS12887) (index : Byte) : (s.select index).Valid := by
  have hle : (index &&& 0x7F#8).toNat ≤ 0x7F := by
    rw [BitVec.toNat_and]
    exact Nat.and_le_right
  show (index &&& 0x7F#8).toNat < 128
  omega

/-- **Inversion of a write to the data port.** -/
theorem dataWrite (hs : s.Valid) (haddress : address.getLsbD 0 = true)
    (h : s.iowrite8 address value = .ok s') : s.DataWrite value s' := by
  unfold iowrite8 at h
  rw [haddress] at h
  simp only [Bool.not_true, Bool.false_eq_true, if_false] at h
  unfold Valid at hs
  generalize hn : s.selectedRegister.toNat = n at h
  by_cases hram : 14 ≤ n ∧ n < 128 ∧ n ≠ 0x32
  · have hindex : ramIndex n = some ⟨n - 14, by omega⟩ := dif_pos hram
    split at h
    case h_16 =>
      simp only [writeRam, hn] at h
      rw [dif_pos (by omega)] at h
      cases h
      refine ⟨rfl, ?_, ?_, ?_, ?_, ?_⟩
      · exact (if_neg (by omega)).symm
      · exact (if_neg (by omega)).symm
      · exact (if_neg (by omega)).symm
      · exact (if_neg (by omega)).symm
      · simp only [hn, hindex]
    all_goals omega
  · have hregister : n < 14 ∨ n = 0x32 := by omega
    rcases hregister with hlt | rfl
    · interval_cases n <;> cases h <;> constructor <;> simp [hn, ramIndex, hoursOf]
    · cases h
      constructor <;> simp [hn, ramIndex]

/-- A read of the memory. -/
theorem ioread8_ram {tm : CalendarTime} {i : Fin 114} (haddress : address.getLsbD 0 = true)
    (hi : ramIndex s.selectedRegister.toNat = some i) : s.ioread8 tm address = .ok (s.ram i) := by
  unfold ramIndex at hi
  split at hi
  · rename_i hn
    obtain rfl := Option.some.inj hi
    unfold ioread8
    rw [haddress]
    simp only [Bool.not_true, Bool.false_eq_true, if_false]
    generalize hsel : s.selectedRegister.toNat = n at hn
    split
    case h_16 =>
      simp only [readRam, hsel]
      rw [dif_pos (by omega)]
    all_goals omega
  · cases hi

/-! ## Accesses as steps -/

/-- **Inversion of an access.** It selects a register, writes to the selected one, or changes
nothing. -/
theorem access_cases (hs : s.Valid) {a : RtcAccess} (h : s.access a = some s') :
    (∃ address value, a = .iowrite8 address value ∧ address.getLsbD 0 = false ∧
        s' = s.select value) ∨
      (∃ address value, a = .iowrite8 address value ∧ address.getLsbD 0 = true ∧
        s.DataWrite value s') ∨
      (∃ tm address, a = .ioread8 tm address) ∧ s' = s := by
  cases a with
  | iowrite8 address value =>
      rw [access] at h
      cases haddress : address.getLsbD 0 with
      | false =>
          rw [iowrite8_index haddress] at h
          exact Or.inl ⟨address, value, rfl, haddress, (Option.some.inj h).symm⟩
      | true =>
          obtain ⟨s₁, hwrite, -⟩ := hs.iowrite8 address value
          rw [hwrite] at h
          obtain rfl := Option.some.inj h
          exact Or.inr (Or.inl ⟨address, value, rfl, haddress, dataWrite hs haddress hwrite⟩)
  | ioread8 tm address =>
      obtain ⟨value, hread⟩ := hs.ioread8 tm address
      rw [access, hread] at h
      exact Or.inr (Or.inr ⟨⟨tm, address, rfl⟩, (Option.some.inj h).symm⟩)

/-- Every access completes, and keeps the index in range. -/
theorem Valid.access (hs : s.Valid) (a : RtcAccess) : ∃ s', s.access a = some s' ∧ s'.Valid := by
  cases a with
  | iowrite8 address value =>
      obtain ⟨s', hwrite, hs'⟩ := hs.iowrite8 address value
      exact ⟨s', by rw [DS12887.access, hwrite]; rfl, hs'⟩
  | ioread8 tm address =>
      obtain ⟨value, hread⟩ := hs.ioread8 tm address
      exact ⟨s, by rw [DS12887.access, hread]; rfl, hs⟩

/-- Sequences of accesses complete. -/
theorem Valid.run (hs : s.Valid) (accesses : List RtcAccess) :
    ∃ s', run DS12887.access s accesses = some s' ∧ s'.Valid := by
  induction accesses generalizing s with
  | nil => exact ⟨s, rfl, hs⟩
  | cons a accesses ih =>
      obtain ⟨s₁, hs₁, hvalid⟩ := hs.access a
      obtain ⟨s', hrun, hs'⟩ := ih hvalid
      exact ⟨s', by rw [run_cons, hs₁]; exact hrun, hs'⟩

/-- A byte written at an index. -/
theorem writeIndex_eq (s : DS12887) (index value : Byte) :
    ∃ s', s.writeIndex index value = .ok s' ∧ (s.select index).DataWrite value s' ∧ s'.Valid := by
  obtain ⟨s', hwrite, hs'⟩ := (Valid.select s index).iowrite8 0x71#16 value
  refine ⟨s', ?_, dataWrite (Valid.select s index) (by decide) hwrite, hs'⟩
  rw [writeIndex, iowrite8_index (by decide)]
  exact hwrite

/-- A byte read at an index. -/
theorem readIndex_eq (s : DS12887) (tm : CalendarTime) (index : Byte) :
    s.readIndex tm index = (s.select index).ioread8 tm 0x71#16 := by
  rw [readIndex, iowrite8_index (by decide)]
  rfl

end DS12887

end Ts3100
