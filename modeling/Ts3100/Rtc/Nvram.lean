import Ts3100.Rtc.Accesses

/-! # The memory of the real-time clock

The 114 bytes of memory behind the clock's registers are battery-backed: the constructor reads them
from `roms/cmos.bin`, and the destructor writes them back. A run interleaves accesses of the guest
with restarts of the emulator, whose file operations succeed. `ram_run` is its specification: the
memory holds what was last written to it. -/

namespace Ts3100

open LabelledRuns WriteLog

/-- What can happen to the clock. -/
inductive RtcEvent where
  | access (a : RtcAccess)
  /-- an orderly shutdown and the next start -/
  | restart

/-- The clock and the contents of `roms/cmos.bin`. -/
structure BatteryBackedClock where
  device : DS12887
  cmos : Fin 114 → Byte

namespace BatteryBackedClock

open DS12887

variable {s s' : BatteryBackedClock} {e : RtcEvent}

/-- The constructor, with a file of 114 bytes. -/
def construct (cmos : Fin 114 → Byte) : BatteryBackedClock := ⟨{ ram := cmos }, cmos⟩

/-- The destructor: the memory is written to the file. -/
def destruct (s : BatteryBackedClock) : Fin 114 → Byte := s.device.ram

/-- One event; none if an access leaves the memory. -/
def step (s : BatteryBackedClock) : RtcEvent → Option BatteryBackedClock
  | .access a => (s.device.access a).map fun device => { s with device }
  | .restart => some (construct s.destruct)

/-- The byte of the memory that an event writes, with the value. -/
def ramWrites (s : BatteryBackedClock) : RtcEvent → List (Fin 114 × Byte)
  | .access (.iowrite8 address value) =>
      if address.getLsbD 0 then
        ((ramIndex s.device.selectedRegister.toNat).map fun i => (i, value)).toList
      else
        []
  | _ => []

/-- An access while a register is selected changes no byte of the memory. -/
def RegistersSpareRam (s : BatteryBackedClock) (e : RtcEvent) : Prop :=
  ∀ a, e = .access a → ramIndex s.device.selectedRegister.toNat = none →
    ∀ s', s.step e = some s' → s'.device.ram = s.device.ram

/-- The memory of the clock holds some cells. -/
def Holds (s : BatteryBackedClock) (cells : Fin 114 → Byte) : Prop :=
  s.device.Valid ∧ s.device.ram = cells

/-- **Step.** Every event keeps the memory what was last written to it. -/
theorem holds_step (s : BatteryBackedClock) (e : RtcEvent) (s' : BatteryBackedClock)
    (cells : Fin 114 → Byte) (hs : s.Holds cells) (hstep : s.step e = some s') :
    s'.Holds (contents cells (s.ramWrites e)) := by
  obtain ⟨hvalid, rfl⟩ := hs
  cases e with
  | restart =>
      obtain rfl := Option.some.inj hstep
      exact ⟨show (0#8).toNat < 128 by decide, rfl⟩
  | access a =>
      obtain ⟨device, hdevice, rfl⟩ := Option.map_eq_some_iff.mp hstep
      obtain ⟨device', hdevice', hvalid'⟩ := hvalid.access a
      obtain rfl : device' = device := Option.some.inj (hdevice'.symm.trans hdevice)
      refine ⟨hvalid', ?_⟩
      rcases access_cases hvalid hdevice with ⟨address, value, rfl, haddress, rfl⟩ |
        ⟨address, value, rfl, haddress, hwrite⟩ | ⟨⟨tm, address, rfl⟩, rfl⟩
      · rw [ramWrites, if_neg (Bool.eq_false_iff.mp haddress)]
        rfl
      · show device'.ram = _
        rw [hwrite.ram, ramWrites, if_pos haddress]
        cases ramIndex s.device.selectedRegister.toNat <;> rfl
      · rfl

/-- Every event can happen. -/
theorem step_isSome (hs : s.device.Valid) (e : RtcEvent) : ∃ s', s.step e = some s' := by
  cases e with
  | restart => exact ⟨_, rfl⟩
  | access a =>
      obtain ⟨device, hdevice, -⟩ := hs.access a
      exact ⟨{ s with device }, by rw [step, hdevice]; rfl⟩

/-- In a clock that is started from a file, every run completes. -/
theorem exists_run (hs : s.device.Valid) (events : List RtcEvent) :
    ∃ s', run step s events = some s' := by
  induction events generalizing s with
  | nil => exact ⟨s, rfl⟩
  | cons e events ih =>
      obtain ⟨s₁, hs₁⟩ := step_isSome hs e
      have hvalid : s₁.device.Valid := (holds_step s e s₁ _ ⟨hs, rfl⟩ hs₁).1
      obtain ⟨s', hrun⟩ := ih hvalid
      exact ⟨s', by rw [run_cons, hs₁]; exact hrun⟩

/-- An access while a register is selected writes to no byte. -/
theorem registersSpareRam (hs : s.device.Valid) (e : RtcEvent) : s.RegistersSpareRam e := by
  rintro a rfl hindex s' hstep
  have hholds := (holds_step s (.access a) s' _ ⟨hs, rfl⟩ hstep).2
  cases a with
  | iowrite8 address value => simpa [ramWrites, hindex] using hholds
  | ioread8 tm address => exact hholds

/-- **The memory is a faithful store across restarts.** A clock that starts from any file survives
every run of accesses and restarts; afterwards each index of the memory reads as the byte last written
to it, or as the file's; and no access to a register ever changes the memory. -/
theorem ram_run (cmos : Fin 114 → Byte) (events : List RtcEvent) :
    (∃ s, run step (construct cmos) events = some s ∧
      ∀ tm index i, ramIndex (index &&& 0x7F#8).toNat = some i →
        s.device.readIndex tm index =
          .ok (contents cmos (logOf step ramWrites (construct cmos) events) i)) ∧
      StepsMeet step RegistersSpareRam (construct cmos) events := by
  have hinit : (construct cmos).Holds cmos := ⟨show (0#8).toNat < 128 by decide, rfl⟩
  constructor
  · obtain ⟨s, hrun⟩ := exists_run hinit.1 events
    have hram := (rel_of_run holds_step hinit hrun).2
    refine ⟨s, hrun, fun tm index i hi => ?_⟩
    rw [readIndex_eq, ioread8_ram (by decide) hi, ← hram]
    rfl
  · intro pre e hpre s hrun
    exact registersSpareRam (rel_of_run holds_step hinit hrun).1 e

end BatteryBackedClock

end Ts3100
