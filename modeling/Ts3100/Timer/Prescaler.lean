import Ts3100.Timer.Device
import Ts3100.Pio.Devices

/-! # The clock prescaler and its timers

`i386EXClockPrescaler` keeps the divisor less two in a 16-bit register. A write hands the register
plus two to `setPrescaler` of each attached timer, and the timers divide by it whenever they are
resolved.

* `PrescaledTimers.step` — the accesses to the register and to the timers, stopping at a division by
  zero.
* `prescaler_iff` — no addition wraps and no division is by zero exactly when no write that reaches a
  timer leaves the register at `0xFFFE` or above. -/

namespace Ts3100

open LabelledRuns

namespace ClockPrescaler

/-- `prescaler = data`. -/
def iowrite16 (s : ClockPrescaler) (data : BitVec 16) : ClockPrescaler :=
  { s with prescaler := data }

/-- `prescaler + 2`, narrowed to the parameter of `setPrescaler`. -/
def adjusted (s : ClockPrescaler) : BitVec 16 := BitVec.ofNat 16 (s.prescaler.toNat + 2)

/-- The sum is kept except at the top of the register's range. -/
theorem toNat_adjusted_iff (s : ClockPrescaler) :
    s.adjusted.toNat = s.prescaler.toNat + 2 ↔ s.prescaler.toNat < 0xFFFE := by
  have hlt := s.prescaler.isLt
  rw [adjusted, BitVec.toNat_ofNat]
  omega

end ClockPrescaler

/-! ## Divisions of a timer -/

namespace ProgrammableIntervalTimer

variable {t : ProgrammableIntervalTimer} {address : BitVec 16} {data : Byte} {now : Nat}

/-- Resolving the timer divides by zero: a channel counts, and the tick has no length. -/
def DividesByZero (t : ProgrammableIntervalTimer) : Prop :=
  (∃ i, (t.state i).waitingForLoad = false) ∧ tickPeriod t.timerPrescaler = 0

instance (t : ProgrammableIntervalTimer) : Decidable t.DividesByZero :=
  inferInstanceAs (Decidable (_ ∧ _))

/-- `resolveTimers`, which stops at a division by zero. -/
def resolveTimers? (t : ProgrammableIntervalTimer) (now : Nat) :
    Option ProgrammableIntervalTimer :=
  if t.DividesByZero then none else some (t.resolveTimers now)

/-- `setPrescaler`, unless its `resolveTimers` stops. -/
def setPrescaler? (t : ProgrammableIntervalTimer) (prescaler : BitVec 16) (now : Nat) :
    Option ProgrammableIntervalTimer :=
  (t.resolveTimers? now).map fun t => { t with timerPrescaler := prescaler }

/-- `iowrite8`: a command resolves the timers, a count byte does not. -/
def iowrite8? (t : ProgrammableIntervalTimer) (address : BitVec 16) (data : Byte) (now : Nat) :
    Option ProgrammableIntervalTimer :=
  if address &&& 0x3#16 = 0x3#16 then
    (t.resolveTimers? now).map fun _ => t.iowrite8 address data now
  else
    some (t.iowrite8 address data now)

/-- `ioread8`: a count is read after the timers are resolved, and port 3 reads nothing. -/
def ioread8? (t : ProgrammableIntervalTimer) (address : BitVec 16) (now : Nat) :
    Option (Byte × ProgrammableIntervalTimer) :=
  if address &&& 0x3#16 = 0x3#16 then
    some (t.ioread8 address now)
  else
    (t.resolveTimers? now).map fun _ => t.ioread8 address now

/-- A timer whose prescaler is not zero is resolved. -/
theorem resolveTimers?_eq (hpos : t.timerPrescaler ≠ 0#16) (now : Nat) :
    t.resolveTimers? now = some (t.resolveTimers now) := by
  unfold resolveTimers?
  rw [if_neg]
  rintro ⟨-, hzero⟩
  apply hpos
  apply BitVec.eq_of_toNat_eq
  unfold tickPeriod sourceClockPeriod at hzero
  rw [BitVec.toNat_zero]
  omega

/-- With a prescaler, setting another one divides by no zero. -/
theorem setPrescaler?_eq (hpos : t.timerPrescaler ≠ 0#16) (prescaler : BitVec 16) (now : Nat) :
    t.setPrescaler? prescaler now = some (t.setPrescaler prescaler now) := by
  unfold setPrescaler?
  rw [resolveTimers?_eq hpos]
  rfl

/-- So for every write. -/
theorem iowrite8?_eq (hpos : t.timerPrescaler ≠ 0#16) (address : BitVec 16) (data : Byte)
    (now : Nat) : t.iowrite8? address data now = some (t.iowrite8 address data now) := by
  unfold iowrite8?
  rw [resolveTimers?_eq hpos]
  split <;> rfl

/-- And for every read. -/
theorem ioread8?_eq (hpos : t.timerPrescaler ≠ 0#16) (address : BitVec 16) (now : Nat) :
    t.ioread8? address now = some (t.ioread8 address now) := by
  unfold ioread8?
  rw [resolveTimers?_eq hpos]
  split <;> rfl

/-- A write to a port of the timer leaves the prescaler. -/
theorem timerPrescaler_iowrite8 (t : ProgrammableIntervalTimer) (address : BitVec 16) (data : Byte)
    (now : Nat) : (t.iowrite8 address data now).timerPrescaler = t.timerPrescaler := by
  unfold iowrite8
  split
  · rfl
  · rfl
  · rfl
  · exact timerPrescaler_perform t now (.writeCommand data)

/-- So does a read. -/
theorem timerPrescaler_ioread8 (t : ProgrammableIntervalTimer) (address : BitVec 16) (now : Nat) :
    (t.ioread8 address now).2.timerPrescaler = t.timerPrescaler := by
  unfold ioread8
  split <;> rfl

end ProgrammableIntervalTimer

/-! ## The register and the timers -/

/-- The prescaler, the timers and the list of those attached to it. -/
structure PrescaledTimers (ι : Type) where
  register : ClockPrescaler := {}
  devices : List ι
  timers : ι → ProgrammableIntervalTimer

/-- An access to the prescaler's register or to a timer. The clock gives the time of each call of
`setPrescaler` in a write. -/
inductive PrescalerAccess (ι : Type) where
  | iowrite8 (address : BitVec 16) (data : Byte) (clock : Nat → Nat)
  | iowrite16 (address data : BitVec 16) (clock : Nat → Nat)
  | timerWrite (k : ι) (address : BitVec 16) (data : Byte) (now : Nat)
  | timerRead (k : ι) (address : BitVec 16) (now : Nat)

namespace PrescaledTimers

variable {ι : Type} [DecidableEq ι]

/-- The loop over the devices: `devicePtr->setPrescaler(prescaler)`. -/
def setPrescalers (prescaler : BitVec 16) :
    List ι → (Nat → Nat) → (ι → ProgrammableIntervalTimer) →
      Option (ι → ProgrammableIntervalTimer)
  | [], _, timers => some timers
  | k :: devices, clock, timers => do
      let t ← (timers k).setPrescaler? prescaler (clock 0)
      setPrescalers prescaler devices (fun n => clock (n + 1)) (Function.update timers k t)

/-- The register as a write leaves it, handed to the devices. -/
def write (s : PrescaledTimers ι) (register : ClockPrescaler) (clock : Nat → Nat) :
    Option (PrescaledTimers ι) :=
  (setPrescalers register.adjusted s.devices clock s.timers).map fun timers =>
    { s with register, timers }

/-- One access; `none` where it divides by zero. -/
def step (s : PrescaledTimers ι) : PrescalerAccess ι → Option (PrescaledTimers ι)
  | .iowrite8 address data clock => s.write (s.register.iowrite8 address data) clock
  | .iowrite16 _ data clock => s.write (s.register.iowrite16 data) clock
  | .timerWrite k address data now =>
      ((s.timers k).iowrite8? address data now).map fun t =>
        { s with timers := Function.update s.timers k t }
  | .timerRead k address now =>
      ((s.timers k).ioread8? address now).map fun r =>
        { s with timers := Function.update s.timers k r.2 }

/-- The prescaler and the timers as constructed. -/
def init (devices : List ι) (start : ι → Nat) : PrescaledTimers ι :=
  { devices, timers := fun k => ProgrammableIntervalTimer.init (start k) }

/-- The register that a write leaves. -/
def written (s : PrescaledTimers ι) : PrescalerAccess ι → Option ClockPrescaler
  | .iowrite8 address data _ => some (s.register.iowrite8 address data)
  | .iowrite16 _ data _ => some (s.register.iowrite16 data)
  | .timerWrite .. => none
  | .timerRead .. => none

/-- The access divides by zero nowhere, and the value it passes to each device is the mathematical
one. -/
def Safe (s : PrescaledTimers ι) (access : PrescalerAccess ι) : Prop :=
  (∃ s', s.step access = some s') ∧
    ∀ register, s.written access = some register → ∀ _ ∈ s.devices,
      register.adjusted.toNat = register.prescaler.toNat + 2

/-- A write that reaches a device leaves the register below the top of its range. -/
def BelowTop (s : PrescaledTimers ι) (access : PrescalerAccess ι) : Prop :=
  s.devices ≠ [] → ∀ register, s.written access = some register →
    register.prescaler.toNat < 0xFFFE

/-- No timer's prescaler is zero. -/
def Nonzero (timers : ι → ProgrammableIntervalTimer) : Prop :=
  ∀ k, (timers k).timerPrescaler ≠ 0#16

/-! ## Runs -/

variable {s s' : PrescaledTimers ι} {access : PrescalerAccess ι}

/-- A value other than zero reaches all devices, and leaves no prescaler zero. -/
theorem exists_setPrescalers {prescaler : BitVec 16} (hpos : prescaler ≠ 0#16)
    (devices : List ι) (clock : Nat → Nat) (timers : ι → ProgrammableIntervalTimer)
    (htimers : Nonzero timers) :
    ∃ timers', setPrescalers prescaler devices clock timers = some timers' ∧ Nonzero timers' := by
  induction devices generalizing clock timers with
  | nil => exact ⟨timers, rfl, htimers⟩
  | cons k devices ih =>
      unfold setPrescalers
      rw [ProgrammableIntervalTimer.setPrescaler?_eq (htimers k)]
      apply ih
      intro j
      by_cases hj : j = k
      · subst hj
        rw [Function.update_self]
        exact hpos
      · rw [Function.update_of_ne hj]
        exact htimers j

/-- A changed timer with the prescaler it had. -/
theorem nonzero_update {timers : ι → ProgrammableIntervalTimer} {k : ι}
    {t : ProgrammableIntervalTimer} (htimers : Nonzero timers)
    (ht : t.timerPrescaler = (timers k).timerPrescaler) : Nonzero (Function.update timers k t) := by
  intro j
  by_cases hj : j = k
  · subst hj
    rw [Function.update_self, ht]
    exact htimers j
  · rw [Function.update_of_ne hj]
    exact htimers j

/-- A write completes where no device is attached, or the register is below the top of its range. -/
theorem exists_write (htimers : Nonzero s.timers) (register : ClockPrescaler) (clock : Nat → Nat)
    (hbelow : s.devices ≠ [] → register.prescaler.toNat < 0xFFFE) :
    ∃ s', s.write register clock = some s' ∧ Nonzero s'.timers := by
  have hset : ∃ timers', setPrescalers register.adjusted s.devices clock s.timers = some timers' ∧
      Nonzero timers' := by
    by_cases hdevices : s.devices = []
    · rw [hdevices]
      exact ⟨s.timers, rfl, htimers⟩
    · apply exists_setPrescalers _ _ _ _ htimers
      intro hzero
      -- a sum that is kept is at least two
      have hsum := register.toNat_adjusted_iff.mpr (hbelow hdevices)
      rw [hzero, BitVec.toNat_zero] at hsum
      omega
  obtain ⟨timers', heq, htimers'⟩ := hset
  exact ⟨{ s with register, timers := timers' }, by rw [write, heq]; rfl, htimers'⟩

/-- **Step.** With no prescaler zero, an access that keeps the register below the top of its range
completes and leaves no prescaler zero. -/
theorem exists_step (htimers : Nonzero s.timers) (hbelow : s.BelowTop access) :
    ∃ s', s.step access = some s' ∧ Nonzero s'.timers := by
  cases access with
  | iowrite8 address data clock =>
      exact exists_write htimers _ clock fun hdevices => hbelow hdevices _ rfl
  | iowrite16 address data clock =>
      exact exists_write htimers _ clock fun hdevices => hbelow hdevices _ rfl
  | timerWrite k address data now =>
      refine ⟨_, by rw [step, ProgrammableIntervalTimer.iowrite8?_eq (htimers k)]; rfl, ?_⟩
      exact nonzero_update htimers (ProgrammableIntervalTimer.timerPrescaler_iowrite8 _ _ _ _)
  | timerRead k address now =>
      refine ⟨_, by rw [step, ProgrammableIntervalTimer.ioread8?_eq (htimers k)]; rfl, ?_⟩
      exact nonzero_update htimers (ProgrammableIntervalTimer.timerPrescaler_ioread8 _ _ _)

omit [DecidableEq ι] in
/-- The values that an access passes are the mathematical ones below the top of the range. -/
theorem belowTop_iff : s.BelowTop access ↔
    ∀ register, s.written access = some register → ∀ _ ∈ s.devices,
      register.adjusted.toNat = register.prescaler.toNat + 2 := by
  constructor
  · intro hbelow register hwritten k hk
    exact register.toNat_adjusted_iff.mpr (hbelow (List.ne_nil_of_mem hk) register hwritten)
  · intro hpassed hdevices register hwritten
    obtain ⟨k, hk⟩ := List.exists_mem_of_ne_nil _ hdevices
    exact register.toNat_adjusted_iff.mp (hpassed register hwritten k hk)

omit [DecidableEq ι] in
/-- The timers start with a prescaler. -/
theorem nonzero_init (devices : List ι) (start : ι → Nat) :
    Nonzero (init devices start).timers := by
  intro k
  show (2#16 : BitVec 16) ≠ 0#16
  decide

/-- The prescalers stay other than zero along accesses that keep the register below the top. -/
theorem statesMeet_nonzero {devices : List ι} {start : ι → Nat}
    {accesses : List (PrescalerAccess ι)}
    (hbelow : StepsMeet step BelowTop (init devices start) accesses) :
    StatesMeet step (fun s => Nonzero s.timers) (init devices start) accesses := by
  refine statesMeet_of_stepsMeet ?_ (nonzero_init devices start) hbelow
  intro s access s' htimers hP hstep
  obtain ⟨s'', hstep', htimers''⟩ := exists_step htimers hP
  obtain rfl : s'' = s' := Option.some.inj (hstep'.symm.trans hstep)
  exact htimers''

/-- **No timer divides by zero.** Over any accesses to the prescaler and its timers, every value
passed to `setPrescaler` is the register plus two and every division is by a number other than zero
iff no write that reaches a device leaves the register at `0xFFFE` or above. -/
theorem prescaler_iff (devices : List ι) (start : ι → Nat)
    (accesses : List (PrescalerAccess ι)) :
    StepsMeet step Safe (init devices start) accesses ↔
      StepsMeet step BelowTop (init devices start) accesses := by
  constructor
  · intro hsafe pre access hpre s hrun
    exact belowTop_iff.mpr (hsafe pre access hpre s hrun).2
  · intro hbelow
    refine StepsMeet.of_statesMeet (statesMeet_nonzero hbelow) hbelow ?_
    intro s access htimers hP
    obtain ⟨s', hstep, -⟩ := exists_step htimers hP
    exact ⟨⟨s', hstep⟩, belowTop_iff.mp hP⟩

/-- A counting timer behind a prescaler at `0xFFFE` divides by zero when it is read. -/
def divideByZero : List (PrescalerAccess Unit) :=
  [.timerWrite () 0xF043#16 0x34#8 0, .timerWrite () 0xF040#16 0x00#8 0,
    .timerWrite () 0xF040#16 0x01#8 0, .iowrite16 0xF804#16 0xFFFE#16 fun _ => 1,
    .timerRead () 0xF040#16 2]

/-- The value passed wraps to zero, and the read does not complete. -/
theorem not_prescaler :
    run step (init [()] fun _ => 0) divideByZero = none ∧
      ¬ StepsMeet step Safe (init [()] fun _ => 0) divideByZero := by
  have hnone : run step (init [()] fun _ => 0) divideByZero = none := by
    rfl
  refine ⟨hnone, fun hsafe => ?_⟩
  obtain ⟨s, hrun⟩ := exists_run_of_stepsMeet fun pre access hpre s hrun =>
    (hsafe pre access hpre s hrun).1
  rw [hnone] at hrun
  cases hrun

end PrescaledTimers

end Ts3100
