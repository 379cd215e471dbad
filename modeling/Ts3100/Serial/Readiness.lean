import Ts3100.Serial.Pace

/-! # A direction never stalls

A direction is alive while it is ready, listened for, or timed. `neverStalls_iff` settles which runs
keep both alive: those in which no access to a data register strands its direction. An access
does where nothing but the timer can bring the direction back and `timerfd_settime` leaves the timer
idle, because the divisor is zero or because the delay does not fit `tv_nsec`. -/

namespace Ts3100

open Descriptors LabelledRuns

/-! ## Masks -/

/-- A mask listens as it was set to. -/
@[simp] theorem listens_setListens (d d' : Direction) (on : Bool) (events : EpollEvents) :
    listens d' (setListens d on events) = if d' = d then on else listens d' events := by
  cases d <;> cases d' <;> rfl

namespace Pace

variable {p : Pace} {d : Direction}

/-- The mask after an event listens no more to what the event told. -/
theorem listens_maskAfter (p : Pace) (events : EpollEvents) (d : Direction) :
    listens d (p.maskAfter events) = (listens d p.mask && !listens d events) := by
  cases d <;> rfl

/-! ## Where readiness is -/

/-- The timer of a direction has expired, and its handler has not finished. -/
def Handling (p : Pace) (d : Direction) : Prop :=
  p.inflight = some (.timer d) ∨ p.inflight = some (.listen d)

/-- The timer of a direction is armed, or has expired and is not yet handled. -/
def Timing (p : Pace) (d : Direction) : Prop := p.timers d ≠ .idle ∨ p.Handling d

/-- The direction is ready, listened for, or timed. -/
def Alive (p : Pace) (d : Direction) : Prop :=
  p.ready d = true ∨ listens d p.mask = true ∨ p.Timing d

instance (p : Pace) (d : Direction) : Decidable (p.Handling d) :=
  inferInstanceAs (Decidable (_ ∨ _))

instance (p : Pace) (d : Direction) : Decidable (p.Timing d) :=
  inferInstanceAs (Decidable (_ ∨ _))

instance (p : Pace) (d : Direction) : Decidable (p.Alive d) :=
  inferInstanceAs (Decidable (_ ∨ _))

/-- Where no handler of the timer is in hand, what the event loop takes in hand instead does not
matter. -/
theorem Alive.of_inflight {p' : Pace} (h : p.Alive d) (htimer : p.inflight ≠ some (.timer d))
    (hlisten : p.inflight ≠ some (.listen d)) (hready : p'.ready d = p.ready d := by rfl)
    (hmask : p'.mask = p.mask := by rfl) (htimers : p'.timers d = p.timers d := by rfl) :
    p'.Alive d := by
  rcases h with h | h | h | h | h
  · exact Or.inl (hready.trans h)
  · exact Or.inr (Or.inl (by rw [hmask, h]))
  · exact Or.inr (Or.inr (Or.inl (by rw [htimers]; exact h)))
  · exact absurd h htimer
  · exact absurd h hlisten

/-- An access leaves the other direction as it is. -/
theorem alive_access_of_ne {d' : Direction} (hne : d' ≠ d) (delay : Nat) :
    (p.access d delay).Alive d' ↔ p.Alive d' := by
  simp [Alive, Timing, Handling, access, Function.update_of_ne hne]

/-- After an access its direction has to be listened for or timed. -/
theorem alive_access_self (delay : Nat) :
    (p.access d delay).Alive d ↔
      listens d p.mask = true ∨ p.Handling d ∨ (p.timers d).settime delay ≠ .idle := by
  simp only [Alive, Timing, Handling, access, Function.update_self]
  tauto

end Pace

namespace Serial16450

variable {s s' : Serial16450} {e : Event} {d : Direction}

/-- Both directions are alive. -/
def NeverStalls (s : Serial16450) : Prop := ∀ d, s.pace.Alive d

/-- The event is an access after which nothing brings its direction back: it is neither listened for
nor being handled, and `timerfd_settime` leaves the timer idle. -/
def Strands (s : Serial16450) (e : Event) : Prop :=
  ∃ d, s.accesses e = some d ∧ listens d s.mEventFlags = false ∧ ¬ s.pace.Handling d ∧
    (s.registers.divisor = 0#16 ∨
      (11520 ≤ s.registers.divisor.toNat ∧ s.timers d = .idle))

instance (s : Serial16450) : Decidable s.NeverStalls := inferInstanceAs (Decidable (∀ _, _))

instance (s : Serial16450) (e : Event) : Decidable (s.Strands e) :=
  inferInstanceAs (Decidable (∃ _, _))

/-! ## Delays -/

/-- Divisors from 11520 on give a delay of a second or more. -/
theorem lt_delay_iff (r : Registers) : 999999999 < r.delay ↔ 11520 ≤ r.divisor.toNat := by
  unfold Registers.delay
  omega

/-- There is no delay only where the divisor is zero. -/
theorem delay_eq_zero_iff (r : Registers) : r.delay = 0 ↔ r.divisor = 0#16 := by
  rw [← BitVec.toNat_inj, BitVec.toNat_zero]
  unfold Registers.delay
  omega

/-- An access strands its direction iff the direction is dead after it. -/
theorem strands_iff (hd : s.accesses e = some d) :
    s.Strands e ↔ ¬ (s.pace.access d s.registers.delay).Alive d := by
  have hidle : (s.timers d).settime s.registers.delay = .idle ↔
      s.registers.divisor = 0#16 ∨
        (11520 ≤ s.registers.divisor.toNat ∧ s.timers d = .idle) := by
    rw [Timer.settime_eq_idle_iff, delay_eq_zero_iff, lt_delay_iff]
  rw [Pace.alive_access_self, not_or, not_or, not_ne_iff, Strands]
  constructor
  · rintro ⟨d', hd', hlistens, hhandling, htimer⟩
    obtain rfl : d = d' := Option.some.inj (hd.symm.trans hd')
    exact ⟨Bool.not_eq_true _ ▸ hlistens, hhandling, hidle.mpr htimer⟩
  · rintro ⟨hlistens, hhandling, htimer⟩
    exact ⟨d, hd, Bool.not_eq_true _ ▸ hlistens, hhandling, hidle.mp htimer⟩

/-- An access is always possible. -/
theorem exists_step_of_accesses (hd : s.accesses e = some d) : ∃ s', s.step e = some s' ∧
    s'.pace = s.pace.access d s.registers.delay := by
  have hsome : ∃ s', s.step e = some s' := by
    cases e with
    | iowrite8 address data => exact ⟨_, rfl⟩
    | ioread8 address => exact ⟨_, rfl⟩
    | _ => cases hd
  obtain ⟨s', hs'⟩ := hsome
  refine ⟨s', hs', ?_⟩
  have hpace := pace_step hs'
  generalize s'.pace = p at hpace
  cases hpace with
  | rest hnone => rw [hnone] at hd; cases hd
  | access hd' =>
      obtain rfl := Option.some.inj (hd.symm.trans hd')
      rfl
  | _ => cases hd

/-- A step that strands no direction keeps both alive. -/
theorem neverStalls_step (halive : s.NeverStalls) (hnot : ¬ s.Strands e)
    (h : s.step e = some s') : s'.NeverStalls := by
  intro d
  have hd := halive d
  have hpace := pace_step h
  generalize s'.pace = p at hpace
  -- only an access can leave a direction dead; every other step takes it from one place where it is
  -- alive to the next
  cases hpace with
  | rest => exact hd
  | @access _ d' haccess =>
      by_cases hdd : d = d'
      · subst hdd
        exact not_not.mp (mt (strands_iff haccess).mpr hnot)
      · exact (Pace.alive_access_of_ne hdd _).mpr hd
  | wait hidle =>
      exact hd.of_inflight (by simp [pace, hidle]) (by simp [pace, hidle])
  | acceptFails hserver => exact hd.of_inflight (by simp [pace, hserver]) (by simp [pace, hserver])
  | accept hserver hfresh =>
      exact hd.of_inflight (by simp [pace, hserver]) (by simp [pace, hserver])
  | @readTimer d' htimer =>
      by_cases hdd : d = d'
      · -- the timer has been read, and its handler has yet to listen
        subst hdd
        exact Or.inr (Or.inr (Or.inr (Or.inr rfl)))
      · have hother : s.pace.inflight = some (.timer d') := htimer
        rcases hd with hready | hlistens | htimer | hhandling
        · exact Or.inl hready
        · exact Or.inr (Or.inl hlistens)
        · refine Or.inr (Or.inr (Or.inl ?_))
          simpa [Pace.readTimer, Function.update_of_ne hdd] using htimer
        · simp [Pace.Handling, hother, Ne.symm hdd] at hhandling
  | @listen d' hlisten =>
      by_cases hdd : d = d'
      · subst hdd
        exact Or.inr (Or.inl (by simp [Pace.listen]))
      · -- the event in hand was the other direction's, so it did not keep this one alive
        have hother : s.pace.inflight = some (.listen d') := hlisten
        rcases hd with hready | hlistens | htimer | hhandling
        · exact Or.inl hready
        · exact Or.inr (Or.inl (by simpa [Pace.listen, hdd] using hlistens))
        · exact Or.inr (Or.inr (Or.inl htimer))
        · simp [Pace.Handling, hother, Ne.symm hdd] at hhandling
  | @handle fd events hclient =>
      have hother : s.pace.inflight = some (.client fd events) := hclient
      rcases hd with hready | hlistens | htimer | hhandling
      · exact Or.inl (by simp [Pace.handle, hready])
      · -- a direction is listened for no more only where it was reported
        cases hevents : listens d events
        · exact Or.inr (Or.inl (by simp [Pace.handle, Pace.listens_maskAfter, hlistens, hevents]))
        · exact Or.inl (by simp [Pace.handle, hevents])
      · exact Or.inr (Or.inr (Or.inl htimer))
      · simp [Pace.Handling, hother] at hhandling
  | @expires d' nsec harmed =>
      by_cases hdd : d = d'
      · subst hdd
        exact Or.inr (Or.inr (Or.inl (by simp)))
      · rcases hd with hready | hlistens | htimer | hhandling
        · exact Or.inl hready
        · exact Or.inr (Or.inl hlistens)
        · exact Or.inr (Or.inr (Or.inl (by
            simpa [pace, Function.update_of_ne hdd] using htimer)))
        · exact Or.inr (Or.inr (Or.inr hhandling))

/-! ## Runs -/

/-- **When a direction never stalls.** Over every run both directions stay alive in every state iff
no access to a data register strands its direction. -/
theorem neverStalls_iff (events : List Event) :
    StatesMeet step NeverStalls {} events ↔
      StepsMeet step (fun s e => ¬ s.Strands e) {} events := by
  have hinit : NeverStalls {} := fun d => Or.inr (Or.inl (by cases d <;> rfl))
  refine statesMeet_iff_stepsMeet (E := fun _ _ => True) (fun _ h => h)
    (fun _ _ _ halive _ hnot => neverStalls_step halive hnot) (fun s e _ _ hstrands => ?_) hinit
    (fun _ _ _ _ _ => trivial)
  obtain ⟨d, hd, -⟩ := not_not.mp hstrands
  obtain ⟨s', hs', hpace⟩ := exists_step_of_accesses hd
  refine ⟨s', hs', fun halive => ?_⟩
  exact (strands_iff hd).mp (not_not.mp hstrands) (hpace ▸ halive d)

/-- A client connects with room, and its `EPOLLOUT` sets `writable`. -/
def connectRun : List Event :=
  [.wait .server, .accept (some { fd := 5, capacity := 1 }),
    .wait (.client 5 { epollOut := true }), .dispatch]

/-- **A stalled transmitter.** With the divisor never programmed, the first byte written leaves the
transmitter dead. -/
theorem not_neverStalls : ¬ ∀ events, StatesMeet step NeverStalls {} events := by
  intro hclaim
  have hstalls : ¬ StatesMeet step NeverStalls {} (connectRun ++ [.iowrite8 0#16 0x41#8]) := by
    decide
  exact hstalls (hclaim _)

end Serial16450

end Ts3100
