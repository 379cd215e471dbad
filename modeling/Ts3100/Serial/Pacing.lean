import Ts3100.Serial.Readiness

/-! # The baud-rate pacing

For each direction, readiness should be in one place only: the direction is ready, or listened for
(by the mask or by some client's own mask), or timed. Then no character is accepted or delivered
before the timer of the last one has expired.

* `Pace.Paced d` — the invariant of a direction.
* `paced_step` — kept by every step of a disciplined guest, apart from events of one client while
  there are others: `handleClientEvent` registers that client alone with the new mask.
* `keepsPace_iff` — which disciplined runs keep the pace, and what keeping it means for the timers. -/

namespace Ts3100

open Descriptors LabelledRuns

namespace Pace

variable {p p' : Pace} {d : Direction}

/-- The event loop listens for a direction, by the mask or at some client. -/
def Listening (p : Pace) (d : Direction) : Prop :=
  listens d p.mask = true ∨ ∃ fd ∈ p.clients, listens d (p.interest fd) = true

/-- At most one of: ready, listened for, timed. -/
def AtMostOne (p : Pace) (d : Direction) : Prop :=
  ¬ (p.ready d = true ∧ p.Listening d) ∧ ¬ (p.ready d = true ∧ p.Timing d) ∧
    ¬ (p.Listening d ∧ p.Timing d)

instance (p : Pace) (d : Direction) : Decidable (p.Listening d) :=
  inferInstanceAs (Decidable (_ ∨ _))

instance (p : Pace) (d : Direction) : Decidable (p.AtMostOne d) :=
  inferInstanceAs (Decidable (_ ∧ _))

/-- The invariant of a direction: every client is registered with the mask, the event in hand was
listened for, the timer stands as its handler expects, and readiness is in one place. -/
structure Paced (d : Direction) (p : Pace) : Prop where
  interest : ∀ fd ∈ p.clients, listens d (p.interest fd) = listens d p.mask
  client : ∀ fd events, p.inflight = some (.client fd events) →
    fd ∈ p.clients ∧ (listens d events = true → listens d p.mask = true)
  expired : p.inflight = some (.timer d) → p.timers d = .expired
  idle : p.inflight = some (.listen d) → p.timers d = .idle
  notReady : p.ready d = true → listens d p.mask = false ∧ ¬ p.Timing d
  notTiming : listens d p.mask = true → ¬ p.Timing d

/-- Under the invariant a direction is listened for where the mask says so. -/
theorem Paced.listening_iff (h : p.Paced d) : p.Listening d ↔ listens d p.mask = true := by
  constructor
  · rintro (hmask | ⟨fd, hfd, hinterest⟩)
    · exact hmask
    · exact (h.interest fd hfd).symm.trans hinterest
  · exact Or.inl

/-- Of ready, listened for and timed, a paced direction is at most one. -/
theorem Paced.atMostOne (h : p.Paced d) : p.AtMostOne d := by
  unfold AtMostOne
  rw [h.listening_iff]
  refine ⟨?_, ?_, ?_⟩
  · rintro ⟨hready, hlistens⟩
    rw [(h.notReady hready).1] at hlistens
    cases hlistens
  · rintro ⟨hready, htiming⟩
    exact (h.notReady hready).2 htiming
  · rintro ⟨hlistens, htiming⟩
    exact h.notTiming hlistens htiming

/-- The invariant of a direction depends on the components of that direction. -/
theorem Paced.of_eq (h : p.Paced d) (hready : p'.ready d = p.ready d)
    (htimers : p'.timers d = p.timers d) (hmask : p'.mask = p.mask := by rfl)
    (hclients : p'.clients = p.clients := by rfl) (hinterest : p'.interest = p.interest := by rfl)
    (hinflight : p'.inflight = p.inflight := by rfl) : p'.Paced d where
  interest fd hfd := by
    rw [hinterest, hmask]
    exact h.interest fd (hclients ▸ hfd)
  client fd events hclient := by
    rw [hclients, hmask]
    exact h.client fd events (hinflight ▸ hclient)
  expired htimer := htimers.trans (h.expired (hinflight ▸ htimer))
  idle hlisten := htimers.trans (h.idle (hinflight ▸ hlisten))
  notReady hr := by
    rw [hmask, Timing, Handling, htimers, hinflight]
    exact h.notReady (hready ▸ hr)
  notTiming hl := by
    rw [Timing, Handling, htimers, hinflight]
    exact h.notTiming (hmask ▸ hl)

/-- The invariant where the event in hand concerns neither a client nor the direction's timer. -/
theorem Paced.of_settled
    (hinterest : ∀ fd ∈ p.clients, listens d (p.interest fd) = listens d p.mask)
    (hclient : ∀ fd events, p.inflight ≠ some (.client fd events))
    (htimer : p.inflight ≠ some (.timer d)) (hlisten : p.inflight ≠ some (.listen d))
    (hready : p.ready d = true → listens d p.mask = false ∧ p.timers d = .idle)
    (hlistens : listens d p.mask = true → p.timers d = .idle) : p.Paced d := by
  have htiming : p.timers d = .idle → ¬ p.Timing d := by
    rintro hidle (h | h | h)
    · exact h hidle
    · exact htimer h
    · exact hlisten h
  exact
    { interest := hinterest
      client := fun fd events h => absurd h (hclient fd events)
      expired := fun h => absurd h htimer
      idle := fun h => absurd h hlisten
      notReady := fun h => ⟨(hready h).1, htiming (hready h).2⟩
      notTiming := fun h => htiming (hlistens h) }

/-- The timer of a ready direction is idle. -/
theorem Paced.idle_of_ready (h : p.Paced d) (hready : p.ready d = true) :
    listens d p.mask = false ∧ p.timers d = .idle :=
  ⟨(h.notReady hready).1, not_not.mp fun htimer => (h.notReady hready).2 (Or.inl htimer)⟩

/-- The timer of a direction that is listened for is idle. -/
theorem Paced.idle_of_listens (h : p.Paced d) (hlistens : listens d p.mask = true) :
    p.timers d = .idle :=
  not_not.mp fun htimer => h.notTiming hlistens (Or.inl htimer)

/-- A direction that is timed is neither ready nor listened for. -/
theorem Paced.of_timing (h : p.Paced d) (htiming : p.Timing d) :
    p.ready d = false ∧ listens d p.mask = false := by
  constructor
  · by_contra hready
    exact (h.notReady (by simpa using hready)).2 htiming
  · by_contra hlistens
    exact h.notTiming (by simpa using hlistens) htiming

/-- A client's events, handled while there are others, leave the others listening for what is ready
now. -/
theorem Paced.not_atMostOne_handle (h : p.Paced d) {fd : Nat} {events : EpollEvents}
    (hclient : p.inflight = some (.client fd events)) (hevents : listens d events = true)
    (hmany : 1 < p.clients.card) : ¬ (p.handle fd events).AtMostOne d := by
  obtain ⟨fd', hfd', hne⟩ := FdSet.exists_ne_of_one_lt_card hmany fd
  have hmask := (h.client fd events hclient).2 hevents
  intro hone
  refine hone.1 ⟨by simp [handle, hevents], Or.inr ⟨fd', hfd', ?_⟩⟩
  simp only [handle, Function.update_of_ne hne]
  rw [h.interest fd' hfd', hmask]

/-! ## The invariant under one change -/

/-- The guest uses the data register, of this direction only if it is ready. -/
theorem Paced.access (h : p.Paced d) {d' : Direction} (hguest : d = d' → p.ready d = true)
    (delay : Nat) : (p.access d' delay).Paced d := by
  by_cases hdd : d = d'
  · subst hdd
    -- the guest found the direction ready, so no handler of its timer is in hand
    obtain ⟨hmask, htiming⟩ := h.notReady (hguest rfl)
    exact
      { interest := h.interest
        client := h.client
        expired := fun htimer => absurd (Or.inr (Or.inl htimer)) htiming
        idle := fun hlisten => absurd (Or.inr (Or.inr hlisten)) htiming
        notReady := fun hready => by simp [Pace.access] at hready
        notTiming := fun hlistens => absurd (hmask.symm.trans hlistens) (by simp) }
  · exact h.of_eq (Function.update_of_ne hdd _ _) (Function.update_of_ne hdd _ _)

/-- A failed `accept` leaves it paced. -/
theorem Paced.acceptFails (h : p.Paced d) : Paced d { p with inflight := none } :=
  .of_settled h.interest (by simp) (by simp) (by simp) h.idle_of_ready h.idle_of_listens

/-- A client is registered with the mask. -/
theorem Paced.accept (h : p.Paced d) (fd : Nat) : (p.accept fd).Paced d := by
  refine .of_settled (fun fd' hfd' => ?_) (by simp [Pace.accept]) (by simp [Pace.accept])
    (by simp [Pace.accept]) h.idle_of_ready h.idle_of_listens
  by_cases hne : fd' = fd
  · subst hne
    simp [Pace.accept]
  · simp only [Pace.accept, Function.update_of_ne hne]
    exact h.interest fd' ((FdSet.mem_insert.mp hfd').resolve_left hne)

/-- An expired timer is read, and the direction is about to be listened for. -/
theorem Paced.readTimer (h : p.Paced d) {d' : Direction} (htimer : p.inflight = some (.timer d')) :
    (p.readTimer d').Paced d := by
  by_cases hdd : d = d'
  · subst hdd
    have hexpired := h.expired htimer
    obtain ⟨hready, hmask⟩ := h.of_timing (Or.inr (Or.inl htimer))
    exact
      { interest := h.interest
        client := fun fd events hclient => by cases hclient
        expired := fun h => by cases h
        idle := fun _ => by simp [Pace.readTimer, hexpired, Timer.read]
        notReady := fun h => absurd (hready.symm.trans h) (by simp)
        notTiming := fun h => absurd (hmask.symm.trans h) (by simp) }
  · -- the handler in hand is that of the other direction
    have htimers : (p.readTimer d').timers d = p.timers d := Function.update_of_ne hdd _ _
    exact .of_settled h.interest (by simp [Pace.readTimer]) (by simp [Pace.readTimer])
      (by simp [Pace.readTimer, Ne.symm hdd]) (fun hready => htimers ▸ h.idle_of_ready hready)
      (fun hlistens => htimers ▸ h.idle_of_listens hlistens)

/-- A direction is listened for, which is not ready and whose timer is idle. -/
theorem Paced.listen (h : p.Paced d) {d' : Direction} (hlisten : p.inflight = some (.listen d')) :
    (p.listen d').Paced d := by
  have hinterest : ∀ fd ∈ p.clients,
      listens d ((p.listen d').interest fd) = listens d (p.listen d').mask := by
    intro fd hfd
    simp [Pace.listen, hfd]
  by_cases hdd : d = d'
  · subst hdd
    have hidle := h.idle hlisten
    obtain ⟨hready, -⟩ := h.of_timing (Or.inr (Or.inr hlisten))
    exact .of_settled hinterest (by simp [Pace.listen]) (by simp [Pace.listen])
      (by simp [Pace.listen]) (fun h => absurd (hready.symm.trans h) (by simp)) (fun _ => hidle)
  · have hmask : listens d (p.listen d').mask = listens d p.mask := by simp [Pace.listen, hdd]
    exact .of_settled hinterest (by simp [Pace.listen]) (by simp [Pace.listen])
      (by simp [Pace.listen]) (fun hready => hmask ▸ h.idle_of_ready hready)
      (fun hlistens => h.idle_of_listens (hmask ▸ hlistens))

/-- A client's events of other directions. -/
theorem Paced.handle_other (h : p.Paced d) {fd : Nat} {events : EpollEvents}
    (hevents : listens d events = false) : (p.handle fd events).Paced d := by
  have hafter : listens d (p.maskAfter events) = listens d p.mask := by
    simp [Pace.listens_maskAfter, hevents]
  refine .of_settled (fun fd' hfd' => ?_) (by simp [Pace.handle]) (by simp [Pace.handle])
    (by simp [Pace.handle]) (fun hready => ?_) (fun hlistens => h.idle_of_listens (hafter ▸ hlistens))
  · by_cases hne : fd' = fd
    · simp [Pace.handle, hne]
    · simp only [Pace.handle, Function.update_of_ne hne, hafter]
      exact h.interest fd' hfd'
  · have hready' : p.ready d = true := by simpa [Pace.handle, hevents] using hready
    exact ⟨hafter.trans (h.idle_of_ready hready').1, (h.idle_of_ready hready').2⟩

/-- The events of the only client: the direction is ready, and no longer listened for. -/
theorem Paced.handle (h : p.Paced d) {fd : Nat} {events : EpollEvents}
    (hclient : p.inflight = some (.client fd events)) (hevents : listens d events = true)
    (hcard : p.clients.card ≤ 1) : (p.handle fd events).Paced d := by
  obtain ⟨hfd, hmask⟩ := h.client fd events hclient
  have hidle := h.idle_of_listens (hmask hevents)
  have hafter : listens d (p.maskAfter events) = false := by
    simp [Pace.listens_maskAfter, hevents]
  refine .of_settled (fun fd' hfd' => ?_) (by simp [Pace.handle]) (by simp [Pace.handle])
    (by simp [Pace.handle]) (fun _ => ⟨hafter, hidle⟩)
    (fun hlistens => absurd (hafter.symm.trans hlistens) (by simp))
  -- `handle` has registered this client alone with the new mask
  rw [FdSet.eq_of_card_le_one hcard hfd' hfd]
  simp [Pace.handle]

/-- An armed timer expires. -/
theorem Paced.expires (h : p.Paced d) {d' : Direction} (harmed : p.timers d' ≠ .idle) :
    Paced d { p with timers := Function.update p.timers d' .expired } := by
  by_cases hdd : d = d'
  · subst hdd
    obtain ⟨hready, hmask⟩ := h.of_timing (Or.inl harmed)
    exact
      { interest := h.interest
        client := h.client
        expired := fun _ => by simp
        idle := fun hlisten => absurd (h.idle hlisten) harmed
        notReady := fun h => absurd (hready.symm.trans h) (by simp)
        notTiming := fun h => absurd (hmask.symm.trans h) (by simp) }
  · exact h.of_eq rfl (Function.update_of_ne hdd _ _)

end Pace

namespace Serial16450

variable {s s' : Serial16450} {e : Event} {d : Direction}

/-- What `epoll` reports was listened for. -/
theorem reports_listens {socket : Socket Byte} {interest events : EpollEvents}
    (h : socket.Reports interest events) (hevents : listens d events = true) :
    listens d interest = true := by
  cases d with
  | read => exact (h.epollIn hevents).1
  | write => exact (h.epollOut hevents).1

/-- In both directions readiness is in one place. -/
def KeepsPace (s : Serial16450) : Prop := ∀ d, s.pace.AtMostOne d

/-- The event loop handles a client's events of a direction while there are other clients. -/
def HandlesOneOfMany (d : Direction) (s : Serial16450) (e : Event) : Prop :=
  match e, s.inflight with
  | .dispatch, some (.client _ events) => 1 < s.clients.card ∧ listens d events = true
  | _, _ => False

instance (s : Serial16450) : Decidable s.KeepsPace := inferInstanceAs (Decidable (∀ _, _))

instance (d : Direction) (s : Serial16450) (e : Event) : Decidable (HandlesOneOfMany d s e) := by
  unfold HandlesOneOfMany
  split <;> infer_instance

/-- When the event of one client is handled for several. -/
theorem handlesOneOfMany_iff : HandlesOneOfMany d s e ↔ e = .dispatch ∧ 1 < s.clients.card ∧
    ∃ fd events, s.inflight = some (.client fd events) ∧ listens d events = true := by
  unfold HandlesOneOfMany
  split
  · rename_i hclient
    simp [hclient]
  · rename_i hne
    refine iff_of_false id ?_
    rintro ⟨he, -, fd, events, hclient, -⟩
    exact hne fd events he hclient

/-- The event loop takes a handler in hand that `epoll` reports. -/
theorem paced_wait (hpaced : s.pace.Paced d) {handler : Handler} (hreports : s.Reports handler) :
    Pace.Paced d { s.pace with inflight := some handler } := by
  have htiming : Pace.Timing { s.pace with inflight := some handler } d → s.pace.Timing d := by
    rintro (htimer | htimer | hlisten)
    · exact Or.inl htimer
    · obtain rfl := Option.some.inj htimer
      exact Or.inl (by rw [show s.pace.timers d = .expired from hreports]; simp)
    · obtain rfl := Option.some.inj hlisten
      exact hreports.elim
  exact
    { interest := hpaced.interest
      client := fun fd events hclient => by
        obtain rfl := Option.some.inj hclient
        refine ⟨hreports.1, fun hevents => ?_⟩
        rw [← hpaced.interest fd hreports.1]
        exact reports_listens hreports.2 hevents
      expired := fun htimer => by
        obtain rfl := Option.some.inj htimer
        exact hreports
      idle := fun hlisten => by
        -- to listen again is never reported, only reading the timer leads there
        obtain rfl := Option.some.inj hlisten
        exact hreports.elim
      notReady := fun hready =>
        ⟨(hpaced.notReady hready).1, mt htiming (hpaced.notReady hready).2⟩
      notTiming := fun hlistens => mt htiming (hpaced.notTiming hlistens) }

/-- A step of a guest disciplined in `d`, that does not handle one client's events of `d` while
there are others, keeps the invariant of `d`. -/
theorem paced_step (hpaced : s.pace.Paced d) (hguest : Disciplined d s e)
    (hone : ¬ HandlesOneOfMany d s e) (h : s.step e = some s') : s'.pace.Paced d := by
  have hpace := pace_step h
  generalize s'.pace = p at hpace
  cases hpace with
  | rest => exact hpaced
  | @access _ d' haccess =>
      apply hpaced.access
      rintro rfl
      exact hguest.ready haccess
  | wait hidle hreports => exact paced_wait hpaced hreports
  | acceptFails hserver => exact hpaced.acceptFails
  | @accept c hserver hfresh => exact hpaced.accept c.fd
  | readTimer htimer => exact hpaced.readTimer htimer
  | listen hlisten => exact hpaced.listen hlisten
  | @handle fd events hclient =>
      cases hevents : listens d events with
      | false => exact hpaced.handle_other hevents
      | true =>
          -- the direction was listened for, and the client is the only one
          have hcard : s.clients.card ≤ 1 :=
            not_lt.mp fun hmany =>
              hone (handlesOneOfMany_iff.mpr ⟨rfl, hmany, fd, events, hclient, hevents⟩)
          exact hpaced.handle hclient hevents hcard
  | @expires d' nsec harmed =>
      apply hpaced.expires
      simp [pace, harmed]

/-! ## Runs -/

/-- The invariant holds in the initial state. -/
theorem paced_init (d : Direction) : (pace {}).Paced d :=
  .of_settled (by simp [pace]) (by simp [pace]) (by simp [pace]) (by simp [pace])
    (by cases d <;> simp [pace, ready]) (fun _ => rfl)

/-- Disciplined in `d`, and no event of one client of many: what keeps the pace of `d`. -/
def PaceKept (d : Direction) (s : Serial16450) (e : Event) : Prop :=
  Disciplined d s e ∧ ¬ HandlesOneOfMany d s e

/-- The invariant of a direction holds along a run whose steps keep the pace. -/
theorem statesMeet_paced {events : List Event} (h : StepsMeet step (PaceKept d) {} events) :
    StatesMeet step (fun s => s.pace.Paced d) {} events :=
  statesMeet_of_stepsMeet (fun _ _ _ hpaced hstep => paced_step hpaced hstep.1 hstep.2)
    (paced_init d) h

/-! ## Character times -/

/-- The character of a direction is on the line: nothing but the expiry of the timer, if it is armed
at all, brings the direction back. -/
structure OnTheLine (d : Direction) (delay : Nat) (p : Pace) : Prop where
  paced : p.Paced d
  ready : p.ready d = false
  mask : listens d p.mask = false
  handling : ¬ p.Handling d
  timer : p.timers d = .idle ∨ p.timers d = .armed delay

/-- An access of a ready direction puts a character on the line. -/
theorem onTheLine_of_accesses (hpaced : s.pace.Paced d) (hkept : PaceKept d s e)
    (hd : s.accesses e = some d) (h : s.step e = some s') :
    OnTheLine d s.registers.delay s'.pace := by
  obtain ⟨hmask, htiming⟩ := hpaced.notReady (hkept.1.ready hd)
  obtain ⟨-, hidle⟩ := hpaced.idle_of_ready (hkept.1.ready hd)
  obtain ⟨t, ht, hpace⟩ := exists_step_of_accesses hd
  obtain rfl : t = s' := Option.some.inj (ht.symm.trans h)
  refine ⟨paced_step hpaced hkept.1 hkept.2 h, ?_, ?_, ?_, ?_⟩
  · simp [hpace, Pace.access]
  · rw [hpace]
    exact hmask
  · rw [hpace]
    exact fun hhandling => htiming (Or.inr hhandling)
  · rw [hpace]
    simp only [Pace.access, Function.update_self, hidle]
    unfold Timer.settime
    split
    · exact Or.inl rfl
    · split
      · exact Or.inl rfl
      · exact Or.inr rfl

/-- A character stays on the line until the timer expires. -/
theorem onTheLine_step {delay : Nat} (hline : OnTheLine d delay s.pace) (hkept : PaceKept d s e)
    (hne : e ≠ .timerExpires d) (h : s.step e = some s') : OnTheLine d delay s'.pace := by
  have hpaced := paced_step hline.paced hkept.1 hkept.2 h
  have hpace := pace_step h
  generalize s'.pace = p at hpaced hpace ⊢
  obtain ⟨hbefore, hready, hmask, hhandling, htimer⟩ := hline
  cases hpace with
  | rest => exact ⟨hpaced, hready, hmask, hhandling, htimer⟩
  | @access _ d' haccess =>
      have hdd : d ≠ d' := by
        rintro rfl
        exact absurd (hready.symm.trans (hkept.1.ready haccess)) (by simp)
      exact ⟨hpaced, (Function.update_of_ne hdd _ _).trans hready, hmask, hhandling,
        by simpa [Pace.access, Function.update_of_ne hdd] using htimer⟩
  | @wait handler hidle hreports =>
      refine ⟨hpaced, hready, hmask, ?_, htimer⟩
      rintro (h | h)
      · obtain rfl := Option.some.inj h
        have hexpired : s.pace.timers d = .expired := hreports
        rw [hexpired] at htimer
        simp at htimer
      · obtain rfl := Option.some.inj h
        exact hreports
  | acceptFails => exact ⟨hpaced, hready, hmask, by simp [Pace.Handling], htimer⟩
  | accept => exact ⟨hpaced, hready, hmask, by simp [Pace.Handling, Pace.accept], htimer⟩
  | @readTimer d' hread =>
      have hdd : d ≠ d' := by
        rintro rfl
        exact hhandling (Or.inl hread)
      exact ⟨hpaced, hready, hmask, by simp [Pace.Handling, Pace.readTimer, Ne.symm hdd],
        by simpa [Pace.readTimer, Function.update_of_ne hdd] using htimer⟩
  | @listen d' hlisten =>
      have hdd : d ≠ d' := by
        rintro rfl
        exact hhandling (Or.inr hlisten)
      exact ⟨hpaced, hready, by simpa [Pace.listen, hdd] using hmask,
        by simp [Pace.Handling, Pace.listen], htimer⟩
  | @handle fd events hclient =>
      -- the event in hand was listened for, so it is not of this direction
      have hevents : listens d events = false := by
        by_contra hlistens
        have hcontra := (hbefore.client fd events hclient).2 (by simpa using hlistens)
        exact absurd (hmask.symm.trans hcontra) (by simp)
      exact ⟨hpaced, by simp [Pace.handle, hready, hevents],
        by simp [Pace.handle, Pace.listens_maskAfter, hmask], by simp [Pace.Handling, Pace.handle],
        htimer⟩
  | @expires d' nsec harmed =>
      have hdd : d ≠ d' := fun heq => hne (by rw [heq])
      exact ⟨hpaced, hready, hmask, hhandling,
        by simpa [pace, Function.update_of_ne hdd] using htimer⟩

/-- Between two accesses to the data register of a direction, the timer that the first has armed
with the character time expires. -/
def CharacterTimes (events : List Event) : Prop :=
  ∀ d pre x mid y s s', pre ++ x :: mid ++ [y] <+: events →
    run step {} pre = some s → s.accesses x = some d →
    run step {} (pre ++ x :: mid) = some s' → s'.accesses y = some d →
    ∃ waited rest t, mid = waited ++ .timerExpires d :: rest ∧
      run step {} (pre ++ x :: waited) = some t ∧ t.timers d = .armed s.registers.delay

/-- A run that keeps the pace leaves each character its time. -/
theorem characterTimes {events : List Event} (h : ∀ d, StepsMeet step (PaceKept d) {} events) :
    CharacterTimes events := by
  intro d pre x mid y s s' hinitial hs hx hs' hy
  have hpre : pre ++ x :: mid <+: events := (List.prefix_append _ _).trans hinitial
  have hkept := (h d).initial hpre
  obtain ⟨s₁, hs₁, hmid⟩ : ∃ s₁, s.step x = some s₁ ∧ run step s₁ mid = some s' := by
    rw [run_append, hs, Option.bind_some, run_cons, Option.bind_eq_some_iff] at hs'
    exact hs'
  have hxkept := (stepsMeet_cons.mp (hkept.of_append hs)).1
  have hline : OnTheLine d s.registers.delay s₁.pace :=
    onTheLine_of_accesses (statesMeet_paced (h d) pre
      ((List.prefix_append _ _).trans hpre) s hs) hxkept hx hs₁
  rcases keeps_or_reaches (l := Event.timerExpires d)
    (fun _ _ _ hline hkept hne hstep => onTheLine_step hline hkept hne hstep) hline
    ((stepsMeet_cons.mp (hkept.of_append hs)).2 s₁ hs₁) hmid with hend | hreached
  · -- the second access would find the direction not ready
    have hguest := (h d) (pre ++ x :: mid) y hinitial s' hs'
    exact absurd (hend.ready.symm.trans (hguest.1.ready hy)) (by simp)
  · obtain ⟨waited, rest, t, t', hmid', ht, hline', ht'⟩ := hreached
    refine ⟨waited, rest, t, hmid', ?_, ?_⟩
    · rw [run_append, hs, Option.bind_some, run_cons, hs₁, Option.bind_some]
      exact ht
    · rcases hline'.timer with hidle | harmed
      · cases step_cases ht' with
        | expires harmed => exact absurd (hidle.symm.trans harmed) (by simp)
      · exact harmed

/-- **When the line keeps its pace.** Let the guest be disciplined in both directions. Over every
run readiness stays in one place in every state iff the event loop never handles a client's event of
a direction while there are other clients; and where it stays so, each character gets its time. -/
theorem keepsPace_iff (events : List Event) (hguest : ∀ d, StepsMeet step (Disciplined d) {} events) :
    (StatesMeet step KeepsPace {} events ↔
      StepsMeet step (fun s e => ∀ d, ¬ HandlesOneOfMany d s e) {} events) ∧
    (StatesMeet step KeepsPace {} events → CharacterTimes events) := by
  have hE : StepsMeet step (fun s e => ∀ d, Disciplined d s e) {} events :=
    fun pre i hpre s hs d => hguest d pre i hpre s hs
  have hiff : StatesMeet step KeepsPace {} events ↔
      StepsMeet step (fun s e => ∀ d, ¬ HandlesOneOfMany d s e) {} events := by
    have hgood : ∀ s : Serial16450, (∀ d, s.pace.Paced d) → s.KeepsPace :=
      fun s hpaced d => (hpaced d).atMostOne
    refine statesMeet_iff_stepsMeet hgood
      (fun s e s' hpaced hguest hone hstep d => paced_step (hpaced d) (hguest d) (hone d) hstep)
      (fun s e hpaced _ hnot => ?_) paced_init hE
    obtain ⟨d, hmany⟩ := not_forall.mp hnot
    obtain ⟨rfl, hcard, fd, clientEvents, hclient, hevents⟩ :=
      handlesOneOfMany_iff.mp (not_not.mp hmany)
    refine ⟨{ s.handleClientEvent fd clientEvents with inflight := none }, ?_, fun hkeeps => ?_⟩
    · show s.inflight.bind s.runHandler = _
      rw [hclient]
      rfl
    · have hone := hkeeps d
      rw [pace_handleClientEvent] at hone
      exact (hpaced d).not_atMostOne_handle hclient hevents hcard hone
  refine ⟨hiff, fun hkeeps => characterTimes fun d pre i hpre s hs => ⟨hguest d pre i hpre s hs, ?_⟩⟩
  exact hiff.mp hkeeps pre i hpre s hs d

/-- A client connects with room, its `EPOLLOUT` sets `writable`, the guest programs divisor 1 and
writes a byte, and the timer brings the transmitter back. -/
def transmitRun : List Event :=
  connectRun ++ [.iowrite8 3#16 0x80#8, .iowrite8 0#16 0x01#8, .iowrite8 3#16 0x03#8,
    .iowrite8 0#16 0x41#8, .timerExpires .write, .wait (.timer .write), .dispatch, .dispatch]

/-- It keeps the pace. -/
theorem keepsPace_iff_transmit : StatesMeet step KeepsPace {} transmitRun :=
  (keepsPace_iff transmitRun fun d => by cases d <;> decide).1.mpr (by decide)

/-- **Two clients.** The `EPOLLOUT` of one client leaves the other listening while the transmitter
is ready. -/
theorem not_keepsPace : ¬ ∀ events, (∀ d, StepsMeet step (Disciplined d) {} events) →
    StatesMeet step KeepsPace {} events := by
  intro hclaim
  have hguest : ∀ d, StepsMeet step (Disciplined d) {}
      [.wait .server, .accept (some { fd := 5, capacity := 1 }), .wait .server,
        .accept (some { fd := 6, capacity := 1 }), .wait (.client 5 { epollOut := true }),
        .dispatch] := fun d => by cases d <;> decide
  have hbreaks : ¬ StatesMeet step KeepsPace {}
      [.wait .server, .accept (some { fd := 5, capacity := 1 }), .wait .server,
        .accept (some { fd := 6, capacity := 1 }), .wait (.client 5 { epollOut := true }),
        .dispatch] := by
    decide
  exact hbreaks (hclaim _ hguest)

end Serial16450

end Ts3100
