import Ts3100.Serial.Phases

/-! # What starting and stopping leaves behind

Whether a port closes each of its descriptors exactly once and nothing else, leaves no closed number
among the keys of its event loop, and has each registered descriptor dispatched to its own handler.
`stop` never resets `fds.irq`, `fds.refresh`, `fds.readTimer` and `fds.writeTimer`, and never takes
the timers out of the event loop.

* `closed_perm_opened_iff` — nothing is leaked, and another descriptor is closed only where other
  code has been given one of these numbers.
* `leavesNoKey_iff` — a closed number stays a key after every `start` that succeeds.
* `dispatches_iff` — the wrong handler runs where such a number comes back for another use.
* `startStop_iff` — the three together. -/

namespace Ts3100

open Descriptors LabelledRuns

namespace SerialPort

variable {s s' : SerialPort} {e : SerialPortEvent}

/-! ## Closing -/

/-- The member of `fds` whose number the step closes, and the number. -/
def closesFrom (s : SerialPort) : SerialPortEvent → Option (PortFd × Nat)
  | .call _ =>
      match s.stopping with
      | .close (.fds f) (some fd) :: _ => some (f, fd)
      | _ => none
  | _ => none

/-- A number that `stop` finds in `fds.irq`, `fds.refresh`, `fds.readTimer` or `fds.writeTimer` has
not been given to other code by the time it is closed. -/
def ClosesNoReused (s : SerialPort) (e : SerialPortEvent) : Prop :=
  ∀ c ∈ s.closesFrom e, c.1 ≠ .server → s.kernel.user c.2 ≠ some none

instance (s : SerialPort) (e : SerialPortEvent) : Decidable (s.ClosesNoReused e) :=
  inferInstanceAs (Decidable (∀ c ∈ s.closesFrom e, _))

/-- A call of `start` closes nothing. -/
theorem closedOwn_startCall (h : s.Inv) {c : StartCall} {cs : List StartCall} {result : Option Nat}
    (hcall : ({ s with starting := cs }).startCall result c = some s') :
    s'.kernel.ClosedOwn ↔ s.kernel.ClosedOwn := by
  cases c with
  | opens f =>
      cases result with
      | none =>
          obtain rfl := Option.some.inj hcall
          rfl
      | some fd =>
          obtain ⟨hfree, ⟨⟩⟩ := Option.ite_none_right_eq_some.mp hcall
          exact h.table.closedOwn_openFd_iff _
  | bind | listen | irqfd =>
      obtain rfl := Option.some.inj hcall
      split <;> rfl
  | vm vmFd =>
      obtain rfl := Option.some.inj hcall
      rfl
  | addEvent f =>
      obtain rfl := Option.some.inj hcall
      split
      · rw [addEvent_eq]
      · rfl

/-- A call of `stop` closes a descriptor of other code iff the number it closes has been reused. -/
theorem closedOwn_stopCall (h : s.Inv) {c : StopCall} {cs : List StopCall}
    (hc : s.stopping = c :: cs) (result : Option Nat) :
    (({ s with stopping := cs }).stopCall c).kernel.ClosedOwn ↔
      s.kernel.ClosedOwn ∧ s.ClosesNoReused (.call result) := by
  have hstopping := h.stopping hc
  cases c with
  | removeEvent fd =>
      rw [stopCall, removeEvent_eq]
      simp [ClosesNoReused, closesFrom, hc]
  | unlock => simp [ClosesNoReused, closesFrom, hc, stopCall]
  | close use fd =>
      cases fd with
      | none => cases use <;> simp [ClosesNoReused, closesFrom, hc, stopCall]
      | some fd =>
          refine (h.table.closedOwn_close_iff).trans (and_congr_right fun _ => ?_)
          have hown := hstopping.own use fd (by simp [hc])
          cases use with
          | client =>
              have hholds := hown (Or.inl rfl)
              rw [Holds] at hholds
              simp [ClosesNoReused, closesFrom, hc, hholds]
          | fds f =>
              by_cases hserver : f = .server
              · subst hserver
                have hholds := hown (Or.inr rfl)
                rw [Holds] at hholds
                simp [ClosesNoReused, closesFrom, hc, hholds]
              · simp [ClosesNoReused, closesFrom, hc, hserver]

/-- A step closes no descriptor of other code iff it closes no reused number: the clients and the
server are still the port's own. -/
theorem closedOwn_step (h : s.Inv) (hstep : s.step e = some s') :
    s'.kernel.ClosedOwn ↔ s.kernel.ClosedOwn ∧ s.ClosesNoReused e := by
  cases step_cases hstep with
  | start | stop | destruct => simp [ClosesNoReused, closesFrom, beginStop]
  | @stopCall result c cs hc => exact closedOwn_stopCall h hc result
  | @startCall result c cs _ hstopping hc hcall =>
      have hclosed : s.ClosesNoReused (.call result) := by
        simp [ClosesNoReused, closesFrom, hstopping]
      rw [and_iff_left hclosed]
      exact closedOwn_startCall h hcall
  | accept hstopping hready hhandler hserver hfree =>
      rw [addEvent_eq]
      simpa [ClosesNoReused, closesFrom] using h.table.closedOwn_openFd_iff _
  | otherOpens hfree =>
      simpa [ClosesNoReused, closesFrom] using h.table.closedOwn_openFd_iff _
  | otherCloses hother => simp [ClosesNoReused, closesFrom, FdTable.ClosedOwn, FdTable.release]

/-- A port is in the same invariant at the end of a run. -/
theorem inv_of_run {is : List SerialPortEvent} (hrun : run step {} is = some s') : s'.Inv :=
  (statesMeet_of_invariant (fun _ _ _ h => inv_step h) inv_init is).last hrun

/-- After its destructor a port has nothing open. -/
theorem Inv.not_holds (h : s.Inv) (hend : s.destroyed = true) (fd : Nat) (use : PortUse) :
    ¬ s.Holds fd use := by
  rcases h.phase with hsettled | hstopping
  · exact (hsettled.destroyed hend).2 fd use
  · exact absurd (hstopping.destroyed.symm.trans hend) (by simp)

/-- **Each exactly once.** By the end of its destructor a port has closed each descriptor it opened
exactly once and no other, iff no number left over in `fds` was closed while other code had it. -/
theorem closed_perm_opened_iff {is : List SerialPortEvent} (hrun : run step {} is = some s')
    (hend : s'.destroyed = true) :
    s'.kernel.closed.Perm s'.kernel.opened ↔ StepsMeet step ClosesNoReused {} is := by
  have hinv := inv_of_run hrun
  rw [hinv.table.closed_perm_opened_iff fun fd use => hinv.not_holds hend fd use,
    last_iff_stepsMeet (fun _ _ _ h => inv_step h) (fun _ _ _ h => closedOwn_step h) inv_init hrun]
  exact and_iff_right (List.Subset.refl _)

/-! ## Keys -/

/-- At the end of `stop` no number that the port has closed is a key of `mHandlers`. -/
def LeavesNoKey (s : SerialPort) : Prop :=
  s.stopping = [.unlock] → ∀ d ∈ s.kernel.closed, s.mHandlers d.1 = none

instance (s : SerialPort) : Decidable s.LeavesNoKey := inferInstanceAs (Decidable (_ → _))

/-- The step is the `KVM_IRQFD` request of a `start`, and succeeds: `start` will return `true`. -/
def startSucceeds (s : SerialPort) : SerialPortEvent → Bool
  | .call (some _) => s.stopping.isEmpty && s.starting.head? == some .irqfd
  | _ => false

/-- No `start` succeeds here. -/
def StartFails (s : SerialPort) (e : SerialPortEvent) : Prop := s.startSucceeds e = false

instance (s : SerialPort) (e : SerialPortEvent) : Decidable (s.StartFails e) :=
  inferInstanceAs (Decidable (_ = _))

/-- `addEvent` makes the number a key and drops no other. -/
theorem isSome_mHandlers_addEvent {fd fd' : Nat} {handler : PortUse} {added : Bool} :
    ((s.addEvent fd handler added).mHandlers fd').isSome ↔
      fd' = fd ∨ (s.mHandlers fd').isSome := by
  let t := if (s.mHandlers fd).isSome then s.removeEvent fd else s
  have ht : fd' ≠ fd → t.mHandlers fd' = s.mHandlers fd' := by
    intro hne
    dsimp only [t]
    split
    · rw [mHandlers_removeEvent]
      split <;> simp [hne]
    · rfl
  show ((if (t.mHandlers fd).isSome then t.mHandlers
    else Function.update t.mHandlers fd (some handler)) fd').isSome ↔ _
  by_cases heq : fd' = fd
  · subst heq
    split
    · rename_i hsome
      simpa using hsome
    · simp
  · split <;> simp [heq, ht heq]

/-- While no `start` has succeeded, the event loop of the port has no key. -/
structure NoKey (s : SerialPort) : Prop where
  mHandlers : ∀ fd, s.mHandlers fd = none
  starting : s.starting = [] ∨ .irqfd ∈ s.starting

/-- A `start` that does not succeed adds no key. -/
theorem noKey_step (h : s.Inv) (hkey : s.NoKey) (hfails : s.StartFails e)
    (hstep : s.step e = some s') : s'.NoKey := by
  cases step_cases hstep with
  | start => exact ⟨hkey.mHandlers, Or.inr (by simp [startCalls])⟩
  | stop | destruct | otherOpens | otherCloses => exact ⟨hkey.mHandlers, hkey.starting⟩
  | @stopCall _ c cs hc =>
      cases c with
      | removeEvent fd =>
          rw [stopCall, removeEvent, if_neg (by simp [hkey.mHandlers])]
          exact ⟨hkey.mHandlers, hkey.starting⟩
      | close use fd => cases fd <;> exact ⟨hkey.mHandlers, hkey.starting⟩
      | unlock => exact ⟨hkey.mHandlers, hkey.starting⟩
  | @startCall result c cs _ hstopping hc ht =>
      have hmem : .irqfd ∈ c :: cs := by
        rcases hkey.starting with hnil | hmem
        · simp [hc] at hnil
        · rwa [hc] at hmem
      have hrest : c ≠ .irqfd → .irqfd ∈ cs := fun hne =>
        (List.mem_cons.mp hmem).resolve_left (Ne.symm hne)
      cases c with
      | opens f =>
          cases result with
          | none =>
              obtain rfl := Option.some.inj ht
              exact ⟨hkey.mHandlers, Or.inl rfl⟩
          | some fd =>
              obtain ⟨hfree, ⟨⟩⟩ := Option.ite_none_right_eq_some.mp ht
              exact ⟨hkey.mHandlers, Or.inr (hrest (by simp))⟩
      | bind | listen =>
          obtain rfl := Option.some.inj ht
          split
          · exact ⟨hkey.mHandlers, Or.inr (hrest (by simp))⟩
          · exact ⟨hkey.mHandlers, Or.inl rfl⟩
      | irqfd =>
          obtain rfl := Option.some.inj ht
          cases result with
          | none => exact ⟨hkey.mHandlers, Or.inl rfl⟩
          | some fd => simp [StartFails, startSucceeds, hstopping, hc] at hfails
      | vm vmFd =>
          obtain rfl := Option.some.inj ht
          exact ⟨hkey.mHandlers, Or.inr (hrest (by simp))⟩
      | addEvent f =>
          -- the calls of `addEvent` come after the request
          obtain ⟨vmFd, hsuffix⟩ := (h.settled hstopping).starting
          rw [hc] at hsuffix
          simpa using suffix_addEvent hsuffix _ hmem
  | accept hstopping hready hhandler => simp [hkey.mHandlers] at hhandler

/-- From a `start` that succeeds to the end of the next `stop`, the number of the read timer is or
will be a key that `stop` does not remove. -/
inductive TimerKey (s : SerialPort) : Prop where
  | settled {fd : Nat} (hstopping : s.stopping = []) (hfd : s.fds .readTimer = some fd)
      (hholds : s.Holds fd (.fds .readTimer))
      (hstarting : ∀ c ∈ s.starting, ∃ f, c = .addEvent f)
      (hkey : .addEvent .readTimer ∉ s.starting → (s.mHandlers fd).isSome)
  | stopping {fd : Nat} (hstopping : s.stopping ≠ []) (hkey : (s.mHandlers fd).isSome)
      (hremove : .removeEvent fd ∉ s.stopping)
      (hholds : (∃ use, s.Holds fd use) ∨ ∃ id, (fd, id) ∈ s.kernel.closed)

/-- A call of `start` registers other numbers, or the timer's. -/
theorem timerKey_startCall (h : s.Inv) (hstopping : s.stopping = []) {fd : Nat}
    (hfd : s.fds .readTimer = some fd) (hholds : s.Holds fd (.fds .readTimer))
    (hstarting : ∀ c ∈ s.starting, ∃ f, c = .addEvent f)
    (hkey : .addEvent .readTimer ∉ s.starting → (s.mHandlers fd).isSome) {c : StartCall}
    {cs : List StartCall} (hc : s.starting = c :: cs) {result : Option Nat}
    (hcall : ({ s with starting := cs }).startCall result c = some s') : s'.TimerKey := by
  obtain ⟨f, rfl⟩ := hstarting c (by simp [hc])
  obtain ⟨fd', hfd', hholds'⟩ := (h.settled hstopping).opened (by simp [hc]) f fun hmem => by
    simpa using hstarting _ hmem
  obtain rfl : ({ s with starting := cs }).addEvent fd' (.fds f) result.isSome = s' := by
    simpa [startCall, hfd'] using hcall
  have hkey' : .addEvent .readTimer ∉ cs →
      ((({ s with starting := cs }).addEvent fd' (.fds f) result.isSome).mHandlers fd).isSome := by
    intro hnot
    rw [isSome_mHandlers_addEvent]
    by_cases hf : f = .readTimer
    · subst hf
      exact Or.inl (Option.some.inj (hfd.symm.trans hfd'))
    · exact Or.inr (hkey (by simp [hc, hnot, Ne.symm hf]))
  have hrest : ∀ c ∈ cs, ∃ f, c = .addEvent f := fun c hmem =>
    hstarting c (hc ▸ List.mem_cons_of_mem _ hmem)
  rw [addEvent_eq]
  exact .settled hstopping hfd hholds hrest hkey'

/-- A call of `stop` removes other numbers; by the last call the timer has been closed. -/
theorem timerKey_stopCall (h : s.Inv) (hleaves : s.LeavesNoKey) {fd : Nat}
    (hkey : (s.mHandlers fd).isSome) (hremove : .removeEvent fd ∉ s.stopping)
    (hholds : (∃ use, s.Holds fd use) ∨ ∃ id, (fd, id) ∈ s.kernel.closed) {c : StopCall}
    {cs : List StopCall} (hc : s.stopping = c :: cs) :
    (({ s with stopping := cs }).stopCall c).TimerKey := by
  have hstop := h.stopping hc
  rw [hc] at hremove
  have hremove' : .removeEvent fd ∉ cs := fun hmem => hremove (List.mem_cons_of_mem _ hmem)
  cases c with
  | removeEvent fd' =>
      have hne : fd ≠ fd' := fun heq => hremove (heq ▸ List.mem_cons_self)
      have hkey' : ((({ s with stopping := cs }).removeEvent fd').mHandlers fd).isSome := by
        rw [mHandlers_removeEvent]
        split <;> simp [hne, hkey]
      rw [stopCall, removeEvent_eq]
      exact .stopping (hstop.ne_nil hc (by simp)) hkey' hremove' hholds
  | close use fd' =>
      cases fd' with
      | none => exact .stopping (hstop.ne_nil hc (by simp)) hkey hremove' hholds
      | some fd' =>
          refine .stopping (hstop.ne_nil hc (by simp)) hkey hremove' ?_
          rcases hholds with ⟨use, hholds⟩ | ⟨id, hclosed⟩
          · rw [Holds] at hholds
            by_cases heq : fd = fd'
            · subst heq
              exact Or.inr (FdTable.mem_closed_close (by simp [hholds]))
            · exact Or.inl ⟨use, by simpa [stopCall, Holds, heq] using hholds⟩
          · exact Or.inr ⟨id, FdTable.closed_subset_close hclosed⟩
  | unlock =>
      -- nothing is open by now, so the number is among those closed
      obtain rfl := hstop.eq_nil hc
      rcases hholds with ⟨use, hholds⟩ | ⟨id, hclosed⟩
      · exact absurd hholds (hstop.not_holds hc fd use)
      · simp [hleaves hc _ hclosed] at hkey

/-- The number of the timer stays such a key until the end of a `stop`. -/
theorem timerKey_step (h : s.Inv) (htimer : s.TimerKey) (hleaves : s.LeavesNoKey)
    (hstep : s.step e = some s') : s'.TimerKey := by
  cases htimer with
  | @settled fd hstopping hfd hholds hstarting hkey =>
      have hsettled := h.settled hstopping
      -- an idle port has registered the timer, and the `stop` that begins does not take its key out
      have hbegin : s.Idle → (s.mHandlers fd).isSome ∧ s.stopCalls ≠ [] ∧
          .removeEvent fd ∉ s.stopCalls := by
        intro hidle
        refine ⟨hkey (by simp [hidle.2.1]), ?_, ?_⟩
        · obtain ⟨cs, hcs, -⟩ := s.stopCalls_eq_append
          simp [hcs]
        · -- a timer is no client, and not the server
          rw [removeEvent_mem_stopCalls]
          rintro (hclient | hserver)
          · exact absurd (hholds.unique (hsettled.clients fd hclient)) (by simp)
          · exact absurd (hholds.unique (hsettled.server fd hserver)) (by simp)
      cases step_cases hstep with
      | start hidle | stop hidle | destruct hidle =>
          obtain ⟨hkey, hne, hremove⟩ := hbegin hidle
          exact .stopping hne hkey hremove (Or.inl ⟨_, hholds⟩)
      | stopCall hc => simp [hstopping] at hc
      | startCall _ hc hcall => exact timerKey_startCall h hstopping hfd hholds hstarting hkey hc hcall
      | @accept ready fd' added _ hready hhandler hserver hfree =>
          -- accepting a client adds a key and opens a descriptor; the timer's are still there
          have hkey' : .addEvent .readTimer ∉ s.starting → ((({ s with
              clients := s.clients.insert fd'
              kernel := s.kernel.openFd fd' (some .client) }).addEvent fd' .client added).mHandlers
                fd).isSome := fun hnot => isSome_mHandlers_addEvent.mpr (Or.inr (hkey hnot))
          rw [addEvent_eq]
          exact .settled hstopping hfd ((user_openFd_iff hfree).mpr (Or.inr hholds)) hstarting hkey'
      | otherOpens hfree =>
          exact .settled hstopping hfd ((user_openFd_none_iff hfree).mpr hholds) hstarting hkey
      | otherCloses hother =>
          exact .settled hstopping hfd ((user_release_iff hother).mpr hholds) hstarting hkey
  | @stopping fd hstopping hkey hremove hholds =>
      cases step_cases hstep with
      | start hidle | stop hidle | destruct hidle => exact absurd hidle.1 hstopping
      | startCall hnil => exact absurd hnil hstopping
      | accept hnil => exact absurd hnil hstopping
      | stopCall hc => exact timerKey_stopCall h hleaves hkey hremove hholds hc
      | otherOpens hfree =>
          refine .stopping hstopping hkey hremove (hholds.imp_left ?_)
          rintro ⟨use, hholds⟩
          exact ⟨use, (user_openFd_none_iff hfree).mpr hholds⟩
      | otherCloses hother =>
          refine .stopping hstopping hkey hremove (hholds.imp_left ?_)
          rintro ⟨use, hholds⟩
          exact ⟨use, (user_release_iff hother).mpr hholds⟩

/-- With such a key the destructor has not returned. -/
theorem TimerKey.not_destroyed (htimer : s.TimerKey) (h : s.Inv) : s.destroyed ≠ true := by
  intro hdestroyed
  cases htimer with
  | settled hstopping _ hholds => exact ((h.settled hstopping).destroyed hdestroyed).2 _ _ hholds
  | stopping hstopping =>
      obtain ⟨c, cs, hc⟩ := List.exists_cons_of_ne_nil hstopping
      exact absurd ((h.stopping hc).destroyed.symm.trans hdestroyed) (by simp)

/-- A `start` that succeeds has the timer's number become such a key. -/
theorem timerKey_of_startSucceeds (h : s.Inv) (hsucceeds : s.startSucceeds e = true)
    (hstep : s.step e = some s') : s'.TimerKey := by
  obtain ⟨fd, rfl, hstopping, cs, hc⟩ : ∃ fd, e = .call (some fd) ∧ s.stopping = [] ∧
      ∃ cs, s.starting = .irqfd :: cs := by
    unfold startSucceeds at hsucceeds
    split at hsucceeds
    · simp only [Bool.and_eq_true, List.isEmpty_iff, beq_iff_eq, List.head?_eq_some_iff]
        at hsucceeds
      exact ⟨_, rfl, hsucceeds⟩
    · cases hsucceeds
  have hsettled := h.settled hstopping
  obtain ⟨vmFd, hsuffix⟩ := hsettled.starting
  rw [hc] at hsuffix
  obtain rfl := suffix_irqfd hsuffix
  obtain ⟨fd', hfd', hholds⟩ := hsettled.opened (by simp [hc]) .readTimer (by simp [hc])
  obtain rfl : { s with
      starting := [.addEvent .server, .addEvent .readTimer, .addEvent .writeTimer] } = s' := by
    simpa [step, hstopping, hc, startCall] using hstep
  exact .settled hstopping hfd' hholds (by simp) (by simp)

/-- **Keys of closed numbers.** No `stop` leaves a closed number among the keys of the event loop iff
no `start` succeeds. -/
theorem leavesNoKey_iff {is : List SerialPortEvent} (hrun : run step {} is = some s')
    (hend : s'.destroyed = true) :
    StatesMeet step LeavesNoKey {} is ↔ StepsMeet step StartFails {} is := by
  constructor
  · intro hleaves
    have hend' : ¬ s'.TimerKey := fun htimer => htimer.not_destroyed (inv_of_run hrun) hend
    refine (stepsMeet_of_debt (fun _ _ _ h => inv_step h)
      (fun _ _ _ h htimer hleaves => timerKey_step h htimer hleaves) ?_ inv_init hrun hend'
      hleaves).2
    intro s e s' h hsucceeds hstep
    exact timerKey_of_startSucceeds h (by simpa [StartFails] using hsucceeds) hstep
  · intro hfails
    have hkeys : StatesMeet step (fun s => s.Inv ∧ s.NoKey) {} is :=
      statesMeet_of_stepsMeet
        (fun s e s' h hfails hstep => ⟨inv_step h.1 hstep, noKey_step h.1 h.2 hfails hstep⟩)
        ⟨inv_init, fun _ => rfl, Or.inl rfl⟩ hfails
    exact fun pre hpre t ht _ d _ => (hkeys pre hpre t ht).2.mHandlers d.1

/-! ## Dispatch -/

/-- Every registered descriptor of the port is dispatched to the handler of its current use. -/
def Dispatches (s : SerialPort) : Prop :=
  ∀ fd use, s.Holds fd use → s.registered fd = true → s.mHandlers fd = some use

/-- The number that the step registers with the event loop, and the handler it passes. -/
def adds (s : SerialPort) : SerialPortEvent → Option (Nat × PortUse)
  | .call (some _) =>
      match s.stopping, s.starting with
      | [], .addEvent f :: _ => (s.fds f).map fun fd => (fd, .fds f)
      | _, _ => none
  | .accept _ fd true => some (fd, .client)
  | _ => none

/-- A number that is registered is no key from an earlier use. -/
def AddsNewKey (s : SerialPort) (e : SerialPortEvent) : Prop :=
  ∀ a ∈ s.adds e, s.mHandlers a.1 = none ∨ s.mHandlers a.1 = some a.2

instance (s : SerialPort) (e : SerialPortEvent) : Decidable (s.AddsNewKey e) :=
  inferInstanceAs (Decidable (∀ a ∈ s.adds e, _))

/-- Dispatch is right after numbers have been taken out of `epoll` and handlers kept for the rest. -/
theorem Dispatches.mono (h : s.Dispatches)
    (hholds : ∀ fd use, s'.Holds fd use → s'.registered fd = true → s.Holds fd use)
    (hregistered : ∀ fd, s'.registered fd = true →
      s.registered fd = true ∧ s'.mHandlers fd = s.mHandlers fd) : s'.Dispatches := by
  intro fd use hfd hreg
  obtain ⟨hreg', hkeep⟩ := hregistered fd hreg
  rw [hkeep]
  exact h fd use (hholds fd use hfd hreg) hreg'

/-- A call of `stop` keeps the dispatch right. -/
theorem dispatches_stopCall (h : s.Dispatches) (c : StopCall) (cs : List StopCall) :
    (({ s with stopping := cs }).stopCall c).Dispatches := by
  cases c with
  | removeEvent fd =>
      rw [stopCall, removeEvent_eq]
      refine h.mono (fun _ _ hfd _ => hfd) fun fd' hfd' => ?_
      have hbefore : (({ s with stopping := cs }).removeEvent fd).registered fd' = true := hfd'
      have hreg := registered_of_removeEvent hbefore
      refine ⟨hreg, ?_⟩
      show (({ s with stopping := cs }).removeEvent fd).mHandlers fd' = _
      rw [mHandlers_removeEvent]
      rw [registered_removeEvent] at hbefore
      split
      · rename_i hcond
        rw [if_pos hcond] at hbefore
        have hne : fd' ≠ fd := by
          rintro rfl
          simp at hbefore
        simp [hne]
      · rfl
  | close use fd =>
      cases fd with
      | none => exact h.mono (fun _ _ hfd _ => hfd) fun _ hfd => ⟨hfd, rfl⟩
      | some fd =>
          -- closing frees the number and its registration, and leaves the key behind
          refine h.mono (fun fd' use' hfd' hreg => ?_) fun fd' hfd' => ?_
          · have hne : fd' ≠ fd := by
              rintro rfl
              simp [stopCall] at hreg
            simpa [Holds, stopCall, hne] using hfd'
          · have hne : fd' ≠ fd := by
              rintro rfl
              simp [stopCall] at hfd'
            exact ⟨by simpa [stopCall, hne] using hfd', rfl⟩
  | unlock => exact h.mono (fun _ _ hfd _ => hfd) fun _ hfd => ⟨hfd, rfl⟩

/-- A number that is registered again gets its handler again. -/
theorem addEvent_of_registered {t : SerialPort} {fd : Nat} {use : PortUse}
    (hfd : t.registered fd = true) (hkey : t.mHandlers fd = some use) (added : Bool) :
    (t.addEvent fd use added).mHandlers = t.mHandlers ∧
      (t.addEvent fd use added).registered = Function.update t.registered fd added := by
  have hremove : t.removeEvent fd = { t with
      mHandlers := Function.update t.mHandlers fd none
      registered := Function.update t.registered fd false } := if_pos (by simp [hfd, hkey])
  unfold addEvent
  dsimp only
  rw [hremove, hkey, Option.isSome_some, if_pos rfl]
  constructor
  · simp [← hkey]
  · cases added <;> simp

/-- Registering a number keeps the dispatch right iff the number is no key from an earlier use. -/
theorem dispatches_addEvent_iff {t : SerialPort} (ht : t.Dispatches) {fd : Nat} {use : PortUse}
    (hholds : t.Holds fd use) (added : Bool) : (t.addEvent fd use added).Dispatches ↔
      (added = true → t.mHandlers fd = none ∨ t.mHandlers fd = some use) := by
  have hkernel : ∀ fd' use', (t.addEvent fd use added).Holds fd' use' ↔ t.Holds fd' use' := by
    intro fd' use'
    rw [addEvent_eq]
    rfl
  unfold Dispatches
  simp only [hkernel]
  by_cases hfd : t.registered fd = true
  · -- registered before, so its key is right already
    have hkey := ht fd use hholds hfd
    obtain ⟨hmHandlers, hregistered⟩ := addEvent_of_registered hfd hkey added
    rw [hmHandlers, hregistered]
    refine iff_of_true (fun fd' use' hfd' hreg => ?_) fun _ => Or.inr hkey
    by_cases heq : fd' = fd
    · subst heq
      rw [hkey, hholds.unique hfd']
    · exact ht fd' use' hfd' (by simpa [heq] using hreg)
  · rw [Bool.not_eq_true] at hfd
    rw [mHandlers_addEvent hfd, registered_addEvent hfd]
    constructor
    · -- `insert` does not overwrite: a key from before still names its own handler
      rintro h rfl
      have hhandler := h fd use hholds (by simp)
      cases hkey : t.mHandlers fd with
      | none => exact Or.inl rfl
      | some use' => exact Or.inr (by simpa [hkey] using hhandler)
    · intro hkey fd' use' hfd' hreg
      by_cases heq : fd' = fd
      · subst heq
        obtain rfl : use = use' := hholds.unique hfd'
        cases added with
        | false => simp [hfd] at hreg
        | true => rcases hkey rfl with hnone | hsome <;> simp [*]
      · rw [Function.update_of_ne heq]
        refine ht fd' use' hfd' ?_
        split at hreg
        · simpa [heq] using hreg
        · exact hreg

/-- Opening a number keeps the dispatch right: what was free is not registered. -/
theorem dispatches_openFd (h : s.Inv) (hdispatches : s.Dispatches) {fd : Nat} {use : PortUse}
    (hfree : s.kernel.user fd = none) (hkernel : s'.kernel = s.kernel.openFd fd (some use))
    (hregistered : s'.registered = s.registered) (hmHandlers : s'.mHandlers = s.mHandlers) :
    s'.Dispatches := by
  refine hdispatches.mono (fun fd' use' hfd' hreg => ?_) fun fd' hreg => ?_
  · rw [hregistered] at hreg
    obtain ⟨use'', hholds⟩ := h.registered fd' hreg
    rw [Holds, hkernel] at hfd'
    rcases (user_openFd_iff hfree).mp hfd' with ⟨rfl, rfl⟩ | hfd'
    · exact absurd (hfree.symm.trans hholds) (by simp)
    · exact hfd'
  · rw [hregistered] at hreg
    exact ⟨hreg, by rw [hmHandlers]⟩

/-- A call of `start` keeps the dispatch right iff it registers no number that is a key from an
earlier use. -/
theorem dispatches_startCall (h : s.Inv) (hdispatches : s.Dispatches) (hstopping : s.stopping = [])
    {c : StartCall} {cs : List StartCall} (hc : s.starting = c :: cs) {result : Option Nat}
    (hcall : ({ s with starting := cs }).startCall result c = some s') :
    s'.Dispatches ↔ s.AddsNewKey (.call result) := by
  have hadds : (∀ f, c ≠ .addEvent f) → s.AddsNewKey (.call result) := by
    intro hne
    cases result <;> cases c <;> simp [AddsNewKey, adds, hstopping, hc] at hne ⊢
  cases c with
  | opens f =>
      cases result with
      | none =>
          obtain rfl := Option.some.inj hcall
          exact iff_of_true (hdispatches.mono (fun _ _ hfd _ => hfd) fun _ hfd => ⟨hfd, rfl⟩)
            (hadds (by simp))
      | some fd =>
          obtain ⟨hfree, ⟨⟩⟩ := Option.ite_none_right_eq_some.mp hcall
          exact iff_of_true (dispatches_openFd h hdispatches hfree rfl rfl rfl) (hadds (by simp))
  | bind | listen | irqfd =>
      obtain rfl := Option.some.inj hcall
      refine iff_of_true ?_ (hadds (by simp))
      split <;> exact hdispatches.mono (fun _ _ hfd _ => hfd) fun _ hfd => ⟨hfd, rfl⟩
  | vm vmFd =>
      obtain rfl := Option.some.inj hcall
      exact iff_of_true (hdispatches.mono (fun _ _ hfd _ => hfd) fun _ hfd => ⟨hfd, rfl⟩)
        (hadds (by simp))
  | addEvent f =>
      -- all descriptors are open by the first `addEvent`
      have hsettled := h.settled hstopping
      obtain ⟨vmFd, hsuffix⟩ := hsettled.starting
      rw [hc] at hsuffix
      obtain ⟨fd, hfd, hholds⟩ := hsettled.opened (by simp [hc]) f
        (by rw [hc]; exact fun hmem => by simpa using suffix_addEvent hsuffix _ hmem)
      obtain rfl : ({ s with starting := cs }).addEvent fd (.fds f) result.isSome = s' := by
        simpa [startCall, hfd] using hcall
      have hbefore : ({ s with starting := cs }).Dispatches := hdispatches
      have hholds' : ({ s with starting := cs }).Holds fd (.fds f) := hholds
      rw [dispatches_addEvent_iff hbefore hholds' result.isSome]
      cases result <;> simp [AddsNewKey, adds, hstopping, hc, hfd]

/-- A step keeps the dispatch right iff it registers no number that is a key from an earlier use. -/
theorem dispatches_step (h : s.Inv) (hdispatches : s.Dispatches) (hstep : s.step e = some s') :
    s'.Dispatches ↔ s.AddsNewKey e := by
  cases step_cases hstep with
  | start | stop | destruct =>
      exact iff_of_true (hdispatches.mono (fun _ _ hfd _ => hfd) fun _ hfd => ⟨hfd, rfl⟩)
        (by simp [AddsNewKey, adds])
  | @stopCall result c cs hc =>
      refine iff_of_true (dispatches_stopCall hdispatches c cs) ?_
      cases result <;> simp [AddsNewKey, adds, hc]
  | startCall hstopping hc hcall => exact dispatches_startCall h hdispatches hstopping hc hcall
  | @accept ready fd added hstopping hready hhandler hserver hfree =>
      have hopened : ({ s with
          clients := s.clients.insert fd
          kernel := s.kernel.openFd fd (some .client) }).Dispatches :=
        dispatches_openFd h hdispatches hfree rfl rfl rfl
      have hholds : ({ s with
          clients := s.clients.insert fd
          kernel := s.kernel.openFd fd (some .client) }).Holds fd .client :=
        (user_openFd_iff hfree).mpr (Or.inl ⟨rfl, rfl⟩)
      rw [dispatches_addEvent_iff hopened hholds added]
      cases added <;> simp [AddsNewKey, adds]
  | otherOpens hfree =>
      refine iff_of_true (hdispatches.mono (fun fd' use hfd' _ => ?_) fun _ hfd => ⟨hfd, rfl⟩)
        (by simp [AddsNewKey, adds])
      exact (user_openFd_none_iff hfree).mp hfd'
  | otherCloses hother =>
      refine iff_of_true (hdispatches.mono (fun fd' use hfd' _ => ?_) fun _ hfd => ⟨hfd, rfl⟩)
        (by simp [AddsNewKey, adds])
      exact (user_release_iff hother).mp hfd'

/-- **The handler of the current use.** Every registered descriptor is dispatched to the handler of
its current use, all along a run, iff no number is registered that is a key from another use. -/
theorem dispatches_iff {is : List SerialPortEvent} (hrun : run step {} is = some s') :
    StatesMeet step Dispatches {} is ↔ StepsMeet step AddsNewKey {} is := by
  have hinit : Inv {} ∧ Dispatches {} := ⟨inv_init, by simp [Dispatches]⟩
  refine statesMeet_iff_stepsMeet (fun s (h : s.Inv ∧ s.Dispatches) => h.2) ?_ ?_ hinit
    (stepsMeet_enabled hrun)
  · intro s e s' h _ hadds hstep
    exact ⟨inv_step h.1 hstep, (dispatches_step h.1 h.2 hstep).mpr hadds⟩
  · rintro s e h ⟨s', hstep⟩ hadds
    exact ⟨s', hstep, fun hnot => hadds ((dispatches_step h.1 h.2 hstep).mp hnot)⟩

/-! ## The whole life of a port -/

/-- **Exactly when starting and stopping is clean.** In a run of a port to the end of its destructor,
it closes each of its descriptors exactly once and no other iff no number left over in `fds` is closed
while other code has it; every `stop` leaves the keys of the event loop clean iff no `start` succeeds;
and every registered descriptor has its own handler iff none is registered under such a key. -/
theorem startStop_iff {is : List SerialPortEvent} (hrun : run step {} is = some s')
    (hend : s'.destroyed = true) :
    (s'.kernel.closed.Perm s'.kernel.opened ↔ StepsMeet step ClosesNoReused {} is) ∧
      (StatesMeet step LeavesNoKey {} is ↔ StepsMeet step StartFails {} is) ∧
      (StatesMeet step Dispatches {} is ↔ StepsMeet step AddsNewKey {} is) :=
  ⟨closed_perm_opened_iff hrun hend, leavesNoKey_iff hrun hend, dispatches_iff hrun⟩

/-- Where a run ends. -/
def final (is : List SerialPortEvent) : SerialPort := (run step {} is).getD {}

/-- A run that does not fail ends in its final state. -/
theorem run_eq_final (is : List SerialPortEvent) (h : (run step {} is).isSome) :
    run step {} is = some (final is) := by
  obtain ⟨s, hs⟩ := Option.isSome_iff_exists.mp h
  simp [final, hs]

/-- A `start` whose `bind` fails, then the destructor. -/
def bindFails : List SerialPortEvent :=
  [.start 3, .call none, .call none, .call none, .call (some 10), .call none, .destruct, .call none,
    .call none, .call none, .call none, .call none]

/-- The server socket of a `start` that fails is closed by the destructor. -/
theorem startStop_iff_bindFails :
    (final bindFails).kernel.closed.Perm (final bindFails).kernel.opened ∧
      StatesMeet step LeavesNoKey {} bindFails ∧ StatesMeet step Dispatches {} bindFails := by
  have h := startStop_iff (run_eq_final bindFails (by decide)) (by decide)
  exact ⟨h.1.mpr (by decide), h.2.1.mpr (by decide), h.2.2.mpr (by decide)⟩

/-- The calls of a `start` that succeeds with the given numbers. -/
def startResults (server readTimer writeTimer irq refresh : Nat) : List SerialPortEvent :=
  [.call (some server), .call (some 0), .call (some 0), .call (some readTimer),
    .call (some writeTimer), .call none, .call (some irq), .call (some refresh), .call (some 0),
    .call (some 0), .call (some 0), .call (some 0)]

/-- A port is started and stopped. Other code opens a file that gets the number of the write timer.
Then the port is started again, gets the number of the read timer for its server, and is destroyed. -/
def restart : List SerialPortEvent :=
  [.start 3, .call none, .call none, .call none] ++ startResults 10 11 12 13 14 ++
    [.stop] ++ List.replicate 7 (.call none) ++ [.otherOpens 12, .start 3] ++
    List.replicate 5 (.call none) ++ startResults 11 10 13 14 15 ++ [.destruct] ++
    List.replicate 7 (.call none)

set_option maxRecDepth 2000 in
/-- That restart closes the other code's file, leaves keys, and runs the read timer's handler for the
server. -/
theorem not_startStop : ∃ s', run step {} restart = some s' ∧ s'.destroyed = true ∧
    ¬ s'.kernel.closed.Perm s'.kernel.opened ∧ ¬ StatesMeet step LeavesNoKey {} restart ∧
    ¬ StatesMeet step Dispatches {} restart := by
  have hrun := run_eq_final restart (by decide)
  refine ⟨final restart, hrun, by decide, by decide, by decide, ?_⟩
  rw [dispatches_iff hrun]
  decide

end SerialPort

end Ts3100
