import Ts3100.Serial.Pacing

/-! # What a step does to the clients

Only an access to a data register makes the device write to a client's socket or read from it. Every
other step keeps the clients it finds (`keepsClient_step`); a write writes one byte to all of them
(`writeData_step`), a read takes one byte of one of them (`readData_step`). With one client, a flag
stands for what `epoll` has reported of it (`promised_step`). -/

namespace Ts3100

open Descriptors LabelledRuns

namespace Serial16450

variable {s s' : Serial16450} {e : Event} {d : Direction}

/-- The client at `fd` keeps what was due to it, and its socket moves without the device. -/
structure KeepsClient (s s' : Serial16450) (fd : Nat) : Prop where
  mem : fd ∈ s'.clients
  socket : (s.sockets fd).Moves (s'.sockets fd)
  due : s'.due fd = s.due fd

/-- What moves on one socket keeps every client. -/
theorem keepsClient_updateSocket {fd fd' : Nat} {socket : Socket Byte} (hfd : fd ∈ s.clients)
    (hmoves : (s.sockets fd').Moves socket) : KeepsClient s (s.updateSocket fd' socket) fd := by
  refine ⟨hfd, ?_, rfl⟩
  by_cases heq : fd = fd'
  · subst heq
    simpa [updateSocket] using hmoves
  · rw [show (s.updateSocket fd' socket).sockets fd = s.sockets fd from
      Function.update_of_ne heq _ _]
    exact .refl

/-- A step that accesses no data register keeps every client. -/
theorem keepsClient_step {fd : Nat} (hfd : fd ∈ s.clients) (hnone : s.accesses e = none)
    (h : s.step e = some s') : KeepsClient s s' fd := by
  cases step_cases h with
  | writeData hd | readData hd => exact absurd (hnone.symm.trans hd) (by simp)
  | writeInterruptControl =>
      unfold writeInterruptControl
      dsimp only
      split <;> exact ⟨hfd, .refl, rfl⟩
  | readInterruptStatus =>
      unfold readInterruptStatus
      split
      · exact ⟨hfd, .refl, rfl⟩
      · split <;> exact ⟨hfd, .refl, rfl⟩
  | @accept c hserver hfresh =>
      have hne : fd ≠ c.fd := fun heq => hfresh (heq ▸ hfd)
      refine ⟨FdSet.mem_insert.mpr (Or.inr hfd), ?_, Function.update_of_ne hne _ _⟩
      rw [show (s.acceptClient c.fd c.socket).sockets fd = s.sockets fd from
        Function.update_of_ne hne _ _]
      exact .refl
  | listen =>
      rw [listenAgain, reloadEventLoop_eq]
      exact ⟨hfd, .refl, rfl⟩
  | handle =>
      rw [handleClientEvent_eq]
      exact ⟨hfd, .refl, rfl⟩
  | sends => exact keepsClient_updateSocket hfd (.receive _)
  | hangsUp => exact keepsClient_updateSocket hfd .hangUp
  | drains => exact keepsClient_updateSocket hfd .drain
  | setup | readOther | wait | acceptFails | readTimer | expires => exact ⟨hfd, .refl, rfl⟩

/-- A client after a step was there before, or has just been accepted. -/
theorem mem_clients_step {fd : Nat} (hfd : fd ∈ s'.clients) (h : s.step e = some s') :
    fd ∈ s.clients ∨ ∃ c, e = .accept (some c) ∧ c.fd = fd := by
  have hpace := pace_step h
  have hmem : fd ∈ s'.pace.clients := hfd
  generalize s'.pace = p at hpace hmem
  cases hpace with
  | @accept c hserver hfresh =>
      rcases FdSet.mem_insert.mp hmem with heq | hmem
      · exact Or.inr ⟨c, rfl, heq.symm⟩
      · exact Or.inl hmem
  | rest | access | wait | acceptFails | readTimer | listen | handle | expires => exact Or.inl hmem

/-- To a client that has just been accepted nothing is due, and nothing has been sent. -/
theorem accept_step {c : Connection} (h : s.step (.accept (some c)) = some s') :
    s'.sockets c.fd = c.socket ∧ s'.due c.fd = [] ∧ c.fd ∉ s.clients := by
  cases step_cases h with
  | accept hserver hfresh =>
      exact ⟨Function.update_self _ _ _, Function.update_self _ _ _, hfresh⟩

/-- The effect of a write to the transmit holding register on the clients. -/
theorem writeData_step (hd : s.accesses e = some .write) (h : s.step e = some s') :
    s'.clients = s.clients ∧ ∃ data, s'.due = s.dueAfter data ∧
      ∀ fd ∈ s.clients, s'.sockets fd = (s.sockets fd).write data := by
  cases step_cases h with
  | @writeData address data =>
      rw [writeData, writeClients_eq]
      exact ⟨rfl, data, rfl, fun fd hfd => if_pos hfd⟩
  | readData hread => exact absurd (hd.symm.trans hread) (by simp)
  | writeInterruptControl hnone | setup hnone | readInterruptStatus hnone | readOther hnone =>
      exact absurd (hd.symm.trans hnone) (by simp)
  | wait | acceptFails | accept | readTimer | listen | handle | expires | sends | hangsUp
  | drains => cases hd

/-- The effect of a read of the receive buffer register on the clients: it returns the first byte of
one of them, or, if there is none, what the register held. -/
theorem readData_step (hd : s.accesses e = some .read) (h : s.step e = some s') :
    s'.clients = s.clients ∧ s'.due = s.due ∧
      (((∀ fd ∈ s.clients, (s.sockets fd).incoming.waiting = []) ∧ s'.sockets = s.sockets ∧
          s'.returned = s.returned ++ [s.registers.receive]) ∨
        ∃ fd ∈ s.clients, ∃ data socket, (s.sockets fd).read = some (data, socket) ∧
          s'.sockets = Function.update s.sockets fd socket ∧
          s'.returned = s.returned ++ [data]) := by
  cases step_cases h with
  | writeData hwrite => exact absurd (hd.symm.trans hwrite) (by simp)
  | readData =>
      rw [readData]
      rcases s.readClients_cases s.clients.toList with
        ⟨hempty, heq⟩ | ⟨fd, hfd, data, socket, hread, heq⟩
      · rw [heq]
        exact ⟨rfl, rfl, Or.inl ⟨hempty, rfl, rfl⟩⟩
      · rw [heq]
        exact ⟨rfl, rfl, Or.inr ⟨fd, hfd, data, socket, hread, rfl, rfl⟩⟩
  | writeInterruptControl hnone | setup hnone | readInterruptStatus hnone | readOther hnone =>
      exact absurd (hd.symm.trans hnone) (by simp)
  | wait | acceptFails | accept | readTimer | listen | handle | expires | sends | hangsUp
  | drains => cases hd

/-- A step that accesses no data register returns nothing to the guest from it. -/
theorem returned_step (hnone : s.accesses e ≠ some .read) (h : s.step e = some s') :
    s'.returned = s.returned := by
  cases step_cases h with
  | writeData => rw [writeData, writeClients_eq]; rfl
  | writeInterruptControl =>
      unfold writeInterruptControl
      dsimp only
      split <;> rfl
  | readData hd => exact absurd hd hnone
  | readInterruptStatus =>
      unfold readInterruptStatus
      split
      · rfl
      · split <;> rfl
  | listen => rw [listenAgain, reloadEventLoop_eq]
  | handle => rw [handleClientEvent_eq]
  | setup | readOther | wait | acceptFails | accept | readTimer | expires | sends | hangsUp
  | drains => rfl

/-! ## What a flag promises -/

/-- The flag of a direction, and an event of it in hand, promise that a socket satisfies `A`: some
client's socket, and that of the event. -/
structure Promised (d : Direction) (A : Socket Byte → Prop) (s : Serial16450) : Prop where
  paced : s.pace.Paced d
  ready : s.pace.ready d = true → ∃ fd ∈ s.clients, A (s.sockets fd)
  inflight : ∀ fd events, s.pace.inflight = some (.client fd events) →
    listens d events = true → A (s.sockets fd)

/-- A port without clients has promised nothing. -/
theorem promised_init (d : Direction) (A : Socket Byte → Prop) : Promised d A {} :=
  ⟨paced_init d, by cases d <;> simp [pace, Serial16450.ready], by simp [pace]⟩

/-- With at most one client a disciplined guest keeps the promise, if `epoll` reports the direction
only of sockets that satisfy `A`, and steps that do not access the direction keep `A`. -/
theorem promised_step {A : Socket Byte → Prop} (hpromised : Promised d A s)
    (hguest : Disciplined d s e) (hcard : s.clients.card ≤ 1)
    (hreport : ∀ fd events, s.Reports (.client fd events) → listens d events = true →
      A (s.sockets fd))
    (hkeeps : ∀ fd ∈ s.clients, s.accesses e ≠ some d →
      fd ∈ s'.clients ∧ (A (s.sockets fd) → A (s'.sockets fd)))
    (h : s.step e = some s') : Promised d A s' := by
  obtain ⟨hpaced, hready, hinflight⟩ := hpromised
  have hone : ¬ HandlesOneOfMany d s e := fun hmany =>
    absurd (handlesOneOfMany_iff.mp hmany).2.1 (not_lt.mpr hcard)
  -- the flag and the event in hand, each for a step that accesses the direction and one that does not
  refine ⟨paced_step hpaced hguest hone h, ?_, ?_⟩ <;> by_cases hd : s.accesses e = some d
  · obtain ⟨t, ht, hpace⟩ := exists_step_of_accesses hd
    obtain rfl : t = s' := Option.some.inj (ht.symm.trans h)
    simp [hpace, Pace.access]
  · -- the flag stands, or an event in hand has set it
    intro hready'
    have hbefore : ∃ fd ∈ s.clients, A (s.sockets fd) := by
      have hpace := pace_step h
      generalize s'.pace = p at hpace hready'
      cases hpace with
      | @access _ d' haccess =>
          have hne : d ≠ d' := fun heq => hd (heq ▸ haccess)
          exact hready (by simpa [Pace.access, Function.update_of_ne hne] using hready')
      | @handle fd events hclient =>
          cases hevents : listens d events with
          | true =>
              exact ⟨fd, (hpaced.client fd events hclient).1, hinflight fd events hclient hevents⟩
          | false => exact hready (by simpa [Pace.handle, hevents] using hready')
      | rest | wait | acceptFails | accept | readTimer | listen | expires => exact hready hready'
    obtain ⟨fd, hfd, hA⟩ := hbefore
    exact ⟨fd, (hkeeps fd hfd hd).1, (hkeeps fd hfd hd).2 hA⟩
  · -- the direction was ready, so it was not listened for
    intro fd events hclient hevents
    obtain ⟨t, ht, hpace⟩ := exists_step_of_accesses hd
    obtain rfl : t = s' := Option.some.inj (ht.symm.trans h)
    rw [hpace] at hclient
    have hmask := (hpaced.client fd events hclient).2 hevents
    exact absurd ((hpaced.notReady (hguest.ready hd)).1.symm.trans hmask) (by simp)
  · -- the event in hand was there before, or `epoll_wait` has just reported it
    intro fd events hclient hevents
    have hbefore : fd ∈ s.clients ∧ A (s.sockets fd) := by
      have hpace := pace_step h
      generalize s'.pace = p at hpace hclient
      cases hpace with
      | rest | access | expires =>
          exact ⟨(hpaced.client fd events hclient).1, hinflight fd events hclient hevents⟩
      | wait hidle hreports =>
          obtain rfl := Option.some.inj hclient
          exact ⟨hreports.1, hreport fd events hreports hevents⟩
      | acceptFails | accept | readTimer | listen | handle => cases hclient
    exact (hkeeps fd hbefore.1 hd).2 hbefore.2

/-- With one client, an access finds the client as promised. -/
theorem Promised.of_accesses {A : Socket Byte → Prop} (hpromised : Promised d A s)
    (hguest : Disciplined d s e) (hcard : s.clients.card ≤ 1) (hd : s.accesses e = some d) :
    (∃ fd ∈ s.clients, A (s.sockets fd)) ∧ ∀ fd ∈ s.clients, A (s.sockets fd) := by
  obtain ⟨fd, hfd, hA⟩ := hpromised.ready (hguest.ready hd)
  exact ⟨⟨fd, hfd, hA⟩, fun fd' hfd' => FdSet.eq_of_card_le_one hcard hfd hfd' ▸ hA⟩

end Serial16450

end Ts3100
