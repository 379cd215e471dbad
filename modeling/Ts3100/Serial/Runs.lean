import Ts3100.Serial.Device

/-! # Runs of the UART

A run interleaves the guest's accesses, the event loop's thread, the expiry of the timers and the
peers of the client sockets (`Event`, `step`). The guest is `Disciplined` in a direction if it uses
the data register
only while the line status register allows it. -/

namespace Ts3100

open Descriptors LabelledRuns

/-! ## Labels -/

/-- A connection taken from the server socket: the peer may have sent and hung up already. -/
structure Connection where
  fd : Nat
  unread : List Byte := []
  capacity : Nat
  closed : Bool := false

/-- The socket of a new connection. -/
def Connection.socket (c : Connection) : Socket Byte :=
  { incoming := { waiting := c.unread }, capacity := c.capacity, closed := c.closed }

/-- What can happen next. -/
inductive Event where
  | iowrite8 (address : BitVec 16) (data : Byte)
  | ioread8 (address : BitVec 16)
  /-- `epoll_wait` returns an event for this handler -/
  | wait (handler : Handler)
  /-- the accept handler runs, and `accept` fails or returns a connection -/
  | accept (connection : Option Connection)
  /-- any other handler runs, up to or through its critical section -/
  | dispatch
  | timerExpires (d : Direction)
  | peerSends (fd : Nat) (data : Byte)
  | peerHangsUp (fd : Nat)
  | peerDrains (fd : Nat)

namespace Serial16450

/-- A guest access to the data register of a direction, with the divisor latch closed. -/
def accesses (s : Serial16450) : Event → Option Direction
  | .iowrite8 address _ =>
      if Register.ofAddress address = .dataDivisorLowByte ∧ s.registers.dlab = false then
        some .write
      else
        none
  | .ioread8 address =>
      if Register.ofAddress address = .dataDivisorLowByte ∧ s.registers.dlab = false then
        some .read
      else
        none
  | _ => none

/-- `epoll` may report an event for the handler. -/
def Reports (s : Serial16450) : Handler → Prop
  | .server => True
  | .timer d => s.timers d = .expired
  | .listen _ => False
  | .client fd events => fd ∈ s.clients ∧ (s.sockets fd).Reports (s.interest fd) events

instance (s : Serial16450) (handler : Handler) : Decidable (s.Reports handler) := by
  cases handler <;> unfold Reports <;> infer_instance

/-- The next part of a handler; the accept handler has a label of its own. -/
def runHandler (s : Serial16450) : Handler → Option Serial16450
  | .server => none
  | .timer d =>
      some { s with
        timers := Function.update s.timers d (s.timers d).read
        inflight := some (.listen d) }
  | .listen d => some { s.listenAgain d with inflight := none }
  | .client fd events => some { s.handleClientEvent fd events with inflight := none }

/-- A client's socket after its peer has done something. -/
def updateSocket (s : Serial16450) (fd : Nat) (socket : Socket Byte) : Serial16450 :=
  { s with sockets := Function.update s.sockets fd socket }

/-- What the guest owes the clients after writing `data`: the byte, to all that are connected. -/
def dueAfter (s : Serial16450) (data : Byte) (fd : Nat) : List Byte :=
  if fd ∈ s.clients then s.due fd ++ [data] else s.due fd

/-- One step; `none` where the event cannot happen. -/
def step (s : Serial16450) (e : Event) : Option Serial16450 :=
  match e with
  | .iowrite8 address data =>
      some { s.iowrite8 address data with
        due := if s.accesses e = some .write then s.dueAfter data else s.due }
  | .ioread8 address =>
      some { (s.ioread8 address).2 with
        returned :=
          if s.accesses e = some .read then s.returned ++ [(s.ioread8 address).1] else s.returned }
  | .wait handler =>
      if s.inflight = none ∧ s.Reports handler then some { s with inflight := some handler } else none
  | .accept none =>
      if s.inflight = some .server then some { s with inflight := none } else none
  | .accept (some c) =>
      if s.inflight = some .server ∧ c.fd ∉ s.clients then
        some { s.acceptClient c.fd c.socket with inflight := none }
      else
        none
  | .dispatch => s.inflight.bind s.runHandler
  | .timerExpires d =>
      match s.timers d with
      | .armed _ => some { s with timers := Function.update s.timers d .expired }
      | _ => none
  | .peerSends fd data =>
      if fd ∈ s.clients ∧ (s.sockets fd).closed = false then
        some (s.updateSocket fd ((s.sockets fd).receive data))
      else
        none
  | .peerHangsUp fd =>
      if fd ∈ s.clients then some (s.updateSocket fd (s.sockets fd).hangUp) else none
  | .peerDrains fd =>
      if fd ∈ s.clients then some (s.updateSocket fd (s.sockets fd).drain) else none

/-! ## Loops over the clients -/

variable {s s' : Serial16450} {e : Event} {d : Direction}

/-- After `reloadEventLoop` every client is registered with the mask. -/
theorem reloadEventLoop_eq (s : Serial16450) : s.reloadEventLoop =
    { s with interest := fun fd => if fd ∈ s.clients then s.mEventFlags else s.interest fd } :=
  congrArg (fun interest => { s with interest })
    (s.clients.foldl_update (fun _ _ => s.mEventFlags) s.interest)

/-- The bytes written to the clients. -/
theorem writeClients_eq (s : Serial16450) (data : Byte) : s.writeClients data =
    { s with
      sockets := fun fd =>
        if fd ∈ s.clients then (s.sockets fd).write data else s.sockets fd } :=
  congrArg (fun sockets => { s with sockets })
    (s.clients.foldl_update (fun _ socket => socket.write data) s.sockets)

/-- Reading from the clients in turn finds nothing, or takes one byte of one client. -/
theorem readClients_cases (s : Serial16450) (fds : List Nat) :
    ((∀ fd ∈ fds, (s.sockets fd).incoming.waiting = []) ∧ s.readClients fds = s) ∨
      ∃ fd ∈ fds, ∃ data socket, (s.sockets fd).read = some (data, socket) ∧
        s.readClients fds =
          { s.updateSocket fd socket with registers := { s.registers with receive := data } } := by
  induction fds with
  | nil => exact Or.inl ⟨by simp, rfl⟩
  | cons fd fds ih =>
      unfold readClients
      cases hread : (s.sockets fd).read with
      | none =>
          have hempty := Socket.read_eq_none_iff.mp hread
          rcases ih with ⟨hall, hsame⟩ | ⟨fd', hfd', hrest⟩
          · exact Or.inl ⟨by simpa [hempty] using hall, hsame⟩
          · exact Or.inr ⟨fd', List.mem_cons_of_mem _ hfd', hrest⟩
      | some r =>
          obtain ⟨data, socket⟩ := r
          exact Or.inr ⟨fd, List.mem_cons_self, data, socket, hread, rfl⟩

/-- Reading from the clients leaves all but the sockets and the receive register alone. -/
theorem readClients_eq (s : Serial16450) (fds : List Nat) : s.readClients fds =
    { s with
      sockets := (s.readClients fds).sockets
      registers := { s.registers with receive := (s.readClients fds).registers.receive } } := by
  rcases s.readClients_cases fds with ⟨-, heq⟩ | ⟨fd, -, data, socket, -, heq⟩
  · rw [heq]
  · rw [heq]
    rfl

/-! ## Guest discipline -/

/-- The flag of a direction. -/
def ready (s : Serial16450) : Direction → Bool
  | .read => s.registers.readable
  | .write => s.registers.writable

/-- The bit of the line status register that reports a direction. -/
def statusBit : Direction → Nat
  | .read => 0
  | .write => 5

/-- Bits 0 and 5 of the line status register are the flags `readable` and `writable`. -/
theorem lineStatus_statusBit (s : Serial16450) (d : Direction) :
    s.lineStatus.getLsbD (statusBit d) = s.ready d := by
  cases d <;> cases hw : s.registers.writable <;> cases hr : s.registers.readable <;>
    simp [lineStatus, statusBit, ready, hw, hr]

/-- The guest uses the data register of a direction only while the line status register allows
it. -/
def Disciplined (d : Direction) (s : Serial16450) (e : Event) : Prop :=
  s.accesses e = some d → s.lineStatus.getLsbD (statusBit d) = true

instance (d : Direction) (s : Serial16450) (e : Event) : Decidable (Disciplined d s e) :=
  inferInstanceAs (Decidable (_ → _))

/-- A disciplined guest accesses data when it is ready. -/
theorem Disciplined.ready (h : Disciplined d s e) (hd : s.accesses e = some d) :
    s.ready d = true :=
  (s.lineStatus_statusBit d).symm.trans (h hd)

/-! ## What a step can do -/

/-- The guest writes the interrupt enable register, with the divisor latch closed. -/
def WritesInterruptControl (s : Serial16450) (address : BitVec 16) : Prop :=
  Register.ofAddress address = .interruptControlDivisorHighByte ∧ s.registers.dlab = false

instance (s : Serial16450) (address : BitVec 16) : Decidable (s.WritesInterruptControl address) :=
  inferInstanceAs (Decidable (_ ∧ _))

/-- The cases of a step. -/
inductive Transition (s : Serial16450) : Event → Serial16450 → Prop where
  | writeData {address : BitVec 16} {data : Byte}
      (hd : s.accesses (.iowrite8 address data) = some .write) :
      Transition s (.iowrite8 address data) { s.writeData data with due := s.dueAfter data }
  | writeInterruptControl {address : BitVec 16} {data : Byte}
      (hnone : s.accesses (.iowrite8 address data) = none) (hier : s.WritesInterruptControl address) :
      Transition s (.iowrite8 address data) (s.writeInterruptControl data)
  | setup {address : BitVec 16} {data : Byte} {registers : Registers}
      (hnone : s.accesses (.iowrite8 address data) = none)
      (hier : ¬ s.WritesInterruptControl address) (hsame : s.registers.SameFlags registers) :
      Transition s (.iowrite8 address data) { s with registers }
  | readData {address : BitVec 16} (hd : s.accesses (.ioread8 address) = some .read) :
      Transition s (.ioread8 address)
        { s.readData with returned := s.returned ++ [s.readData.registers.receive] }
  | readInterruptStatus {address : BitVec 16} (hnone : s.accesses (.ioread8 address) = none) :
      Transition s (.ioread8 address) s.readInterruptStatus.2
  | readOther {address : BitVec 16} (hnone : s.accesses (.ioread8 address) = none) :
      Transition s (.ioread8 address) s
  | wait {handler : Handler} (hidle : s.inflight = none) (hreports : s.Reports handler) :
      Transition s (.wait handler) { s with inflight := some handler }
  | acceptFails (hserver : s.inflight = some .server) :
      Transition s (.accept none) { s with inflight := none }
  | accept {c : Connection} (hserver : s.inflight = some .server) (hfresh : c.fd ∉ s.clients) :
      Transition s (.accept (some c)) { s.acceptClient c.fd c.socket with inflight := none }
  | readTimer {d : Direction} (htimer : s.inflight = some (.timer d)) :
      Transition s .dispatch { s with
        timers := Function.update s.timers d (s.timers d).read
        inflight := some (.listen d) }
  | listen {d : Direction} (hlisten : s.inflight = some (.listen d)) :
      Transition s .dispatch { s.listenAgain d with inflight := none }
  | handle {fd : Nat} {events : EpollEvents} (hclient : s.inflight = some (.client fd events)) :
      Transition s .dispatch { s.handleClientEvent fd events with inflight := none }
  | expires {d : Direction} {nsec : Nat} (harmed : s.timers d = .armed nsec) :
      Transition s (.timerExpires d) { s with timers := Function.update s.timers d .expired }
  | sends {fd : Nat} {data : Byte} (hmem : fd ∈ s.clients) (hopen : (s.sockets fd).closed = false) :
      Transition s (.peerSends fd data) (s.updateSocket fd ((s.sockets fd).receive data))
  | hangsUp {fd : Nat} (hmem : fd ∈ s.clients) :
      Transition s (.peerHangsUp fd) (s.updateSocket fd (s.sockets fd).hangUp)
  | drains {fd : Nat} (hmem : fd ∈ s.clients) :
      Transition s (.peerDrains fd) (s.updateSocket fd (s.sockets fd).drain)

/-- A write access writes the data register, the interrupt enable register, or only registers that
configure the port. -/
theorem transition_iowrite8 {address : BitVec 16} {data : Byte}
    (h : s.step (.iowrite8 address data) = some s') : Transition s (.iowrite8 address data) s' := by
  simp only [step, Option.some.injEq] at h
  by_cases hreg : Register.ofAddress address = .dataDivisorLowByte ∧ s.registers.dlab = false
  · have hd : s.accesses (.iowrite8 address data) = some .write := if_pos hreg
    rw [if_pos hd] at h
    have heq : s.iowrite8 address data = s.writeData data := by
      simp [iowrite8, hreg.1, hreg.2]
    rw [← h, heq]
    exact .writeData hd
  · have hnone : s.accesses (.iowrite8 address data) = none := if_neg hreg
    rw [if_neg (by rw [hnone]; simp)] at h
    by_cases hier : s.WritesInterruptControl address
    · have heq : s.iowrite8 address data = s.writeInterruptControl data := by
        simp [iowrite8, hier.1, hier.2]
      -- no byte is sent, so the clients are due what they were
      have hdue : (s.writeInterruptControl data).due = s.due := by
        unfold writeInterruptControl
        dsimp only
        split <;> rfl
      rw [← h, heq, ← hdue]
      exact .writeInterruptControl hnone hier
    · -- divisor bytes behind DLAB, line and modem control, the scratchpad; the rest ignores writes
      have hsetup : ∃ registers, s.iowrite8 address data = { s with registers } ∧
          s.registers.SameFlags registers := by
        unfold iowrite8
        cases hr : Register.ofAddress address with
        | dataDivisorLowByte =>
            have hdlab : s.registers.dlab = true := by simpa [hr] using hreg
            refine ⟨{ s.registers with
              divisor := s.registers.divisor.extractLsb' 8 8 ++ data }, by simp [hdlab], ?_⟩
            exact ⟨rfl, rfl, rfl, rfl, rfl, rfl⟩
        | interruptControlDivisorHighByte =>
            have hdlab : s.registers.dlab = true := by
              simpa [WritesInterruptControl, hr] using hier
            refine ⟨{ s.registers with
              divisor := data ++ s.registers.divisor.extractLsb' 0 8 }, by simp [hdlab], ?_⟩
            exact ⟨rfl, rfl, rfl, rfl, rfl, rfl⟩
        | lineControl => exact ⟨_, rfl, ⟨rfl, rfl, rfl, rfl, rfl, rfl⟩⟩
        | modemControl => exact ⟨_, rfl, ⟨rfl, rfl, rfl, rfl, rfl, rfl⟩⟩
        | scratchpad => exact ⟨_, rfl, ⟨rfl, rfl, rfl, rfl, rfl, rfl⟩⟩
        | interruptStatusFifoControl | lineStatus | modemStatus =>
            exact ⟨s.registers, rfl, ⟨rfl, rfl, rfl, rfl, rfl, rfl⟩⟩
      obtain ⟨registers, heq, hsame⟩ := hsetup
      rw [← h, heq]
      exact .setup hnone hier hsame

/-- A read access reads the data register, the interrupt status register, or changes nothing. -/
theorem transition_ioread8 {address : BitVec 16} (h : s.step (.ioread8 address) = some s') :
    Transition s (.ioread8 address) s' := by
  simp only [step, Option.some.injEq] at h
  by_cases hreg : Register.ofAddress address = .dataDivisorLowByte ∧ s.registers.dlab = false
  · have hd : s.accesses (.ioread8 address) = some .read := if_pos hreg
    rw [if_pos hd] at h
    have heq : s.ioread8 address = (s.readData.registers.receive, s.readData) := by
      simp [ioread8, hreg.1, hreg.2]
    rw [← h, heq]
    exact .readData hd
  · have hnone : s.accesses (.ioread8 address) = none := if_neg hreg
    rw [if_neg (by rw [hnone]; simp)] at h
    -- only the interrupt status register changes when it is read
    have hcases : (s.ioread8 address).2 = s.readInterruptStatus.2 ∨ (s.ioread8 address).2 = s := by
      unfold ioread8
      cases hr : Register.ofAddress address with
      | dataDivisorLowByte =>
          have hdlab : s.registers.dlab = true := by simpa [hr] using hreg
          exact Or.inr (by simp [hdlab])
      | interruptControlDivisorHighByte =>
          right
          dsimp only
          split <;> rfl
      | interruptStatusFifoControl => exact Or.inl rfl
      | lineControl | modemControl | lineStatus | modemStatus | scratchpad => exact Or.inr rfl
    rcases hcases with heq | heq
    · have hreturned : s.readInterruptStatus.2.returned = s.returned := by
        unfold readInterruptStatus
        split
        · rfl
        · split <;> rfl
      rw [← h, heq, ← hreturned]
      exact .readInterruptStatus hnone
    · rw [← h, heq]
      exact .readOther hnone

/-- **Inversion of a step.** -/
theorem step_cases (h : s.step e = some s') : Transition s e s' := by
  cases e with
  | iowrite8 address data => exact transition_iowrite8 h
  | ioread8 address => exact transition_ioread8 h
  | wait handler =>
      obtain ⟨⟨hidle, hreports⟩, rfl⟩ := by simpa [step] using h
      exact .wait hidle hreports
  | accept connection =>
      cases connection with
      | none =>
          obtain ⟨hserver, rfl⟩ := by simpa [step] using h
          exact .acceptFails hserver
      | some c =>
          obtain ⟨⟨hserver, hfresh⟩, rfl⟩ := by simpa [step] using h
          exact .accept hserver hfresh
  | dispatch =>
      obtain ⟨handler, hinflight, hrun⟩ := Option.bind_eq_some_iff.mp h
      cases handler with
      | server => cases hrun
      | timer d =>
          obtain rfl := Option.some.inj hrun
          exact .readTimer hinflight
      | listen d =>
          obtain rfl := Option.some.inj hrun
          exact .listen hinflight
      | client fd events =>
          obtain rfl := Option.some.inj hrun
          exact .handle hinflight
  | timerExpires d =>
      cases htimer : s.timers d with
      | idle => simp [step, htimer] at h
      | expired => simp [step, htimer] at h
      | armed nsec =>
          simp only [step, htimer, Option.some.injEq] at h
          subst h
          exact .expires htimer
  | peerSends fd data =>
      obtain ⟨⟨hmem, hopen⟩, rfl⟩ := by simpa [step] using h
      exact .sends hmem hopen
  | peerHangsUp fd =>
      obtain ⟨hmem, rfl⟩ := by simpa [step] using h
      exact .hangsUp hmem
  | peerDrains fd =>
      obtain ⟨hmem, rfl⟩ := by simpa [step] using h
      exact .drains hmem

end Serial16450

end Ts3100
