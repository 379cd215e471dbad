import Ts3100.Serial.Clients

/-! # Every received byte is returned once

The bytes the guest reads from the receive buffer register should be taken from the bytes the
clients have sent, none twice, and those of one client in order. `returnsEachOnce_iff` settles which
runs achieve it: those that never read the register when no client has a byte waiting. `readable` is
set by any `EPOLLIN`, which a hang-up raises as well; with one client that stays connected, it does
mean a byte. -/

namespace Ts3100

open Descriptors LabelledRuns

namespace Serial16450

variable {s s' : Serial16450} {e : Event}

/-- What the client at `fd` has sent. -/
def sentBy (s : Serial16450) (fd : Nat) : List Byte :=
  if fd ∈ s.clients then (s.sockets fd).incoming.carried else []

/-- What the device has read from the client at `fd`. -/
def takenFromClient (s : Serial16450) (fd : Nat) : List Byte :=
  if fd ∈ s.clients then (s.sockets fd).incoming.taken else []

/-- Every byte returned is one that a client sent, returned once, and those of a client come in the
order sent. -/
def ReturnsEachOnce (s : Serial16450) : Prop := TakenFrom s.returned s.sentBy

/-- The guest reads the receive buffer register while no client has a byte waiting. -/
def ReadsNothing (s : Serial16450) (e : Event) : Prop :=
  s.accesses e = some .read ∧ ∀ fd ∈ s.clients, (s.sockets fd).incoming.waiting = []

instance (s : Serial16450) (e : Event) : Decidable (s.ReadsNothing e) :=
  inferInstanceAs (Decidable (_ ∧ ∀ fd ∈ s.clients, (s.sockets fd).incoming.waiting = []))

/-! ## Counting -/

/-- Returning each byte once, the device returns no more than the clients have sent. -/
theorem ReturnsEachOnce.length_le (h : s.ReturnsEachOnce) :
    s.returned.length ≤ ∑ fd ∈ s.clients.toList.toFinset, (s.sentBy fd).length :=
  TakenFrom.length_le h fun _ hfd =>
    if_neg fun hmem => hfd (List.mem_toFinset.mpr (FdSet.mem_iff.mp hmem))

/-- If all that was taken from the clients was returned, the two are equally long. -/
theorem length_returned (h : Interleaves s.returned s.takenFromClient) :
    s.returned.length = ∑ fd ∈ s.clients.toList.toFinset, (s.takenFromClient fd).length :=
  h.length_eq fun _ hfd =>
    if_neg fun hmem => hfd (List.mem_toFinset.mpr (FdSet.mem_iff.mp hmem))

/-- What is taken from a client is what it sent first. -/
theorem takenFromClient_prefix_sentBy (s : Serial16450) (fd : Nat) :
    s.takenFromClient fd <+: s.sentBy fd := by
  unfold takenFromClient sentBy
  split
  · exact Channel.taken_prefix_carried _
  · exact List.prefix_refl _

/-- What was taken from the clients and returned is returned once. -/
theorem returnsEachOnce_of_interleaves (h : Interleaves s.returned s.takenFromClient) :
    s.ReturnsEachOnce :=
  h.takenFrom s.takenFromClient_prefix_sentBy

/-! ## One step -/

/-- What a step that reads no byte keeps of a client. -/
structure KeepsIncoming (s s' : Serial16450) (fd : Nat) : Prop where
  mem : fd ∈ s'.clients
  taken : (s'.sockets fd).incoming.taken = (s.sockets fd).incoming.taken
  waiting : (s.sockets fd).incoming.waiting <+: (s'.sockets fd).incoming.waiting

/-- A step that reads no data keeps what has come in. -/
theorem keepsIncoming_step {fd : Nat} (hfd : fd ∈ s.clients) (hd : s.accesses e ≠ some .read)
    (h : s.step e = some s') : KeepsIncoming s s' fd := by
  cases haccess : s.accesses e with
  | none =>
      obtain ⟨hmem, hmoves, -⟩ := keepsClient_step hfd haccess h
      exact ⟨hmem, hmoves.incoming.1, hmoves.incoming.2⟩
  | some d =>
      cases d with
      | read => exact absurd haccess hd
      | write =>
          obtain ⟨hclients, data, -, hsockets⟩ := writeData_step haccess h
          have hincoming : (s'.sockets fd).incoming = (s.sockets fd).incoming := by
            rw [hsockets fd hfd, Socket.incoming_write]
          exact ⟨hclients ▸ hfd, by rw [hincoming], by rw [hincoming]⟩

/-- A step that reads no byte takes none. -/
theorem takenFromClient_step (hd : s.accesses e ≠ some .read) (h : s.step e = some s') :
    s'.takenFromClient = s.takenFromClient := by
  funext fd
  unfold takenFromClient
  by_cases hfd : fd ∈ s.clients
  · obtain ⟨hmem, htaken, -⟩ := keepsIncoming_step hfd hd h
    rw [if_pos hmem, if_pos hfd, htaken]
  · rw [if_neg hfd]
    by_cases hfd' : fd ∈ s'.clients
    · obtain ⟨c, rfl, rfl⟩ := (mem_clients_step hfd' h).resolve_left hfd
      rw [if_pos hfd', (accept_step h).1]
      rfl
    · rw [if_neg hfd']

/-- A step that reads nothing only where a byte is waiting returns what it takes. -/
theorem interleaves_step (hreturned : Interleaves s.returned s.takenFromClient)
    (hnot : ¬ s.ReadsNothing e) (h : s.step e = some s') :
    Interleaves s'.returned s'.takenFromClient := by
  by_cases hd : s.accesses e = some .read
  · obtain ⟨hclients, -, hempty | ⟨fd, hfd, data, socket, hread, hsockets, hreturns⟩⟩ :=
      readData_step hd h
    · exact absurd ⟨hd, hempty.1⟩ hnot
    · have htaken : s'.takenFromClient =
          Function.update s.takenFromClient fd (s.takenFromClient fd ++ [data]) := by
        funext fd'
        by_cases heq : fd' = fd
        · subst heq
          simp [takenFromClient, hclients, hfd, hsockets, (Socket.read_eq_some hread).1]
        · simp [takenFromClient, hclients, hsockets, Function.update_of_ne heq]
      rw [hreturns, htaken]
      exact hreturned.concat fd data
  · rw [returned_step hd h, takenFromClient_step hd h]
    exact hreturned

/-- A read that finds no byte returns more than was sent. -/
theorem not_returnsEachOnce_step (hreturned : Interleaves s.returned s.takenFromClient)
    (hnothing : s.ReadsNothing e) : ∃ s', s.step e = some s' ∧ ¬ s'.ReturnsEachOnce := by
  obtain ⟨hd, hempty⟩ := hnothing
  obtain ⟨s', hs', -⟩ := exists_step_of_accesses hd
  refine ⟨s', hs', fun honce => ?_⟩
  obtain ⟨hclients, -, ⟨-, hsockets, hreturns⟩ | ⟨fd, hfd, data, socket, hread, -⟩⟩ :=
    readData_step hd hs'
  · -- all that was sent has been returned already
    have hsent : s'.sentBy = s.takenFromClient := by
      funext fd
      unfold sentBy takenFromClient
      rw [hclients, hsockets]
      by_cases hfd : fd ∈ s.clients
      · rw [if_pos hfd, if_pos hfd, Channel.carried, hempty fd hfd, List.append_nil]
      · rw [if_neg hfd, if_neg hfd]
    have hle := honce.length_le
    rw [hsent, hclients, hreturns, List.length_append, ← length_returned hreturned] at hle
    simp at hle
  · rw [Socket.read_eq_none_iff.mpr (hempty fd hfd)] at hread
    cases hread

/-! ## One client that stays connected -/

/-- At most one client is connected, and it has not hung up. -/
def OneClient (s : Serial16450) : Prop :=
  s.clients.card ≤ 1 ∧ ∀ fd ∈ s.clients, (s.sockets fd).closed = false

instance (s : Serial16450) : Decidable s.OneClient :=
  inferInstanceAs (Decidable (_ ∧ ∀ fd ∈ s.clients, (s.sockets fd).closed = false))

/-! ## Runs -/

/-- **When every byte is returned once.** Let the guest read only while the line status register says
that it may. Over every run each byte returned is one that a client sent, returned once and in the
client's order, in every state, iff the register is never read while no client has a byte waiting;
and with at most one client, as long as it stays connected, it always has. -/
theorem returnsEachOnce_iff (events : List Event)
    (hguest : StepsMeet step (Disciplined .read) {} events) :
    (StatesMeet step ReturnsEachOnce {} events ↔
      StepsMeet step (fun s e => ¬ s.ReadsNothing e) {} events) ∧
    (StatesMeet step OneClient {} events → StatesMeet step ReturnsEachOnce {} events) := by
  have hinit : Interleaves (returned {}) (takenFromClient {}) := by
    have hnone : takenFromClient {} = fun _ => [] := by
      funext fd
      exact if_neg (FdSet.not_mem_empty fd)
    rw [hnone]
    exact interleaves_nil
  have hiff : StatesMeet step ReturnsEachOnce {} events ↔
      StepsMeet step (fun s e => ¬ s.ReadsNothing e) {} events :=
    statesMeet_iff_stepsMeet (fun _ hreturned => returnsEachOnce_of_interleaves hreturned)
      (fun s e s' hreturned _ hnot h => interleaves_step hreturned hnot h)
      (fun s e hreturned _ hnothing => not_returnsEachOnce_step hreturned (not_not.mp hnothing))
      hinit hguest
  refine ⟨hiff, fun hclient => hiff.mpr ?_⟩
  -- `epoll` reports a byte, as the client has not hung up, and only a read takes it
  have hpromised : StatesMeet step
      (Promised .read fun socket => socket.incoming.waiting ≠ []) {} events := by
    refine statesMeet_of_stepsMeet (P := fun s e => Disciplined .read s e ∧ s.OneClient)
      (fun s e s' hpromised hP h => promised_step hpromised hP.1 hP.2.1 ?_ ?_ h)
      (promised_init _ _) ?_
    · intro fd clientEvents hreports hevents
      refine (hreports.2.epollIn hevents).2.resolve_right fun hclosed => ?_
      exact absurd ((hP.2.2 fd hreports.1).symm.trans hclosed) (by simp)
    · intro fd hfd hd
      obtain ⟨hmem, -, hwaiting⟩ := keepsIncoming_step hfd hd h
      exact ⟨hmem, fun hne hempty => hne (List.prefix_nil.mp (hempty ▸ hwaiting))⟩
    · intro pre i hpre s hs
      exact ⟨hguest pre i hpre s hs, hclient pre ((List.prefix_append _ _).trans hpre) s hs⟩
  rintro pre i hpre s hs ⟨hd, hempty⟩
  have hpre' : pre <+: events := (List.prefix_append _ _).trans hpre
  obtain ⟨⟨fd, hfd, hwaiting⟩, -⟩ := (hpromised pre hpre' s hs).of_accesses
    (hguest pre i hpre s hs) (hclient pre hpre' s hs).1 hd
  exact hwaiting (hempty fd hfd)

/-- A client connects and sends a byte, its `EPOLLIN` sets `readable`, and the guest reads. -/
def receiveRun : List Event :=
  [.wait .server, .accept (some { fd := 5, capacity := 1 }), .peerSends 5 0x41#8,
    .wait (.client 5 { epollIn := true }), .dispatch, .ioread8 0#16]

/-- It returns the byte once. -/
theorem returnsEachOnce_iff_receive : StatesMeet step ReturnsEachOnce {} receiveRun :=
  (returnsEachOnce_iff receiveRun (by decide)).2 (by decide)

/-- A client connects and hangs up without sending, its `EPOLLIN` sets `readable`, and the guest
reads. -/
def hangUpRun : List Event :=
  [.wait .server, .accept (some { fd := 5, capacity := 1 }), .peerHangsUp 5,
    .wait (.client 5 { epollIn := true, epollHup := true }), .dispatch, .ioread8 0#16]

/-- **A phantom byte.** A hang-up makes the guest read a byte that no client has sent. -/
theorem not_returnsEachOnce : ¬ ∀ events, StepsMeet step (Disciplined .read) {} events →
    StatesMeet step ReturnsEachOnce {} events := by
  intro hclaim
  have hguest : StepsMeet step (Disciplined .read) {} hangUpRun := by decide
  have honce : StatesMeet step (fun s => s.returned.length ≤
      ∑ fd ∈ s.clients.toList.toFinset, (s.sentBy fd).length) {} hangUpRun :=
    fun pre hpre s hs => (hclaim _ hguest pre hpre s hs).length_le
  revert honce
  decide

end Serial16450

end Ts3100
