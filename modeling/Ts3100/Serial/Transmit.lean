import Ts3100.Serial.Clients

/-! # Every transmitted byte reaches every client

A byte written to the transmit holding register is due to every client connected at that moment.
`deliversAll_iff` settles which runs deliver all that is due: those that write no byte while the
send buffer of a connected client is full, or its peer has hung up. `writable` stands for the room of
the one client whose `EPOLLOUT` has set it, and with one client that is enough, as long as its peer is
there: a client is never removed, and a write to one whose peer has hung up raises `SIGPIPE`, which
nothing handles. -/

namespace Ts3100

open Descriptors LabelledRuns

namespace Serial16450

variable {s s' : Serial16450} {e : Event} {d : Direction}

/-- Every client's socket has accepted exactly what was due to it, in order. -/
def DeliversAll (s : Serial16450) : Prop :=
  ∀ fd ∈ s.clients, (s.sockets fd).outgoing.carried = s.due fd

/-- The guest writes a byte while a connected client's socket does not take it: the send buffer is
full, or the peer has hung up. In the latter case the write is the last thing the emulator does. -/
def MissesClient (s : Serial16450) (e : Event) : Prop :=
  s.accesses e = some .write ∧ ∃ fd ∈ s.clients, ¬ (s.sockets fd).HasRoom

/-- The guest writes a byte while the peer of a connected client has hung up. -/
def BreaksPipe (s : Serial16450) (e : Event) : Prop :=
  s.accesses e = some .write ∧ ∃ fd ∈ s.clients, (s.sockets fd).closed = true

instance (s : Serial16450) : Decidable s.DeliversAll :=
  inferInstanceAs (Decidable (∀ fd ∈ s.clients, (s.sockets fd).outgoing.carried = s.due fd))

instance (s : Serial16450) (e : Event) : Decidable (s.MissesClient e) :=
  inferInstanceAs (Decidable (_ ∧ ∃ fd ∈ s.clients, ¬ (s.sockets fd).HasRoom))

instance (s : Serial16450) (e : Event) : Decidable (s.BreaksPipe e) :=
  inferInstanceAs (Decidable (_ ∧ ∃ fd ∈ s.clients, (s.sockets fd).closed = true))

/-! ## One step -/

/-- What a step that writes no byte keeps of a client. -/
structure KeepsOutgoing (s s' : Serial16450) (fd : Nat) : Prop where
  mem : fd ∈ s'.clients
  carried : (s'.sockets fd).outgoing.carried = (s.sockets fd).outgoing.carried
  accepts : (s.sockets fd).Accepts → (s'.sockets fd).Accepts
  due : s'.due fd = s.due fd

/-- A step that writes no byte keeps what a client has accepted, and its room. -/
theorem keepsOutgoing_step {fd : Nat} (hfd : fd ∈ s.clients) (hd : s.accesses e ≠ some .write)
    (h : s.step e = some s') : KeepsOutgoing s s' fd := by
  cases haccess : s.accesses e with
  | none =>
      obtain ⟨hmem, hmoves, hdue⟩ := keepsClient_step hfd haccess h
      exact ⟨hmem, hmoves.carried_outgoing, hmoves.accepts, hdue⟩
  | some d =>
      cases d with
      | write => exact absurd haccess hd
      | read =>
          obtain ⟨hclients, hdue, hsockets⟩ := readData_step haccess h
          have hmem : fd ∈ s'.clients := hclients ▸ hfd
          rcases hsockets with ⟨-, hsockets, -⟩ | ⟨fd', -, data, socket, hread, hsockets, -⟩
          · exact ⟨hmem, by rw [hsockets], by rw [hsockets]; exact id, by rw [hdue]⟩
          · by_cases heq : fd = fd'
            · subst heq
              have hsocket : s'.sockets fd = socket := by rw [hsockets, Function.update_self]
              refine ⟨hmem, ?_, ?_, by rw [hdue]⟩
              · rw [hsocket, (Socket.read_eq_some hread).2.2.1]
              · rw [hsocket]
                exact (Socket.accepts_read hread).mpr
            · have hsocket : s'.sockets fd = s.sockets fd := by
                rw [hsockets, Function.update_of_ne heq]
              exact ⟨hmem, by rw [hsocket], by rw [hsocket]; exact id, by rw [hdue]⟩

/-- A byte written is carried by a client that was owed nothing iff its socket takes it. -/
theorem carried_write_iff (hdelivers : s.DeliversAll) (data : Byte) {fd : Nat}
    (hfd : fd ∈ s.clients) :
    ((s.sockets fd).write data).outgoing.carried = s.dueAfter data fd ↔
      (s.sockets fd).HasRoom := by
  rw [Socket.carried_write, dueAfter, if_pos hfd, ← hdelivers fd hfd]
  by_cases hroom : (s.sockets fd).HasRoom
  · rw [if_pos hroom]
    exact iff_of_true rfl hroom
  · rw [if_neg hroom]
    exact iff_of_false (by simp) hroom

/-- A step that misses no client delivers all. -/
theorem deliversAll_step (hdelivers : s.DeliversAll) (hnot : ¬ s.MissesClient e)
    (h : s.step e = some s') : s'.DeliversAll := by
  intro fd hfd
  by_cases hd : s.accesses e = some .write
  · obtain ⟨hclients, data, hdue, hsockets⟩ := writeData_step hd h
    rw [hclients] at hfd
    rw [hdue, hsockets fd hfd, carried_write_iff hdelivers data hfd]
    by_contra hroom
    exact hnot ⟨hd, fd, hfd, hroom⟩
  · rcases mem_clients_step hfd h with hmem | ⟨c, rfl, rfl⟩
    · obtain ⟨-, hcarried, -, hdue⟩ := keepsOutgoing_step hmem hd h
      rw [hcarried, hdue]
      exact hdelivers fd hmem
    · obtain ⟨hsocket, hdue, -⟩ := accept_step h
      rw [hsocket, hdue]
      rfl

/-! ## Runs -/

/-- **When every byte is delivered.** Let the guest write only while the line status register says
that it may. Over every run each client's socket has accepted all that was due to it, in every
state, iff no byte is written while the send buffer of a connected client is full or its peer has hung
up; and with at most one client, it always has as long as no byte is written after its peer has hung
up. -/
theorem deliversAll_iff (events : List Event)
    (hguest : StepsMeet step (Disciplined .write) {} events) :
    (StatesMeet step DeliversAll {} events ↔
      StepsMeet step (fun s e => ¬ s.MissesClient e) {} events) ∧
    (StatesMeet step (fun s => s.clients.card ≤ 1) {} events →
      StepsMeet step (fun s e => ¬ s.BreaksPipe e) {} events →
        StatesMeet step DeliversAll {} events) := by
  have hinit : DeliversAll {} := fun fd hfd => absurd hfd (FdSet.not_mem_empty fd)
  have hiff : StatesMeet step DeliversAll {} events ↔
      StepsMeet step (fun s e => ¬ s.MissesClient e) {} events := by
    refine statesMeet_iff_stepsMeet (fun _ h => h)
      (fun s e s' hdelivers _ hnot h => deliversAll_step hdelivers hnot h)
      (fun s e hdelivers _ hmisses => ?_) hinit hguest
    obtain ⟨hd, fd, hfd, hfull⟩ := not_not.mp hmisses
    obtain ⟨s', hs', -⟩ := exists_step_of_accesses hd
    refine ⟨s', hs', fun hdelivers' => hfull ?_⟩
    obtain ⟨hclients, data, hdue, hsockets⟩ := writeData_step hd hs'
    have hcarried := hdelivers' fd (hclients ▸ hfd)
    rw [hdue, hsockets fd hfd] at hcarried
    exact (carried_write_iff hdelivers data hfd).mp hcarried
  refine ⟨hiff, fun hcard hpipe => hiff.mpr ?_⟩
  -- `epoll` reports room, and only a write takes it
  have hpromised : StatesMeet step (Promised .write Socket.Accepts) {} events := by
    refine statesMeet_of_stepsMeet (P := fun s e => Disciplined .write s e ∧ s.clients.card ≤ 1)
      (fun s e s' hpromised hP h => promised_step hpromised hP.1 hP.2
        (fun fd clientEvents hreports hevents => (hreports.2.epollOut hevents).2.symm)
        (fun fd hfd hd => ⟨(keepsOutgoing_step hfd hd h).mem, (keepsOutgoing_step hfd hd h).accepts⟩)
        h) (promised_init _ _) ?_
    intro pre i hpre s hs
    exact ⟨hguest pre i hpre s hs, hcard pre ((List.prefix_append _ _).trans hpre) s hs⟩
  rintro pre i hpre s hs ⟨hd, fd, hfd, hfull⟩
  have hpre' : pre <+: events := (List.prefix_append _ _).trans hpre
  have haccepts := ((hpromised pre hpre' s hs).of_accesses (hguest pre i hpre s hs)
    (hcard pre hpre' s hs) hd).2 fd hfd
  exact hfull (haccepts.resolve_left fun hclosed => hpipe pre i hpre s hs ⟨hd, fd, hfd, hclosed⟩)

/-- One client, which is there, gets the byte that is written. -/
theorem deliversAll_iff_transmit : StatesMeet step DeliversAll {} transmitRun :=
  (deliversAll_iff transmitRun (by decide)).2 (by decide) (by decide)

/-- Two clients with one byte of room each: the guest writes a byte to both, the first drains it and
reports room, and the guest writes again. -/
def overrunRun : List Event :=
  [.wait .server, .accept (some { fd := 5, capacity := 1 }), .wait .server,
    .accept (some { fd := 6, capacity := 1 }), .wait (.client 5 { epollOut := true }), .dispatch,
    .iowrite8 3#16 0x80#8, .iowrite8 0#16 0x01#8, .iowrite8 3#16 0x03#8, .iowrite8 0#16 0x41#8,
    .timerExpires .write, .wait (.timer .write), .dispatch, .dispatch, .peerDrains 5,
    .wait (.client 5 { epollOut := true }), .dispatch, .iowrite8 0#16 0x42#8]

/-- **A lost byte.** The second byte does not reach the second client. -/
theorem not_deliversAll : ¬ ∀ events, StepsMeet step (Disciplined .write) {} events →
    StatesMeet step DeliversAll {} events := by
  intro hclaim
  have hguest : StepsMeet step (Disciplined .write) {} overrunRun := by decide
  have hlost : ¬ StatesMeet step DeliversAll {} overrunRun := by decide
  exact hlost (hclaim _ hguest)

end Serial16450

end Ts3100
