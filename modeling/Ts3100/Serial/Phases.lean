import Ts3100.Serial.StartStop

/-! # What a serial port has open

Between two calls of `stop` every descriptor the port has open stands in `fds`, in a member that the
`start` in progress does not still have to overwrite (`Settled`). During a `stop` every one of them
is still to be closed (`Stopping`). `inv_step` shows that a port is always in one of these phases,
whatever fails and whatever numbers the kernel hands out. -/

namespace Ts3100

open Descriptors LabelledRuns

namespace SerialPort

variable {s s' : SerialPort} {e : SerialPortEvent}

/-- The port has the number open, for `use`. -/
def Holds (s : SerialPort) (fd : Nat) (use : PortUse) : Prop :=
  s.kernel.user fd = some (some use)

/-- A number is open for one use. -/
theorem Holds.unique {fd : Nat} {use use' : PortUse} (h : s.Holds fd use) (h' : s.Holds fd use') :
    use = use' := by
  have heq : some (some use) = some (some use') := h.symm.trans h'
  simpa using heq

/-- Uses whose numbers `stop` forgets when it closes them. -/
def Forgotten (use : PortUse) : Prop := use = .client ∨ use = .fds .server

/-- The members of `fds` that `stop` closes only if both `fds.vm` and `fds.irq` are set. -/
def Guarded (f : PortFd) : Prop := f = .irq ∨ f = .refresh

/-! ## The calls of `stop` -/

/-- The calls for the clients. -/
theorem mem_stopClients {c : StopCall} :
    c ∈ s.stopClients ↔ ∃ fd ∈ s.clients, c = .removeEvent fd ∨ c = .close .client (some fd) := by
  simp [stopClients, FdSet.mem_iff]

/-- The calls for the server. -/
theorem mem_stopServer {c : StopCall} : c ∈ s.stopServer ↔
    ∃ fd, s.fds .server = some fd ∧ (c = .removeEvent fd ∨ c = .close (.fds .server) (some fd)) := by
  unfold stopServer
  cases s.fds .server <;> simp

/-- The calls for the event descriptors. -/
theorem mem_stopInterrupts {c : StopCall} : c ∈ s.stopInterrupts ↔
    (s.vm.isSome ∧ (s.fds .irq).isSome) ∧ ∃ f, Guarded f ∧ c = .close (.fds f) (s.fds f) := by
  unfold stopInterrupts Guarded
  split
  · rename_i hguard
    simp [hguard]
  · rename_i hguard
    simp [hguard]

/-- All calls of `stop`. -/
theorem mem_stopCalls {c : StopCall} : c ∈ s.stopCalls ↔
    c ∈ s.stopClients ∨ c ∈ s.stopServer ∨ c ∈ s.stopInterrupts ∨
      c = .close (.fds .readTimer) (s.fds .readTimer) ∨
        c = .close (.fds .writeTimer) (s.fds .writeTimer) ∨ c = .unlock := by
  simp [stopCalls]

/-- What `stop` closes. -/
theorem close_mem_stopCalls {use : PortUse} {fd : Nat} :
    .close use (some fd) ∈ s.stopCalls ↔
      (use = .client ∧ fd ∈ s.clients) ∨
        ∃ f, use = .fds f ∧ s.fds f = some fd ∧
          (Guarded f → s.vm.isSome ∧ (s.fds .irq).isSome) := by
  rw [mem_stopCalls, mem_stopClients, mem_stopServer, mem_stopInterrupts]
  cases use with
  | client => simp
  | fds f => cases f <;> simp [Guarded, @eq_comm _ (some fd)] <;> tauto

/-- What `stop` takes out of the event loop. -/
theorem removeEvent_mem_stopCalls {fd : Nat} :
    .removeEvent fd ∈ s.stopCalls ↔ fd ∈ s.clients ∨ s.fds .server = some fd := by
  rw [mem_stopCalls, mem_stopClients, mem_stopServer, mem_stopInterrupts]
  simp

/-- `stop` ends with the release of its lock. -/
theorem stopCalls_eq_append : ∃ cs, s.stopCalls = cs ++ [.unlock] ∧ .unlock ∉ cs := by
  refine ⟨s.stopClients ++ s.stopServer ++ s.stopInterrupts ++
    [.close (.fds .readTimer) (s.fds .readTimer),
      .close (.fds .writeTimer) (s.fds .writeTimer)], by simp [stopCalls], ?_⟩
  simp [mem_stopClients, mem_stopServer, mem_stopInterrupts]

/-- Of two calls in this order, the second does not close a client or the server under the number
that the first has closed. -/
def InOrder (c d : StopCall) : Prop :=
  ∀ fd use use', c = .close use (some fd) → d = .close use' (some fd) → ¬ Forgotten use'

/-- `stop` closes the clients and the server first, and each once. -/
theorem pairwise_stopCalls (hserver : ∀ fd, s.fds .server = some fd → fd ∉ s.clients) :
    s.stopCalls.Pairwise InOrder := by
  let rest := s.stopInterrupts ++
    [.close (.fds .readTimer) (s.fds .readTimer), .close (.fds .writeTimer) (s.fds .writeTimer),
      .unlock]
  have hrest : ∀ c, ∀ d ∈ rest, InOrder c d := by
    rintro c d hd fd use use' - rfl (rfl | rfl)
    · simp [rest, mem_stopInterrupts] at hd
    · simp [rest, mem_stopInterrupts, Guarded] at hd
  have hclients : s.stopClients.Pairwise InOrder := by
    rw [stopClients, List.pairwise_flatMap]
    refine ⟨fun fd _ => by simp [InOrder], s.clients.nodup.imp fun {fd fd'} hne => ?_⟩
    simp [InOrder, Ne.symm hne]
  have hserverCalls : s.stopServer.Pairwise InOrder := by
    unfold stopServer
    cases s.fds .server <;> simp [InOrder]
  rw [show s.stopCalls = s.stopClients ++ (s.stopServer ++ rest) by simp [stopCalls, rest],
    List.pairwise_append, List.pairwise_append]
  refine ⟨hclients, ⟨hserverCalls, List.pairwise_of_forall_mem_list fun c _ => hrest c,
    fun c _ => hrest c⟩, fun c hc d hd => ?_⟩
  rcases List.mem_append.mp hd with hd | hd
  · -- the server is no client
    obtain ⟨fd, hfd, rfl | rfl⟩ := mem_stopServer.mp hd
    · simp [InOrder]
    · obtain ⟨fd', hfd', rfl | rfl⟩ := mem_stopClients.mp hc
      · simp [InOrder]
      · have hne : fd ≠ fd' := fun heq => hserver fd hfd (heq ▸ hfd')
        simp [InOrder, hne]
  · exact hrest c d hd

/-! ## Phases -/

/-- The port between two calls of `stop`, perhaps during a `start`. -/
structure Settled (s : SerialPort) : Prop where
  stopping : s.stopping = []
  clients : ∀ fd ∈ s.clients, s.Holds fd .client
  server : ∀ fd, s.fds .server = some fd → s.Holds fd (.fds .server)
  /-- what the port has open is a client or stands in `fds`, where `start` will not overwrite it and
  `stop` will find it -/
  covers : ∀ fd use, s.Holds fd use → (use = .client ∧ fd ∈ s.clients) ∨
    ∃ f, use = .fds f ∧ s.fds f = some fd ∧ .opens f ∉ s.starting ∧
      (Guarded f → s.vm.isSome ∧ (s.fds .irq).isSome)
  starting : ∃ vmFd, s.starting <:+ startCalls vmFd
  /-- a `start` in progress has opened what it has passed -/
  opened : s.starting ≠ [] → ∀ f, .opens f ∉ s.starting →
    ∃ fd, s.fds f = some fd ∧ s.Holds fd (.fds f)
  vm : s.starting ≠ [] → (∀ vmFd, .vm vmFd ∉ s.starting) → s.vm.isSome
  destructing : s.destructing = s.destroyed
  destroyed : s.destroyed = true → s.starting = [] ∧ ∀ fd use, ¬ s.Holds fd use

/-- The port during a `stop`. -/
structure Stopping (s : SerialPort) : Prop where
  unlocks : ∃ cs, s.stopping = cs ++ [.unlock] ∧ .unlock ∉ cs
  clients : ∀ fd, fd ∉ s.clients
  server : s.fds .server = none
  /-- what the port has open is still to be closed -/
  covers : ∀ fd use, s.Holds fd use → ∃ use', .close use' (some fd) ∈ s.stopping
  /-- the clients and the server are still open when their turn comes -/
  own : ∀ use fd, .close use (some fd) ∈ s.stopping → Forgotten use → s.Holds fd use
  ordered : s.stopping.Pairwise InOrder
  starting : s.starting = [] ∨ ∃ vmFd, s.starting = startCalls vmFd
  destructing : s.destructing = true → s.starting = []
  destroyed : s.destroyed = false

/-- What holds of a port at any time. -/
structure Inv (s : SerialPort) : Prop where
  table : s.kernel.WellFormed
  registered : ∀ fd, s.registered fd = true → ∃ use, s.Holds fd use
  phase : s.Settled ∨ s.Stopping

/-- Without a `stop` in progress. -/
theorem Inv.settled (h : s.Inv) (hnil : s.stopping = []) : s.Settled := by
  refine h.phase.resolve_right fun hstop => ?_
  obtain ⟨cs', hcs', -⟩ := hstop.unlocks
  simp [hnil] at hcs'

/-- With a `stop` in progress. -/
theorem Inv.stopping (h : s.Inv) {c : StopCall} {cs : List StopCall} (hc : s.stopping = c :: cs) :
    s.Stopping := by
  refine h.phase.resolve_left fun hsettled => ?_
  simp [hsettled.stopping] at hc

/-- The invariant holds of a new port. -/
theorem inv_init : Inv {} where
  table := FdTable.wellFormed_empty
  registered := by simp
  phase := Or.inl
    { stopping := rfl
      clients := fun fd h => absurd h (FdSet.not_mem_empty fd)
      server := by simp
      covers := by simp [Holds, FdTable.user]
      starting := ⟨0, List.nil_suffix⟩
      opened := by simp
      vm := by simp
      destructing := rfl
      destroyed := by simp }

/-! ## `stop` keeps the phases -/

/-- `stop` begins with everything the port has open before it. -/
theorem Settled.beginStop (h : s.Settled) (hidle : s.Idle) (cs : List StartCall)
    (destructing : Bool) (hcs : cs = [] ∨ ∃ vmFd, cs = startCalls vmFd)
    (hdestructing : destructing = true → cs = []) :
    ({ s.beginStop with starting := cs, destructing := destructing }).Stopping where
  unlocks := stopCalls_eq_append
  clients := FdSet.not_mem_empty
  server := by simp [SerialPort.beginStop]
  covers := by
    intro fd use hfd
    refine ⟨use, close_mem_stopCalls.mpr ?_⟩
    rcases h.covers fd use hfd with hclient | ⟨f, hf, hfd, -, hguard⟩
    · exact Or.inl hclient
    · exact Or.inr ⟨f, hf, hfd, hguard⟩
  own := by
    intro use fd hmem hforgotten
    rcases close_mem_stopCalls.mp hmem with ⟨rfl, hfd⟩ | ⟨f, rfl, hf, -⟩
    · exact h.clients fd hfd
    · obtain rfl : f = .server := by simpa [Forgotten] using hforgotten
      exact h.server fd hf
  ordered := pairwise_stopCalls fun fd hserver hclient =>
    absurd ((h.server fd hserver).unique (h.clients fd hclient)) (by simp)
  starting := hcs
  destructing := hdestructing
  destroyed := hidle.2.2

/-- A call of `stop` other than the last takes from the port what it closes. -/
theorem Stopping.tail (h : s.Stopping) {c : StopCall} {cs : List StopCall}
    (hc : s.stopping = c :: cs) (hunlock : c ≠ .unlock) {kernel : FdTable PortUse}
    {mHandlers : Nat → Option PortUse} {registered : Nat → Bool}
    (hkernel : ∀ fd use, kernel.user fd = some (some use) ↔
      s.Holds fd use ∧ ∀ use', c ≠ .close use' (some fd)) :
    ({ s with
      stopping := cs, kernel := kernel, mHandlers := mHandlers
      registered := registered }).Stopping where
  unlocks := by
    obtain ⟨cs', hcs', hnot⟩ := h.unlocks
    rw [hc] at hcs'
    cases cs' with
    | nil => exact absurd (List.cons.inj hcs').1 hunlock
    | cons c' cs' =>
        obtain ⟨-, rfl⟩ := List.cons.inj hcs'
        exact ⟨cs', rfl, fun hmem => hnot (List.mem_cons_of_mem _ hmem)⟩
  clients := h.clients
  server := h.server
  -- what is still open is closed by a later call, as this call's own descriptor is gone
  covers := by
    intro fd use hfd
    obtain ⟨hfd, hne⟩ := (hkernel fd use).mp hfd
    obtain ⟨use', hmem⟩ := h.covers fd use hfd
    rw [hc] at hmem
    rcases List.mem_cons.mp hmem with heq | hmem
    · exact absurd heq.symm (hne use')
    · exact ⟨use', hmem⟩
  -- a later call closes another descriptor than this one, so its own is still open
  own := by
    intro use fd hmem hforgotten
    have hordered := h.ordered
    rw [hc, List.pairwise_cons] at hordered
    refine (hkernel fd use).mpr
      ⟨h.own use fd (hc ▸ List.mem_cons_of_mem _ hmem) hforgotten, fun use' heq => ?_⟩
    exact hordered.1 _ hmem fd use' use heq rfl hforgotten
  ordered := by
    have hordered := h.ordered
    rw [hc, List.pairwise_cons] at hordered
    exact hordered.2
  starting := h.starting
  destructing := h.destructing
  destroyed := h.destroyed

/-- At the end of `stop` the port has nothing open. -/
theorem Stopping.not_holds (h : s.Stopping) (hc : s.stopping = [.unlock]) (fd : Nat)
    (use : PortUse) : ¬ s.Holds fd use := by
  intro hfd
  obtain ⟨use', hmem⟩ := h.covers fd use hfd
  simp [hc] at hmem

/-- Nothing comes after the release of the lock. -/
theorem Stopping.eq_nil (h : s.Stopping) {cs : List StopCall} (hc : s.stopping = .unlock :: cs) :
    cs = [] := by
  obtain ⟨cs', hcs', hnot⟩ := h.unlocks
  rw [hc] at hcs'
  cases cs' with
  | nil => exact (List.cons.inj hcs').2
  | cons c' cs' => exact absurd (by simp [(List.cons.inj hcs').1]) hnot

/-- The release of the lock comes after everything else. -/
theorem Stopping.ne_nil (h : s.Stopping) {c : StopCall} {cs : List StopCall}
    (hc : s.stopping = c :: cs) (hunlock : c ≠ .unlock) : cs ≠ [] := by
  rintro rfl
  obtain ⟨cs', hcs', hnot⟩ := h.unlocks
  rw [hc] at hcs'
  cases cs' with
  | nil => exact hunlock (List.cons.inj hcs').1
  | cons c' cs' => simp at hcs'

/-- The end of `stop` leads back to the other phase. -/
theorem Stopping.unlock (h : s.Stopping) (hc : s.stopping = [.unlock]) :
    ({ s with stopping := [], destroyed := s.destructing }).Settled where
  stopping := rfl
  clients := fun fd hfd => absurd hfd (h.clients fd)
  server := fun fd hfd => by simp [h.server] at hfd
  covers := fun fd use hfd => absurd hfd (h.not_holds hc fd use)
  starting := by
    rcases h.starting with hnil | ⟨vmFd, hvm⟩
    · exact ⟨0, by simp [hnil]⟩
    · exact ⟨vmFd, by simp [hvm]⟩
  opened := by
    intro hne f hf
    rcases h.starting with hnil | ⟨vmFd, hvm⟩
    · exact absurd hnil hne
    · cases f <;> simp [hvm, startCalls] at hf
  vm := by
    intro hne hvmFd
    rcases h.starting with hnil | ⟨vmFd, hvm⟩
    · exact absurd hnil hne
    · exact absurd (by simp [hvm, startCalls]) (hvmFd vmFd)
  destructing := rfl
  destroyed := fun hd => ⟨h.destructing hd, h.not_holds hc⟩

/-! ## `start` keeps its phase -/

/-- Where `start` opens a descriptor for `f`, it has not done so before; for an interrupt it has set
`fds.vm`, and `fds.irq` comes before `fds.refresh`. -/
theorem suffix_opens {f : PortFd} {cs : List StartCall} {vmFd : Nat}
    (h : .opens f :: cs <:+ startCalls vmFd) :
    .opens f ∉ cs ∧ (Guarded f → ∀ v, .vm v ∉ .opens f :: cs) ∧
      (f = .refresh → .opens .irq ∉ .opens f :: cs) ∧ (f = .irq → .opens .refresh ∈ cs) := by
  simp only [startCalls, List.suffix_cons_iff, List.suffix_nil, List.cons.injEq, reduceCtorEq,
    false_and, false_or, or_false, StartCall.opens.injEq] at h
  rcases h with ⟨rfl, rfl⟩ | ⟨rfl, rfl⟩ | ⟨rfl, rfl⟩ | ⟨rfl, rfl⟩ | ⟨rfl, rfl⟩ <;>
    simp [Guarded]

/-- Where `start` hands a number to the event loop, only such calls are left. -/
theorem suffix_addEvent {f : PortFd} {cs : List StartCall} {vmFd : Nat}
    (h : .addEvent f :: cs <:+ startCalls vmFd) :
    ∀ c ∈ .addEvent f :: cs, ∃ f', c = .addEvent f' := by
  simp only [startCalls, List.suffix_cons_iff, List.suffix_nil, List.cons.injEq, reduceCtorEq,
    false_and, false_or, or_false, StartCall.addEvent.injEq] at h
  rcases h with ⟨rfl, rfl⟩ | ⟨rfl, rfl⟩ | ⟨rfl, rfl⟩ <;> simp

/-- What `start` does once the `KVM_IRQFD` request has succeeded. -/
theorem suffix_irqfd {cs : List StartCall} {vmFd : Nat} (h : .irqfd :: cs <:+ startCalls vmFd) :
    cs = [.addEvent .server, .addEvent .readTimer, .addEvent .writeTimer] := by
  simpa [startCalls, List.suffix_cons_iff] using h

/-- What the port has open after it opened one number more. -/
theorem user_openFd_iff {fd fd' : Nat} {use use' : PortUse} (hfree : s.kernel.user fd = none) :
    (s.kernel.openFd fd (some use)).user fd' = some (some use') ↔
      (fd' = fd ∧ use' = use) ∨ s.Holds fd' use' := by
  rw [FdTable.user_openFd, Holds]
  by_cases h : fd' = fd
  · subst h
    simp [hfree, eq_comm]
  · simp [h]

/-- Other code that opens a number leaves alone what the port has open. -/
theorem user_openFd_none_iff {fd fd' : Nat} {use : PortUse} (hfree : s.kernel.user fd = none) :
    (s.kernel.openFd fd none).user fd' = some (some use) ↔ s.Holds fd' use := by
  by_cases heq : fd' = fd <;> simp [Holds, heq, hfree]

/-- Other code that closes a number leaves alone what the port has open. -/
theorem user_release_iff {fd fd' : Nat} {use : PortUse} (hother : s.kernel.user fd = some none) :
    (s.kernel.release fd).user fd' = some (some use) ↔ s.Holds fd' use := by
  by_cases heq : fd' = fd <;> simp [Holds, heq, hother]

/-- A call of `start` that opens nothing, whether it fails or not. -/
theorem Settled.advance (h : s.Settled) {c : StartCall} {cs cs' : List StartCall}
    (hc : s.starting = c :: cs) (hopens : ∀ f, c ≠ .opens f) (hcs' : cs' = cs ∨ cs' = [])
    {vm : Option Nat} (hvm : s.vm.isSome → vm.isSome) (hvm' : ∀ vmFd, c = .vm vmFd → vm.isSome)
    {mHandlers : Nat → Option PortUse} {registered : Nat → Bool} :
    ({ s with
      starting := cs', vm := vm, mHandlers := mHandlers, registered := registered }).Settled := by
  have hne : s.starting ≠ [] := by simp [hc]
  -- after a failure no calls are left: what `start` has opened so far stays open
  have hmem : ∀ c', c' ∉ s.starting → c' ∉ cs' := by
    rintro c' hnot hmem
    rcases hcs' with rfl | rfl
    · exact hnot (hc ▸ List.mem_cons_of_mem _ hmem)
    · cases hmem
  constructor
  · exact h.stopping
  · exact h.clients
  · exact h.server
  · intro fd use hfd
    rcases h.covers fd use hfd with hclient | ⟨f, rfl, hf, hnot, hguard⟩
    · exact Or.inl hclient
    · exact Or.inr ⟨f, rfl, hf, hmem _ hnot, fun hf => ⟨hvm (hguard hf).1, (hguard hf).2⟩⟩
  · obtain ⟨vmFd, hsuffix⟩ := h.starting
    rcases hcs' with rfl | rfl
    · exact ⟨vmFd, (List.suffix_cons c cs').trans (hc ▸ hsuffix)⟩
    · exact ⟨vmFd, List.nil_suffix⟩
  · intro hne' f hf
    rcases hcs' with rfl | rfl
    · refine h.opened hne f ?_
      rw [hc]
      exact fun hmem => (List.mem_cons.mp hmem).elim (fun heq => hopens f heq.symm) hf
    · exact absurd rfl hne'
  · intro hne' hnot
    rcases hcs' with rfl | rfl
    · by_cases hcvm : ∃ vmFd, c = .vm vmFd
      · obtain ⟨vmFd, heq⟩ := hcvm
        exact hvm' vmFd heq
      · refine hvm (h.vm hne fun vmFd hmem => ?_)
        rw [hc] at hmem
        exact (List.mem_cons.mp hmem).elim (fun heq => hcvm ⟨vmFd, heq.symm⟩) (hnot vmFd)
    · exact absurd rfl hne'
  · exact h.destructing
  · exact fun hd => absurd (h.destroyed hd).1 hne

/-- `start` opens a descriptor. -/
theorem Settled.opens (h : s.Settled) {f : PortFd} {cs : List StartCall}
    (hc : s.starting = .opens f :: cs) {fd : Nat} (hfree : s.kernel.user fd = none) :
    ({ s with
      starting := cs, fds := Function.update s.fds f (some fd)
      kernel := s.kernel.openFd fd (some (.fds f)) }).Settled := by
  have hne : s.starting ≠ [] := by simp [hc]
  obtain ⟨vmFd, hsuffix⟩ := h.starting
  rw [hc] at hsuffix
  obtain ⟨hnot, hvm, hirq, -⟩ := suffix_opens hsuffix
  -- `start` opens each descriptor once, so the others' calls are where they were
  have hother : ∀ f', .opens f' ∉ s.starting → f' ≠ f ∧ .opens f' ∉ cs := by
    intro f' hf'
    rw [hc, List.mem_cons, not_or] at hf'
    exact ⟨fun heq => hf'.1 (heq ▸ rfl), hf'.2⟩
  constructor
  · exact h.stopping
  · exact fun fd' hfd' => (user_openFd_iff hfree).mpr (Or.inr (h.clients fd' hfd'))
  · intro fd' hfd'
    refine (user_openFd_iff hfree).mpr ?_
    by_cases hf : f = .server
    · subst hf
      exact Or.inl ⟨by simpa [eq_comm] using hfd', rfl⟩
    · exact Or.inr (h.server fd' (by simpa [Ne.symm hf] using hfd'))
  · intro fd' use hfd'
    rcases (user_openFd_iff hfree).mp hfd' with ⟨rfl, rfl⟩ | hfd'
    · refine Or.inr ⟨f, rfl, by simp, hnot, fun hguard => ⟨h.vm hne ?_, ?_⟩⟩
      · rw [hc]
        exact hvm hguard
      · rcases hguard with rfl | rfl
        · simp
        · obtain ⟨fd, hfd, -⟩ := h.opened hne .irq (by rw [hc]; exact hirq rfl)
          simp [hfd]
    · rcases h.covers fd' use hfd' with hclient | ⟨f', rfl, hf', hstarting, hguard⟩
      · exact Or.inl hclient
      · obtain ⟨hne', hcs⟩ := hother f' hstarting
        refine Or.inr ⟨f', rfl, by simpa [hne'] using hf', hcs, fun hg => ⟨(hguard hg).1, ?_⟩⟩
        by_cases hf : f = .irq
        · simp [hf]
        · simpa [Ne.symm hf] using (hguard hg).2
  · exact ⟨vmFd, (List.suffix_cons _ cs).trans hsuffix⟩
  · intro _ f' hf'
    by_cases heq : f' = f
    · subst heq
      exact ⟨fd, by simp, (user_openFd_iff hfree).mpr (Or.inl ⟨rfl, rfl⟩)⟩
    · obtain ⟨fd', hfd', hholds⟩ := h.opened hne f' (by simp [hc, heq, hf'])
      exact ⟨fd', by simpa [heq] using hfd', (user_openFd_iff hfree).mpr (Or.inr hholds)⟩
  · exact fun _ hnot => h.vm hne (by simpa [hc] using hnot)
  · exact h.destructing
  · exact fun hd => absurd (h.destroyed hd).1 hne

/-- `start` fails to open a descriptor. -/
theorem Settled.opensNot (h : s.Settled) {f : PortFd} {cs : List StartCall}
    (hc : s.starting = .opens f :: cs) :
    ({ s with starting := [], fds := Function.update s.fds f none }).Settled := by
  have hne : s.starting ≠ [] := by simp [hc]
  obtain ⟨vmFd, hsuffix⟩ := h.starting
  rw [hc] at hsuffix
  obtain ⟨-, -, -, hrefresh⟩ := suffix_opens hsuffix
  constructor
  · exact h.stopping
  · exact h.clients
  · intro fd hfd
    by_cases hf : f = .server
    · simp [hf] at hfd
    · exact h.server fd (by simpa [Ne.symm hf] using hfd)
  · intro fd use hfd
    rcases h.covers fd use hfd with hclient | ⟨f', rfl, hf', hstarting, hguard⟩
    · exact Or.inl hclient
    · rw [hc, List.mem_cons, not_or] at hstarting
      have hne' : f' ≠ f := fun heq => hstarting.1 (heq ▸ rfl)
      refine Or.inr ⟨f', rfl, by simpa [hne'] using hf', List.not_mem_nil, fun hg =>
        ⟨(hguard hg).1, ?_⟩⟩
      -- `fds.refresh` is opened after `fds.irq`, so nothing is open for either of them
      have hf : f ≠ .irq := by
        rintro rfl
        rcases hg with rfl | rfl
        · exact hne' rfl
        · exact hstarting.2 (hrefresh rfl)
      simpa [Ne.symm hf] using (hguard hg).2
  · exact ⟨vmFd, List.nil_suffix⟩
  · exact fun hne' => absurd rfl hne'
  · exact fun hne' => absurd rfl hne'
  · exact h.destructing
  · exact fun hd => absurd (h.destroyed hd).1 hne

/-- The server's handler accepts a client. -/
theorem Settled.accept (h : s.Settled) (hexists : s.destroyed ≠ true) {fd : Nat}
    (hfree : s.kernel.user fd = none) {mHandlers : Nat → Option PortUse}
    {registered : Nat → Bool} :
    ({ s with
      clients := s.clients.insert fd, kernel := s.kernel.openFd fd (some .client)
      mHandlers := mHandlers, registered := registered }).Settled := by
  have hmono : ∀ {fd' use}, s.Holds fd' use →
      (s.kernel.openFd fd (some .client)).user fd' = some (some use) := fun hfd' =>
    (user_openFd_iff hfree).mpr (Or.inr hfd')
  constructor
  · exact h.stopping
  · intro fd' hfd'
    rcases FdSet.mem_insert.mp hfd' with rfl | hfd'
    · exact (user_openFd_iff hfree).mpr (Or.inl ⟨rfl, rfl⟩)
    · exact hmono (h.clients fd' hfd')
  · exact fun fd' hfd' => hmono (h.server fd' hfd')
  · intro fd' use hfd'
    rcases (user_openFd_iff hfree).mp hfd' with ⟨rfl, rfl⟩ | hfd'
    · exact Or.inl ⟨rfl, FdSet.mem_insert.mpr (Or.inl rfl)⟩
    · rcases h.covers fd' use hfd' with ⟨rfl, hclient⟩ | hfds
      · exact Or.inl ⟨rfl, FdSet.mem_insert.mpr (Or.inr hclient)⟩
      · exact Or.inr hfds
  · exact h.starting
  · intro hne f hf
    obtain ⟨fd', hfd', hholds⟩ := h.opened hne f hf
    exact ⟨fd', hfd', hmono hholds⟩
  · exact h.vm
  · exact h.destructing
  · exact fun hd => absurd hd hexists

/-! ## Any step keeps the phases -/

/-- Other code that leaves what the port has open alone keeps its phase. -/
theorem phase_other (h : s.Settled ∨ s.Stopping) {kernel : FdTable PortUse}
    (hkernel : ∀ fd use, kernel.user fd = some (some use) ↔ s.Holds fd use) :
    ({ s with kernel := kernel }).Settled ∨ ({ s with kernel := kernel }).Stopping := by
  have hholds : ∀ fd use, ({ s with kernel := kernel }).Holds fd use = s.Holds fd use :=
    fun fd use => propext (hkernel fd use)
  rcases h with h | h
  · refine Or.inl ⟨h.stopping, ?_, ?_, ?_, h.starting, ?_, h.vm, h.destructing, ?_⟩ <;>
      simp only [hholds]
    · exact h.clients
    · exact h.server
    · exact h.covers
    · exact h.opened
    · exact h.destroyed
  · refine Or.inr ⟨h.unlocks, h.clients, h.server, ?_, ?_, h.ordered, h.starting, h.destructing,
      h.destroyed⟩ <;> simp only [hholds]
    · exact h.covers
    · exact h.own

/-- What is registered after a removal was so before. -/
theorem registered_of_removeEvent {fd fd' : Nat}
    (h : (s.removeEvent fd).registered fd' = true) : s.registered fd' = true := by
  rw [registered_removeEvent] at h
  split at h
  · by_cases heq : fd' = fd
    · simp [heq] at h
    · simpa [heq] using h
  · exact h

/-- What is registered after an addition is the number added, or was so before. -/
theorem registered_of_addEvent {fd fd' : Nat} {handler : PortUse} {added : Bool}
    (h : (s.addEvent fd handler added).registered fd' = true) :
    fd' = fd ∨ s.registered fd' = true := by
  by_cases heq : fd' = fd
  · exact Or.inl heq
  · refine Or.inr ?_
    have hremove : (if (s.mHandlers fd).isSome then s.removeEvent fd else s).registered fd' = true →
        s.registered fd' = true := by
      split
      · exact registered_of_removeEvent
      · exact id
    unfold addEvent at h
    dsimp only at h
    split at h
    · exact hremove (by simpa [heq] using h)
    · exact hremove h

/-- A call of `stop` keeps the invariant. -/
theorem inv_stopCall (h : s.Inv) {c : StopCall} {cs : List StopCall} (hc : s.stopping = c :: cs) :
    (({ s with stopping := cs }).stopCall c).Inv := by
  have hstopping := h.stopping hc
  cases c with
  | removeEvent fd =>
      refine ⟨?_, ?_, ?_⟩ <;> rw [stopCall, removeEvent_eq]
      · exact h.table
      · intro fd' hfd'
        have hbefore : (({ s with stopping := cs }).removeEvent fd).registered fd' = true := hfd'
        have hregistered := registered_of_removeEvent hbefore
        exact h.registered fd' hregistered
      · exact Or.inr (hstopping.tail hc (by simp) fun fd' use => by simp [Holds])
  | close use fd =>
      cases fd with
      | none =>
          exact ⟨h.table, h.registered,
            Or.inr (hstopping.tail hc (by simp) fun fd' use => by simp [Holds])⟩
      | some fd =>
          -- the number is free from here on, and its registration goes with the file
          have hkernel : ∀ fd' use', (s.kernel.close fd).user fd' = some (some use') ↔
              s.Holds fd' use' ∧ fd' ≠ fd := by
            intro fd' use'
            by_cases heq : fd' = fd <;> simp [Holds, heq]
          refine ⟨h.table.close fd, ?_, ?_⟩
          · intro fd' hfd'
            have hne : fd' ≠ fd := by
              rintro rfl
              simp [stopCall] at hfd'
            obtain ⟨use', huse'⟩ := h.registered fd' (by simpa [stopCall, hne] using hfd')
            exact ⟨use', (hkernel fd' use').mpr ⟨huse', hne⟩⟩
          · refine Or.inr (hstopping.tail hc (by simp) fun fd' use' => ?_)
            rw [hkernel]
            simp [eq_comm]
  | unlock =>
      obtain rfl := hstopping.eq_nil hc
      exact ⟨h.table, h.registered, Or.inl (hstopping.unlock hc)⟩

/-- A call of `start` keeps the invariant. -/
theorem inv_startCall (h : s.Inv) (hstopping : s.stopping = []) {result : Option Nat}
    {c : StartCall} {cs : List StartCall} (hc : s.starting = c :: cs)
    (hs' : ({ s with starting := cs }).startCall result c = some s') : s'.Inv := by
  have hsettled := h.settled hstopping
  -- a call that opens nothing: `start` goes on, or returns
  have hreturns : ∀ c', c = c' → (∀ f, c' ≠ .opens f) → (∀ vmFd, c' ≠ .vm vmFd) →
      ({ s with starting := cs } : SerialPort).Inv ∧ ({ s with starting := [] }).Inv := by
    rintro c' rfl hopens hvm
    exact ⟨⟨h.table, h.registered,
        Or.inl (hsettled.advance hc hopens (Or.inl rfl) id fun v hv => absurd hv (hvm v))⟩,
      ⟨h.table, h.registered,
        Or.inl (hsettled.advance hc hopens (Or.inr rfl) id fun v hv => absurd hv (hvm v))⟩⟩
  cases c with
  | opens f =>
      cases result with
      | none =>
          obtain rfl := Option.some.inj hs'
          exact ⟨h.table, h.registered, Or.inl (hsettled.opensNot hc)⟩
      | some fd =>
          obtain ⟨hfree, ⟨⟩⟩ := Option.ite_none_right_eq_some.mp hs'
          refine ⟨h.table.openFd hfree _, fun fd' hfd' => ?_, Or.inl (hsettled.opens hc hfree)⟩
          obtain ⟨use, huse⟩ := h.registered fd' hfd'
          exact ⟨use, (user_openFd_iff hfree).mpr (Or.inr huse)⟩
  | bind | listen | irqfd =>
      obtain ⟨hnext, hfails⟩ := hreturns _ rfl (by simp) (by simp)
      obtain rfl := Option.some.inj hs'
      split
      · exact hnext
      · exact hfails
  | vm vmFd =>
      obtain rfl := Option.some.inj hs'
      exact ⟨h.table, h.registered,
        Or.inl (hsettled.advance hc (by simp) (Or.inl rfl) (by simp) (by simp))⟩
  | addEvent f =>
      -- descriptors are registered behind the call that opened them
      obtain ⟨vmFd, hsuffix⟩ := hsettled.starting
      rw [hc] at hsuffix
      obtain ⟨fd, hfd, hholds⟩ := hsettled.opened (by simp [hc]) f
        (by rw [hc]; exact fun hmem => by simpa using suffix_addEvent hsuffix _ hmem)
      obtain rfl : ({ s with starting := cs }).addEvent fd (.fds f) result.isSome = s' := by
        simpa [startCall, hfd] using hs'
      rw [addEvent_eq]
      refine ⟨h.table, fun fd' hfd' => ?_,
        Or.inl (hsettled.advance hc (by simp) (Or.inl rfl) id (by simp))⟩
      have hadded : (({ s with starting := cs }).addEvent fd (.fds f) result.isSome).registered
          fd' = true := hfd'
      rcases registered_of_addEvent hadded with rfl | hfd'
      · exact ⟨.fds f, hholds⟩
      · exact h.registered fd' hfd'

/-- **The phases of a port.** Every step keeps the invariant. -/
theorem inv_step (h : s.Inv) (hstep : s.step e = some s') : s'.Inv := by
  cases step_cases hstep with
  | @start vmFd hidle =>
      -- `start` begins with a `stop`
      have hsettled := h.settled hidle.1
      refine ⟨h.table, h.registered, Or.inr ?_⟩
      refine hsettled.beginStop hidle (startCalls vmFd) s.destructing (Or.inr ⟨vmFd, rfl⟩) ?_
      rw [hsettled.destructing, hidle.2.2]
      simp
  | stop hidle =>
      exact ⟨h.table, h.registered, Or.inr ((h.settled hidle.1).beginStop hidle s.starting
        s.destructing (Or.inl hidle.2.1) fun _ => hidle.2.1)⟩
  | destruct hidle =>
      exact ⟨h.table, h.registered, Or.inr ((h.settled hidle.1).beginStop hidle s.starting true
        (Or.inl hidle.2.1) fun _ => hidle.2.1)⟩
  | stopCall hc => exact inv_stopCall h hc
  | startCall hstopping hc ht => exact inv_startCall h hstopping hc ht
  | @accept ready fd added hstopping hready hhandler hserver hfree =>
      have hsettled := h.settled hstopping
      rw [addEvent_eq]
      refine ⟨h.table.openFd hfree _, fun fd' hfd' => ?_, Or.inl ?_⟩
      · -- what is registered: the accepted client, and what was registered before
        have hadded : (({ s with
            clients := s.clients.insert fd
            kernel := s.kernel.openFd fd (some .client) }).addEvent fd .client added).registered
            fd' = true := hfd'
        rcases registered_of_addEvent hadded with rfl | hfd'
        · exact ⟨.client, (user_openFd_iff hfree).mpr (Or.inl ⟨rfl, rfl⟩)⟩
        · obtain ⟨use, huse⟩ := h.registered fd' hfd'
          exact ⟨use, (user_openFd_iff hfree).mpr (Or.inr huse)⟩
      · -- the handler runs for a registered descriptor, which a destroyed port does not have
        refine hsettled.accept (fun hdestroyed => ?_) hfree
        obtain ⟨use, huse⟩ := h.registered ready hready
        exact (hsettled.destroyed hdestroyed).2 ready use huse
  | @otherOpens fd hfree =>
      refine ⟨h.table.openFd hfree _, fun fd' hfd' => ?_,
        phase_other h.phase fun fd' use => user_openFd_none_iff hfree⟩
      obtain ⟨use, huse⟩ := h.registered fd' hfd'
      exact ⟨use, (user_openFd_none_iff hfree).mpr huse⟩
  | @otherCloses fd hother =>
      refine ⟨h.table.release hother, fun fd' hfd' => ?_,
        phase_other h.phase fun fd' use => user_release_iff hother⟩
      obtain ⟨use, huse⟩ := h.registered fd' hfd'
      exact ⟨use, (user_release_iff hother).mpr huse⟩

end SerialPort

end Ts3100
