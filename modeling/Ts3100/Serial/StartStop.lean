import Ts3100.Library.DescriptorTable
import Ts3100.Library.Descriptors
import Ts3100.Library.LabelledRuns

/-! # Starting and stopping a serial port

`Serial16450::start` opens a server socket, two timers and two event descriptors and hands three of
them to its event loop; `Serial16450::stop` takes the clients and the server out of the event loop
and closes everything. Both are sequences of calls into the kernel and the event loop, and other code
of the process may open and close descriptors between any two of them: `SerialPort.step` makes one
such call. The results of the kernel come with the labels.

`stop` holds the port's mutex, and so does the accept handler from its registration of the client on.
Its call of `accept` comes before the lock; here the two are one step, so a handler that waits for the
lock of a `stop` with a client in hand is left out. What the port does with its descriptors while it
runs opens and closes none. -/

namespace Ts3100

open Descriptors LabelledRuns

/-- The members of `fds` that `start` opens a descriptor for. -/
inductive PortFd where
  | server
  | irq
  | refresh
  | readTimer
  | writeTimer
  deriving DecidableEq, Repr

/-- What the port opens a descriptor for, and what a handler of its event loop serves. -/
inductive PortUse where
  /-- `handleClientEvent`, for an accepted client -/
  | client
  /-- a member of `fds` -/
  | fds (f : PortFd)
  deriving DecidableEq, Repr

/-- The calls `stop` makes. -/
inductive StopCall where
  | removeEvent (fd : Nat)
  /-- `close` of the number found in a set or member of `fds`; `none` is -1 -/
  | close (use : PortUse) (fd : Option Nat)
  /-- the end of `stop`, where the lock is released -/
  | unlock
  deriving DecidableEq, Repr

/-- The calls `start` makes after its `stop`. -/
inductive StartCall where
  /-- `socket`, `timerfd_create` or `eventfd`, into a member of `fds` -/
  | opens (f : PortFd)
  | bind
  | listen
  /-- `fds.vm = vmFd` -/
  | vm (vmFd : Nat)
  /-- the `KVM_IRQFD` request -/
  | irqfd
  /-- `mEventLoop.addEvent` of a member of `fds`, with its handler -/
  | addEvent (f : PortFd)
  deriving DecidableEq, Repr

/-- A serial port, with the handlers of its event loop and what the kernel knows of them. -/
structure SerialPort where
  /-- `fds.clients` -/
  clients : FdSet := .empty
  /-- `fds.vm`; `none` is -1 -/
  vm : Option Nat := none
  /-- the other members of `fds`; `none` is -1 -/
  fds : PortFd → Option Nat := fun _ => none
  /-- the keys of `mHandlers`, with what their handlers serve -/
  mHandlers : Nat → Option PortUse := fun _ => none
  /-- the numbers registered with `epoll` through this port's event loop -/
  registered : Nat → Bool := fun _ => false
  /-- the open files of the process -/
  kernel : FdTable PortUse := {}
  /-- what is left of the `stop` in progress -/
  stopping : List StopCall := []
  /-- what is left of the `start` in progress -/
  starting : List StartCall := []
  /-- the `stop` in progress is that of the destructor -/
  destructing : Bool := false
  /-- the destructor has returned -/
  destroyed : Bool := false

/-- What happens to a port, and around it. -/
inductive SerialPortEvent where
  /-- a call of `start` -/
  | start (vmFd : Nat)
  /-- a call of `stop` -/
  | stop
  /-- a call of the destructor -/
  | destruct
  /-- the next call that `stop` or `start` makes; `none` says that it fails, and where it opens a
  descriptor, `some` tells its number -/
  | call (result : Option Nat)
  /-- the event loop calls the handler of the number `ready`, which accepts the client `fd`; `added`
  says whether `epoll` takes it -/
  | accept (ready fd : Nat) (added : Bool)
  /-- other code opens a descriptor -/
  | otherOpens (fd : Nat)
  /-- other code closes one of its descriptors -/
  | otherCloses (fd : Nat)
  deriving DecidableEq, Repr

namespace SerialPort

/-! ## The event loop -/

/-- `EventLoop::removeEvent`: the key goes only if `EPOLL_CTL_DEL` finds the number registered. -/
def removeEvent (s : SerialPort) (fd : Nat) : SerialPort :=
  if (s.mHandlers fd).isSome ∧ s.registered fd = true then
    { s with
      mHandlers := Function.update s.mHandlers fd none
      registered := Function.update s.registered fd false }
  else
    s

/-- `EventLoop::addEvent`: `insert` leaves a key that is still there alone. -/
def addEvent (s : SerialPort) (fd : Nat) (handler : PortUse) (added : Bool) : SerialPort :=
  let s := if (s.mHandlers fd).isSome then s.removeEvent fd else s
  { s with
    mHandlers :=
      if (s.mHandlers fd).isSome then s.mHandlers
      else Function.update s.mHandlers fd (some handler)
    registered := if added then Function.update s.registered fd true else s.registered }

/-! ## `stop` -/

/-- The loop over the clients. -/
def stopClients (s : SerialPort) : List StopCall :=
  s.clients.toList.flatMap fun fd => [.removeEvent fd, .close .client (some fd)]

/-- The server, if there is one. -/
def stopServer (s : SerialPort) : List StopCall :=
  match s.fds .server with
  | some fd => [.removeEvent fd, .close (.fds .server) (some fd)]
  | none => []

/-- The interrupts, after the `KVM_IRQFD` request that takes them from the virtual machine. -/
def stopInterrupts (s : SerialPort) : List StopCall :=
  if s.vm.isSome ∧ (s.fds .irq).isSome then
    [.close (.fds .irq) (s.fds .irq), .close (.fds .refresh) (s.fds .refresh)]
  else
    []

/-- The calls of `stop`, with the numbers it finds. -/
def stopCalls (s : SerialPort) : List StopCall :=
  s.stopClients ++ s.stopServer ++ s.stopInterrupts ++
    [.close (.fds .readTimer) (s.fds .readTimer), .close (.fds .writeTimer) (s.fds .writeTimer),
      .unlock]

/-- `stop` begins. The clients are forgotten and `fds.server` is reset under its lock; the other
members of `fds` keep their numbers. -/
def beginStop (s : SerialPort) : SerialPort :=
  { s with
    stopping := s.stopCalls
    clients := .empty
    fds := Function.update s.fds .server none }

/-- The effect of one call of `stop`. The kernel takes a closed number out of `epoll`. -/
def stopCall (s : SerialPort) : StopCall → SerialPort
  | .removeEvent fd => s.removeEvent fd
  | .close _ (some fd) =>
      { s with
        kernel := s.kernel.close fd
        registered := Function.update s.registered fd false }
  | .close _ none => s
  | .unlock => { s with destroyed := s.destructing }

/-! ## `start` -/

/-- The calls of `start` after its `stop`. -/
def startCalls (vmFd : Nat) : List StartCall :=
  [.opens .server, .bind, .listen, .opens .readTimer, .opens .writeTimer, .vm vmFd, .opens .irq,
    .opens .refresh, .irqfd, .addEvent .server, .addEvent .readTimer, .addEvent .writeTimer]

/-- The effect of one call of `start`; where it fails, `start` returns. -/
def startCall (s : SerialPort) (result : Option Nat) : StartCall → Option SerialPort
  | .opens f =>
      match result with
      | some fd =>
          if s.kernel.user fd = none then
            some { s with
              fds := Function.update s.fds f (some fd)
              kernel := s.kernel.openFd fd (some (.fds f)) }
          else
            none
      | none => some { s with fds := Function.update s.fds f none, starting := [] }
  | .bind | .listen | .irqfd => some (if result.isSome then s else { s with starting := [] })
  | .vm vmFd => some { s with vm := some vmFd }
  | .addEvent f =>
      some (match s.fds f with
        | some fd => s.addEvent fd (.fds f) result.isSome
        | none => s)

/-! ## Steps -/

/-- No call of `start`, `stop` or the destructor is in progress, and the port still exists. -/
def Idle (s : SerialPort) : Prop :=
  s.stopping = [] ∧ s.starting = [] ∧ s.destroyed = false

instance (s : SerialPort) : Decidable s.Idle := inferInstanceAs (Decidable (_ ∧ _ ∧ _))

/-- One step of the port or of what surrounds it. -/
def step (s : SerialPort) : SerialPortEvent → Option SerialPort
  | .start vmFd => if s.Idle then some { s.beginStop with starting := startCalls vmFd } else none
  | .stop => if s.Idle then some s.beginStop else none
  | .destruct => if s.Idle then some { s.beginStop with destructing := true } else none
  | .call result =>
      match s.stopping with
      | c :: cs => some (({ s with stopping := cs }).stopCall c)
      | [] =>
          match s.starting with
          | c :: cs => ({ s with starting := cs }).startCall result c
          | [] => none
  | .accept ready fd added =>
      if s.stopping = [] ∧ s.registered ready = true ∧
          s.mHandlers ready = some (.fds .server) ∧ (s.fds .server).isSome ∧
          s.kernel.user fd = none then
        some (({ s with
          clients := s.clients.insert fd
          kernel := s.kernel.openFd fd (some .client) }).addEvent fd .client added)
      else
        none
  | .otherOpens fd =>
      if s.kernel.user fd = none then some { s with kernel := s.kernel.openFd fd none } else none
  | .otherCloses fd =>
      if s.kernel.user fd = some none then some { s with kernel := s.kernel.release fd } else none

variable {s s' : SerialPort} {e : SerialPortEvent}

/-- What a step does. -/
inductive Steps (s : SerialPort) : SerialPortEvent → SerialPort → Prop where
  | start {vmFd : Nat} (hidle : s.Idle) :
      Steps s (.start vmFd) { s.beginStop with starting := startCalls vmFd }
  | stop (hidle : s.Idle) : Steps s .stop s.beginStop
  | destruct (hidle : s.Idle) : Steps s .destruct { s.beginStop with destructing := true }
  | stopCall {result : Option Nat} {c : StopCall} {cs : List StopCall} (hc : s.stopping = c :: cs) :
      Steps s (.call result) (({ s with stopping := cs }).stopCall c)
  | startCall {result : Option Nat} {c : StartCall} {cs : List StartCall} {t : SerialPort}
      (hstopping : s.stopping = []) (hc : s.starting = c :: cs)
      (ht : ({ s with starting := cs }).startCall result c = some t) : Steps s (.call result) t
  | accept {ready fd : Nat} {added : Bool} (hstopping : s.stopping = [])
      (hready : s.registered ready = true) (hhandler : s.mHandlers ready = some (.fds .server))
      (hserver : (s.fds .server).isSome) (hfree : s.kernel.user fd = none) :
      Steps s (.accept ready fd added) (({ s with
        clients := s.clients.insert fd
        kernel := s.kernel.openFd fd (some .client) }).addEvent fd .client added)
  | otherOpens {fd : Nat} (hfree : s.kernel.user fd = none) :
      Steps s (.otherOpens fd) { s with kernel := s.kernel.openFd fd none }
  | otherCloses {fd : Nat} (hother : s.kernel.user fd = some none) :
      Steps s (.otherCloses fd) { s with kernel := s.kernel.release fd }

/-- Every step is one of these. -/
theorem step_cases (h : s.step e = some s') : Steps s e s' := by
  cases e with
  | start vmFd =>
      obtain ⟨hidle, ⟨⟩⟩ := Option.ite_none_right_eq_some.mp h
      exact .start hidle
  | stop =>
      obtain ⟨hidle, ⟨⟩⟩ := Option.ite_none_right_eq_some.mp h
      exact .stop hidle
  | destruct =>
      obtain ⟨hidle, ⟨⟩⟩ := Option.ite_none_right_eq_some.mp h
      exact .destruct hidle
  | call result =>
      unfold step at h
      dsimp only at h
      split at h
      · rename_i c cs hc
        obtain rfl := Option.some.inj h
        exact .stopCall hc
      · rename_i hstopping
        split at h
        · rename_i c cs hc
          exact .startCall hstopping hc h
        · cases h
  | accept ready fd added =>
      obtain ⟨⟨hstopping, hready, hhandler, hserver, hfree⟩, ⟨⟩⟩ :=
        Option.ite_none_right_eq_some.mp h
      exact .accept hstopping hready hhandler hserver hfree
  | otherOpens fd =>
      obtain ⟨hfree, ⟨⟩⟩ := Option.ite_none_right_eq_some.mp h
      exact .otherOpens hfree
  | otherCloses fd =>
      obtain ⟨hother, ⟨⟩⟩ := Option.ite_none_right_eq_some.mp h
      exact .otherCloses hother

/-! ## The handlers of the event loop -/

/-- The keys after a removal. -/
theorem mHandlers_removeEvent (fd : Nat) : (s.removeEvent fd).mHandlers =
    if (s.mHandlers fd).isSome ∧ s.registered fd = true then
      Function.update s.mHandlers fd none
    else s.mHandlers := by
  unfold removeEvent
  split <;> rfl

/-- The registered numbers after it. -/
theorem registered_removeEvent (fd : Nat) : (s.removeEvent fd).registered =
    if (s.mHandlers fd).isSome ∧ s.registered fd = true then
      Function.update s.registered fd false
    else s.registered := by
  unfold removeEvent
  split <;> rfl

/-- `removeEvent` only touches the handlers and the registrations. -/
theorem removeEvent_eq (fd : Nat) : s.removeEvent fd =
    { s with
      mHandlers := (s.removeEvent fd).mHandlers, registered := (s.removeEvent fd).registered } := by
  unfold removeEvent
  split <;> rfl

/-- `addEvent` only touches the handlers and the registrations. -/
theorem addEvent_eq (fd : Nat) (handler : PortUse) (added : Bool) :
    s.addEvent fd handler added =
      { s with
        mHandlers := (s.addEvent fd handler added).mHandlers
        registered := (s.addEvent fd handler added).registered } := by
  unfold addEvent removeEvent
  dsimp only
  split
  · split <;> rfl
  · rfl

/-- A number that is not registered gets the handler only if it is no key. -/
theorem mHandlers_addEvent {fd : Nat} (hfd : s.registered fd = false) (handler : PortUse)
    (added : Bool) : (s.addEvent fd handler added).mHandlers =
      Function.update s.mHandlers fd (some ((s.mHandlers fd).getD handler)) := by
  have hremove : s.removeEvent fd = s := if_neg (by simp [hfd])
  unfold addEvent
  dsimp only
  rw [hremove, ite_self]
  cases hkey : s.mHandlers fd with
  | none => rfl
  | some handler' =>
      rw [Option.isSome_some, if_pos rfl, Option.getD_some, ← hkey, Function.update_eq_self]

/-- The registered numbers after an addition. -/
theorem registered_addEvent {fd : Nat} (hfd : s.registered fd = false) (handler : PortUse)
    (added : Bool) : (s.addEvent fd handler added).registered =
      if added then Function.update s.registered fd true else s.registered := by
  have hremove : s.removeEvent fd = s := if_neg (by simp [hfd])
  unfold addEvent
  dsimp only
  rw [hremove, ite_self]

end SerialPort

end Ts3100
