import Mathlib.Data.List.AList

/-! # Handlers and registrations of an event loop

An `EventLoop` keeps the handlers of its descriptors in `mHandlers` and registers each of them in the
epoll set of the internal loop, with a pointer to the handler. Any call of `epoll_ctl` can fail.

* `EventLoop.addEvent`, `EventLoop.modifyEvent`, `EventLoop.removeEvent` — the operations.
* `EventLoop.removeEvent_eq` — a handler is removed iff it can be deregistered.
* `EventLoop.addEvent_of_notMem`, `EventLoop.addEvent_of_removed`, `EventLoop.addEvent_of_kept` — what
  becomes of a handler that is added. -/

namespace Ts3100

universe u

/-- `int fd`. -/
abbrev Fd := Int

/-- What `event.data.ptr` points to. -/
inductive HandlerPtr where
  | mInterruptHandler
  /-- the handler in the node of an `mHandlers` at an address -/
  | node (address : Nat)
  deriving DecidableEq, Repr

/-- The `struct epoll_event` that a descriptor is registered with. -/
structure Registration where
  events : BitVec 32
  ptr : HandlerPtr
  deriving DecidableEq, Repr

/-- The registrations of an epoll descriptor. -/
abbrev EpollSet := Fd → Option Registration

/-- The second argument of `epoll_ctl`. -/
inductive EpollOp where
  | add
  | mod
  | del
  deriving DecidableEq, Repr

/-- Which calls of `epoll_ctl` during an operation fail for a reason of their own. -/
abbrev Failures := EpollOp → Fd → Bool

/-- `epoll_ctl`: the new epoll set, `none` for -1. -/
def epollCtl (fails : Failures) (epoll : EpollSet) (op : EpollOp) (fd : Fd)
    (event : Option Registration) : Option EpollSet :=
  let possible := match op with
    | .add => (epoll fd).isNone -- otherwise `EEXIST`
    | .mod | .del => (epoll fd).isSome -- otherwise `ENOENT`
  if possible && !fails op fd then some (Function.update epoll fd event) else none

/-- A node of `mHandlers`, which stays at its address. -/
structure HandlerNode (H : Type u) where
  address : Nat
  handler : H
  deriving DecidableEq, Repr

/-- `std::unordered_map<int, HandlerType>`. -/
abbrev HandlerMap (H : Type u) := AList fun _ : Fd => HandlerNode H

/-- The part of `EventLoopInternal` that `epoll_ctl` works on: the epoll set of `mEpollFd`, and the
descriptor of its interrupt event. -/
structure EventLoopInternal where
  mInterruptFd : Fd
  epoll : EpollSet

/-- An `EventLoop`, with the internal loop that `mState` points to and the next address that the
allocator returns. -/
structure EventLoop (H : Type u) where
  mState : Option EventLoopInternal
  mHandlers : HandlerMap H
  nextNode : Nat

namespace EventLoop

variable {H : Type u}

/-- `epoll_ctl(mState->mEpollFd, op, fd, event)`. -/
def ctl (fails : Failures) (s : EventLoop H) (op : EpollOp) (fd : Fd)
    (event : Option Registration) : Option (EventLoop H) :=
  s.mState.bind fun state => (epollCtl fails state.epoll op fd event).map fun epoll =>
    { s with mState := some { state with epoll } }

/-- `mHandlers.insert({fd, handler})`: the node of `fd`, which is not replaced if there is one. -/
def insert (s : EventLoop H) (fd : Fd) (handler : H) : HandlerNode H × EventLoop H :=
  match s.mHandlers.lookup fd with
  | some node => (node, s)
  | none =>
      let node := { address := s.nextNode, handler }
      (node, { s with mHandlers := s.mHandlers.insert fd node, nextNode := s.nextNode + 1 })

/-- `EventLoop::removeEvent`. -/
def removeEvent (fails : Failures) (s : EventLoop H) (fd : Fd) : EventLoop H :=
  if s.mState.isNone || (s.mHandlers.lookup fd).isNone then
    s
  else
    match s.ctl fails .del fd none with
    | some s' => { s' with mHandlers := s'.mHandlers.erase fd }
    | none => s

/-- `EventLoop::modifyEvent`. -/
def modifyEvent (fails : Failures) (s : EventLoop H) (fd : Fd) (events : BitVec 32) :
    Bool × EventLoop H :=
  match s.mState, s.mHandlers.lookup fd with
  | some _, some node =>
      match s.ctl fails .mod fd (some { events, ptr := .node node.address }) with
      | some s' => (true, s')
      | none => (false, s)
  | _, _ => (false, s)

/-- `EventLoop::addEvent`. -/
def addEvent (fails : Failures) (s : EventLoop H) (fd : Fd) (events : BitVec 32) (handler : H) :
    Bool × EventLoop H :=
  if s.mState.isNone then
    (false, s)
  else
    let s := if (s.mHandlers.lookup fd).isSome then s.removeEvent fails fd else s
    let (node, s) := s.insert fd handler
    match s.ctl fails .add fd (some { events, ptr := .node node.address }) with
    | some s' => (true, s')
    | none => (false, s)

/-- `EventLoop::removeHandlers`. -/
def removeHandlers (fails : Failures) (s : EventLoop H) : EventLoop H :=
  if s.mState.isSome then
    let s := s.mHandlers.keys.foldl (fun s fd => (s.ctl fails .del fd none).getD s) s
    { s with mHandlers := ∅ }
  else
    s

/-- A call of one of the operations. -/
inductive Request (H : Type u) where
  | addEvent (fd : Fd) (events : BitVec 32) (handler : H)
  | modifyEvent (fd : Fd) (events : BitVec 32)
  | removeEvent (fd : Fd)

/-- The result of a call, with `true` for the operation that returns nothing. -/
def request (fails : Failures) (s : EventLoop H) : Request H → Bool × EventLoop H
  | .addEvent fd events handler => s.addEvent fails fd events handler
  | .modifyEvent fd events => s.modifyEvent fails fd events
  | .removeEvent fd => (true, s.removeEvent fails fd)

variable {fails : Failures} {s : EventLoop H} {state : EventLoopInternal} {fd : Fd}
  {events : BitVec 32} {handler : H} {node : HandlerNode H}

/-! ## Single calls -/

/-- `EPOLL_CTL_ADD` registers a descriptor that is not registered. -/
theorem ctl_add (hstate : s.mState = some state) (event : Option Registration) :
    s.ctl fails .add fd event = if state.epoll fd = none ∧ fails .add fd = false then
      some { s with mState := some { state with epoll := Function.update state.epoll fd event } }
    else none := by
  by_cases hnone : state.epoll fd = none <;> cases hfails : fails .add fd <;>
    simp [ctl, epollCtl, hstate, hnone, hfails]

/-- `EPOLL_CTL_MOD` and `EPOLL_CTL_DEL` change a descriptor that is registered. -/
theorem ctl_of_ne_add (hstate : s.mState = some state) {op : EpollOp} (hop : op ≠ .add)
    (event : Option Registration) :
    s.ctl fails op fd event = if state.epoll fd ≠ none ∧ fails op fd = false then
      some { s with mState := some { state with epoll := Function.update state.epoll fd event } }
    else none := by
  cases op with
  | add => exact absurd rfl hop
  | mod =>
      rcases hreg : state.epoll fd with _ | r <;> cases hfails : fails .mod fd <;>
        simp [ctl, epollCtl, hstate, hreg, hfails]
  | del =>
      rcases hreg : state.epoll fd with _ | r <;> cases hfails : fails .del fd <;>
        simp [ctl, epollCtl, hstate, hreg, hfails]

/-! ## What the operations do -/

/-- The loop without a registration and its handler. -/
def removed (s : EventLoop H) (state : EventLoopInternal) (fd : Fd) : EventLoop H :=
  { s with
    mState := some { state with epoll := Function.update state.epoll fd none }
    mHandlers := s.mHandlers.erase fd }

/-- The loop with a new handler that is not registered. -/
def inserted (s : EventLoop H) (fd : Fd) (handler : H) : EventLoop H :=
  { s with
    mHandlers := s.mHandlers.insert fd { address := s.nextNode, handler }
    nextNode := s.nextNode + 1 }

/-- The loop with a registration set. -/
def registered (s : EventLoop H) (state : EventLoopInternal) (fd : Fd) (events : BitVec 32)
    (address : Nat) : EventLoop H :=
  { s with mState := some { state with
      epoll := Function.update state.epoll fd (some { events, ptr := .node address }) } }

/-- `insert` makes a node for a new key. -/
theorem insert_of_notMem (hfd : fd ∉ s.mHandlers) :
    s.insert fd handler = ({ address := s.nextNode, handler }, s.inserted fd handler) := by
  unfold insert
  rw [AList.lookup_eq_none.mpr hfd]
  rfl

/-- `insert` returns the node of a key that is there. -/
theorem insert_of_lookup (hlookup : s.mHandlers.lookup fd = some node) :
    s.insert fd handler = (node, s) := by
  unfold insert
  rw [hlookup]

/-- `removeEvent` removes the handler iff it can be deregistered. -/
theorem removeEvent_eq (hstate : s.mState = some state) : s.removeEvent fails fd =
    if fd ∈ s.mHandlers ∧ state.epoll fd ≠ none ∧ fails .del fd = false then s.removed state fd
    else s := by
  unfold removeEvent
  rw [ctl_of_ne_add hstate (by decide)]
  by_cases hfd : fd ∈ s.mHandlers
  · have hlookup : (s.mHandlers.lookup fd).isNone = false := by
      rw [Option.isNone_eq_false_iff]
      exact AList.lookup_isSome.mpr hfd
    by_cases hdel : state.epoll fd ≠ none ∧ fails .del fd = false <;>
      simp [hstate, hlookup, hfd, hdel, removed]
  · simp [AList.lookup_eq_none.mpr hfd, hfd]

/-- `modifyEvent` changes the mask of a registration. -/
theorem modifyEvent_eq (hstate : s.mState = some state) (hlookup : s.mHandlers.lookup fd = some node) :
    s.modifyEvent fails fd events =
      if state.epoll fd ≠ none ∧ fails .mod fd = false then
        (true, s.registered state fd events node.address)
      else (false, s) := by
  simp only [modifyEvent, hstate, hlookup]
  rw [ctl_of_ne_add hstate (by decide)]
  by_cases hmod : state.epoll fd ≠ none ∧ fails .mod fd = false <;> simp [hmod, registered]

/-- To modify an event without a handler is refused. -/
theorem modifyEvent_of_notMem (hfd : fd ∉ s.mHandlers) :
    s.modifyEvent fails fd events = (false, s) := by
  unfold modifyEvent
  rw [AList.lookup_eq_none.mpr hfd]
  cases s.mState <;> rfl

/-- **A new descriptor.** The handler is inserted whether or not it can be registered. -/
theorem addEvent_of_notMem (hstate : s.mState = some state) (hfd : fd ∉ s.mHandlers) :
    s.addEvent fails fd events handler =
      if state.epoll fd = none ∧ fails .add fd = false then
        (true, (s.inserted fd handler).registered state fd events s.nextNode)
      else (false, s.inserted fd handler) := by
  have hlookup := AList.lookup_eq_none.mpr hfd
  have hinserted : (s.inserted fd handler).mState = some state := hstate
  simp only [addEvent, insert_of_notMem hfd, hstate, hlookup, Option.isNone_some,
    Option.isSome_none, Bool.false_eq_true, ↓reduceIte]
  rw [ctl_add hinserted]
  by_cases hadd : state.epoll fd = none ∧ fails .add fd = false <;> simp [hadd, registered]

/-- **A known descriptor that is deregistered.** It is added as a new one. -/
theorem addEvent_of_removed (hstate : s.mState = some state) (hfd : fd ∈ s.mHandlers)
    (hdel : state.epoll fd ≠ none ∧ fails .del fd = false) :
    s.addEvent fails fd events handler = (s.removed state fd).addEvent fails fd events handler := by
  have hremove : s.removeEvent fails fd = s.removed state fd := by
    rw [removeEvent_eq hstate, if_pos ⟨hfd, hdel⟩]
  have hmem : (s.mHandlers.lookup fd).isSome = true := AList.lookup_isSome.mpr hfd
  have herased : ((s.removed state fd).mHandlers.lookup fd).isSome = false := by
    simp [removed]
  simp only [addEvent, hstate, hremove, hmem, herased, Bool.false_eq_true, ↓reduceIte]
  rfl

/-- **A known descriptor that is not deregistered.** Its old handler stays, and is registered if
nothing is. -/
theorem addEvent_of_kept (hstate : s.mState = some state)
    (hlookup : s.mHandlers.lookup fd = some node)
    (hdel : ¬ (state.epoll fd ≠ none ∧ fails .del fd = false)) :
    s.addEvent fails fd events handler =
      if state.epoll fd = none ∧ fails .add fd = false then
        (true, s.registered state fd events node.address)
      else (false, s) := by
  have hremove : s.removeEvent fails fd = s := by
    rw [removeEvent_eq hstate, if_neg fun h => hdel h.2]
  simp only [addEvent, insert_of_lookup hlookup, hstate, hlookup, hremove, Option.isNone_some,
    Option.isSome_some, Bool.false_eq_true, ↓reduceIte]
  rw [ctl_add hstate]
  by_cases hadd : state.epoll fd = none ∧ fails .add fd = false <;> simp [hadd, registered]

end EventLoop

end Ts3100
