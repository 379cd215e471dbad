import Ts3100.Library.DisjointUnion
import Ts3100.EventLoop.Registrations

/-! # Event loop objects that share internal loops

Copies of an `EventLoop` share its internal loop, each with handlers of its own; moving one hands over
the internal loop with the handlers. An internal loop lives as long as an object points to it.

* `EventLoops.step` — the operations on any number of objects.
* `EventLoops.Owned` — each epoll set is the disjoint union of what the objects hold, and the
  interrupt descriptor.
* `EventLoops.KeepsOthers` — only the objects named have changed, and their registrations.
* `EventLoops.Legal` — what is asked of the operations. -/

namespace Ts3100

open PartialMaps EventLoop

universe u

/-- An `EventLoop` object; `mState` is a shared pointer to the internal loop with this number. -/
structure Handle (H : Type u) where
  mState : Option Nat
  mHandlers : HandlerMap H

/-- The live objects. -/
abbrev Objects (H : Type u) := AList fun _ : Nat => Handle H

/-- The live objects and internal loops. -/
structure EventLoops (H : Type u) where
  objects : Objects H := ∅
  loops : Nat → Option EventLoopInternal := fun _ => none
  nextLoop : Nat := 0
  nextNode : Nat := 0

namespace EventLoops

variable {H : Type u}

/-! ## Operations -/

/-- An object with the internal loop it points to. -/
def view (w : EventLoops H) (e : Handle H) : EventLoop H :=
  { mState := e.mState.bind w.loops
    mHandlers := e.mHandlers
    nextNode := w.nextNode }

/-- The object `o`, which was `e`, and its internal loop are changed. -/
def store (w : EventLoops H) (o : Nat) (e : Handle H) (s : EventLoop H) : EventLoops H :=
  { w with
    objects := w.objects.insert o { e with mHandlers := s.mHandlers }
    loops := match e.mState with
      | some l => Function.update w.loops l s.mState
      | none => w.loops
    nextNode := s.nextNode }

/-- A shared pointer has let go of an internal loop, which is destroyed with the last reference. -/
def release (w : EventLoops H) : Option Nat → EventLoops H
  | none => w
  | some l =>
      if w.objects.entries.any fun e => e.2.mState = some l then w
      else { w with loops := Function.update w.loops l none }

/-- `EventLoop::EventLoop()` with the number of the eventfd that is opened, `none` if it throws. -/
def construct (fails : Failures) (w : EventLoops H) (o : Nat) (interruptFd : Fd) :
    Option (EventLoops H) :=
  if o ∈ w.objects then
    none
  else
    let event := { events := 1#32, ptr := .mInterruptHandler }
    (epollCtl fails (fun _ => none) .add interruptFd (some event)).map fun epoll =>
      { w with
        objects := w.objects.insert o { mState := some w.nextLoop, mHandlers := ∅ }
        loops := Function.update w.loops w.nextLoop (some { mInterruptFd := interruptFd, epoll })
        nextLoop := w.nextLoop + 1 }

/-- `EventLoop::EventLoop(const EventLoop&)`. -/
def copyConstruct (w : EventLoops H) (o loop : Nat) : Option (EventLoops H) :=
  if o ∈ w.objects then
    none
  else
    (w.objects.lookup loop).map fun source =>
      { w with objects := w.objects.insert o { mState := source.mState, mHandlers := ∅ } }

/-- `EventLoop::EventLoop(EventLoop&&)`. -/
def moveConstruct (w : EventLoops H) (o loop : Nat) : Option (EventLoops H) :=
  if o ∈ w.objects then
    none
  else
    (w.objects.lookup loop).map fun source =>
      { w with objects := (w.objects.insert loop { mState := none, mHandlers := ∅ }).insert o source }

/-- `removeHandlers` of the object `o`, which is `e`. -/
def removeHandlers (fails : Failures) (w : EventLoops H) (o : Nat) (e : Handle H) : EventLoops H :=
  w.store o e ((w.view e).removeHandlers fails)

/-- `EventLoop::operator=(const EventLoop&)`. -/
def copyAssign (fails : Failures) (w : EventLoops H) (o loop : Nat) : Option (EventLoops H) :=
  (w.objects.lookup o).bind fun e =>
    let w := w.removeHandlers fails o e
    (w.objects.lookup o).bind fun drained =>
      (w.objects.lookup loop).map fun source =>
        release { w with objects := w.objects.insert o { drained with mState := source.mState } }
          e.mState

/-- `EventLoop::operator=(EventLoop&&)`; a move to itself leaves both members as they are. -/
def moveAssign (fails : Failures) (w : EventLoops H) (o loop : Nat) : Option (EventLoops H) :=
  (w.objects.lookup o).bind fun e =>
    let w := w.removeHandlers fails o e
    (w.objects.lookup loop).map fun source =>
      release { w with
        objects := (w.objects.insert loop { mState := none, mHandlers := ∅ }).insert o source } e.mState

/-- `EventLoop::~EventLoop()`. -/
def destroy (fails : Failures) (w : EventLoops H) (o : Nat) : Option (EventLoops H) :=
  (w.objects.lookup o).map fun e =>
    let w := w.removeHandlers fails o e
    release { w with objects := w.objects.erase o } e.mState

/-- A call of `addEvent`, `modifyEvent` or `removeEvent`. -/
def request (fails : Failures) (w : EventLoops H) (o : Nat) (r : Request H) : Option (EventLoops H) :=
  (w.objects.lookup o).map fun e => w.store o e ((w.view e).request fails r).2

/-- An operation on the object `o`. -/
inductive Operation (H : Type u) where
  | construct (o : Nat) (interruptFd : Fd)
  | copyConstruct (o loop : Nat)
  | moveConstruct (o loop : Nat)
  | copyAssign (o loop : Nat)
  | moveAssign (o loop : Nat)
  | destroy (o : Nat)
  | request (o : Nat) (r : Request H)

/-- The objects that an operation names. -/
def Operation.names : Operation H → List Nat
  | .construct o _ => [o]
  | .copyConstruct o loop => [o, loop]
  | .moveConstruct o loop => [o, loop]
  | .copyAssign o loop => [o, loop]
  | .moveAssign o loop => [o, loop]
  | .destroy o => [o]
  | .request o _ => [o]

/-- An operation, with the failures during it; `none` if its objects are not there for it. -/
def step (w : EventLoops H) (i : Failures × Operation H) : Option (EventLoops H) :=
  match i.2 with
  | .construct o interruptFd => w.construct i.1 o interruptFd
  | .copyConstruct o loop => w.copyConstruct o loop
  | .moveConstruct o loop => w.moveConstruct o loop
  | .copyAssign o loop => w.copyAssign i.1 o loop
  | .moveAssign o loop => w.moveAssign i.1 o loop
  | .destroy o => w.destroy i.1 o
  | .request o r => w.request i.1 o r

/-! ## Ownership -/

/-- What is registered for the handlers of a map. -/
def pointers (m : HandlerMap H) : Fd → Option HandlerPtr := fun fd =>
  (m.lookup fd).map fun node => .node node.address

/-- What one object holds of an internal loop. -/
def heldBy (e : Handle H) (l : Nat) : Fd → Option HandlerPtr :=
  if e.mState = some l then pointers e.mHandlers else fun _ => none

/-- What the members of an internal loop hold: the loop itself, for which `none` stands, its
interrupt descriptor, and each object attached to it the handlers in its map. -/
def held (objects : Objects H) (l : Nat) (state : EventLoopInternal) :
    Option Nat → Fd → Option HandlerPtr
  | none => Function.update (fun _ => none) state.mInterruptFd (some .mInterruptHandler)
  | some o => match objects.lookup o with
    | some e => heldBy e l
    | none => fun _ => none

/-- The pointers in an epoll set. -/
def registeredPointers (state : EventLoopInternal) : Fd → Option HandlerPtr := fun fd =>
  (state.epoll fd).map Registration.ptr

/-- The epoll set of each internal loop is the disjoint union of what its members hold, and an object
without a loop has no handlers. -/
structure Owned (w : EventLoops H) : Prop where
  union : ∀ l state, w.loops l = some state →
    IsDisjointUnion (registeredPointers state) (held w.objects l state)
  unattached : ∀ o e, w.objects.lookup o = some e → e.mState = none → e.mHandlers = ∅

/-- The registrations of an object: those of its handlers, in the epoll set of its loop. -/
def registrations (w : EventLoops H) (o : Nat) : EpollSet := fun fd =>
  (w.objects.lookup o).bind fun e => (e.mState.bind w.loops).bind fun state =>
    if fd ∈ e.mHandlers then state.epoll fd else none

/-- The objects that are not named, and their registrations, are as before. -/
structure KeepsOthers (named : List Nat) (w w' : EventLoops H) : Prop where
  lookup : ∀ o, o ∉ named → w'.objects.lookup o = w.objects.lookup o
  registrations : ∀ o, o ∉ named → w'.registrations o = w.registrations o

/-- No call of `epoll_ctl` fails on a legal request, and a descriptor that is added is registered in
the internal loop neither by another object nor by the loop itself. -/
def Legal (w : EventLoops H) (i : Failures × Operation H) : Prop :=
  (∀ op fd, i.1 op fd = false) ∧
    match i.2 with
    | .request o (.addEvent fd _ _) => ∀ e l, w.objects.lookup o = some e → e.mState = some l →
        (∀ state, w.loops l = some state → fd ≠ state.mInterruptFd) ∧
          ∀ o' e', o' ≠ o → w.objects.lookup o' = some e' → e'.mState = some l → fd ∉ e'.mHandlers
    | _ => True

/-! ## What is held -/

section held

variable {objects : Objects H} {l : Nat} {state : EventLoopInternal} {o : Nat} {e : Handle H}

/-- What an attached object holds. -/
theorem held_of_lookup (he : objects.lookup o = some e) (state : EventLoopInternal) :
    held objects l state (some o) = heldBy e l := by
  simp only [held, he]

/-- An object holds its handlers in its own loop. -/
theorem heldBy_attached (hl : e.mState = some l) : heldBy e l = pointers e.mHandlers := by
  unfold heldBy
  rw [if_pos hl]

/-- Without handlers it holds nothing. -/
theorem heldBy_empty (e : Handle H) (hempty : e.mHandlers = ∅) (l : Nat) :
    heldBy e l = fun _ => none := by
  unfold heldBy
  rw [hempty]
  split
  · rfl
  · rfl

/-- In another loop it holds nothing. -/
theorem heldBy_unattached (hl : e.mState ≠ some l) : heldBy e l = fun _ => none := by
  unfold heldBy
  rw [if_neg hl]

/-- The keys of a map are those of its pointers. -/
theorem pointers_eq_none_iff {m : HandlerMap H} {fd : Fd} : pointers m fd = none ↔ fd ∉ m := by
  unfold pointers
  rw [Option.map_eq_none_iff, AList.lookup_eq_none]

/-- What is held is determined by the objects found and by the interrupt descriptor. -/
theorem held_congr {objects' : Objects H} {state' : EventLoopInternal}
    (hlookup : ∀ o, objects'.lookup o = objects.lookup o)
    (hfd : state'.mInterruptFd = state.mInterruptFd) :
    held objects' l state' = held objects l state := by
  funext member
  cases member with
  | none => simp only [held, hfd]
  | some o => simp only [held, hlookup o]

/-- An object is set. -/
theorem held_insert : held (objects.insert o e) l state =
    Function.update (held objects l state) (some o) (heldBy e l) := by
  funext member
  by_cases hmember : member = some o
  · subst hmember
    rw [Function.update_self, held_of_lookup (AList.lookup_insert _)]
  · rw [Function.update_of_ne hmember]
    cases member with
    | none => rfl
    | some o' =>
        have hne : o' ≠ o := by
          rintro rfl
          exact hmember rfl
        simp only [held, AList.lookup_insert_ne hne]

/-- An object is removed. -/
theorem held_erase : held (objects.erase o) l state =
    Function.update (held objects l state) (some o) fun _ => none := by
  funext member
  by_cases hmember : member = some o
  · subst hmember
    rw [Function.update_self]
    simp only [held, AList.lookup_erase]
  · rw [Function.update_of_ne hmember]
    cases member with
    | none => rfl
    | some o' =>
        have hne : o' ≠ o := by
          rintro rfl
          exact hmember rfl
        simp only [held, AList.lookup_erase_ne hne]

/-- Of a loop that no object points to, only the loop itself holds something. -/
theorem held_of_unreferenced (hnone : ∀ o e, objects.lookup o = some e → e.mState ≠ some l) :
    held objects l state =
      Function.update (fun _ => fun _ => none) none (held objects l state none) := by
  funext member
  cases member with
  | none => rw [Function.update_self]
  | some o =>
      rw [Function.update_of_ne (by simp)]
      rcases he : objects.lookup o with _ | e
      · simp only [held, he]
      · rw [held_of_lookup he, heldBy_unattached (hnone o e he)]

/-- The pointers after one entry has changed. -/
theorem registeredPointers_update (state : EventLoopInternal) (fd : Fd) (r : Option Registration) :
    registeredPointers { state with epoll := Function.update state.epoll fd r } =
      Function.update (registeredPointers state) fd (r.map Registration.ptr) := by
  funext fd'
  by_cases hfd : fd' = fd
  · subst hfd
    simp only [registeredPointers, Function.update_self]
  · simp only [registeredPointers, Function.update_of_ne hfd]

/-- An object that holds nothing is set to one that holds nothing. -/
theorem held_insert_of_none (hnone : held objects l state (some o) = fun _ => none)
    (hempty : heldBy e l = fun _ => none) :
    held (objects.insert o e) l state = held objects l state := by
  rw [held_insert, hempty, ← hnone, Function.update_eq_self]

end held

/-! ## Invariant -/

/-- Ownership, and that the internal loops that objects point to are alive. -/
structure Consistent (w : EventLoops H) : Prop extends Owned w where
  attached : ∀ o e l, w.objects.lookup o = some e → e.mState = some l → (w.loops l).isSome
  fresh : ∀ l, w.nextLoop ≤ l → w.loops l = none

/-- No loops and no objects are consistent. -/
theorem consistent_empty : Consistent ({} : EventLoops H) :=
  { union := fun _ _ h => absurd h (by simp)
    unattached := fun _ _ h => absurd h (by simp)
    attached := fun _ _ _ h => absurd h (by simp)
    fresh := fun _ _ => rfl }

section keepsOthers

variable {w w' w'' : EventLoops H} {named : List Nat}

/-- What two operations keep, both keep in turn. -/
theorem KeepsOthers.trans (h : KeepsOthers named w w') (h' : KeepsOthers named w' w'') :
    KeepsOthers named w w'' where
  lookup o ho := (h'.lookup o ho).trans (h.lookup o ho)
  registrations o ho := (h'.registrations o ho).trans (h.registrations o ho)

/-- To name more objects is to promise less. -/
theorem KeepsOthers.mono {named' : List Nat} (h : KeepsOthers named w w') (hsub : named ⊆ named') :
    KeepsOthers named' w w' where
  lookup o ho := h.lookup o fun hmem => ho (hsub hmem)
  registrations o ho := h.registrations o fun hmem => ho (hsub hmem)

/-- Objects are kept whose loops keep the registrations of their handlers. -/
theorem keepsOthers_of_epoll (hlookup : ∀ o, o ∉ named → w'.objects.lookup o = w.objects.lookup o)
    (hepoll : ∀ o e l fd, o ∉ named → w.objects.lookup o = some e → e.mState = some l →
      fd ∈ e.mHandlers → ((w'.loops l).bind fun state => state.epoll fd) =
        (w.loops l).bind fun state => state.epoll fd) :
    KeepsOthers named w w' := by
  refine ⟨hlookup, ?_⟩
  intro o ho
  funext fd
  unfold registrations
  rw [hlookup o ho]
  rcases he : w.objects.lookup o with _ | e
  · rfl
  rcases hl : e.mState with _ | l
  · simp [hl]
  by_cases hfd : fd ∈ e.mHandlers
  · simpa [hl, hfd] using hepoll o e l fd ho he hl hfd
  · simp [hfd]

/-- Objects are kept where the internal loops do not change. -/
theorem keepsOthers_of_loops (hlookup : ∀ o, o ∉ named → w'.objects.lookup o = w.objects.lookup o)
    (hloops : w'.loops = w.loops) : KeepsOthers named w w' := by
  refine keepsOthers_of_epoll hlookup ?_
  intro _ _ _ _ _ _ _ _
  rw [hloops]

end keepsOthers

end EventLoops

end Ts3100
