import Ts3100.Library.LabelledRuns
import Ts3100.EventLoop.Registrations

/-! # Agreement of the handlers with the registrations

`mHandlers` and the epoll set are changed one after the other, and `epoll_ctl` can fail in between.
`removeEvent` keeps the handler of a descriptor that it cannot deregister; `addEvent` keeps the handler
of a descriptor that it cannot register.

* `Session.Agrees` — the map and the registrations agree.
* `Session.Registers` — what a call needs for that.
* `agrees_iff_registers` — they agree throughout a run iff every call has it. -/

namespace Ts3100

open LabelledRuns EventLoop

universe u

variable {H : Type u}

/-- The epoll set of the internal loop, empty without one. -/
def EventLoop.epoll (s : EventLoop H) : EpollSet :=
  match s.mState with
  | some state => state.epoll
  | none => fun _ => none

/-- The registrations through an object: those of descriptors that nothing else has registered. -/
def EventLoop.through (others : EpollSet) (s : EventLoop H) : EpollSet := fun fd =>
  if others fd = none then s.epoll fd else none

/-- An object in use, with the handler in the latest `addEvent` for each descriptor that returned
true. -/
structure Session (H : Type u) where
  loop : EventLoop H
  accepted : Fd → Option H

namespace Session

/-- The handlers accepted, once a request has returned. -/
def accept (accepted : Fd → Option H) (result : Bool) : Request H → Fd → Option H
  | .addEvent fd _ handler => if result then Function.update accepted fd (some handler) else accepted
  | _ => accepted

/-- A request, and the failures during it. -/
def step (s : Session H) (i : Failures × Request H) : Option (Session H) :=
  let (result, loop) := s.loop.request i.1 i.2
  some { loop, accepted := accept s.accepted result i.2 }

/-- The map and the registrations agree: the keys are the descriptors registered, and what is
registered for a descriptor is a pointer to the handler accepted last. -/
structure Agrees (others : EpollSet) (s : Session H) : Prop where
  registered_iff : ∀ fd, fd ∈ s.loop.mHandlers ↔ (s.loop.through others fd).isSome
  handler : ∀ fd r, s.loop.through others fd = some r → ∃ node,
    s.loop.mHandlers.lookup fd = some node ∧ r.ptr = .node node.address ∧
      s.accepted fd = some node.handler

/-- A call of `addEvent` that returns false leaves the map and the registrations as they were. -/
def KeptIfRefused (s : Session H) (i : Failures × Request H) : Prop :=
  match i.2 with
  | .addEvent fd events handler =>
      (s.loop.addEvent i.1 fd events handler).1 = false →
        (s.loop.addEvent i.1 fd events handler).2 = s.loop
  | _ => True

/-- A call of `addEvent` registers the descriptor if it has inserted a handler: without a loop it
inserts none, nor for a key that stays because it cannot be deregistered. -/
def Registers (s : Session H) (i : Failures × Request H) : Prop :=
  match i.2 with
  | .addEvent fd _ _ =>
      s.loop.mState = none ∨ (fd ∈ s.loop.mHandlers ∧ i.1 .del fd = true) ∨
        (i.1 .add fd = false ∧ (fd ∈ s.loop.mHandlers ∨ s.loop.epoll fd = none))
  | _ => True

/-- They agree, and what others have registered is still registered. -/
structure Settled (others : EpollSet) (s : Session H) : Prop extends s.Agrees others where
  othersKept : ∀ fd r, others fd = some r → s.loop.epoll fd = some r

variable {others : EpollSet} {s : EventLoop H} {accepted : Fd → Option H}
  {state : EventLoopInternal} {fd : Fd} {events : BitVec 32} {handler : H} {node : HandlerNode H}

/-! ## Changes of one descriptor -/

/-- The `epoll` set of an object is its loop's. -/
theorem epoll_of_mState (hstate : s.mState = some state) : s.epoll = state.epoll := by
  unfold EventLoop.epoll
  rw [hstate]

/-- The keys are descriptors of no one else. -/
theorem Settled.others_eq_none (h : Settled others ⟨s, accepted⟩) (hfd : fd ∈ s.mHandlers) :
    others fd = none := by
  have hsome := (h.registered_iff fd).mp hfd
  by_contra hne
  simp [through, hne] at hsome

/-- The keys are registered. -/
theorem Settled.epoll_ne_none (h : Settled others ⟨s, accepted⟩) (hstate : s.mState = some state)
    (hfd : fd ∈ s.mHandlers) : state.epoll fd ≠ none := by
  have hsome := (h.registered_iff fd).mp hfd
  simp only [through, h.others_eq_none hfd, ↓reduceIte, epoll_of_mState hstate] at hsome
  exact Option.isSome_iff_ne_none.mp hsome

/-- A change at one descriptor, to a node and its registration or to neither, keeps them settled. -/
theorem Settled.change {s' : EventLoop H} {accepted' : Fd → Option H} {r : Option Registration}
    (h : Settled others ⟨s, accepted⟩) (hothers : others fd = none)
    (hepoll : s'.epoll = Function.update s.epoll fd r)
    (hlookup : ∀ fd', fd' ≠ fd → s'.mHandlers.lookup fd' = s.mHandlers.lookup fd')
    (haccepted : ∀ fd', fd' ≠ fd → accepted' fd' = accepted fd')
    (hself : (s'.mHandlers.lookup fd = none ∧ r = none) ∨ ∃ node events,
      s'.mHandlers.lookup fd = some node ∧ r = some { events, ptr := .node node.address } ∧
        accepted' fd = some node.handler) :
    Settled others ⟨s', accepted'⟩ := by
  -- every field of `Settled` speaks of one descriptor: the changed one or another
  have hthrough : ∀ fd', fd' ≠ fd → s'.through others fd' = s.through others fd' := by
    intro fd' hne
    simp only [through, hepoll, Function.update_of_ne hne]
  have hthroughSelf : s'.through others fd = r := by
    simp only [through, hothers, hepoll, ↓reduceIte, Function.update_self]
  refine ⟨⟨?_, ?_⟩, ?_⟩
  · intro fd'
    by_cases hfd : fd' = fd
    · subst hfd
      show fd' ∈ s'.mHandlers ↔ (s'.through others fd').isSome
      rw [hthroughSelf, ← AList.lookup_isSome]
      rcases hself with ⟨hnone, rfl⟩ | ⟨node, events, hnode, rfl, -⟩
      · rw [hnone]
        rfl
      · rw [hnode]
        rfl
    · show fd' ∈ s'.mHandlers ↔ (s'.through others fd').isSome
      rw [hthrough fd' hfd, ← AList.lookup_isSome, hlookup fd' hfd, AList.lookup_isSome]
      exact h.registered_iff fd'
  · intro fd' r' hr'
    by_cases hfd : fd' = fd
    · subst hfd
      have heq : r = some r' := hthroughSelf.symm.trans hr'
      rcases hself with ⟨-, hnone⟩ | ⟨node, events, hnode, hregistered, hhandler⟩
      · exact absurd (hnone.symm.trans heq) (by simp)
      · obtain rfl := Option.some.inj (hregistered.symm.trans heq)
        exact ⟨node, hnode, rfl, hhandler⟩
    · obtain ⟨node, hnode, hptr, hhandler⟩ :=
        h.handler fd' r' ((hthrough fd' hfd).symm.trans hr')
      exact ⟨node, (hlookup fd' hfd).trans hnode, hptr, (haccepted fd' hfd).trans hhandler⟩
  · intro fd' r' hr'
    -- others hold nothing at the changed descriptor
    have hfd : fd' ≠ fd := by
      rintro rfl
      exact absurd (hothers.symm.trans hr') (by simp)
    show s'.epoll fd' = some r'
    rw [hepoll, Function.update_of_ne hfd]
    exact h.othersKept fd' r' hr'

/-- An object without handlers has registered nothing. -/
theorem settled_of_empty (hempty : s.mHandlers = ∅) : Settled s.epoll ⟨s, accepted⟩ := by
  have hnone : ∀ fd, s.through s.epoll fd = none := by
    intro fd
    unfold through
    split
    · assumption
    · rfl
  refine ⟨⟨?_, ?_⟩, fun _ _ hr => hr⟩
  · intro fd
    simp [hnone, hempty]
  · intro fd r hr
    exact absurd ((hnone fd).symm.trans hr) (by simp)

/-- A handler is removed with its registration. -/
theorem Settled.removed (h : Settled others ⟨s, accepted⟩) (hstate : s.mState = some state)
    (hfd : fd ∈ s.mHandlers) : Settled others ⟨s.removed state fd, accepted⟩ := by
  refine h.change (h.others_eq_none hfd) ?_ ?_ (fun _ _ => rfl) (Or.inl ⟨?_, rfl⟩)
  · rw [epoll_of_mState hstate]
    rfl
  · intro fd' hne
    exact AList.lookup_erase_ne hne
  · exact AList.lookup_erase _ _

/-- A handler is inserted with its registration. -/
theorem Settled.added (h : Settled others ⟨s, accepted⟩) (hstate : s.mState = some state)
    (hnone : state.epoll fd = none) :
    Settled others ⟨(s.inserted fd handler).registered state fd events s.nextNode,
      Function.update accepted fd (some handler)⟩ := by
  have hothers : others fd = none := by
    rcases hr : others fd with _ | r
    · rfl
    · have hkept := h.othersKept fd r hr
      rw [epoll_of_mState hstate] at hkept
      exact absurd (hnone.symm.trans hkept) (by simp)
  refine h.change hothers ?_ ?_ ?_
    (Or.inr ⟨{ address := s.nextNode, handler }, events, ?_, rfl, Function.update_self ..⟩)
  · rw [epoll_of_mState hstate]
    rfl
  · intro fd' hne
    exact AList.lookup_insert_ne hne
  · intro fd' hne
    exact Function.update_of_ne hne ..
  · exact AList.lookup_insert _

/-- A registration gets another mask. -/
theorem Settled.modified (h : Settled others ⟨s, accepted⟩) (hstate : s.mState = some state)
    (hlookup : s.mHandlers.lookup fd = some node) :
    Settled others ⟨s.registered state fd events node.address, accepted⟩ := by
  have hfd : fd ∈ s.mHandlers := AList.lookup_isSome.mp (by rw [hlookup]; rfl)
  have hothers := h.others_eq_none hfd
  have haccepted : accepted fd = some node.handler := by
    obtain ⟨r, hr⟩ := Option.isSome_iff_exists.mp ((h.registered_iff fd).mp hfd)
    obtain ⟨node', hnode', -, hhandler⟩ := h.handler fd r hr
    obtain rfl := Option.some.inj (hlookup.symm.trans hnode')
    exact hhandler
  refine h.change hothers ?_ (fun _ _ => rfl) (fun _ _ => rfl)
    (Or.inr ⟨node, events, hlookup, rfl, haccepted⟩)
  rw [epoll_of_mState hstate]
  rfl

/-- A new handler that is not registered. -/
theorem Settled.not_agrees_inserted (h : Settled others ⟨s, accepted⟩) (hfd : fd ∉ s.mHandlers)
    (accepted' : Fd → Option H) : ¬ Agrees others ⟨s.inserted fd handler, accepted'⟩ := by
  intro hagrees
  have hmem : fd ∈ (s.inserted fd handler).mHandlers := (AList.mem_insert _).mpr (Or.inl rfl)
  have hsome : (s.through others fd).isSome = true := (hagrees.registered_iff fd).mp hmem
  exact hfd ((h.registered_iff fd).mpr hsome)

/-! ## Requests -/

/-- What a request leads to. -/
def after (s : EventLoop H) (accepted : Fd → Option H) (fails : Failures) (r : Request H) : Session H :=
  { loop := (s.request fails r).2
    accepted := accept accepted (s.request fails r).1 r }

variable {fails : Failures}

/-- Without a loop a request changes nothing. -/
theorem after_of_mState_none (hstate : s.mState = none) (r : Request H) :
    after s accepted fails r = ⟨s, accepted⟩ := by
  cases r with
  | addEvent fd events handler => simp [after, request, addEvent, accept, hstate]
  | modifyEvent fd events => simp [after, request, modifyEvent, accept, hstate]
  | removeEvent fd => simp [after, request, removeEvent, accept, hstate]

/-- A new descriptor that is not registered has a handler. -/
theorem Settled.not_agrees_addEvent_of_notMem (h : Settled others ⟨s, accepted⟩)
    (hstate : s.mState = some state) (hfd : fd ∉ s.mHandlers)
    (hadd : ¬ (state.epoll fd = none ∧ fails .add fd = false)) :
    ¬ Agrees others (after s accepted fails (.addEvent fd events handler)) := by
  simp only [after, request]
  rw [addEvent_of_notMem hstate hfd, if_neg hadd]
  exact h.not_agrees_inserted hfd _

/-- A known descriptor that is deregistered is added as a new one. -/
theorem Settled.after_addEvent_of_removed (h : Settled others ⟨s, accepted⟩)
    (hstate : s.mState = some state) (hfd : fd ∈ s.mHandlers) (hdel : fails .del fd = false) :
    after s accepted fails (.addEvent fd events handler) =
      after (s.removed state fd) accepted fails (.addEvent fd events handler) := by
  simp only [after, request]
  rw [addEvent_of_removed hstate hfd ⟨h.epoll_ne_none hstate hfd, hdel⟩]

/-- A known descriptor that is not deregistered stays as it is, and the call is refused. -/
theorem Settled.addEvent_of_del_fails (h : Settled others ⟨s, accepted⟩)
    (hstate : s.mState = some state) (hfd : fd ∈ s.mHandlers) (hdel : fails .del fd = true) :
    s.addEvent fails fd events handler = (false, s) := by
  obtain ⟨node, hlookup⟩ := Option.isSome_iff_exists.mp (AList.lookup_isSome.mpr hfd)
  have hregistered := h.epoll_ne_none hstate hfd
  rw [addEvent_of_kept hstate hlookup (by simp [hdel]), if_neg fun hadd => hregistered hadd.1]

/-- A call of `addEvent` that registers what it inserts is refused without any change, or leaves the
descriptor registered with the handler given. -/
theorem Settled.addEvent_of_registers (h : Settled others ⟨s, accepted⟩)
    (hregisters : Registers ⟨s, accepted⟩ (fails, .addEvent fd events handler)) :
    s.addEvent fails fd events handler = (false, s) ∨
      ∃ s', s.addEvent fails fd events handler = (true, s') ∧
        Settled others ⟨s', Function.update accepted fd (some handler)⟩ := by
  rcases hstate : s.mState with _ | state
  · exact Or.inl (by simp [addEvent, hstate])
  by_cases hfd : fd ∈ s.mHandlers
  · cases hdel : fails .del fd with
    | true => exact Or.inl (h.addEvent_of_del_fails hstate hfd hdel)
    | false =>
        have hadd : fails .add fd = false := by
          rcases hregisters with hnone | ⟨-, hfails⟩ | ⟨hadd, -⟩
          · exact absurd (hstate.symm.trans hnone) (by simp)
          · exact absurd (hdel.symm.trans hfails) (by simp)
          · exact hadd
        -- deregistered and erased, so that it is added as a new one
        have hnotMem : fd ∉ (s.removed state fd).mHandlers :=
          fun hmem => (AList.mem_erase.mp hmem).1 rfl
        refine Or.inr ⟨((s.removed state fd).inserted fd handler).registered _ fd events _, ?_,
          (h.removed hstate hfd).added rfl (Function.update_self ..)⟩
        rw [addEvent_of_removed hstate hfd ⟨h.epoll_ne_none hstate hfd, hdel⟩,
          addEvent_of_notMem rfl hnotMem, if_pos ⟨Function.update_self .., hadd⟩]
  · rcases hregisters with hnone | ⟨hmem, -⟩ | ⟨hadd, hmem | hnone⟩
    · exact absurd (hstate.symm.trans hnone) (by simp)
    · exact absurd hmem hfd
    · exact absurd hmem hfd
    · have hepoll : state.epoll fd = none := by rwa [← epoll_of_mState hstate]
      refine Or.inr ⟨(s.inserted fd handler).registered _ fd events _, ?_, h.added hstate hepoll⟩
      rw [addEvent_of_notMem hstate hfd, if_pos ⟨hepoll, hadd⟩]

/-- **A request keeps them settled** if it registers what it inserts. -/
theorem Settled.after_of_registers (h : Settled others ⟨s, accepted⟩) {r : Request H}
    (hregisters : Registers ⟨s, accepted⟩ (fails, r)) :
    Settled others (after s accepted fails r) := by
  cases r with
  | addEvent fd events handler =>
      simp only [after, request]
      rcases h.addEvent_of_registers hregisters with hrefused | ⟨s', hadded, hsettled⟩
      · -- a refused `addEvent` has changed nothing
        rw [hrefused]
        exact h
      · rw [hadded]
        exact hsettled
  | modifyEvent fd events =>
      rcases hstate : s.mState with _ | state
      · rw [after_of_mState_none hstate]
        exact h
      simp only [after, request]
      rcases hlookup : s.mHandlers.lookup fd with _ | node
      · rw [modifyEvent_of_notMem (AList.lookup_eq_none.mp hlookup)]
        exact h
      · rw [modifyEvent_eq hstate hlookup]
        split
        · exact h.modified hstate hlookup
        · exact h
  | removeEvent fd =>
      rcases hstate : s.mState with _ | state
      · rw [after_of_mState_none hstate]
        exact h
      simp only [after, request]
      rw [removeEvent_eq hstate]
      split
      · rename_i hremove
        exact h.removed hstate hremove.1
      · exact h

/-- **A request that does not** leaves a handler that is not registered. -/
theorem Settled.not_agrees_after (h : Settled others ⟨s, accepted⟩) {r : Request H}
    (hregisters : ¬ Registers ⟨s, accepted⟩ (fails, r)) :
    ¬ Agrees others (after s accepted fails r) := by
  cases r with
  | modifyEvent fd events => exact absurd trivial hregisters
  | removeEvent fd => exact absurd trivial hregisters
  | addEvent fd events handler =>
      simp only [Registers, not_or, not_and] at hregisters
      obtain ⟨hattached, hdel, hadd⟩ := hregisters
      obtain ⟨state, hstate⟩ := Option.ne_none_iff_exists'.mp hattached
      rw [epoll_of_mState hstate] at hadd
      by_cases hfd : fd ∈ s.mHandlers
      · rw [h.after_addEvent_of_removed hstate hfd (by simpa using hdel hfd)]
        refine (h.removed hstate hfd).not_agrees_addEvent_of_notMem rfl ?_ ?_
        · exact fun hmem => (AList.mem_erase.mp hmem).1 rfl
        · rintro ⟨-, hok⟩
          exact (hadd hok).1 hfd
      · refine h.not_agrees_addEvent_of_notMem hstate hfd ?_
        rintro ⟨hnone, hok⟩
        exact (hadd hok).2 hnone

/-- A refused call that registers what it inserts has inserted nothing. -/
theorem Settled.keptIfRefused (h : Settled others ⟨s, accepted⟩) {r : Request H}
    (hregisters : Registers ⟨s, accepted⟩ (fails, r)) : KeptIfRefused ⟨s, accepted⟩ (fails, r) := by
  cases r with
  | modifyEvent fd events => trivial
  | removeEvent fd => trivial
  | addEvent fd events handler =>
      show (s.addEvent fails fd events handler).1 = false →
        (s.addEvent fails fd events handler).2 = s
      rcases h.addEvent_of_registers hregisters with hrefused | ⟨s', hadded, -⟩
      · rw [hrefused]
        exact fun _ => rfl
      · rw [hadded]
        exact fun hfalse => absurd hfalse (by simp)

/-- **When the handlers and the registrations agree.** In a run of `addEvent`, `modifyEvent` and
`removeEvent` with any failures of `epoll_ctl`, the map and the registrations agree after every call,
and every call of `addEvent` that returns false leaves them as they were, iff every call of `addEvent`
registers the descriptor if it inserts a handler. -/
theorem agrees_iff_registers {others : EpollSet} {s : Session H} (h : s.Settled others)
    (is : List (Failures × Request H)) :
    (StatesMeet step (Agrees others) s is ∧ StepsMeet step KeptIfRefused s is) ↔
      StepsMeet step Registers s is := by
  have hstep : ∀ (s : Session H) i s', Settled others s → Registers s i → step s i = some s' →
      Settled others s' := by
    rintro ⟨s, accepted⟩ ⟨fails, r⟩ s' h hregisters hs'
    obtain rfl := Option.some.inj hs'
    exact h.after_of_registers hregisters
  have hbad : ∀ (s : Session H) i, Settled others s → ¬ Registers s i →
      ∃ s', step s i = some s' ∧ ¬ Agrees others s' := by
    rintro ⟨s, accepted⟩ ⟨fails, r⟩ h hregisters
    exact ⟨after s accepted fails r, rfl, h.not_agrees_after hregisters⟩
  have hagrees : StatesMeet step (Agrees others) s is ↔ StepsMeet step Registers s is :=
    statesMeet_iff_stepsMeet (E := fun _ _ => True) (fun _ h => h.toAgrees)
      (fun s i s' h _ => hstep s i s' h) (fun s i h _ => hbad s i h) h (fun _ _ _ _ _ => trivial)
  constructor
  · rintro ⟨hstates, -⟩
    exact hagrees.mp hstates
  · intro hregisters
    refine ⟨hagrees.mpr hregisters, ?_⟩
    refine StepsMeet.of_statesMeet (statesMeet_of_stepsMeet hstep h hregisters) hregisters ?_
    rintro ⟨s, accepted⟩ ⟨fails, r⟩ h hregisters
    exact h.keptIfRefused hregisters

/-- An object just constructed, whose loop has the interrupt descriptor 4. -/
def constructed : Session Nat :=
  { loop :=
      { mState := some
          { mInterruptFd := 4
            epoll := Function.update (fun _ => none) 4
              (some { events := 1#32, ptr := .mInterruptHandler }) }
        mHandlers := ∅
        nextNode := 0 }
    accepted := fun _ => none }

/-- A number is added twice, and the kernel refuses to let its first registration go. -/
theorem agrees_iff_registers_constructed :
    StatesMeet step (Agrees constructed.loop.epoll) constructed
        [(fun _ _ => false, .addEvent 7 1#32 10), (fun op _ => op = .del, .addEvent 7 1#32 20)] ∧
      StepsMeet step KeptIfRefused constructed
        [(fun _ _ => false, .addEvent 7 1#32 10), (fun op _ => op = .del, .addEvent 7 1#32 20)] := by
  refine (agrees_iff_registers (settled_of_empty rfl) _).mpr ?_
  refine stepsMeet_cons.mpr ⟨Or.inr (Or.inr ⟨rfl, Or.inr rfl⟩), ?_⟩
  rintro s hs
  obtain rfl := Option.some.inj hs
  refine stepsMeet_cons.mpr ⟨Or.inr (Or.inl ⟨by decide, rfl⟩), ?_⟩
  intro s _
  exact stepsMeet_nil

/-- **A handler that is not called.** A descriptor that could not be registered keeps its handler, and
when it is added again, and registered, that handler is called instead of the new one. -/
theorem not_agrees :
    (∃ s s', constructed.loop.addEvent (fun op _ => op = .add) 7 1#32 10 = (false, s) ∧
      s.mHandlers.lookup 7 = some { address := 0, handler := 10 } ∧ s.epoll 7 = none ∧
      s.addEvent (fun _ _ => false) 7 1#32 20 = (true, s') ∧
      s'.epoll 7 = some { events := 1#32, ptr := .node 0 } ∧
      s'.mHandlers.lookup 7 = some { address := 0, handler := 10 }) ∧
    ¬ ∀ (others : EpollSet) (s : Session Nat), s.Settled others →
      ∀ is, StatesMeet step (Agrees others) s is ∧ StepsMeet step KeptIfRefused s is := by
  constructor
  · exact ⟨_, _, rfl, by decide, by decide, rfl, by decide, by decide⟩
  · intro hclaim
    obtain ⟨hagrees, -⟩ := hclaim _ constructed (settled_of_empty rfl)
      [(fun op _ => op = .add, .addEvent 7 1#32 10)]
    have hiff := (hagrees.last rfl).registered_iff 7
    exact absurd hiff (by decide)

end Session

end Ts3100
