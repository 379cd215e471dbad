import Ts3100.Library.LabelledRuns
import Ts3100.EventLoop.Handles

/-! # Objects own their registrations

Every operation on event loop objects changes what its own objects hold and the epoll set of their
loop in the same way, whether it adds, drains, hands over or lets go of an internal loop.

* `EventLoops.Consistent.setObject`, `EventLoops.Consistent.moveObject`,
  `EventLoops.Consistent.eraseObject` — what objects that hold nothing are set to.
* `EventLoops.Consistent.setEntry`, `EventLoops.Consistent.removeHandlers` — what is changed in a loop.
* `EventLoops.owned_of_legal` — objects own their registrations in every run. -/

namespace Ts3100

open LabelledRuns PartialMaps EventLoop

universe u

namespace EventLoops

variable {H : Type u}

/-! ## Changes of the objects -/

section objects

variable {w w' : EventLoops H} {o : Nat} {e : Handle H}

/-- What a live loop has of an object that holds nothing. -/
def HoldsNothing (w : EventLoops H) (o : Nat) : Prop :=
  ∀ l state, w.loops l = some state → held w.objects l state (some o) = fun _ => none

/-- An object that is not there holds nothing. -/
theorem holdsNothing_of_notMem (ho : o ∉ w.objects) : w.HoldsNothing o := by
  intro l state _
  simp only [held, AList.lookup_eq_none.mpr ho]

/-- Nor does one without handlers. -/
theorem holdsNothing_of_empty (he : w.objects.lookup o = some e) (hempty : e.mHandlers = ∅) :
    w.HoldsNothing o := by
  intro l state _
  rw [held_of_lookup he]
  exact heldBy_empty e hempty l

/-- An object without handlers is set, attached to a loop that is alive or to none. -/
theorem Consistent.setObject (h : w.Consistent) (ho : w.HoldsNothing o) {m : Option Nat}
    (hm : ∀ l, m = some l → (w.loops l).isSome) :
    Consistent { w with objects := w.objects.insert o { mState := m, mHandlers := ∅ } } := by
  refine ⟨⟨?_, ?_⟩, ?_, h.fresh⟩
  · intro l state hstate
    rw [held_insert_of_none (ho l state hstate) (heldBy_empty _ rfl l)]
    exact h.union l state hstate
  · intro o' e he hl
    by_cases hne : o' = o
    · subst hne
      rw [AList.lookup_insert] at he
      obtain rfl := Option.some.inj he
      rfl
    · rw [AList.lookup_insert_ne hne] at he
      exact h.unattached o' e he hl
  · intro o' e l he hl
    by_cases hne : o' = o
    · subst hne
      rw [AList.lookup_insert] at he
      obtain rfl := Option.some.inj he
      exact hm l hl
    · rw [AList.lookup_insert_ne hne] at he
      exact h.attached o' e l he hl

/-- An object that holds nothing is removed. -/
theorem Consistent.eraseObject (h : w.Consistent) (ho : w.HoldsNothing o) :
    Consistent { w with objects := w.objects.erase o } := by
  have hlookup {o' : Nat} {e : Handle H} (he : (w.objects.erase o).lookup o' = some e) :
      w.objects.lookup o' = some e := by
    by_cases hne : o' = o
    · rw [hne, AList.lookup_erase] at he
      exact absurd he (by simp)
    · rwa [AList.lookup_erase_ne hne] at he
  refine ⟨⟨?_, ?_⟩, ?_, h.fresh⟩
  · intro l state hstate
    rw [held_erase, ← ho l state hstate, Function.update_eq_self]
    exact h.union l state hstate
  · intro o' e he
    exact h.unattached o' e (hlookup he)
  · intro o' e l he
    exact h.attached o' e l (hlookup he)

/-- **An object hands over** its loop and its handlers to one that holds nothing. -/
theorem Consistent.moveObject (h : w.Consistent) {source : Nat} (ho : w.HoldsNothing o)
    (he : w.objects.lookup source = some e) :
    Consistent { w with
      objects := (w.objects.insert source { mState := none, mHandlers := ∅ }).insert o e } := by
  -- what is found afterwards is `e`, the empty object, or what was there
  have hcases {o' : Nat} {e' : Handle H}
      (he' : ((w.objects.insert source { mState := none, mHandlers := ∅ }).insert o e).lookup o' =
        some e') :
      w.objects.lookup source = some e' ∨ e' = { mState := none, mHandlers := ∅ } ∨
        w.objects.lookup o' = some e' := by
    by_cases hne : o' = o
    · rw [hne, AList.lookup_insert] at he'
      exact Or.inl (he.trans he')
    · rw [AList.lookup_insert_ne hne] at he'
      by_cases hsource : o' = source
      · rw [hsource, AList.lookup_insert] at he'
        exact Or.inr (Or.inl (Option.some.inj he').symm)
      · rw [AList.lookup_insert_ne hsource] at he'
        exact Or.inr (Or.inr he')
  refine ⟨⟨?_, ?_⟩, ?_, h.fresh⟩
  · intro l state hstate
    rw [held_insert, held_insert, heldBy_empty { mState := none, mHandlers := ∅ } rfl,
      ← held_of_lookup he state]
    exact (h.union l state hstate).move (ho l state hstate)
  · intro o' e' he' hl
    rcases hcases he' with hfound | rfl | hfound
    · exact h.unattached source e' hfound hl
    · rfl
    · exact h.unattached o' e' hfound hl
  · intro o' e' l he' hl
    rcases hcases he' with hfound | rfl | hfound
    · exact h.attached source e' l hfound hl
    · exact absurd hl (by simp)
    · exact h.attached o' e' l hfound hl

end objects

/-! ## Changes of the internal loops -/

section loops

variable {w : EventLoops H} {o l : Nat} {e : Handle H} {state state' : EventLoopInternal}
  {s : EventLoop H}

/-- A loop that no object found points to. -/
theorem mState_ne_of_unreferenced
    (hnone : ¬ w.objects.entries.any fun e => e.2.mState = some l) (he : w.objects.lookup o = some e) :
    e.mState ≠ some l := by
  intro hl
  apply hnone
  rw [List.any_eq_true]
  exact ⟨⟨o, e⟩, AList.mem_lookup_iff.mp he, by simpa using hl⟩

/-- A release leaves everything as it is, or destroys a loop that no object points to. -/
theorem release_cases (w : EventLoops H) (m : Option Nat) : w.release m = w ∨
    ∃ l, (∀ o e, w.objects.lookup o = some e → e.mState ≠ some l) ∧
      w.release m = { w with loops := Function.update w.loops l none } := by
  cases m with
  | none => exact Or.inl rfl
  | some l =>
      by_cases href : w.objects.entries.any fun e => e.2.mState = some l
      · exact Or.inl (if_pos href)
      · exact Or.inr ⟨l, fun o e he => mState_ne_of_unreferenced href he, if_neg href⟩

/-- An internal loop is destroyed only without references to it. -/
theorem Consistent.release (h : w.Consistent) (m : Option Nat) : Consistent (w.release m) := by
  rcases release_cases w m with hrelease | ⟨l, hunreferenced, hrelease⟩
  · rw [hrelease]
    exact h
  · rw [hrelease]
    have hloops {l' : Nat} {state : EventLoopInternal}
        (hstate : Function.update w.loops l none l' = some state) : w.loops l' = some state := by
      by_cases hne : l' = l
      · rw [hne, Function.update_self] at hstate
        exact absurd hstate (by simp)
      · rwa [Function.update_of_ne hne] at hstate
    refine ⟨⟨fun l' state hstate => h.union l' state (hloops hstate), h.unattached⟩, ?_, ?_⟩
    · intro o e l' he hl
      have hne : l' ≠ l := by
        rintro rfl
        exact hunreferenced o e he hl
      show (Function.update w.loops l none l').isSome = true
      rw [Function.update_of_ne hne]
      exact h.attached o e l' he hl
    · intro l' hl'
      show Function.update w.loops l none l' = none
      by_cases hne : l' = l
      · rw [hne, Function.update_self]
      · rw [Function.update_of_ne hne]
        exact h.fresh l' hl'

/-- Letting a loop go names no object. -/
theorem keepsOthers_release (w : EventLoops H) (m : Option Nat) (named : List Nat) :
    KeepsOthers named w (w.release m) := by
  rcases release_cases w m with hrelease | ⟨l, hunreferenced, hrelease⟩
  · rw [hrelease]
    exact keepsOthers_of_loops (fun _ _ => rfl) rfl
  · rw [hrelease]
    refine keepsOthers_of_epoll (fun _ _ => rfl) ?_
    intro o e l' fd _ he hl _
    have hne : l' ≠ l := by
      rintro rfl
      exact hunreferenced o e he hl
    simp only [Function.update_of_ne hne]

/-- What the members hold once an attached object is stored. -/
theorem held_store (hl : e.mState = some l) (hfd : state'.mInterruptFd = state.mInterruptFd)
    (l' : Nat) : held (w.store o e s).objects l' state' =
      Function.update (held w.objects l' state) (some o)
        (if l' = l then pointers s.mHandlers else fun _ => none) := by
  show held (w.objects.insert o _) l' state' = _
  rw [held_insert, held_congr (fun _ => rfl) hfd]
  congr 1
  by_cases hne : l' = l
  · subst hne
    rw [if_pos rfl]
    exact heldBy_attached hl
  · rw [if_neg hne]
    apply heldBy_unattached
    show e.mState ≠ some l'
    rw [hl]
    exact fun heq => hne (Option.some.inj heq).symm

/-- **An attached object and its loop change** such that the loop's epoll set is still the union. -/
theorem Consistent.store (h : w.Consistent) (he : w.objects.lookup o = some e)
    (hl : e.mState = some l) (hs : s.mState = some state')
    (hfd : state'.mInterruptFd = state.mInterruptFd)
    (hunion : IsDisjointUnion (registeredPointers state')
      (Function.update (held w.objects l state) (some o) (pointers s.mHandlers))) :
    Consistent (w.store o e s) := by
  have hloops : (w.store o e s).loops = Function.update w.loops l (some state') := by
    simp only [EventLoops.store, hl, hs]
  -- the object holds something in its own loop only, so the other loops see the same holders
  have hother {l' : Nat} (hne : l' ≠ l) (state : EventLoopInternal) :
      held (w.store o e s).objects l' state = held w.objects l' state := by
    have hnone : held w.objects l' state (some o) = fun _ => none := by
      rw [held_of_lookup he, heldBy_unattached]
      rw [hl]
      exact fun heq => hne (Option.some.inj heq).symm
    rw [held_store hl rfl, if_neg hne, ← hnone, Function.update_eq_self]
  refine ⟨⟨?_, ?_⟩, ?_, ?_⟩
  · intro l' state₁ hstate₁
    rw [hloops] at hstate₁
    by_cases hne : l' = l
    · subst hne
      rw [Function.update_self] at hstate₁
      obtain rfl := Option.some.inj hstate₁
      rw [held_store hl hfd, if_pos rfl]
      exact hunion
    · rw [Function.update_of_ne hne] at hstate₁
      rw [hother hne]
      exact h.union l' state₁ hstate₁
  · intro o' e' he' hl'
    by_cases hne : o' = o
    · rw [hne, EventLoops.store, AList.lookup_insert] at he'
      obtain rfl := Option.some.inj he'
      exact absurd (hl.symm.trans hl') (by simp)
    · rw [EventLoops.store, AList.lookup_insert_ne hne] at he'
      exact h.unattached o' e' he' hl'
  · intro o' e' l' he' hl'
    rw [hloops]
    by_cases hloop : l' = l
    · rw [hloop, Function.update_self]
      rfl
    rw [Function.update_of_ne hloop]
    by_cases hne : o' = o
    · rw [hne, EventLoops.store, AList.lookup_insert] at he'
      obtain rfl := Option.some.inj he'
      exact h.attached o e l' he hl'
    · rw [EventLoops.store, AList.lookup_insert_ne hne] at he'
      exact h.attached o' e' l' he' hl'
  · intro l' hl'
    have hne : l' ≠ l := by
      rintro rfl
      have hsome := h.attached o e l' he hl
      rw [h.fresh l' hl'] at hsome
      exact absurd hsome (by simp)
    rw [hloops, Function.update_of_ne hne]
    exact h.fresh l' hl'

/-- Others keep their registrations where only descriptors change that they do not hold. -/
theorem keepsOthers_store (hl : e.mState = some l) (hstate : w.loops l = some state)
    (hs : s.mState = some state')
    (htouched : ∀ fd, state'.epoll fd ≠ state.epoll fd → ∀ o', o' ≠ o →
      held w.objects l state (some o') fd = none) :
    KeepsOthers [o] w (w.store o e s) := by
  have hne {o' : Nat} (ho' : o' ∉ [o]) : o' ≠ o := fun heq => ho' (List.mem_singleton.mpr heq)
  refine keepsOthers_of_epoll (fun o' ho' => AList.lookup_insert_ne (hne ho')) ?_
  intro o' e' l' fd ho' he' hl' hfd
  have hloops : (w.store o e s).loops = Function.update w.loops l (some state') := by
    simp only [EventLoops.store, hl, hs]
  rw [hloops]
  by_cases hloop : l' = l
  · subst hloop
    rw [Function.update_self, hstate]
    by_contra htouch
    have hnone := htouched fd htouch o' (hne ho')
    rw [held_of_lookup he', heldBy_attached hl', pointers_eq_none_iff] at hnone
    exact hnone hfd
  · rw [Function.update_of_ne hloop]

end loops

/-! ## Requests -/

section requests

variable {w : EventLoops H} {o l : Nat} {e : Handle H} {state state' : EventLoopInternal}
  {s : EventLoop H} {fd : Fd} {fails : Failures}

/-- A handler that is inserted is pointed to by its number. -/
theorem pointers_insert (m : HandlerMap H) (fd : Fd) (node : HandlerNode H) :
    pointers (m.insert fd node) = Function.update (pointers m) fd (some (.node node.address)) := by
  funext fd'
  by_cases hfd : fd' = fd
  · rw [hfd, Function.update_self, pointers, AList.lookup_insert]
    rfl
  · rw [Function.update_of_ne hfd, pointers, pointers, AList.lookup_insert_ne hfd]

/-- One that is erased is not. -/
theorem pointers_erase (m : HandlerMap H) (fd : Fd) :
    pointers (m.erase fd) = Function.update (pointers m) fd none := by
  funext fd'
  by_cases hfd : fd' = fd
  · rw [hfd, Function.update_self, pointers, AList.lookup_erase]
    rfl
  · rw [Function.update_of_ne hfd, pointers, pointers, AList.lookup_erase_ne hfd]

/-- **One entry changes** in the map and in the epoll set, which no other member holds. -/
theorem Consistent.setEntry (h : w.Consistent) (he : w.objects.lookup o = some e)
    (hl : e.mState = some l) (hstate : w.loops l = some state) {r : Option Registration}
    (hfree : ∀ member, member ≠ some o → held w.objects l state member fd = none)
    (hs : s.mState = some { state with epoll := Function.update state.epoll fd r })
    (hpointers : pointers s.mHandlers =
      Function.update (pointers e.mHandlers) fd (r.map Registration.ptr)) :
    Consistent (w.store o e s) ∧ KeepsOthers [o] w (w.store o e s) := by
  constructor
  · refine h.store he hl hs rfl ?_
    rw [registeredPointers_update, hpointers, ← heldBy_attached hl, ← held_of_lookup he state]
    exact (h.union l state hstate).set hfree _
  · refine keepsOthers_store hl hstate hs ?_
    intro fd' htouched o' ho'
    have hfd : fd' = fd := by
      by_contra hne
      exact htouched (Function.update_of_ne hne ..)
    rw [hfd]
    exact hfree (some o') fun heq => ho' (Option.some.inj heq)

/-- The keys of an object are held by it. -/
theorem held_of_mem (he : w.objects.lookup o = some e) (hl : e.mState = some l)
    (hfd : fd ∈ e.mHandlers) (state : EventLoopInternal) :
    ∃ ptr, held w.objects l state (some o) fd = some ptr := by
  rw [held_of_lookup he, heldBy_attached hl, ← Option.ne_none_iff_exists']
  exact fun hnone => pointers_eq_none_iff.mp hnone hfd

/-- What an object holds, no other member does. -/
theorem Consistent.free_of_mem (h : w.Consistent) (he : w.objects.lookup o = some e)
    (hl : e.mState = some l) (hstate : w.loops l = some state) (hfd : fd ∈ e.mHandlers) :
    ∀ member, member ≠ some o → held w.objects l state member fd = none := by
  obtain ⟨ptr, hheld⟩ := held_of_mem he hl hfd state
  intro member hmember
  exact (h.union l state hstate).eq_none_of_ne hheld hmember

/-- A handler is registered with the pointer to it. -/
theorem Consistent.epoll_of_mem (h : w.Consistent) (he : w.objects.lookup o = some e)
    (hl : e.mState = some l) (hstate : w.loops l = some state) (hfd : fd ∈ e.mHandlers) :
    state.epoll fd ≠ none := by
  obtain ⟨ptr, hheld⟩ := held_of_mem he hl hfd state
  have hregistered := (h.union l state hstate).apply_eq hheld
  intro hnone
  rw [registeredPointers, hnone] at hregistered
  exact absurd hregistered (by simp)

/-- A descriptor that is legally added is held by no other member. -/
theorem free_of_legal {events : BitVec 32} {handler : H}
    (hlegal : Legal w (fails, .request o (.addEvent fd events handler)))
    (he : w.objects.lookup o = some e) (hl : e.mState = some l) (hstate : w.loops l = some state) :
    ∀ member, member ≠ some o → held w.objects l state member fd = none := by
  obtain ⟨hinterrupt, hothers⟩ := hlegal.2 e l he hl
  intro member hmember
  cases member with
  | none =>
      simp only [held]
      rw [Function.update_of_ne (hinterrupt state hstate)]
  | some o' =>
      have ho' : o' ≠ o := fun heq => hmember (congrArg some heq)
      rcases he' : w.objects.lookup o' with _ | e'
      · simp only [held, he']
      rw [held_of_lookup he']
      by_cases hl' : e'.mState = some l
      · rw [heldBy_attached hl', pointers_eq_none_iff]
        exact hothers o' e' ho' he' hl'
      · rw [heldBy_unattached hl']

/-- An unattached object is stored as it was. -/
theorem Consistent.store_unattached (h : w.Consistent) (he : w.objects.lookup o = some e)
    (hl : e.mState = none) (hs : s = w.view e) :
    Consistent (w.store o e s) ∧ KeepsOthers [o] w (w.store o e s) := by
  have hempty := h.unattached o e he hl
  have heq : w.store o e s =
      { w with objects := w.objects.insert o { mState := none, mHandlers := ∅ } } := by
    rw [hs]
    simp only [EventLoops.store, view, hl, hempty]
  rw [heq]
  constructor
  · exact h.setObject (holdsNothing_of_empty he hempty) fun l hnone => absurd hnone (by simp)
  · refine keepsOthers_of_loops (fun o' ho' => ?_) rfl
    exact AList.lookup_insert_ne fun heq => ho' (List.mem_singleton.mpr heq)

/-- An attached object is stored as it was. -/
theorem Consistent.store_view (h : w.Consistent) (he : w.objects.lookup o = some e)
    (hl : e.mState = some l) (hstate : w.loops l = some state) :
    Consistent (w.store o e (w.view e)) ∧ KeepsOthers [o] w (w.store o e (w.view e)) := by
  have hview : (w.view e).mState = some state := by simp [view, hl, hstate]
  constructor
  · refine h.store he hl hview rfl ?_
    have hheld : pointers (w.view e).mHandlers = held w.objects l state (some o) := by
      rw [held_of_lookup he, heldBy_attached hl]
      rfl
    rw [hheld, Function.update_eq_self]
    exact h.union l state hstate
  · exact keepsOthers_store hl hstate hview fun fd htouched => absurd rfl htouched

/-- A legal `addEvent` registers the descriptor with the new handler. -/
theorem Consistent.addEvent (h : w.Consistent) (he : w.objects.lookup o = some e)
    (hl : e.mState = some l) (hstate : w.loops l = some state) {events : BitVec 32} {handler : H}
    (hlegal : Legal w (fails, .request o (.addEvent fd events handler))) :
    Consistent (w.store o e ((w.view e).addEvent fails fd events handler).2) ∧
      KeepsOthers [o] w (w.store o e ((w.view e).addEvent fails fd events handler).2) := by
  have hview : (w.view e).mState = some state := by simp [view, hl, hstate]
  have hfree := free_of_legal hlegal he hl hstate
  by_cases hfd : fd ∈ e.mHandlers
  · -- the number is held already: it is deregistered and registered anew
    have hregistered := h.epoll_of_mem he hl hstate hfd
    have hnotMem : fd ∉ ((w.view e).removed state fd).mHandlers :=
      fun hmem => (AList.mem_erase.mp hmem).1 rfl
    rw [addEvent_of_removed hview hfd ⟨hregistered, hlegal.1 .del fd⟩, addEvent_of_notMem rfl hnotMem,
      if_pos ⟨Function.update_self .., hlegal.1 .add fd⟩]
    refine h.setEntry he hl hstate hfree (r := some { events, ptr := .node w.nextNode }) ?_ ?_
    · simp only [registered, Function.update_idem]
      rfl
    · show pointers ((e.mHandlers.erase fd).insert fd _) = _
      rw [pointers_insert, pointers_erase, Function.update_idem]
      rfl
  · have hnone : state.epoll fd = none := by
      -- a legal `addEvent` takes a number that nobody holds
      have hnobody : ∀ member, held w.objects l state member fd = none := by
        intro member
        by_cases hmember : member = some o
        · rw [hmember, held_of_lookup he, heldBy_attached hl]
          exact pointers_eq_none_iff.mpr hfd
        · exact hfree member hmember
      exact Option.map_eq_none_iff.mp ((h.union l state hstate).eq_none hnobody)
    rw [addEvent_of_notMem hview hfd, if_pos ⟨hnone, hlegal.1 .add fd⟩]
    refine h.setEntry he hl hstate hfree (r := some { events, ptr := .node w.nextNode }) rfl ?_
    show pointers (e.mHandlers.insert fd _) = _
    rw [pointers_insert]
    rfl

/-- A request changes one entry of its object, and nothing that others hold. -/
theorem Consistent.request (h : w.Consistent) (he : w.objects.lookup o = some e) {r : Request H}
    (hlegal : Legal w (fails, .request o r)) :
    Consistent (w.store o e ((w.view e).request fails r).2) ∧
      KeepsOthers [o] w (w.store o e ((w.view e).request fails r).2) := by
  -- an unattached object asks no loop for anything
  rcases hl : e.mState with _ | l
  · apply h.store_unattached he hl
    have hview : (w.view e).mState = none := by simp [view, hl]
    cases r with
    | addEvent fd events handler => simp [EventLoop.request, EventLoop.addEvent, hview]
    | modifyEvent fd events => simp [EventLoop.request, modifyEvent, hview]
    | removeEvent fd => simp [EventLoop.request, removeEvent, hview]
  obtain ⟨state, hstate⟩ := Option.isSome_iff_exists.mp (h.attached o e l he hl)
  have hview : (w.view e).mState = some state := by simp [view, hl, hstate]
  cases r with
  | addEvent fd events handler => exact h.addEvent he hl hstate hlegal
  | modifyEvent fd events =>
      simp only [EventLoop.request]
      rcases hlookup : e.mHandlers.lookup fd with _ | node
      · rw [modifyEvent_of_notMem (AList.lookup_eq_none.mp hlookup)]
        exact h.store_view he hl hstate
      · have hfd : fd ∈ e.mHandlers := AList.lookup_isSome.mp (by rw [hlookup]; rfl)
        rw [modifyEvent_eq hview hlookup,
          if_pos ⟨h.epoll_of_mem he hl hstate hfd, hlegal.1 .mod fd⟩]
        refine h.setEntry he hl hstate (h.free_of_mem he hl hstate hfd)
          (r := some { events, ptr := .node node.address }) rfl ?_
        have hpointer : pointers e.mHandlers fd = some (.node node.address) := by
          rw [pointers, hlookup]
          rfl
        show pointers e.mHandlers = Function.update _ fd (some (.node node.address))
        rw [← hpointer, Function.update_eq_self]
  | removeEvent fd =>
      simp only [EventLoop.request]
      rw [removeEvent_eq hview]
      split
      · rename_i hremove
        exact h.setEntry he hl hstate (h.free_of_mem he hl hstate hremove.1) (r := none) rfl
          (pointers_erase e.mHandlers fd)
      · exact h.store_view he hl hstate

end requests

/-! ## Draining an object -/

section drain

variable {w : EventLoops H} {o : Nat} {e : Handle H} {fails : Failures}

/-- Deregistering a list of descriptors, where no call fails on a descriptor that is registered. -/
theorem foldl_ctl_del (hfails : ∀ fd, fails .del fd = false) (fds : List Fd) (s : EventLoop H)
    {state : EventLoopInternal} (hstate : s.mState = some state) :
    fds.foldl (fun s fd => (s.ctl fails .del fd none).getD s) s = { s with
      mState := some { state with epoll := fun fd => if fd ∈ fds then none else state.epoll fd } } := by
  induction fds generalizing s state with
  | nil =>
      simp only [List.foldl_nil, List.not_mem_nil, ↓reduceIte, ← hstate]
  | cons fd fds ih =>
      rw [List.foldl_cons, ctl_of_ne_add hstate (by decide)]
      -- a descriptor that is not registered fails with `ENOENT`, and the fold goes on
      by_cases hregistered : state.epoll fd ≠ none
      · rw [if_pos ⟨hregistered, hfails fd⟩, Option.getD_some, ih _ rfl]
        congr 3
        funext fd'
        by_cases hfd : fd' = fd
        · simp [hfd]
        · simp [hfd]
      · rw [if_neg fun hdel => hregistered hdel.1, Option.getD_none, ih _ hstate]
        congr 3
        funext fd'
        by_cases hfd : fd' = fd
        · simp [hfd, not_not.mp hregistered]
        · simp [hfd]

/-- `removeHandlers` deregisters exactly what the object holds. -/
theorem Consistent.removeHandlers (h : w.Consistent) (hfails : ∀ fd, fails .del fd = false)
    (he : w.objects.lookup o = some e) :
    Consistent (w.removeHandlers fails o e) ∧ KeepsOthers [o] w (w.removeHandlers fails o e) ∧
      (w.removeHandlers fails o e).objects.lookup o =
        some { mState := e.mState, mHandlers := ∅ } := by
  unfold EventLoops.removeHandlers
  rcases hl : e.mState with _ | l
  · have hview : (w.view e).removeHandlers fails = w.view e := by
      simp [EventLoop.removeHandlers, view, hl]
    rw [hview]
    obtain ⟨hconsistent, hkeeps⟩ := h.store_unattached he hl rfl
    refine ⟨hconsistent, hkeeps, ?_⟩
    simp only [EventLoops.store, view, AList.lookup_insert, hl, h.unattached o e he hl]
  obtain ⟨state, hstate⟩ := Option.isSome_iff_exists.mp (h.attached o e l he hl)
  have hview : (w.view e).mState = some state := by simp [view, hl, hstate]
  -- every key is deregistered, whether its registration is still there or not
  have hdrained : (w.view e).removeHandlers fails = { w.view e with
      mState := some { state with
        epoll := fun fd => if fd ∈ e.mHandlers.keys then none else state.epoll fd }
      mHandlers := ∅ } := by
    unfold EventLoop.removeHandlers
    rw [if_pos (by rw [hview]; rfl), foldl_ctl_del hfails _ _ hview]
    rfl
  rw [hdrained]
  have hheld : held w.objects l state (some o) = pointers e.mHandlers := by
    rw [held_of_lookup he, heldBy_attached hl]
  refine ⟨h.store he hl rfl rfl ?_, keepsOthers_store hl hstate rfl ?_, ?_⟩
  · have hregistered : registeredPointers { state with
          epoll := fun fd => if fd ∈ e.mHandlers.keys then none else state.epoll fd } =
        fun fd => if (held w.objects l state (some o) fd).isSome then none
          else registeredPointers state fd := by
      funext fd
      rw [hheld]
      by_cases hfd : fd ∈ e.mHandlers
      · have hsome : (pointers e.mHandlers fd).isSome = true :=
          Option.isSome_iff_ne_none.mpr fun hnone => pointers_eq_none_iff.mp hnone hfd
        simp [registeredPointers, hsome, AList.mem_keys.mp hfd]
      · have hkeys : fd ∉ e.mHandlers.keys := fun hmem => hfd (AList.mem_keys.mpr hmem)
        simp [registeredPointers, pointers_eq_none_iff.mpr hfd, hkeys]
    rw [hregistered]
    exact (h.union l state hstate).drop (some o)
  · intro fd htouched o' ho'
    have hfd : fd ∈ e.mHandlers := by
      by_contra hnot
      exact htouched (if_neg fun hmem => hnot (AList.mem_keys.mpr hmem))
    exact h.free_of_mem he hl hstate hfd (some o') fun heq => ho' (Option.some.inj heq)
  · simp only [EventLoops.store, AList.lookup_insert, hl]

end drain

/-! ## Runs -/

section runs

variable {w w' : EventLoops H} {o loop : Nat} {fails : Failures}

/-- No object is attached to the loop made next. -/
theorem Consistent.ne_nextLoop (h : w.Consistent) {e : Handle H} {l : Nat}
    (he : w.objects.lookup o = some e) (hl : e.mState = some l) : l ≠ w.nextLoop := by
  rintro rfl
  have hsome := h.attached o e _ he hl
  rw [h.fresh _ (Nat.le_refl _)] at hsome
  exact absurd hsome (by simp)

/-- A new internal loop has its interrupt descriptor registered, and no object yet. -/
theorem Consistent.newLoop (h : w.Consistent) (interruptFd : Fd) (events : BitVec 32) :
    Consistent { w with
      loops := Function.update w.loops w.nextLoop (some
        { mInterruptFd := interruptFd
          epoll := Function.update (fun _ => none) interruptFd
            (some { events, ptr := .mInterruptHandler }) })
      nextLoop := w.nextLoop + 1 } := by
  have hloop : ∀ o e, w.objects.lookup o = some e → e.mState ≠ some w.nextLoop :=
    fun o e he hl => h.ne_nextLoop he hl rfl
  refine ⟨⟨?_, h.unattached⟩, ?_, ?_⟩
  · intro l state hstate
    by_cases hl : l = w.nextLoop
    · subst hl
      simp only [Function.update_self] at hstate
      obtain rfl := Option.some.inj hstate
      -- the loop itself is the only member
      rw [registeredPointers_update { mInterruptFd := interruptFd, epoll := fun _ => none },
        held_of_unreferenced hloop]
      exact IsDisjointUnion.single none _
    · simp only [Function.update_of_ne hl] at hstate
      exact h.union l state hstate
  · intro o e l he hl
    simp only [Function.update_of_ne (h.ne_nextLoop he hl)]
    exact h.attached o e l he hl
  · intro l hl
    have hlt : w.nextLoop < l := hl
    simp only [Function.update_of_ne hlt.ne']
    exact h.fresh l hlt.le

/-- A construction keeps the loops consistent and the other objects as they are. -/
theorem Consistent.construct (h : w.Consistent) (hfails : ∀ op fd, fails op fd = false)
    {interruptFd : Fd} (hstep : w.construct fails o interruptFd = some w') :
    Consistent w' ∧ KeepsOthers [o] w w' := by
  unfold EventLoops.construct at hstep
  split at hstep
  · exact absurd hstep (by simp)
  rename_i ho
  simp only [epollCtl, hfails, Option.isNone_none, Bool.not_false, Bool.and_self, ↓reduceIte,
    Option.map_some, Option.some.injEq] at hstep
  subst hstep
  constructor
  · apply (h.newLoop interruptFd 1#32).setObject (holdsNothing_of_notMem ho)
    rintro l hl
    obtain rfl := Option.some.inj hl
    simp only [Function.update_self, Option.isSome_some]
  · refine keepsOthers_of_epoll ?_ ?_
    · intro o' ho'
      exact AList.lookup_insert_ne fun heq => ho' (List.mem_singleton.mpr heq)
    · intro o' e l fd _ he hl _
      simp only [Function.update_of_ne (h.ne_nextLoop he hl)]

/-- So does the construction of a copy, which has no handlers. -/
theorem Consistent.copyConstruct (h : w.Consistent) (hstep : w.copyConstruct o loop = some w') :
    Consistent w' ∧ KeepsOthers [o, loop] w w' := by
  unfold EventLoops.copyConstruct at hstep
  split at hstep
  · exact absurd hstep (by simp)
  rename_i ho
  obtain ⟨source, hsource, rfl⟩ := Option.map_eq_some_iff.mp hstep
  constructor
  · exact h.setObject (holdsNothing_of_notMem ho) fun l hl => h.attached loop source l hsource hl
  · refine keepsOthers_of_loops (fun o' ho' => AList.lookup_insert_ne ?_) rfl
    exact fun heq => ho' (heq ▸ List.mem_cons_self)

/-- The two objects of a move are the only ones set. -/
theorem keepsOthers_move {source : Handle H} :
    KeepsOthers [o, loop] w { w with
      objects := (w.objects.insert loop { mState := none, mHandlers := ∅ }).insert o source } := by
  refine keepsOthers_of_loops (fun o' ho' => ?_) rfl
  have hne : o' ≠ o := fun heq => ho' (heq ▸ List.mem_cons_self)
  have hne' : o' ≠ loop := fun heq => ho' (heq ▸ List.mem_cons_of_mem _ List.mem_cons_self)
  rw [AList.lookup_insert_ne hne, AList.lookup_insert_ne hne']

/-- So does a construction by a move, which takes the handlers and the loop. -/
theorem Consistent.moveConstruct (h : w.Consistent) (hstep : w.moveConstruct o loop = some w') :
    Consistent w' ∧ KeepsOthers [o, loop] w w' := by
  unfold EventLoops.moveConstruct at hstep
  split at hstep
  · exact absurd hstep (by simp)
  rename_i ho
  obtain ⟨source, hsource, rfl⟩ := Option.map_eq_some_iff.mp hstep
  exact ⟨h.moveObject (holdsNothing_of_notMem ho) hsource, keepsOthers_move⟩

/-- So does an assignment: the handlers are removed before the loop is changed. -/
theorem Consistent.copyAssign (h : w.Consistent) (hfails : ∀ op fd, fails op fd = false)
    (hstep : w.copyAssign fails o loop = some w') :
    Consistent w' ∧ KeepsOthers [o, loop] w w' := by
  obtain ⟨e, he, hstep⟩ := Option.bind_eq_some_iff.mp hstep
  obtain ⟨hdrained, hkeeps, hlookup⟩ := h.removeHandlers (hfails .del) he
  obtain ⟨drained, hfound, hstep⟩ := Option.bind_eq_some_iff.mp hstep
  obtain ⟨source, hsource, rfl⟩ := Option.map_eq_some_iff.mp hstep
  obtain rfl := Option.some.inj (hlookup.symm.trans hfound)
  constructor
  · apply Consistent.release
    exact hdrained.setObject (holdsNothing_of_empty hlookup rfl) fun l hl =>
      hdrained.attached loop source l hsource hl
  · refine ((hkeeps.mono (by simp)).trans ?_).trans (keepsOthers_release _ _ _)
    refine keepsOthers_of_loops (fun o' ho' => AList.lookup_insert_ne ?_) rfl
    exact fun heq => ho' (heq ▸ List.mem_cons_self)

/-- So does an assignment by a move. -/
theorem Consistent.moveAssign (h : w.Consistent) (hfails : ∀ op fd, fails op fd = false)
    (hstep : w.moveAssign fails o loop = some w') :
    Consistent w' ∧ KeepsOthers [o, loop] w w' := by
  obtain ⟨e, he, hstep⟩ := Option.bind_eq_some_iff.mp hstep
  obtain ⟨hdrained, hkeeps, hlookup⟩ := h.removeHandlers (hfails .del) he
  obtain ⟨source, hsource, rfl⟩ := Option.map_eq_some_iff.mp hstep
  constructor
  · apply Consistent.release
    exact hdrained.moveObject (holdsNothing_of_empty hlookup rfl) hsource
  · exact ((hkeeps.mono (by simp)).trans keepsOthers_move).trans (keepsOthers_release _ _ _)

/-- So does a destruction. -/
theorem Consistent.destroy (h : w.Consistent) (hfails : ∀ op fd, fails op fd = false)
    (hstep : w.destroy fails o = some w') : Consistent w' ∧ KeepsOthers [o] w w' := by
  obtain ⟨e, he, rfl⟩ := Option.map_eq_some_iff.mp hstep
  obtain ⟨hdrained, hkeeps, hlookup⟩ := h.removeHandlers (hfails .del) he
  constructor
  · apply Consistent.release
    exact hdrained.eraseObject (holdsNothing_of_empty hlookup rfl)
  · refine (hkeeps.trans ?_).trans (keepsOthers_release _ _ _)
    refine keepsOthers_of_loops (fun o' ho' => AList.lookup_erase_ne ?_) rfl
    exact fun heq => ho' (List.mem_singleton.mpr heq)

/-- **One operation.** -/
theorem Consistent.step {i : Failures × Operation H} (h : w.Consistent) (hlegal : w.Legal i)
    (hstep : w.step i = some w') : Consistent w' ∧ KeepsOthers i.2.names w w' := by
  obtain ⟨fails, operation⟩ := i
  cases operation with
  | construct o interruptFd => exact h.construct hlegal.1 hstep
  | copyConstruct o loop => exact h.copyConstruct hstep
  | moveConstruct o loop => exact h.moveConstruct hstep
  | copyAssign o loop => exact h.copyAssign hlegal.1 hstep
  | moveAssign o loop => exact h.moveAssign hlegal.1 hstep
  | destroy o => exact h.destroy hlegal.1 hstep
  | request o r =>
      obtain ⟨e, he, rfl⟩ := Option.map_eq_some_iff.mp hstep
      exact h.request he hlegal

/-- **Objects own their registrations.** In every run of operations on any number of objects, where
`epoll_ctl` never fails on a legal request and no descriptor is added twice to a loop, the epoll set
of each internal loop is at every moment the disjoint union of the handlers of the objects attached
to it and of its interrupt descriptor, an object without a loop has no handlers, and each operation
changes only the objects it names and their registrations. -/
theorem owned_of_legal (is : List (Failures × Operation H))
    (hlegal : StepsMeet step Legal ({} : EventLoops H) is) :
    StatesMeet step Owned {} is ∧
      StepsMeet step (fun w i => ∀ w', w.step i = some w' → KeepsOthers i.2.names w w') {} is := by
  have hconsistent : StatesMeet step Consistent ({} : EventLoops H) is :=
    statesMeet_of_stepsMeet (fun w i w' h hlegal hstep => (h.step hlegal hstep).1) consistent_empty
      hlegal
  constructor
  · intro pre hpre w hrun
    exact (hconsistent pre hpre w hrun).toOwned
  · exact StepsMeet.of_statesMeet hconsistent hlegal fun w i h hlegal w' hstep =>
      (h.step hlegal hstep).2

/-- A run with a copy, a handler and an assignment. -/
theorem owned_of_legal_run :
    StatesMeet step Owned ({} : EventLoops Nat)
        [(fun _ _ => false, .construct 0 4), (fun _ _ => false, .copyConstruct 1 0),
          (fun _ _ => false, .request 1 (.addEvent 7 1#32 10)), (fun _ _ => false, .moveAssign 0 1)] ∧
      StepsMeet step (fun w i => ∀ w', w.step i = some w' → KeepsOthers i.2.names w w')
        ({} : EventLoops Nat)
        [(fun _ _ => false, .construct 0 4), (fun _ _ => false, .copyConstruct 1 0),
          (fun _ _ => false, .request 1 (.addEvent 7 1#32 10)),
          (fun _ _ => false, .moveAssign 0 1)] := by
  refine owned_of_legal _ ?_
  refine stepsMeet_cons.mpr ⟨⟨fun _ _ => rfl, trivial⟩, fun w hw => ?_⟩
  obtain rfl := Option.some.inj hw
  refine stepsMeet_cons.mpr ⟨⟨fun _ _ => rfl, trivial⟩, fun w hw => ?_⟩
  obtain rfl := Option.some.inj hw
  refine stepsMeet_cons.mpr ⟨⟨fun _ _ => rfl, ?_⟩, fun w hw => ?_⟩
  · rintro e l he hl
    obtain rfl := Option.some.inj he
    obtain rfl := Option.some.inj hl
    constructor
    · intro state hstate
      obtain rfl := Option.some.inj hstate
      decide
    · intro o' e' ho' he' _
      by_cases hfirst : o' = 0
      · subst hfirst
        obtain rfl := Option.some.inj he'
        exact AList.notMem_empty _
      · rw [AList.lookup_insert_ne ho', AList.lookup_insert_ne hfirst] at he'
        exact absurd he' (by simp)
  · exact stepsMeet_cons.mpr ⟨⟨fun _ _ => rfl, trivial⟩, fun w _ => stepsMeet_nil⟩

/-- Objects hold pointers to nodes. -/
theorem held_ne_mInterruptHandler {objects : Objects H} {l : Nat} {state : EventLoopInternal}
    {fd : Fd} : held objects l state (some o) fd ≠ some .mInterruptHandler := by
  intro hheld
  rcases he : objects.lookup o with _ | e
  · simp only [held, he] at hheld
    exact absurd hheld (by simp)
  rw [held_of_lookup he] at hheld
  by_cases hl : e.mState = some l
  · rw [heldBy_attached hl] at hheld
    obtain ⟨node, -, hnode⟩ := Option.map_eq_some_iff.mp hheld
    exact absurd hnode (by simp)
  · rw [heldBy_unattached hl] at hheld
    exact absurd hheld (by simp)

/-- **The loop's own registration.** A loop has its interrupt descriptor in the epoll set, although no
object has a handler for it. -/
theorem not_union_of_handlers :
    ¬ ∀ is : List (Failures × Operation Nat), StepsMeet step Legal {} is →
      StatesMeet step (fun w => ∀ l state, w.loops l = some state →
        IsDisjointUnion (registeredPointers state) fun o => held w.objects l state (some o)) {} is := by
  intro hclaim
  have hstates := hclaim [(fun _ _ => false, .construct 0 4)]
    (stepsMeet_cons.mpr ⟨⟨fun _ _ => rfl, trivial⟩, fun _ _ => stepsMeet_nil⟩)
  have hunion := hstates.last rfl 0 _ rfl
  obtain ⟨o, ho⟩ := (hunion.covers 4 .mInterruptHandler).mp rfl
  exact held_ne_mInterruptHandler ho

end runs

end EventLoops

end Ts3100
