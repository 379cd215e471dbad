import Mathlib.Data.List.Basic
import Mathlib.Algebra.Order.BigOperators.Group.List

/-! # Dispatching ready events

The thread of the event loop waits for a batch of ready events and calls the handler of each. The
loop condition stores in `n` whether the wait succeeded, not how many events it returned.

* `loop_eq_heads` — the loop handles the first event of each batch.
* `loop_eq_flatten_iff` — when it handles every event of every batch. -/

namespace Ts3100

/-- What the `data.ptr` of an event points to. -/
inductive EventHandler where
  | mInterruptHandler
  /-- the handler of a registered descriptor -/
  | handler (fd : Nat)
  deriving DecidableEq, Repr

/-- `struct epoll_event`. -/
structure EpollEvent where
  events : BitVec 32
  ptr : EventHandler
  deriving DecidableEq, Repr

/-- The thread of the event loop, between two waits. -/
structure EventLoopThread where
  /-- whether `mEpollFd` is open, and not -1 -/
  epollFdOpen : Bool := true
  /-- the buffer of 64 events, with what earlier waits left in it -/
  events : List EpollEvent := []
  deriving DecidableEq, Repr

namespace EventLoopThread

/-- `epoll_wait`: the batch is written over the front of the buffer. -/
def epollWait (s : EventLoopThread) (batch : List EpollEvent) : List EpollEvent :=
  batch ++ s.events.drop batch.length

/-- Handling the interrupt event closes the epoll descriptor. -/
def invoke (s : EventLoopThread) (event : EpollEvent) : EventLoopThread :=
  match event.ptr with
  | .mInterruptHandler => { s with epollFdOpen := false }
  | .handler _ => s

/-- The loop of the thread: the events whose handlers are called, given what the successive calls of
`epoll_wait` return, `none` for -1. -/
def loop (s : EventLoopThread) : List (Option (List EpollEvent)) → List EpollEvent
  | [] => []
  | result :: results =>
      if s.epollFdOpen then
        -- `n = epoll_wait(..) != -1`
        let n := if result.isSome then 1 else 0
        if n ≠ 0 then
          let events := s.epollWait (result.getD [])
          let called := events.take n
          called ++ loop (called.foldl invoke { s with events }) results
        else
          []
      else
        []

variable {s : EventLoopThread}

/-- Other handlers leave the loop running. -/
theorem invoke_of_ne {event : EpollEvent} (h : event.ptr ≠ .mInterruptHandler) :
    s.invoke event = s := by
  unfold invoke
  split
  · rename_i hptr
    exact absurd hptr h
  · rfl

/-- One turn of the loop handles the first event of the batch. -/
theorem loop_cons (hopen : s.epollFdOpen = true) (event : EpollEvent) (batch : List EpollEvent)
    (results : List (Option (List EpollEvent))) :
    s.loop (some (event :: batch) :: results) =
      event :: loop (({ s with events := s.epollWait (event :: batch) }).invoke event) results := by
  simp [loop, hopen, epollWait]

/-- The loop handles the first event of each batch. -/
theorem loop_eq_heads (hopen : s.epollFdOpen = true) (batches : List (List EpollEvent))
    (hbatches : ∀ batch ∈ batches, 1 ≤ batch.length)
    (hinterrupt : ∀ event ∈ s.loop (batches.map some), event.ptr ≠ .mInterruptHandler) :
    s.loop (batches.map some) = batches.filterMap List.head? := by
  induction batches generalizing s with
  | nil => rfl
  | cons batch batches ih =>
      cases batch with
      | nil => exact absurd (hbatches [] List.mem_cons_self) (by simp)
      | cons event batch =>
          rw [List.map_cons, loop_cons hopen] at hinterrupt ⊢
          rw [invoke_of_ne (hinterrupt event List.mem_cons_self)] at hinterrupt ⊢
          rw [List.filterMap_cons_some (List.head?_cons ..)]
          congr 1
          exact ih hopen (fun b hb => hbatches b (List.mem_cons_of_mem _ hb))
            fun e he => hinterrupt e (List.mem_cons_of_mem _ he)

/-- First elements make up the whole iff there are no others. -/
theorem heads_eq_flatten_iff {α : Type*} (batches : List (List α))
    (hbatches : ∀ batch ∈ batches, 1 ≤ batch.length) :
    batches.filterMap List.head? = batches.flatten ↔ ∀ batch ∈ batches, batch.length = 1 := by
  -- one head for each batch, and no batch is empty, so the heads are at most as many as the events
  have hheads : ∀ batches : List (List α), (∀ batch ∈ batches, 1 ≤ batch.length) →
      (batches.filterMap List.head?).length = batches.length ∧
        batches.length ≤ batches.flatten.length := by
    intro batches hbatches
    induction batches with
    | nil => simp
    | cons batch batches ih =>
        obtain ⟨hlength, hle⟩ := ih fun b hb => hbatches b (List.mem_cons_of_mem _ hb)
        cases batch with
        | nil => exact absurd (hbatches [] List.mem_cons_self) (by simp)
        | cons a batch =>
            rw [List.filterMap_cons_some (List.head?_cons ..), List.length_cons, hlength,
              List.flatten_cons, List.length_append, List.length_cons, List.length_cons]
            omega
  induction batches with
  | nil => simp
  | cons batch batches ih =>
      have hrest : ∀ b ∈ batches, 1 ≤ b.length := fun b hb =>
        hbatches b (List.mem_cons_of_mem _ hb)
      cases batch with
      | nil => exact absurd (hbatches [] List.mem_cons_self) (by simp)
      | cons a batch =>
          rw [List.filterMap_cons_some (List.head?_cons ..), List.flatten_cons,
            List.forall_mem_cons, List.cons_append, List.cons.injEq]
          obtain ⟨hlength, hle⟩ := hheads batches hrest
          constructor
          · rintro ⟨-, heq⟩
            -- a second event in the first batch would make the events too many
            have hlengths := congrArg List.length heq
            rw [hlength, List.length_append] at hlengths
            have hnil : batch = [] := List.eq_nil_of_length_eq_zero (by omega)
            rw [hnil, List.nil_append] at heq
            exact ⟨by rw [hnil]; rfl, (ih hrest).mp heq⟩
          · rintro ⟨hone, hall⟩
            have hnil : batch = [] := List.eq_nil_of_length_eq_zero (by simpa using hone)
            rw [hnil, List.nil_append]
            exact ⟨rfl, (ih hrest).mpr hall⟩

/-- **When every ready event is handled.** For batches of 1 to 64 events, as long as the interrupt
event has not been handled, the loop calls the handlers of all events of all batches, each once and
in order with its mask, iff every batch is a single event. -/
theorem loop_eq_flatten_iff (s : EventLoopThread) (hopen : s.epollFdOpen = true)
    (batches : List (List EpollEvent))
    (hbatches : ∀ batch ∈ batches, 1 ≤ batch.length ∧ batch.length ≤ 64)
    (hinterrupt : ∀ event ∈ s.loop (batches.map some), event.ptr ≠ .mInterruptHandler) :
    s.loop (batches.map some) = batches.flatten ↔ ∀ batch ∈ batches, batch.length = 1 := by
  have hnonempty : ∀ batch ∈ batches, 1 ≤ batch.length := fun b hb => (hbatches b hb).1
  rw [loop_eq_heads hopen batches hnonempty hinterrupt]
  exact heads_eq_flatten_iff batches hnonempty

/-- Two batches of an event each. -/
theorem loop_eq_flatten_iff_single :
    ({} : EventLoopThread).loop ([[⟨1#32, .handler 5⟩], [⟨4#32, .handler 7⟩]].map some) =
      [[⟨1#32, .handler 5⟩], [⟨4#32, .handler 7⟩]].flatten :=
  (loop_eq_flatten_iff {} rfl [[⟨1#32, .handler 5⟩], [⟨4#32, .handler 7⟩]]
    (by decide) (by decide)).mpr (by decide)

/-- **A starved descriptor.** While a client that has hung up stays ready, the timer that is ready
with it is never handled, however often both are returned. -/
theorem not_loop_eq_flatten :
    (∀ k, (⟨1#32, .handler 7⟩ : EpollEvent) ∉ ({} : EventLoopThread).loop
      ((List.replicate k [⟨0x11#32, .handler 5⟩, ⟨1#32, .handler 7⟩]).map some)) ∧
    ¬ ∀ (s : EventLoopThread) (batches : List (List EpollEvent)), s.epollFdOpen = true →
      (∀ batch ∈ batches, 1 ≤ batch.length ∧ batch.length ≤ 64) →
      (∀ event ∈ s.loop (batches.map some), event.ptr ≠ .mInterruptHandler) →
      s.loop (batches.map some) = batches.flatten := by
  constructor
  · have hstarved : ∀ k (s : EventLoopThread), s.epollFdOpen = true →
        (⟨1#32, .handler 7⟩ : EpollEvent) ∉ s.loop
          ((List.replicate k [⟨0x11#32, .handler 5⟩, ⟨1#32, .handler 7⟩]).map some) := by
      intro k
      induction k with
      | zero => simp [loop]
      | succ k ih =>
          intro s hopen
          rw [List.replicate_succ, List.map_cons, loop_cons hopen, List.mem_cons, not_or]
          exact ⟨by decide, ih _ hopen⟩
    exact fun k => hstarved k {} rfl
  · intro hclaim
    exact absurd (hclaim {} [[⟨0x11#32, .handler 5⟩, ⟨1#32, .handler 7⟩]] rfl (by decide)
      (by decide)) (by decide)

end EventLoopThread

end Ts3100
