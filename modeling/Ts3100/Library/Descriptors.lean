import Mathlib

/-! # Descriptors of an event loop

The kernel objects behind the file descriptors of a single-threaded event loop, as far as a program
can observe them.

* `Timer` — a one-shot `timerfd` with `Timer.settime` and `Timer.read`.
* `Channel`, `Socket` — a connected non-blocking stream socket with finite send buffer; its channels
  remember every byte they carried.
* `FdSet` — an ordered set of descriptors, and a loop over it (`FdSet.foldl_update`).
* `EpollEvents`, `Socket.Reports` — event masks and what level-triggered `epoll` may report.
* `Interleaves`, `TakenFrom` — one sequence put together from several streams. -/

namespace Descriptors

/-! ## Timers -/

/-- A one-shot timer descriptor. -/
inductive Timer where
  /-- disarmed, or its expiry has been read -/
  | idle
  /-- armed with an `it_value` in nanoseconds -/
  | armed (nsec : Nat)
  /-- expired, and the expiry has not been read -/
  | expired
  deriving DecidableEq, Repr

namespace Timer

/-- `timerfd_settime` with `tv_sec = 0`: an out-of-range `tv_nsec` is `EINVAL` and changes nothing,
zero disarms. -/
def settime (t : Timer) (nsec : Nat) : Timer :=
  if 999999999 < nsec then t else if nsec = 0 then .idle else .armed nsec

/-- `read` on the descriptor takes the expiry; without one it is `EAGAIN`. -/
def read : Timer → Timer
  | .expired => .idle
  | t => t

/-- Where `settime` leaves a timer idle. -/
theorem settime_eq_idle_iff {t : Timer} {nsec : Nat} :
    t.settime nsec = .idle ↔ nsec = 0 ∨ (999999999 < nsec ∧ t = .idle) := by
  unfold settime
  by_cases hrange : 999999999 < nsec
  · rw [if_pos hrange]
    have hne : nsec ≠ 0 := by omega
    simp [hrange, hne]
  · rw [if_neg hrange]
    by_cases hzero : nsec = 0 <;> simp [hzero, hrange]

end Timer

/-! ## Streams and sockets -/

/-- One direction of a connection: what its reader has taken, and what is still waiting. -/
structure Channel (α : Type) where
  taken : List α := []
  waiting : List α := []
  deriving DecidableEq, Repr

namespace Channel

variable {α : Type}

/-- Everything that was put into the stream, in order. -/
def carried (s : Channel α) : List α := s.taken ++ s.waiting

/-- Put one element in. -/
def push (s : Channel α) (a : α) : Channel α := { s with waiting := s.waiting ++ [a] }

/-- Take the first waiting element. -/
def pop (s : Channel α) : Option (α × Channel α) :=
  match s.waiting with
  | [] => none
  | a :: rest => some (a, { taken := s.taken ++ [a], waiting := rest })

/-- Pushing takes nothing. -/
@[simp] theorem taken_push (s : Channel α) (a : α) : (s.push a).taken = s.taken := rfl

/-- A channel carries what is pushed, last. -/
@[simp] theorem carried_push (s : Channel α) (a : α) : (s.push a).carried = s.carried ++ [a] := by
  simp [carried, push]

/-- What has been taken is the first part of what was carried. -/
theorem taken_prefix_carried (s : Channel α) : s.taken <+: s.carried := List.prefix_append _ _

/-- Nothing is taken exactly if nothing is waiting. -/
theorem pop_eq_none_iff {s : Channel α} : s.pop = none ↔ s.waiting = [] := by
  unfold pop
  cases s.waiting <;> simp

/-- Taking an element moves it from what is waiting to what was taken. -/
theorem pop_eq_some {s s' : Channel α} {a : α} (h : s.pop = some (a, s')) :
    s'.taken = s.taken ++ [a] ∧ s'.carried = s.carried := by
  unfold pop at h
  cases hw : s.waiting with
  | nil => rw [hw] at h; cases h
  | cons b rest =>
      rw [hw] at h
      obtain ⟨rfl, rfl⟩ : b = a ∧ _ = s' := by simpa using h
      exact ⟨rfl, by simp [carried, hw]⟩

end Channel

/-- A connected non-blocking stream socket: the bytes from the peer, the bytes to the peer, the size
of the send buffer, and whether the peer has hung up. -/
structure Socket (α : Type) where
  incoming : Channel α := {}
  outgoing : Channel α := {}
  capacity : Nat := 0
  closed : Bool := false
  deriving DecidableEq, Repr

namespace Socket

variable {α : Type}

/-- A write of one byte would succeed. -/
def HasRoom (s : Socket α) : Prop :=
  s.closed = false ∧ s.outgoing.waiting.length < s.capacity

instance (s : Socket α) : Decidable s.HasRoom := inferInstanceAs (Decidable (_ ∧ _))

/-- `write` of one element: without room it fails with `EAGAIN`, to a peer that has hung up with `EPIPE`
and a `SIGPIPE`. Who does not handle that signal does not go on. -/
def write (s : Socket α) (a : α) : Socket α :=
  if s.HasRoom then { s with outgoing := s.outgoing.push a } else s

/-- `read` of one element: `none` is the end of file of a closed peer or `EAGAIN`. -/
def read (s : Socket α) : Option (α × Socket α) :=
  s.incoming.pop.map fun (a, rest) => (a, { s with incoming := rest })

/-- The peer sends one element. -/
def receive (s : Socket α) (a : α) : Socket α := { s with incoming := s.incoming.push a }

/-- The peer takes one element out of the send buffer. -/
def drain (s : Socket α) : Socket α :=
  match s.outgoing.pop with
  | some (_, rest) => { s with outgoing := rest }
  | none => s

/-- The peer hangs up. -/
def hangUp (s : Socket α) : Socket α := { s with closed := true }

/-- A write leaves what comes in. -/
@[simp] theorem incoming_write (s : Socket α) (a : α) : (s.write a).incoming = s.incoming := by
  unfold write
  split <;> rfl

/-- Nor does draining touch what comes in. -/
@[simp] theorem incoming_drain (s : Socket α) : s.drain.incoming = s.incoming := by
  unfold drain
  split <;> rfl

/-- Draining does not hang up. -/
@[simp] theorem closed_drain (s : Socket α) : s.drain.closed = s.closed := by
  unfold drain
  split <;> rfl

/-- Draining carries nothing new. -/
@[simp] theorem carried_drain (s : Socket α) : s.drain.outgoing.carried = s.outgoing.carried := by
  unfold drain
  split
  · rename_i h
    exact (Channel.pop_eq_some h).2
  · rfl

/-- Draining makes no socket lose its room. -/
theorem HasRoom.drain {s : Socket α} (h : s.HasRoom) : s.drain.HasRoom := by
  unfold Socket.drain Channel.pop
  cases hw : s.outgoing.waiting with
  | nil => simpa using h
  | cons a rest =>
      refine ⟨h.1, ?_⟩
      have hlength := h.2
      rw [hw, List.length_cons] at hlength
      show rest.length < s.capacity
      omega

/-- A read finds nothing exactly if nothing is waiting. -/
theorem read_eq_none_iff {s : Socket α} : s.read = none ↔ s.incoming.waiting = [] := by
  rw [read, Option.map_eq_none_iff, Channel.pop_eq_none_iff]

/-- A write of one element would succeed, unless the peer has hung up. -/
def Accepts (s : Socket α) : Prop := s.closed = true ∨ s.HasRoom

instance (s : Socket α) : Decidable s.Accepts := inferInstanceAs (Decidable (_ ∨ _))

/-- Reading takes the first waiting element and touches nothing but the incoming stream. -/
theorem read_eq_some {s s' : Socket α} {a : α} (h : s.read = some (a, s')) :
    s'.incoming.taken = s.incoming.taken ++ [a] ∧ s'.incoming.carried = s.incoming.carried ∧
      s'.outgoing = s.outgoing ∧ s'.capacity = s.capacity ∧ s'.closed = s.closed := by
  unfold read at h
  obtain ⟨⟨b, rest⟩, hpop, heq⟩ := Option.map_eq_some_iff.mp h
  obtain ⟨rfl, rfl⟩ : b = a ∧ _ = s' := by simpa using heq
  obtain ⟨htaken, hcarried⟩ := Channel.pop_eq_some hpop
  exact ⟨htaken, hcarried, rfl, rfl, rfl⟩

/-- What can happen to a socket without its owner. -/
inductive Moves (s : Socket α) : Socket α → Prop where
  | refl : Moves s s
  | receive (a : α) : Moves s (s.receive a)
  | hangUp : Moves s s.hangUp
  | drain : Moves s s.drain

/-- Only a write adds to what the peer is sent. -/
theorem Moves.carried_outgoing {s s' : Socket α} (h : s.Moves s') :
    s'.outgoing.carried = s.outgoing.carried := by
  cases h with
  | refl | receive | hangUp => rfl
  | drain => exact carried_drain s

/-- Only a write takes room. -/
theorem Moves.accepts {s s' : Socket α} (h : s.Moves s') (haccepts : s.Accepts) : s'.Accepts := by
  cases h with
  | refl | receive => exact haccepts
  | hangUp => exact Or.inl rfl
  | drain =>
      rcases haccepts with hclosed | hroom
      · exact Or.inl (by simpa using hclosed)
      · exact Or.inr hroom.drain

/-- Only a read takes what is waiting. -/
theorem Moves.incoming {s s' : Socket α} (h : s.Moves s') :
    s'.incoming.taken = s.incoming.taken ∧ s.incoming.waiting <+: s'.incoming.waiting := by
  cases h with
  | refl | hangUp => exact ⟨rfl, List.prefix_refl _⟩
  | receive a => exact ⟨rfl, List.prefix_append _ _⟩
  | drain => exact ⟨by rw [incoming_drain], by rw [incoming_drain]⟩

/-- A read takes no room. -/
theorem accepts_read {s s' : Socket α} {a : α} (h : s.read = some (a, s')) :
    s'.Accepts ↔ s.Accepts := by
  obtain ⟨-, -, houtgoing, hcapacity, hclosed⟩ := read_eq_some h
  unfold Accepts HasRoom
  rw [houtgoing, hcapacity, hclosed]

/-- What a write adds to what the peer is sent. -/
theorem carried_write (s : Socket α) (a : α) : (s.write a).outgoing.carried =
    if s.HasRoom then s.outgoing.carried ++ [a] else s.outgoing.carried := by
  unfold write
  split
  · exact Channel.carried_push s.outgoing a
  · rfl

end Socket

/-! ## Sets of descriptors -/

/-- A finite set of descriptors, visited in ascending order. -/
structure FdSet where
  toList : List Nat
  sorted : toList.Pairwise (· ≤ ·)
  nodup : toList.Nodup

namespace FdSet

instance : Membership Nat FdSet := ⟨fun s fd => fd ∈ s.toList⟩

/-- The members are those of the list. -/
theorem mem_iff {s : FdSet} {fd : Nat} : fd ∈ s ↔ fd ∈ s.toList := Iff.rfl

instance (s : FdSet) (fd : Nat) : Decidable (fd ∈ s) := inferInstanceAs (Decidable (fd ∈ s.toList))

instance decidableBall (s : FdSet) (P : Nat → Prop) [DecidablePred P] :
    Decidable (∀ fd ∈ s, P fd) :=
  inferInstanceAs (Decidable (∀ fd ∈ s.toList, P fd))

instance decidableBex (s : FdSet) (P : Nat → Prop) [DecidablePred P] :
    Decidable (∃ fd ∈ s, P fd) :=
  inferInstanceAs (Decidable (∃ fd ∈ s.toList, P fd))

/-- The set without elements. -/
def empty : FdSet := ⟨[], List.Pairwise.nil, List.nodup_nil⟩

/-- The empty set has no members. -/
@[simp] theorem not_mem_empty (fd : Nat) : fd ∉ empty := List.not_mem_nil

/-- Put a descriptor in. -/
def insert (s : FdSet) (fd : Nat) : FdSet :=
  if h : fd ∈ s.toList then
    s
  else
    { toList := s.toList.orderedInsert (· ≤ ·) fd
      sorted := s.sorted.orderedInsert fd _
      nodup := (List.perm_orderedInsert (· ≤ ·) fd s.toList).nodup_iff.mpr
        (List.nodup_cons.mpr ⟨h, s.nodup⟩) }

/-- The members after an insertion. -/
@[simp] theorem mem_insert {s : FdSet} {fd fd' : Nat} : fd' ∈ s.insert fd ↔ fd' = fd ∨ fd' ∈ s := by
  unfold insert
  by_cases h : fd ∈ s.toList
  · rw [dif_pos h]
    constructor
    · exact Or.inr
    · rintro (rfl | h')
      · exact h
      · exact h'
  · rw [dif_neg h]
    exact List.mem_orderedInsert (· ≤ ·)

/-- How many descriptors there are. -/
def card (s : FdSet) : Nat := s.toList.length

/-- Two members of a set with at most one are the same. -/
theorem eq_of_card_le_one {s : FdSet} (hcard : s.card ≤ 1) {fd fd' : Nat} (h : fd ∈ s)
    (h' : fd' ∈ s) : fd = fd' := by
  obtain ⟨i, hi, rfl⟩ := List.mem_iff_getElem.mp (mem_iff.mp h)
  obtain ⟨j, hj, rfl⟩ := List.mem_iff_getElem.mp (mem_iff.mp h')
  have hlength : s.toList.length ≤ 1 := hcard
  have hij : i = j := by omega
  subst hij
  rfl

/-- A set with more than one has another member than any given one. -/
theorem exists_ne_of_one_lt_card {s : FdSet} (hcard : 1 < s.card) (fd : Nat) :
    ∃ fd' ∈ s, fd' ≠ fd := by
  have hlength : 1 < s.toList.length := hcard
  have hfirst : s.toList[0] ∈ s := List.getElem_mem _
  have hsecond : s.toList[1] ∈ s := List.getElem_mem _
  have hne : s.toList[0] ≠ s.toList[1] := by
    intro heq
    have := (s.nodup.getElem_inj_iff).mp heq
    omega
  by_cases h : s.toList[0] = fd
  · exact ⟨_, hsecond, fun heq => hne (h.trans heq.symm)⟩
  · exact ⟨_, hfirst, h⟩

/-- A loop over distinct indices that updates each index's entry updates these entries once. -/
theorem list_foldl_update {β : Type} {l : List Nat} (hl : l.Nodup) (g : Nat → β → β)
    (f : Nat → β) :
    l.foldl (fun f fd => Function.update f fd (g fd (f fd))) f
      = fun fd => if fd ∈ l then g fd (f fd) else f fd := by
  induction l generalizing f with
  | nil => simp
  | cons fd l ih =>
      obtain ⟨hfd, hl⟩ := List.nodup_cons.mp hl
      rw [List.foldl_cons, ih hl]
      funext fd'
      by_cases h : fd' = fd
      · subst h
        simp [hfd]
      · simp [h]

/-- A loop over the set that updates each member's entry. -/
theorem foldl_update {β : Type} (s : FdSet) (g : Nat → β → β) (f : Nat → β) :
    s.toList.foldl (fun f fd => Function.update f fd (g fd (f fd))) f
      = fun fd => if fd ∈ s then g fd (f fd) else f fd :=
  list_foldl_update s.nodup g f

end FdSet

/-! ## Events -/

/-- An event mask. -/
structure EpollEvents where
  epollIn : Bool := false
  epollOut : Bool := false
  epollErr : Bool := false
  epollHup : Bool := false
  deriving DecidableEq, Repr

/-- Level-triggered `epoll` may report `events` for a socket registered with the mask `interest`:
end of file counts as input, and errors and hang-ups are reported whatever the mask. -/
structure Socket.Reports {α : Type} (s : Socket α) (interest events : EpollEvents) : Prop where
  nonempty : events ≠ {}
  epollIn : events.epollIn = true →
    interest.epollIn = true ∧ (s.incoming.waiting ≠ [] ∨ s.closed = true)
  epollOut : events.epollOut = true → interest.epollOut = true ∧ (s.HasRoom ∨ s.closed = true)
  hangUp : events.epollErr = true ∨ events.epollHup = true → s.closed = true

instance {α : Type} [DecidableEq α] (s : Socket α) (interest events : EpollEvents) :
    Decidable (s.Reports interest events) :=
  decidable_of_iff
    (events ≠ {} ∧
      (events.epollIn = true →
        interest.epollIn = true ∧ (s.incoming.waiting ≠ [] ∨ s.closed = true)) ∧
      (events.epollOut = true →
        interest.epollOut = true ∧ (s.HasRoom ∨ s.closed = true)) ∧
      (events.epollErr = true ∨ events.epollHup = true → s.closed = true))
    ⟨fun ⟨h₁, h₂, h₃, h₄⟩ => ⟨h₁, h₂, h₃, h₄⟩, fun ⟨h₁, h₂, h₃, h₄⟩ => ⟨h₁, h₂, h₃, h₄⟩⟩

/-! ## Sequences put together from streams -/

section interleaving

variable {ι α : Type} [DecidableEq ι]

/-- The elements with tag `i`, in order. -/
def tagged (i : ι) (xs : List (ι × α)) : List α := (xs.filter (·.1 = i)).map Prod.snd

/-- `xs` is an interleaving of all the sequences `ys i`. -/
def Interleaves (xs : List α) (ys : ι → List α) : Prop :=
  ∃ tags : List (ι × α), tags.map Prod.snd = xs ∧ ∀ i, tagged i tags = ys i

/-- Every element of `xs` is taken from one of the sequences `ys i`, none twice, and those from the
same sequence stand in its order. -/
def TakenFrom (xs : List α) (ys : ι → List α) : Prop :=
  ∃ tags : List (ι × α), tags.map Prod.snd = xs ∧ ∀ i, (tagged i tags).Sublist (ys i)

/-- Nothing interleaves to nothing. -/
theorem interleaves_nil : Interleaves ([] : List α) fun _ : ι => [] := ⟨[], rfl, fun _ => rfl⟩

/-- An element more, at the end of the whole and of one sequence. -/
theorem Interleaves.concat {xs : List α} {ys : ι → List α} (h : Interleaves xs ys) (i : ι) (a : α) :
    Interleaves (xs ++ [a]) (Function.update ys i (ys i ++ [a])) := by
  obtain ⟨tags, hxs, hys⟩ := h
  refine ⟨tags ++ [(i, a)], by simp [hxs], fun j => ?_⟩
  by_cases hj : j = i
  · subst hj
    rw [Function.update_self, ← hys j]
    simp [tagged]
  · rw [Function.update_of_ne hj, ← hys j]
    simp [tagged, Ne.symm hj]

/-- An interleaving of first parts is taken from the whole sequences. -/
theorem Interleaves.takenFrom {xs : List α} {ys zs : ι → List α} (h : Interleaves xs ys)
    (hinitial : ∀ i, ys i <+: zs i) : TakenFrom xs zs := by
  obtain ⟨tags, hxs, hys⟩ := h
  refine ⟨tags, hxs, fun i => ?_⟩
  rw [hys i]
  exact (hinitial i).sublist

/-- The tags split a list into its sequences. -/
theorem sum_length_tagged (tags : List (ι × α)) {is : Finset ι} (his : ∀ x ∈ tags, x.1 ∈ is) :
    ∑ i ∈ is, (tagged i tags).length = tags.length := by
  have hcount : ∀ i, (tagged i tags).length = Multiset.count i (tags.map Prod.fst : Multiset ι) := by
    intro i
    rw [tagged, List.length_map, Multiset.coe_count, List.count_eq_countP, List.countP_map,
      List.countP_eq_length_filter]
    rfl
  rw [Finset.sum_congr rfl fun i _ => hcount i, Multiset.sum_count_eq_card]
  · simp
  · intro i hi
    obtain ⟨x, hx, rfl⟩ := List.mem_map.mp (Multiset.mem_coe.mp hi)
    exact his x hx

/-- A tag in use names a sequence that is not empty. -/
theorem mem_of_tagged {tags : List (ι × α)} {is : Finset ι} (hout : ∀ i ∉ is, tagged i tags = [])
    {x : ι × α} (hx : x ∈ tags) : x.1 ∈ is := by
  by_contra hi
  have hmem : x.2 ∈ tagged x.1 tags :=
    List.mem_map_of_mem (List.mem_filter.mpr ⟨hx, by simp⟩)
  rw [hout _ hi] at hmem
  cases hmem

/-- An interleaving is as long as its sequences together. -/
theorem Interleaves.length_eq {xs : List α} {ys : ι → List α} (h : Interleaves xs ys)
    {is : Finset ι} (hout : ∀ i ∉ is, ys i = []) : xs.length = ∑ i ∈ is, (ys i).length := by
  obtain ⟨tags, rfl, hys⟩ := h
  rw [List.length_map,
    ← sum_length_tagged tags fun x hx => mem_of_tagged (fun i hi => (hys i).trans (hout i hi)) hx]
  exact Finset.sum_congr rfl fun i _ => by rw [hys i]

/-- What is taken from sequences is no longer than they are together. -/
theorem TakenFrom.length_le {xs : List α} {ys : ι → List α} (h : TakenFrom xs ys)
    {is : Finset ι} (hout : ∀ i ∉ is, ys i = []) : xs.length ≤ ∑ i ∈ is, (ys i).length := by
  obtain ⟨tags, rfl, hys⟩ := h
  have hempty : ∀ i ∉ is, tagged i tags = [] := fun i hi =>
    List.sublist_nil.mp (hout i hi ▸ hys i)
  rw [List.length_map, ← sum_length_tagged tags fun x hx => mem_of_tagged hempty hx]
  exact Finset.sum_le_sum fun i _ => (hys i).length_le

end interleaving

end Descriptors
