import Mathlib.Logic.Equiv.Basic
import Mathlib.Logic.Function.Basic

/-! # Disjoint unions of partial maps

Several members each hold a partial map; a table holds the union of them all, and no key is held
twice.

* `IsDisjointUnion table held` — the table is the disjoint union of what the members hold.
* `IsDisjointUnion.set`, `IsDisjointUnion.drop` — one member's entry changes, or all of them go.
* `IsDisjointUnion.move` — a member hands everything it holds to one that holds nothing. -/

namespace PartialMaps

universe u v w

variable {ι : Type u} {κ : Type v} {α : Type w}

/-- The table is the union of the maps that the members hold, whose domains are disjoint. -/
structure IsDisjointUnion (table : κ → Option α) (held : ι → κ → Option α) : Prop where
  covers : ∀ k a, table k = some a ↔ ∃ i, held i k = some a
  disjoint : ∀ k i j a b, held i k = some a → held j k = some b → i = j

namespace IsDisjointUnion

variable {table : κ → Option α} {held : ι → κ → Option α}

/-- What a member holds is in the table. -/
theorem apply_eq (h : IsDisjointUnion table held) {i : ι} {k : κ} {a : α} (hi : held i k = some a) :
    table k = some a :=
  (h.covers k a).mpr ⟨i, hi⟩

/-- A key that a member holds is held by no other. -/
theorem eq_none_of_ne (h : IsDisjointUnion table held) {i j : ι} {k : κ} {a : α}
    (hi : held i k = some a) (hne : j ≠ i) : held j k = none := by
  rcases hj : held j k with _ | b
  · rfl
  · exact absurd (h.disjoint k j i b a hj hi) hne

/-- A key that nobody holds is not in the table. -/
theorem eq_none (h : IsDisjointUnion table held) {k : κ} (hnone : ∀ i, held i k = none) :
    table k = none := by
  rcases htable : table k with _ | a
  · rfl
  · obtain ⟨i, hi⟩ := (h.covers k a).mp htable
    exact absurd (hi.symm.trans (hnone i)) (by simp)

/-- Renaming the members changes nothing. -/
theorem reindex {ι' : Type*} (h : IsDisjointUnion table held) (e : ι' ≃ ι) :
    IsDisjointUnion table fun i => held (e i) := by
  constructor
  · intro k a
    rw [h.covers]
    constructor
    · rintro ⟨i, hi⟩
      exact ⟨e.symm i, by rwa [e.apply_symm_apply]⟩
    · rintro ⟨i, hi⟩
      exact ⟨e i, hi⟩
  · intro k i j a b hi hj
    exact e.injective (h.disjoint k (e i) (e j) a b hi hj)

variable [DecidableEq ι]

/-- One member and nobody else holds something. -/
theorem single (i : ι) (m : κ → Option α) :
    IsDisjointUnion m (Function.update (fun _ : ι => fun _ => none) i m) := by
  have heq {j : ι} {k : κ} {a : α}
      (hj : Function.update (fun _ : ι => fun _ => none) i m j k = some a) : j = i := by
    by_contra hne
    rw [Function.update_of_ne hne] at hj
    exact absurd hj (by simp)
  constructor
  · intro k a
    constructor
    · intro hm
      exact ⟨i, by rw [Function.update_self]; exact hm⟩
    · rintro ⟨j, hj⟩
      obtain rfl := heq hj
      rwa [Function.update_self] at hj
  · intro k j j' a b hj hj'
    exact (heq hj).trans (heq hj').symm

/-- **An entry changes.** A member sets or removes a key that no other member holds. -/
theorem set [DecidableEq κ] (h : IsDisjointUnion table held) {i : ι} {k : κ}
    (hfree : ∀ j, j ≠ i → held j k = none) (entry : Option α) :
    IsDisjointUnion (Function.update table k entry)
      (Function.update held i (Function.update (held i) k entry)) := by
  -- at other keys nothing changes, at `k` only the member's entry is left
  have hother {j : ι} {k' : κ} (hk : k' ≠ k) :
      Function.update held i (Function.update (held i) k entry) j k' = held j k' := by
    by_cases hj : j = i
    · subst hj
      rw [Function.update_self, Function.update_of_ne hk]
    · rw [Function.update_of_ne hj]
  have hself : Function.update held i (Function.update (held i) k entry) i k = entry := by
    rw [Function.update_self, Function.update_self]
  have heq {j : ι} {a : α}
      (hj : Function.update held i (Function.update (held i) k entry) j k = some a) : j = i := by
    by_contra hne
    rw [Function.update_of_ne hne, hfree j hne] at hj
    exact absurd hj (by simp)
  constructor
  · intro k' a
    by_cases hk : k' = k
    · subst hk
      rw [Function.update_self]
      constructor
      · intro hentry
        exact ⟨i, hself.trans hentry⟩
      · rintro ⟨j, hj⟩
        obtain rfl := heq hj
        exact hself.symm.trans hj
    · rw [Function.update_of_ne hk, h.covers]
      simp only [hother hk]
  · intro k' j j' a b hj hj'
    by_cases hk : k' = k
    · subst hk
      exact (heq hj).trans (heq hj').symm
    · rw [hother hk] at hj hj'
      exact h.disjoint k' j j' a b hj hj'

/-- **A member drops what it holds.** -/
theorem drop (h : IsDisjointUnion table held) (i : ι) :
    IsDisjointUnion (fun k => if (held i k).isSome then none else table k)
      (Function.update held i fun _ => none) := by
  have hne {j : ι} {k : κ} {a : α}
      (hj : Function.update held i (fun _ => none) j k = some a) : j ≠ i ∧ held j k = some a := by
    by_cases hji : j = i
    · subst hji
      rw [Function.update_self] at hj
      exact absurd hj (by simp)
    · rw [Function.update_of_ne hji] at hj
      exact ⟨hji, hj⟩
  constructor
  · intro k a
    rcases hi : held i k with _ | b
    · simp only [Option.isSome_none, Bool.false_eq_true, ↓reduceIte]
      rw [h.covers]
      constructor
      · rintro ⟨j, hj⟩
        have hji : j ≠ i := by
          rintro rfl
          exact absurd (hi.symm.trans hj) (by simp)
        exact ⟨j, by rwa [Function.update_of_ne hji]⟩
      · rintro ⟨j, hj⟩
        exact ⟨j, (hne hj).2⟩
    · simp only [Option.isSome_some, ↓reduceIte, reduceCtorEq, false_iff, not_exists]
      intro j hj
      obtain ⟨hji, hj⟩ := hne hj
      exact absurd ((h.eq_none_of_ne hi hji).symm.trans hj) (by simp)
  · intro k j j' a b hj hj'
    exact h.disjoint k j j' a b (hne hj).2 (hne hj').2

/-- **A member hands over.** `i` hands all it holds to `j`, which holds nothing. -/
theorem move (h : IsDisjointUnion table held) {i j : ι} (hj : held j = fun _ => none) :
    IsDisjointUnion table
      (Function.update (Function.update held i fun _ => none) j (held i)) := by
  have hswap : Function.update (Function.update held i fun _ => none) j (held i) =
      fun m => held (Equiv.swap i j m) := by
    funext m
    by_cases hmj : m = j
    · rw [hmj, Function.update_self, Equiv.swap_apply_right]
    · rw [Function.update_of_ne hmj]
      by_cases hmi : m = i
      · rw [hmi, Function.update_self, Equiv.swap_apply_left, hj]
      · rw [Function.update_of_ne hmi, Equiv.swap_apply_of_ne_of_ne hmi hmj]
  rw [hswap]
  exact h.reindex (Equiv.swap i j)

end IsDisjointUnion

end PartialMaps
