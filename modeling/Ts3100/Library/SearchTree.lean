import Mathlib.Data.List.Pairwise
import Mathlib.Order.Defs.Unbundled

/-! # Search trees over a strict partial order

A binary search tree whose keys are compared by `lt` alone, where two keys count as equal iff neither
is less. The order on keys is only asked to be transitive: that neither of two keys is less need not
be transitive, as long as the stored keys are a chain.

* `find?_eq_none_iff` — a search finds nothing iff the key is comparable with every stored key.
* `emplace_eq_none_iff` — an insertion is refused iff a search would find something.
* `Built` — the trees that insertions build, with any rebalancing in between; their keys are a
  chain (`Built.ordered`), and their entries are those not refused (`Built.mem_toList`). -/

universe u v

/-- A binary search tree. -/
inductive SearchTree (K : Type u) (V : Type v) where
  | leaf
  | node (left : SearchTree K V) (key : K) (value : V) (right : SearchTree K V)
  deriving DecidableEq, Repr

namespace SearchTree

variable {K : Type u} {V : Type v}

/-- The entries in order. -/
def toList : SearchTree K V → List (K × V)
  | leaf => []
  | node left key value right => left.toList ++ (key, value) :: right.toList

section order

variable (lt : K → K → Prop) [DecidableRel lt]

/-- The entry whose key is equal to `k`. -/
def find? (k : K) : SearchTree K V → Option (K × V)
  | leaf => none
  | node left key value right =>
      if lt k key then left.find? k else if lt key k then right.find? k else some (key, value)

/-- A new entry at a leaf, `none` if there is an entry with an equal key. -/
def emplace (k : K) (v : V) : SearchTree K V → Option (SearchTree K V)
  | leaf => some (node leaf k v leaf)
  | node left key value right =>
      if lt k key then (left.emplace k v).map fun left => node left key value right
      else if lt key k then (right.emplace k v).map fun right => node left key value right
      else none

/-- The keys in order are a chain. -/
def Ordered (t : SearchTree K V) : Prop := t.toList.Pairwise fun a b => lt a.1 b.1

variable {lt} {t : SearchTree K V} {k : K} {v : V}

omit [DecidableRel lt] in
/-- A tree is in order if its subtrees are, with the key between them. -/
theorem ordered_node_iff {left right : SearchTree K V} {key : K} {value : V} :
    (node left key value right).Ordered lt ↔
      left.Ordered lt ∧ right.Ordered lt ∧ (∀ e ∈ left.toList, lt e.1 key) ∧
        (∀ e ∈ right.toList, lt key e.1) ∧ ∀ a ∈ left.toList, ∀ b ∈ right.toList, lt a.1 b.1 := by
  unfold Ordered
  rw [toList, List.pairwise_append, List.pairwise_cons]
  constructor
  · rintro ⟨hleft, ⟨hkey, hright⟩, hall⟩
    exact ⟨hleft, hright, fun e he => hall e he _ List.mem_cons_self, hkey,
      fun a ha b hb => hall a ha b (List.mem_cons_of_mem _ hb)⟩
  · rintro ⟨hleft, hright, hbelow, habove, hall⟩
    refine ⟨hleft, ⟨habove, hright⟩, fun a ha b hb => ?_⟩
    rcases List.mem_cons.mp hb with rfl | hb
    · exact hbelow a ha
    · exact hall a ha b hb

omit [DecidableRel lt] in
/-- The keys of two entries of a chain are comparable. -/
theorem Ordered.comparable (ht : t.Ordered lt) {a b : K × V} (ha : a ∈ t.toList)
    (hb : b ∈ t.toList) (hne : a ≠ b) : lt a.1 b.1 ∨ lt b.1 a.1 := by
  have : Std.Symm fun a b : K × V => lt a.1 b.1 ∨ lt b.1 a.1 := ⟨fun _ _ => Or.symm⟩
  exact (List.Pairwise.imp (S := fun a b : K × V => lt a.1 b.1 ∨ lt b.1 a.1) Or.inl ht).forall
    ha hb hne

/-- What a search finds is stored, and its key is equal. -/
theorem mem_of_find?_eq_some {e : K × V} (h : t.find? lt k = some e) :
    e ∈ t.toList ∧ ¬ lt k e.1 ∧ ¬ lt e.1 k := by
  induction t with
  | leaf => simp [find?] at h
  | node left key value right ihl ihr =>
      rw [find?] at h
      rw [toList]
      split at h
      · obtain ⟨hmem, hkey⟩ := ihl h
        exact ⟨List.mem_append_left _ hmem, hkey⟩
      · split at h
        · obtain ⟨hmem, hkey⟩ := ihr h
          exact ⟨List.mem_append_right _ (List.mem_cons_of_mem _ hmem), hkey⟩
        · rename_i hbelow habove
          obtain rfl : (key, value) = e := by simpa using h
          exact ⟨List.mem_append_right _ List.mem_cons_self, hbelow, habove⟩

/-- In a chain, a search that finds nothing has compared the key with every stored one. -/
theorem find?_eq_none_iff [IsTrans K lt] (ht : t.Ordered lt) :
    t.find? lt k = none ↔ ∀ e ∈ t.toList, lt k e.1 ∨ lt e.1 k := by
  induction t with
  | leaf => simp [find?, toList]
  | node left key value right ihl ihr =>
      obtain ⟨hleft, hright, hbelow, habove, -⟩ := ordered_node_iff.mp ht
      rw [find?, toList]
      by_cases hlt : lt k key
      · -- every key on the right is above `key`, hence above `k`
        rw [if_pos hlt, ihl hleft]
        constructor
        · intro hall e he
          rcases List.mem_append.mp he with he | he
          · exact hall e he
          · rcases List.mem_cons.mp he with rfl | he
            · exact Or.inl hlt
            · exact Or.inl (trans_of lt hlt (habove e he))
        · exact fun hall e he => hall e (List.mem_append_left _ he)
      · rw [if_neg hlt]
        by_cases hgt : lt key k
        · rw [if_pos hgt, ihr hright]
          constructor
          · intro hall e he
            rcases List.mem_append.mp he with he | he
            · exact Or.inr (trans_of lt (hbelow e he) hgt)
            · rcases List.mem_cons.mp he with rfl | he
              · exact Or.inr hgt
              · exact hall e he
          · exact fun hall e he => hall e (List.mem_append_right _ (List.mem_cons_of_mem _ he))
        · rw [if_neg hgt]
          refine iff_of_false (by simp) fun hall => ?_
          rcases hall (key, value) (List.mem_append_right _ List.mem_cons_self) with h | h
          · exact hlt h
          · exact hgt h

/-- An insertion descends as a search does. -/
theorem emplace_eq_none_iff : t.emplace lt k v = none ↔ t.find? lt k ≠ none := by
  induction t with
  | leaf => simp [emplace, find?]
  | node left key value right ihl ihr =>
      rw [emplace, find?]
      split
      · rw [Option.map_eq_none_iff, ihl]
      · split
        · rw [Option.map_eq_none_iff, ihr]
        · simp

/-- A new entry is put between the entries below and those above it. -/
theorem toList_emplace [IsTrans K lt] {t' : SearchTree K V} (ht : t.Ordered lt)
    (h : t.emplace lt k v = some t') :
    ∃ below above, t.toList = below ++ above ∧ t'.toList = below ++ (k, v) :: above ∧
      (∀ e ∈ below, lt e.1 k) ∧ ∀ e ∈ above, lt k e.1 := by
  induction t generalizing t' with
  | leaf =>
      obtain rfl : node leaf k v leaf = t' := by simpa [emplace] using h
      exact ⟨[], [], rfl, rfl, by simp, by simp⟩
  | node left key value right ihl ihr =>
      obtain ⟨hleft, hright, hbelow, habove, -⟩ := ordered_node_iff.mp ht
      rw [emplace] at h
      split at h
      · rename_i hlt
        -- put in on the left: this node and its right side stay above the new entry
        obtain ⟨left', hleft', rfl⟩ := Option.map_eq_some_iff.mp h
        obtain ⟨below, above, hlist, hlist', hb, ha⟩ := ihl hleft hleft'
        refine ⟨below, above ++ (key, value) :: right.toList, ?_, ?_, hb, fun e he => ?_⟩
        · rw [toList, hlist, List.append_assoc]
        · rw [toList, hlist', List.append_assoc, List.cons_append]
        · rcases List.mem_append.mp he with he | he
          · exact ha e he
          · rcases List.mem_cons.mp he with rfl | he
            · exact hlt
            · exact trans_of lt hlt (habove e he)
      · split at h
        · rename_i hgt
          -- put in on the right: this node and its left side stay below it
          obtain ⟨right', hright', rfl⟩ := Option.map_eq_some_iff.mp h
          obtain ⟨below, above, hlist, hlist', hb, ha⟩ := ihr hright hright'
          refine ⟨left.toList ++ (key, value) :: below, above, ?_, ?_, fun e he => ?_, ha⟩
          · rw [toList, hlist, List.append_assoc, List.cons_append]
          · rw [toList, hlist', List.append_assoc, List.cons_append]
          · rcases List.mem_append.mp he with he | he
            · exact trans_of lt (hbelow e he) hgt
            · rcases List.mem_cons.mp he with rfl | he
              · exact hgt
              · exact hb e he
        · exact absurd h (by simp)

/-- A chain stays one. -/
theorem Ordered.emplace [IsTrans K lt] {t' : SearchTree K V} (ht : t.Ordered lt)
    (h : t.emplace lt k v = some t') : t'.Ordered lt := by
  obtain ⟨below, above, hlist, hlist', hb, ha⟩ := toList_emplace ht h
  unfold Ordered at ht ⊢
  rw [hlist, List.pairwise_append] at ht
  rw [hlist', List.pairwise_append, List.pairwise_cons]
  obtain ⟨hbelow, habove, hall⟩ := ht
  refine ⟨hbelow, ⟨ha, habove⟩, fun a hamem b hbmem => ?_⟩
  rcases List.mem_cons.mp hbmem with rfl | hbmem
  · exact hb a hamem
  · exact hall a hamem b hbmem

/-! ## Sequences of insertions -/

variable (lt) in
/-- The trees that a sequence of insertions builds, the last one first, each with whether it was
accepted. After an insertion the tree may be rebalanced to any shape with the same entries in
order. -/
inductive Built : List ((K × V) × Bool) → SearchTree K V → Prop
  | empty : Built [] leaf
  | accepted {history : List ((K × V) × Bool)} {t t' balanced : SearchTree K V} {k : K} {v : V}
      (before : Built history t) (emplaced : t.emplace lt k v = some t')
      (rebalanced : balanced.toList = t'.toList) : Built (((k, v), true) :: history) balanced
  | refused {history : List ((K × V) × Bool)} {t : SearchTree K V} {k : K} {v : V}
      (before : Built history t) (refused : t.emplace lt k v = none) :
      Built (((k, v), false) :: history) t

variable (lt) in
/-- Every sequence of insertions builds a tree. -/
theorem exists_built (entries : List (K × V)) :
    ∃ history t, Built lt history t ∧ history.map Prod.fst = entries := by
  induction entries with
  | nil => exact ⟨[], leaf, .empty, rfl⟩
  | cons entry entries ih =>
      obtain ⟨history, t, hbuilt, rfl⟩ := ih
      cases hemplace : t.emplace lt entry.1 entry.2 with
      | none => exact ⟨_, t, hbuilt.refused hemplace, rfl⟩
      | some t' => exact ⟨_, t', hbuilt.accepted hemplace rfl, rfl⟩

/-- The keys of a tree that insertions build are in order. -/
theorem Built.ordered [IsTrans K lt] {history : List ((K × V) × Bool)}
    (h : Built lt history t) : t.Ordered lt := by
  induction h with
  | empty => exact List.Pairwise.nil
  | accepted _ emplaced rebalanced ih =>
      have hnext := ih.emplace emplaced
      unfold Ordered at hnext ⊢
      rw [rebalanced]
      exact hnext
  | refused _ _ ih => exact ih

/-- The entries of a tree are those that were not refused. -/
theorem Built.mem_toList [IsTrans K lt] {history : List ((K × V) × Bool)}
    (h : Built lt history t) (e : K × V) : e ∈ t.toList ↔ (e, true) ∈ history := by
  induction h with
  | empty => simp [toList]
  | accepted before emplaced rebalanced ih =>
      obtain ⟨below, above, hlist, hlist', -⟩ := toList_emplace before.ordered emplaced
      have hnew : ∀ a b : K × V, (a, true) = (b, true) ↔ a = b := by simp
      rw [rebalanced, hlist', List.mem_append, List.mem_cons, List.mem_cons, ← ih, hlist,
        List.mem_append, hnew, or_left_comm]
  | refused _ _ ih => simp [ih]

end order

end SearchTree
