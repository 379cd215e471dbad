import Mathlib.Data.List.Perm.Basic
import Mathlib.Data.List.Nodup
import Mathlib.Logic.Function.Basic

/-! # The descriptor table of a process

A process opens and closes descriptors under numbers that the kernel reuses. The table follows one
component of the process: it gives every open file an identity, remembers which files the component
opened and closed, and what the component uses each of its descriptors for.

* `FdTable.openFd`, `FdTable.close`, `FdTable.release` — opening a number, the component closing one,
  other code closing one.
* `FdTable.WellFormed` — what the table keeps.
* `closed_perm_opened_iff` — with nothing left open, the component closed each of its files exactly
  once and no other file iff everything it closed is its own. -/

namespace Descriptors

/-- An open file: its identity, and what the component opened it for; `none` if other code did. -/
structure OpenFile (ρ : Type) where
  id : Nat
  holder : Option ρ
  deriving DecidableEq, Repr

/-- The open files of a process by number, and the files a component has opened and closed so far,
as pairs of number and identity, the last one first. -/
structure FdTable (ρ : Type) where
  entry : Nat → Option (OpenFile ρ) := fun _ => none
  next : Nat := 0
  opened : List (Nat × Nat) := []
  closed : List (Nat × Nat) := []

namespace FdTable

variable {ρ : Type} {t : FdTable ρ} {fd : Nat}

/-- Who has the number open: `none` for nobody, `some none` for other code, and
`some (some use)` for the component. -/
def user (t : FdTable ρ) (fd : Nat) : Option (Option ρ) := (t.entry fd).map OpenFile.holder

/-- A file is opened under a number, by the component or by other code. -/
def openFd (t : FdTable ρ) (fd : Nat) (holder : Option ρ) : FdTable ρ :=
  { t with
    entry := Function.update t.entry fd (some ⟨t.next, holder⟩)
    next := t.next + 1
    opened := if holder.isSome then (fd, t.next) :: t.opened else t.opened }

/-- The component closes a number: `EBADF` if it is not open. -/
def close (t : FdTable ρ) (fd : Nat) : FdTable ρ :=
  match t.entry fd with
  | some file =>
      { t with entry := Function.update t.entry fd none, closed := (fd, file.id) :: t.closed }
  | none => t

/-- Other code closes a number. -/
def release (t : FdTable ρ) (fd : Nat) : FdTable ρ :=
  { t with entry := Function.update t.entry fd none }

/-! ## Who has a number open -/

/-- The user of a number that is opened is its holder. -/
@[simp] theorem user_openFd (holder : Option ρ) :
    (t.openFd fd holder).user = Function.update t.user fd (some holder) := by
  funext fd'
  by_cases h : fd' = fd
  · subst h
    simp [user, openFd]
  · simp [user, openFd, h]

/-- A closed number has no user. -/
@[simp] theorem user_close : (t.close fd).user = Function.update t.user fd none := by
  funext fd'
  unfold close
  cases hentry : t.entry fd with
  | none =>
      by_cases h : fd' = fd
      · subst h
        simp [user, hentry]
      · simp [user, h]
  | some file =>
      by_cases h : fd' = fd
      · subst h
        simp [user]
      · simp [user, h]

/-- A number that is let go has no user. -/
@[simp] theorem user_release : (t.release fd).user = Function.update t.user fd none := by
  funext fd'
  by_cases h : fd' = fd
  · subst h
    simp [user, release]
  · simp [user, release, h]

/-- An opened file gets the next identity. -/
theorem entry_openFd (holder : Option ρ) :
    (t.openFd fd holder).entry = Function.update t.entry fd (some ⟨t.next, holder⟩) := rfl

/-- Opening closes nothing. -/
@[simp] theorem closed_openFd (holder : Option ρ) : (t.openFd fd holder).closed = t.closed := rfl

/-- The record of files opened gets those opened for the component. -/
theorem mem_opened_openFd {holder : Option ρ} {d : Nat × Nat} :
    d ∈ (t.openFd fd holder).opened ↔
      d ∈ t.opened ∨ (d = (fd, t.next) ∧ holder.isSome = true) := by
  unfold FdTable.openFd
  dsimp only
  split
  · rename_i hsome
    rw [List.mem_cons, and_iff_left hsome, or_comm]
  · rename_i hnone
    rw [or_iff_left fun hnew => hnone hnew.2]

/-- An entry is the new one, or one of another number. -/
theorem entry_openFd_cases {holder : Option ρ} {fd' : Nat} {file : OpenFile ρ}
    (h : (t.openFd fd holder).entry fd' = some file) :
    (fd' = fd ∧ file = ⟨t.next, holder⟩) ∨ (fd' ≠ fd ∧ t.entry fd' = some file) := by
  rw [entry_openFd] at h
  by_cases heq : fd' = fd
  · subst heq
    rw [Function.update_self] at h
    exact Or.inl ⟨rfl, (Option.some.inj h).symm⟩
  · rw [Function.update_of_ne heq] at h
    exact Or.inr ⟨heq, h⟩

/-- A number that is open has an entry. -/
theorem entry_of_user {holder : Option ρ} (h : t.user fd = some holder) :
    ∃ id, t.entry fd = some ⟨id, holder⟩ := by
  obtain ⟨⟨id, holder'⟩, hentry, hholder⟩ := Option.map_eq_some_iff.mp h
  obtain rfl : holder' = holder := hholder
  exact ⟨id, hentry⟩

/-- What a number that is open and closed by the component leaves in its record. -/
theorem mem_closed_close (h : t.user fd ≠ none) : ∃ id, (fd, id) ∈ (t.close fd).closed := by
  obtain ⟨holder, hholder⟩ := Option.ne_none_iff_exists'.mp h
  obtain ⟨id, hentry⟩ := entry_of_user hholder
  refine ⟨id, ?_⟩
  rw [close, hentry]
  exact List.mem_cons_self

/-- The record of closed files only grows. -/
theorem closed_subset_close : t.closed ⊆ (t.close fd).closed := by
  unfold close
  split
  · exact List.subset_cons_self _ _
  · exact List.Subset.refl _

/-! ## What the table keeps -/

/-- Identities are new and the records agree with the entries: an open file has not been closed, it
is in the record of the component's files iff the component opened it, and a file of the component
has been closed or is open. -/
structure WellFormed (t : FdTable ρ) : Prop where
  entry_lt : ∀ {fd file}, t.entry fd = some file → file.id < t.next
  opened_lt : ∀ d ∈ t.opened, d.2 < t.next
  closed_lt : ∀ d ∈ t.closed, d.2 < t.next
  nodup_opened : t.opened.Nodup
  nodup_closed : t.closed.Nodup
  not_closed : ∀ {fd file}, t.entry fd = some file → (fd, file.id) ∉ t.closed
  mem_opened_iff : ∀ {fd file}, t.entry fd = some file →
    ((fd, file.id) ∈ t.opened ↔ file.holder.isSome = true)
  accounted : ∀ d ∈ t.opened, d ∈ t.closed ∨ ∃ file, t.entry d.1 = some file ∧ file.id = d.2

/-- A table without files is well formed. -/
theorem wellFormed_empty : WellFormed ({} : FdTable ρ) := by
  constructor <;> simp

/-- Opening a free number keeps the table well formed. -/
theorem WellFormed.openFd (h : t.WellFormed) (hfree : t.user fd = none) (holder : Option ρ) :
    (t.openFd fd holder).WellFormed := by
  have hentry : t.entry fd = none := Option.map_eq_none_iff.mp hfree
  -- the new identity is `next`, which nothing opened or closed so far has
  have hopened : ∀ fd', (fd', t.next) ∉ t.opened := fun fd' hmem =>
    Nat.lt_irrefl _ (h.opened_lt _ hmem)
  have hclosed : ∀ fd', (fd', t.next) ∉ t.closed := fun fd' hmem =>
    Nat.lt_irrefl _ (h.closed_lt _ hmem)
  constructor
  · intro fd' file hfile
    rcases entry_openFd_cases hfile with ⟨-, rfl⟩ | ⟨-, hfile⟩
    · exact Nat.lt_succ_self _
    · exact Nat.lt_succ_of_lt (h.entry_lt hfile)
  · intro d hd
    rcases mem_opened_openFd.mp hd with hd | ⟨rfl, -⟩
    · exact Nat.lt_succ_of_lt (h.opened_lt d hd)
    · exact Nat.lt_succ_self _
  · exact fun d hd => Nat.lt_succ_of_lt (h.closed_lt d hd)
  · unfold FdTable.openFd
    dsimp only
    split
    · exact List.nodup_cons.mpr ⟨hopened fd, h.nodup_opened⟩
    · exact h.nodup_opened
  · exact h.nodup_closed
  · intro fd' file hfile
    rcases entry_openFd_cases hfile with ⟨-, rfl⟩ | ⟨-, hfile⟩
    · exact hclosed fd'
    · exact h.not_closed hfile
  · intro fd' file hfile
    rw [mem_opened_openFd]
    rcases entry_openFd_cases hfile with ⟨rfl, rfl⟩ | ⟨hne, hfile⟩
    · rw [or_iff_right (hopened fd')]
      exact and_iff_right rfl
    · rw [← h.mem_opened_iff hfile, or_iff_left]
      exact fun hnew => hne (congrArg Prod.fst hnew.1)
  · intro d hd
    rcases mem_opened_openFd.mp hd with hd | ⟨rfl, -⟩
    · rcases h.accounted d hd with hclosed | ⟨file, hfile, hid⟩
      · exact Or.inl hclosed
      · have hne : d.1 ≠ fd := fun heq => by simp [heq, hentry] at hfile
        exact Or.inr ⟨file, by simpa [FdTable.openFd, hne] using hfile, hid⟩
    · exact Or.inr ⟨⟨t.next, holder⟩, by simp [FdTable.openFd], rfl⟩

/-- An entry of the table without the number `fd` is an entry for another number. -/
theorem entry_update_none {fd' : Nat} {file : OpenFile ρ}
    (h : Function.update t.entry fd none fd' = some file) : fd' ≠ fd ∧ t.entry fd' = some file := by
  by_cases heq : fd' = fd
  · subst heq
    simp at h
  · exact ⟨heq, by simpa [heq] using h⟩

/-- A close by the component keeps the table well formed. -/
theorem WellFormed.close (h : t.WellFormed) (fd : Nat) : (t.close fd).WellFormed := by
  unfold FdTable.close
  cases hentry : t.entry fd with
  | none => exact h
  | some file =>
      constructor
      · exact fun hfile => h.entry_lt (entry_update_none hfile).2
      · exact h.opened_lt
      · intro d hd
        rcases List.mem_cons.mp hd with rfl | hd
        · exact h.entry_lt hentry
        · exact h.closed_lt d hd
      · exact h.nodup_opened
      · exact List.nodup_cons.mpr ⟨h.not_closed hentry, h.nodup_closed⟩
      · intro fd' file' hfile hmem
        obtain ⟨hne, hfile⟩ := entry_update_none hfile
        rcases List.mem_cons.mp hmem with heq | hmem
        · exact hne (congrArg Prod.fst heq)
        · exact h.not_closed hfile hmem
      · exact fun hfile => h.mem_opened_iff (entry_update_none hfile).2
      · intro d hd
        rcases h.accounted d hd with hclosed | ⟨file', hfile, hid⟩
        · exact Or.inl (List.mem_cons_of_mem _ hclosed)
        · by_cases heq : d.1 = fd
          · have hfile : file = file' := Option.some.inj (hentry.symm.trans (heq ▸ hfile))
            refine Or.inl (List.mem_cons.mpr (Or.inl ?_))
            exact Prod.ext heq (by rw [hfile, hid])
          · exact Or.inr ⟨file', by simpa [heq] using hfile, hid⟩

/-- Other code closing its own descriptors keeps the table well formed. -/
theorem WellFormed.release (h : t.WellFormed) (hother : t.user fd = some none) :
    (t.release fd).WellFormed := by
  obtain ⟨id, hentry⟩ := entry_of_user hother
  refine ⟨fun hfile => h.entry_lt (entry_update_none hfile).2, h.opened_lt, h.closed_lt,
    h.nodup_opened, h.nodup_closed, fun hfile => h.not_closed (entry_update_none hfile).2,
    fun hfile => h.mem_opened_iff (entry_update_none hfile).2, ?_⟩
  intro d hd
  rcases h.accounted d hd with hclosed | ⟨file, hfile, hid⟩
  · exact Or.inl hclosed
  · refine Or.inr ⟨file, ?_, hid⟩
    have hne : d.1 ≠ fd := by
      -- the component's record has no file of other code
      intro heq
      have hfile' : file = ⟨id, none⟩ := Option.some.inj (hfile.symm.trans (heq ▸ hentry))
      have hmem : (fd, file.id) ∈ t.opened := by
        rw [← heq, hid]
        exact hd
      rw [hfile'] at hmem
      simpa using (h.mem_opened_iff hentry).mp hmem
    simpa [FdTable.release, hne] using hfile

/-! ## Closing only what was opened -/

/-- The component has closed its own files only. -/
def ClosedOwn (t : FdTable ρ) : Prop := t.closed ⊆ t.opened

/-- Opening a number does not make a file that was closed before the component's own. -/
theorem WellFormed.closedOwn_openFd_iff (h : t.WellFormed) (holder : Option ρ) :
    (t.openFd fd holder).ClosedOwn ↔ t.ClosedOwn := by
  unfold ClosedOwn FdTable.openFd
  dsimp only
  by_cases hsome : holder.isSome = true
  · rw [if_pos hsome]
    constructor
    · intro hsubset d hd
      rcases List.mem_cons.mp (hsubset hd) with rfl | hmem
      · exact absurd (h.closed_lt _ hd) (Nat.lt_irrefl _)
      · exact hmem
    · exact fun hsubset d hd => List.mem_cons_of_mem _ (hsubset hd)
  · rw [if_neg hsome]

/-- A close stays within the component's own files iff the number is not open in other code. -/
theorem WellFormed.closedOwn_close_iff (h : t.WellFormed) :
    (t.close fd).ClosedOwn ↔ t.ClosedOwn ∧ t.user fd ≠ some none := by
  unfold ClosedOwn FdTable.close user
  cases hentry : t.entry fd with
  | none => simp
  | some file =>
      have hiff := h.mem_opened_iff hentry
      cases hholder : file.holder with
      | none =>
          rw [hholder] at hiff
          simp [hholder, hiff]
      | some use =>
          rw [hholder] at hiff
          simp [hholder, hiff]

/-- **Each exactly once.** With none of its files open any more, the component has closed each file
it opened exactly once, and nothing else, iff everything it has closed is its own. -/
theorem WellFormed.closed_perm_opened_iff (h : t.WellFormed)
    (hnone : ∀ fd use, t.user fd ≠ some (some use)) : t.closed.Perm t.opened ↔ t.ClosedOwn := by
  constructor
  · exact fun hperm => hperm.subset
  · intro hown
    refine (List.perm_ext_iff_of_nodup h.nodup_closed h.nodup_opened).mpr fun d => ⟨@hown d, ?_⟩
    intro hd
    rcases h.accounted d hd with hclosed | ⟨file, hfile, hid⟩
    · exact hclosed
    · -- an open file of the component
      have hmem : (d.1, file.id) ∈ t.opened := by rwa [hid]
      obtain ⟨use, huse⟩ := Option.isSome_iff_exists.mp ((h.mem_opened_iff hfile).mp hmem)
      exact absurd (by simp [user, hfile, huse]) (hnone d.1 use)

end FdTable

end Descriptors
