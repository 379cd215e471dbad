import Ts3100.Library.WriteLog

/-! # Address spaces

An address space says what is behind each address: a cell that may be written, a cell that may only
be read, or nothing. Several addresses may show the same cell, and what is behind an address may
change from one access to the next.

* `Space.load`, `Space.writes` — what a load returns, and the writes a store makes, as entries of a
  `WriteLog`: one where the cell may be written, none elsewhere (`eq_of_mem_writes`).
* `Space.rename` — the same space over other names of the cells; `load_rename` and `contents_rename`
  say that loads and stores are the same. -/

namespace AddressSpace

open WriteLog

universe u v w x

/-- What is behind an address: a cell, and whether it may be written. -/
structure Backing (κ : Type v) where
  cell : κ
  writable : Bool
  deriving DecidableEq, Repr

/-- What is behind each address. -/
abbrev Space (α : Type u) (κ : Type v) : Type (max u v) := α → Option (Backing κ)

namespace Space

variable {α : Type u} {κ : Type v} {κ' : Type x} {β : Type w} (sp : Space α κ)

/-- What is loaded from an address; nothing where there is no cell. -/
def load (cells : κ → β) (a : α) : Option β := (sp a).map fun b => cells b.cell

/-- The writes that a store makes. -/
def writes (a : α) (value : β) : List (κ × β) :=
  match sp a with
  | some ⟨cell, true⟩ => [(cell, value)]
  | some ⟨_, false⟩ => []
  | none => []

variable {sp} {a : α}

/-- A store to a cell that may be written is one write. -/
theorem writes_of_writable {cell : κ} (h : sp a = some ⟨cell, true⟩) (value : β) :
    sp.writes a value = [(cell, value)] := by
  rw [writes, h]

/-- A cell that a store writes is the one at the address, and may be written. -/
theorem eq_of_mem_writes {cell : κ} {value : β} (h : cell ∈ (sp.writes a value).map Prod.fst) :
    sp a = some ⟨cell, true⟩ := by
  cases hsp : sp a with
  | none => simp [writes, hsp] at h
  | some b =>
      obtain ⟨cell', writable⟩ := b
      cases writable with
      | false => simp [writes, hsp] at h
      | true =>
          rw [writes_of_writable hsp, List.map_singleton, List.mem_singleton] at h
          rw [h]

/-! ## Other names for the cells -/

/-- The space over cells that are named by `f`. -/
def rename (f : κ → κ') (sp : Space α κ) : Space α κ' :=
  fun a => (sp a).map fun b => ⟨f b.cell, b.writable⟩

/-- A load through other names. -/
theorem load_rename (f : κ → κ') (cells : κ' → β) (a : α) :
    (sp.rename f).load cells a = sp.load (cells ∘ f) a := by
  simp [load, rename, Function.comp_def]

/-- A store through other names. -/
theorem contents_rename [DecidableEq κ] [DecidableEq κ'] {f : κ → κ'} (hf : Function.Injective f)
    (cells : κ' → β) (a : α) (value : β) :
    contents cells ((sp.rename f).writes a value) ∘ f = contents (cells ∘ f) (sp.writes a value) := by
  cases hsp : sp a with
  | none =>
      have hrename : sp.rename f a = none := by simp [rename, hsp]
      simp [writes, hsp, hrename]
  | some b =>
      obtain ⟨cell, writable⟩ := b
      have hrename : sp.rename f a = some ⟨f cell, writable⟩ := by simp [rename, hsp]
      cases writable with
      | false => simp [writes, hsp, hrename]
      | true =>
          rw [writes_of_writable hrename, writes_of_writable hsp]
          exact Function.update_comp_eq_of_injective cells hf cell value

end Space

end AddressSpace
