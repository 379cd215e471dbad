import Ts3100.Library.Traces

/-! # Stores of blocks

A store of blocks is an array of cells that is read and written in blocks of `size` cells. It is the
specification of a disk.

* `Request`, `step` — reads and writes of consecutive blocks, and what they answer.
* `cells_of_run` — a block that no request of a run writes is as it was.
* `read_back` — what is written is read back, until it is written again. -/

namespace BlockStore

open LabelledRuns

universe u

variable {α : Type u}

/-- A request for `count` blocks from the block `first` on. A write brings the cells. -/
inductive Request (α : Type u)
  | read (first count : Nat)
  | write (first count : Nat) (data : Nat → α)

namespace Request

/-- The cells a request answers with, from a store that holds `cells`. -/
def answer (size : Nat) (cells : Nat → α) : Request α → List α
  | read first count => (List.range (size * count)).map fun j => cells (first * size + j)
  | write _ _ _ => []

/-- The cells after a request. -/
def apply (size : Nat) (cells : Nat → α) : Request α → Nat → α
  | read _ _ => cells
  | write first count data => fun x =>
      if first * size ≤ x ∧ x < first * size + size * count then data (x - first * size) else cells x

/-- A request writes to a block. -/
def Writes (b : Nat) : Request α → Prop
  | read _ _ => False
  | write first count _ => first ≤ b ∧ b < first + count

end Request

/-- A store of blocks. -/
def step (size : Nat) (cells : Nat → α) (r : Request α) : Option (List α × (Nat → α)) :=
  some (r.answer size cells, r.apply size cells)

variable {size : Nat} {cells cells' : Nat → α} {rs : List (Request α)}

/-- A store answers every request. -/
theorem exists_trace (size : Nat) (cells : Nat → α) (rs : List (Request α)) :
    ∃ answers cells', trace (step size) cells rs = some (answers, cells') := by
  induction rs generalizing cells with
  | nil => exact ⟨[], cells, rfl⟩
  | cons r rs ih =>
      obtain ⟨answers, cells', htrace⟩ := ih (r.apply size cells)
      exact ⟨_, cells', trace_cons_eq_some.mpr ⟨_, _, answers, rfl, htrace, rfl⟩⟩

/-- A cell of a block that a request does not write. -/
theorem apply_of_not_writes {r : Request α} {x : Nat} (hsize : 0 < size)
    (hr : ¬ r.Writes (x / size)) : r.apply size cells x = cells x := by
  cases r with
  | read first count => rfl
  | write first count data =>
      refine if_neg fun hx => hr ⟨(Nat.le_div_iff_mul_le hsize).mpr hx.1, ?_⟩
      rw [Nat.div_lt_iff_lt_mul hsize, Nat.add_mul, Nat.mul_comm count]
      exact hx.2

/-- **Frame.** A block that no request of a run writes is as it was. -/
theorem cells_of_run {answers : List (List α)} {x : Nat} (hsize : 0 < size)
    (htrace : trace (step size) cells rs = some (answers, cells'))
    (hrs : ∀ r ∈ rs, ¬ r.Writes (x / size)) : cells' x = cells x := by
  induction rs generalizing cells answers with
  | nil =>
      obtain ⟨-, rfl⟩ := Prod.mk.inj (Option.some.inj htrace)
      rfl
  | cons r rs ih =>
      obtain ⟨o, s, answers', hstep, htail, rfl⟩ := trace_cons_eq_some.mp htrace
      obtain ⟨-, rfl⟩ := Prod.mk.inj (Option.some.inj hstep)
      rw [ih htail fun q hq => hrs q (List.mem_cons_of_mem r hq),
        apply_of_not_writes hsize (hrs r List.mem_cons_self)]

/-- A cell of blocks that a request writes. -/
theorem apply_write_add {first count j : Nat} {data : Nat → α} (hj : j < size * count) :
    (Request.write first count data).apply size cells (first * size + j) = data j := by
  have hin : first * size ≤ first * size + j ∧ first * size + j < first * size + size * count :=
    ⟨Nat.le_add_right _ _, Nat.add_lt_add_left hj _⟩
  simp only [Request.apply, if_pos hin, Nat.add_sub_cancel_left]

/-- **Round trip.** A read of blocks that were written together, and not since, answers with what was
written. -/
theorem read_back {answers : List (List α)} {pre mid : List (Request α)} {data : Nat → α}
    {first count first' count' : Nat} (hsize : 0 < size) (hlow : first ≤ first')
    (hhigh : first' + count' ≤ first + count)
    (hmid : ∀ r ∈ mid, ∀ b, first' ≤ b → b < first' + count' → ¬ r.Writes b)
    (htrace : trace (step size) cells
      (pre ++ [.write first count data] ++ mid ++ [.read first' count']) = some (answers, cells')) :
    answers.getLast? = some ((List.range (size * count')).map fun j =>
      data ((first' - first) * size + j)) := by
  -- the trace is split at the write and before the read
  obtain ⟨os, cells₁, hpre⟩ := exists_trace size cells pre
  obtain ⟨os', cells₂, hrun⟩ := exists_trace size
    ((Request.write first count data).apply size cells₁) mid
  have hread := trace_concat (trace_append (trace_concat hpre rfl) hrun)
    (i := .read first' count') rfl
  obtain ⟨rfl, -⟩ := Prod.mk.inj (Option.some.inj (htrace.symm.trans hread))
  rw [List.getLast?_concat]
  refine congrArg some (List.map_congr_left fun j hj => ?_)
  rw [List.mem_range] at hj
  -- the block of the cell is one of those that are read
  have hblock : (first' * size + j) / size = first' + j / size := by
    rw [Nat.add_comm, Nat.add_mul_div_right _ _ hsize, Nat.add_comm]
  have hin : j / size < count' := by
    rw [Nat.div_lt_iff_lt_mul hsize, Nat.mul_comm]
    exact hj
  have hkept : cells₂ (first' * size + j) = _ := cells_of_run hsize hrun fun r hr => by
    rw [hblock]
    exact hmid r hr _ (Nat.le_add_right _ _) (Nat.add_lt_add_left hin _)
  -- and it is one of those that were written
  obtain ⟨d, rfl⟩ := Nat.exists_eq_add_of_le hlow
  have hcell : (first + d) * size + j = first * size + (d * size + j) := by
    rw [Nat.add_mul, Nat.add_assoc]
  have hfit : d * size + j < size * count := by
    have hle : (d + count') * size ≤ count * size := Nat.mul_le_mul_right _ (by omega)
    rw [Nat.add_mul, Nat.mul_comm count'] at hle
    rw [Nat.mul_comm size count]
    omega
  rw [hkept, hcell, apply_write_add hfit, Nat.add_sub_cancel_left]

end BlockStore
