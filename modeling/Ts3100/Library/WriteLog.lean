import Ts3100.Library.LabelledRuns

/-! # What a run wrote last

A memory of cells is specified by the writes made to it: a cell holds the value last written to it,
or what it held at first.

* `contents cells log` — the cells after the writes of `log`, in order.
* `logOf step writes s is` — the writes that the steps of a run make.
* `rel_of_run` — a system that refines its cells step by step does so over every run. -/

namespace WriteLog

open LabelledRuns

universe u v w x

variable {κ : Type u} {α : Type v} [DecidableEq κ]

/-- The cells after the writes of a log, in order. -/
def contents (cells : κ → α) (log : List (κ × α)) : κ → α :=
  log.foldl (fun cells w => Function.update cells w.1 w.2) cells

/-- No writes change nothing. -/
@[simp] theorem contents_nil (cells : κ → α) : contents cells [] = cells := rfl

/-- The first write comes first. -/
@[simp] theorem contents_cons (cells : κ → α) (w : κ × α) (log : List (κ × α)) :
    contents cells (w :: log) = contents (Function.update cells w.1 w.2) log := rfl

/-- Two logs one after the other. -/
theorem contents_append (cells : κ → α) (log log' : List (κ × α)) :
    contents cells (log ++ log') = contents (contents cells log) log' := List.foldl_append

/-- A cell that no write names holds what it held at first. -/
theorem contents_of_notMem {k : κ} {log : List (κ × α)} (hk : k ∉ log.map Prod.fst)
    (cells : κ → α) : contents cells log k = cells k := by
  induction log generalizing cells with
  | nil => rfl
  | cons w log ih =>
      rw [List.map_cons, List.mem_cons, not_or] at hk
      rw [contents_cons, ih hk.2, Function.update_of_ne hk.1]

/-! ## The writes of a run -/

variable {σ : Type w} {ι : Type x}

/-- The writes that the steps of the run from `s` over `is` make. -/
def logOf (step : σ → ι → Option σ) (writes : σ → ι → List (κ × α)) (s : σ) : List ι → List (κ × α)
  | [] => []
  | i :: is => writes s i ++ ((step s i).map fun s' => logOf step writes s' is).getD []

variable {step : σ → ι → Option σ} {writes : σ → ι → List (κ × α)}

omit [DecidableEq κ] in
/-- The log of a run is that of its first step and of the run after it. -/
theorem logOf_cons {s s' : σ} {i : ι} {is : List ι} (hstep : step s i = some s') :
    logOf step writes s (i :: is) = writes s i ++ logOf step writes s' is := by
  simp [logOf, hstep]

/-- **Refinement rule.** Where every step from a state that is related to some cells leads to one that
is related to them after the step's writes, so does every run. -/
theorem rel_of_run {R : σ → (κ → α) → Prop}
    (hstep : ∀ s i s' cells, R s cells → step s i = some s' → R s' (contents cells (writes s i)))
    {s s' : σ} {is : List ι} {cells : κ → α} (hs : R s cells) (hrun : run step s is = some s') :
    R s' (contents cells (logOf step writes s is)) := by
  induction is generalizing s cells with
  | nil =>
      obtain rfl : s = s' := by simpa using hrun
      exact hs
  | cons i is ih =>
      rw [run_cons, Option.bind_eq_some_iff] at hrun
      obtain ⟨s₁, hs₁, hrun⟩ := hrun
      rw [logOf_cons hs₁, contents_append]
      exact ih (hstep s i s₁ cells hs hs₁) hrun

end WriteLog
