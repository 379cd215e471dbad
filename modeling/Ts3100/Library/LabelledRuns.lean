import Mathlib

/-! # Runs of a labelled deterministic system

A system is a partial step function `step : σ → ι → Option σ`: `none` says that the system stops on
that label. A run is the left fold of `step` over a list of labels.

* `run step s is` — the state a run ends in.
* `StatesMeet step Q s is` — every state the run reaches satisfies `Q`.
* `StepsMeet step P s is` — every step the run takes or attempts satisfies `P`.

The rules relate the two: an invariant kept by the steps that meet a condition holds in every state
of a run whose steps meet it (`statesMeet_of_stepsMeet`), and where a step that misses the condition
leaves the good states at once, the two are equivalent (`statesMeet_iff_stepsMeet`). Where it leaves
them for good, its last state tells (`last_iff_stepsMeet`). -/

namespace LabelledRuns

universe u v

variable {σ : Type u} {ι : Type v} (step : σ → ι → Option σ)

/-- The state a run over the labels `is` ends in, if the system does not stop before. -/
def run (s : σ) (is : List ι) : Option σ := is.foldlM step s

/-- Every state reached along the run from `s` over `is`, both ends included, satisfies `Q`. -/
def StatesMeet (Q : σ → Prop) (s : σ) (is : List ι) : Prop :=
  ∀ pre, pre <+: is → ∀ s', run step s pre = some s' → Q s'

/-- Every step attempted along the run from `s` over `is` satisfies `P`. -/
def StepsMeet (P : σ → ι → Prop) (s : σ) (is : List ι) : Prop :=
  ∀ pre i, pre ++ [i] <+: is → ∀ s', run step s pre = some s' → P s' i

variable {step}

/-- A run over no labels. -/
@[simp] theorem run_nil (s : σ) : run step s [] = some s := rfl

/-- A run is its first step and the run after it. -/
@[simp] theorem run_cons (s : σ) (i : ι) (is : List ι) :
    run step s (i :: is) = (step s i).bind fun s' => run step s' is := rfl

/-- A run over a concatenation is the run over the second part from where the first part ends. -/
theorem run_append (s : σ) (is js : List ι) :
    run step s (is ++ js) = (run step s is).bind fun s' => run step s' js := by
  induction is generalizing s with
  | nil => rfl
  | cons i is ih =>
      rw [List.cons_append, run_cons, run_cons, Option.bind_assoc]
      congr 1
      funext s'
      exact ih s'

/-- A run over one more label takes one more step. -/
theorem run_concat (s : σ) (is : List ι) (i : ι) :
    run step s (is ++ [i]) = (run step s is).bind fun s' => step s' i := by
  rw [run_append]
  congr 1
  funext s'
  simp

/-! ## Recursion equations -/

/-- A run over no labels has one state. -/
@[simp] theorem statesMeet_nil {Q : σ → Prop} {s : σ} : StatesMeet step Q s [] ↔ Q s := by
  constructor
  · intro h
    exact h [] (List.prefix_refl _) s rfl
  · intro hs pre hpre s' hrun
    obtain rfl := List.prefix_nil.mp hpre
    obtain rfl : s = s' := by simpa using hrun
    exact hs

/-- The states of a run are its first state and the states of the run after the first step. -/
theorem statesMeet_cons {Q : σ → Prop} {s : σ} {i : ι} {is : List ι} :
    StatesMeet step Q s (i :: is) ↔
      Q s ∧ ∀ s', step s i = some s' → StatesMeet step Q s' is := by
  constructor
  · intro h
    refine ⟨h [] List.nil_prefix s rfl, fun s' hstep pre hpre s'' hrun => ?_⟩
    exact h (i :: pre) ((List.prefix_cons_inj i).mpr hpre) s'' (by rw [run_cons, hstep]; exact hrun)
  · rintro ⟨hs, htail⟩ pre hpre s'' hrun
    rcases List.prefix_cons_iff.mp hpre with rfl | ⟨t, rfl, ht⟩
    · obtain rfl : s = s'' := by simpa using hrun
      exact hs
    · rw [run_cons, Option.bind_eq_some_iff] at hrun
      obtain ⟨s', hstep, hrun⟩ := hrun
      exact htail s' hstep t ht s'' hrun

/-- It has no steps. -/
@[simp] theorem stepsMeet_nil {P : σ → ι → Prop} {s : σ} : StepsMeet step P s [] := by
  intro pre i hpre
  exact absurd (List.prefix_nil.mp hpre) (by simp)

/-- The steps of a run are its first step and the steps of the run after it. -/
theorem stepsMeet_cons {P : σ → ι → Prop} {s : σ} {i : ι} {is : List ι} :
    StepsMeet step P s (i :: is) ↔
      P s i ∧ ∀ s', step s i = some s' → StepsMeet step P s' is := by
  constructor
  · intro h
    refine ⟨h [] i (by simp) s rfl, fun s' hstep pre j hpre s'' hrun => ?_⟩
    exact h (i :: pre) j ((List.prefix_cons_inj i).mpr hpre) s''
      (by rw [run_cons, hstep]; exact hrun)
  · rintro ⟨hs, htail⟩ pre j hpre s'' hrun
    cases pre with
    | nil =>
        obtain ⟨rfl, -⟩ := List.cons_prefix_cons.mp hpre
        obtain rfl : s = s'' := by simpa using hrun
        exact hs
    | cons k t =>
        obtain ⟨rfl, ht⟩ := List.cons_prefix_cons.mp hpre
        rw [run_cons, Option.bind_eq_some_iff] at hrun
        obtain ⟨s', hstep, hrun⟩ := hrun
        exact htail s' hstep t j ht s'' hrun

instance decidableStatesMeet {Q : σ → Prop} [DecidablePred Q] :
    ∀ (s : σ) (is : List ι), Decidable (StatesMeet step Q s is)
  | s, [] => decidable_of_iff (Q s) statesMeet_nil.symm
  | s, i :: is =>
      have : Decidable (∀ s', step s i = some s' → StatesMeet step Q s' is) :=
        match hstep : step s i with
        | none => isTrue (by simp)
        | some s' =>
            have : Decidable (StatesMeet step Q s' is) := decidableStatesMeet s' is
            decidable_of_iff (StatesMeet step Q s' is) (by simp)
      decidable_of_iff _ statesMeet_cons.symm

instance decidableStepsMeet {P : σ → ι → Prop} [∀ s i, Decidable (P s i)] :
    ∀ (s : σ) (is : List ι), Decidable (StepsMeet step P s is)
  | _, [] => isTrue stepsMeet_nil
  | s, i :: is =>
      have : Decidable (∀ s', step s i = some s' → StepsMeet step P s' is) :=
        match hstep : step s i with
        | none => isTrue (by simp)
        | some s' =>
            have : Decidable (StepsMeet step P s' is) := decidableStepsMeet s' is
            decidable_of_iff (StepsMeet step P s' is) (by simp)
      decidable_of_iff _ stepsMeet_cons.symm

/-- The final state of a run is one of its states. -/
theorem StatesMeet.last {Q : σ → Prop} {s s' : σ} {is : List ι} (h : StatesMeet step Q s is)
    (hrun : run step s is = some s') : Q s' :=
  h is (List.prefix_refl _) s' hrun

/-- The steps of the first part of a run are steps of the run. -/
theorem StepsMeet.initial {P : σ → ι → Prop} {s : σ} {is js : List ι} (h : StepsMeet step P s is)
    (hjs : js <+: is) : StepsMeet step P s js :=
  fun pre i hpre => h pre i (hpre.trans hjs)

/-- The steps of the second part of a run. -/
theorem StepsMeet.of_append {P : σ → ι → Prop} {s s' : σ} {is js : List ι}
    (h : StepsMeet step P s (is ++ js)) (hrun : run step s is = some s') :
    StepsMeet step P s' js := by
  intro pre i hpre s'' hrun'
  refine h (is ++ pre) i ?_ s'' (by rw [run_append, hrun]; exact hrun')
  rw [List.append_assoc]
  exact (List.prefix_append_right_inj is).mpr hpre

/-- The steps of a run that does not stop can be taken. -/
theorem stepsMeet_enabled {s s' : σ} {is : List ι} (hrun : run step s is = some s') :
    StepsMeet step (fun s i => ∃ s', step s i = some s') s is := by
  rintro pre i ⟨post, rfl⟩ t ht
  rw [run_append, run_concat, ht, Option.bind_some] at hrun
  obtain ⟨t', ht', -⟩ := Option.bind_eq_some_iff.mp hrun
  exact ⟨t', ht'⟩

/-- A run whose steps can all be taken does not stop. -/
theorem exists_run_of_stepsMeet {s : σ} {is : List ι}
    (h : StepsMeet step (fun s i => ∃ s', step s i = some s') s is) :
    ∃ s', run step s is = some s' := by
  induction is generalizing s with
  | nil => exact ⟨s, rfl⟩
  | cons i is ih =>
      obtain ⟨⟨s', hstep⟩, htail⟩ := stepsMeet_cons.mp h
      obtain ⟨s'', hrun⟩ := ih (htail s' hstep)
      exact ⟨s'', by rw [run_cons, hstep]; exact hrun⟩

/-! ## Invariant rules -/

/-- **Invariant rule.** A property kept by every step that meets `P` holds in every state of a run
whose steps all meet `P`. -/
theorem statesMeet_of_stepsMeet {Inv : σ → Prop} {P : σ → ι → Prop}
    (hstep : ∀ s i s', Inv s → P s i → step s i = some s' → Inv s')
    {s : σ} {is : List ι} (hs : Inv s) (hP : StepsMeet step P s is) :
    StatesMeet step Inv s is := by
  induction is generalizing s with
  | nil => exact statesMeet_nil.mpr hs
  | cons i is ih =>
      obtain ⟨hi, htail⟩ := stepsMeet_cons.mp hP
      exact statesMeet_cons.mpr
        ⟨hs, fun s' hs' => ih (hstep s i s' hs hi hs') (htail s' hs')⟩

/-- An unconditional invariant holds in every state of every run. -/
theorem statesMeet_of_invariant {Inv : σ → Prop}
    (hstep : ∀ s i s', Inv s → step s i = some s' → Inv s')
    {s : σ} (hs : Inv s) (is : List ι) : StatesMeet step Inv s is :=
  statesMeet_of_stepsMeet (P := fun _ _ => True) (fun s i s' h _ => hstep s i s' h) hs
    (fun _ _ _ _ _ => trivial)

/-- What holds in every state of a run, together with the steps' condition, transfers to the
steps. -/
theorem StepsMeet.of_statesMeet {Inv : σ → Prop} {P R : σ → ι → Prop} {s : σ} {is : List ι}
    (hInv : StatesMeet step Inv s is) (hP : StepsMeet step P s is)
    (h : ∀ s i, Inv s → P s i → R s i) : StepsMeet step R s is := by
  intro pre i hpre s' hrun
  have hpre' : pre <+: is := (List.prefix_append pre [i]).trans hpre
  exact h s' i (hInv pre hpre' s' hrun) (hP pre i hpre s' hrun)

/-- **Leads-to rule.** A property kept by every step but those with the label `l` holds at the end
of a run, or in the state where the run first takes a step with that label. -/
theorem keeps_or_reaches {Inv : σ → Prop} {P : σ → ι → Prop} {l : ι}
    (hstep : ∀ s i s', Inv s → P s i → i ≠ l → step s i = some s' → Inv s')
    {s s' : σ} {is : List ι} (hs : Inv s) (hP : StepsMeet step P s is)
    (hrun : run step s is = some s') :
    Inv s' ∨ ∃ pre post t t', is = pre ++ l :: post ∧ run step s pre = some t ∧ Inv t ∧
      step t l = some t' := by
  induction is generalizing s with
  | nil =>
      obtain rfl : s = s' := by simpa using hrun
      exact Or.inl hs
  | cons i is ih =>
      rw [run_cons, Option.bind_eq_some_iff] at hrun
      obtain ⟨s₁, hs₁, hrun⟩ := hrun
      obtain ⟨hi, htail⟩ := stepsMeet_cons.mp hP
      by_cases hl : i = l
      · subst hl
        exact Or.inr ⟨[], is, s, s₁, rfl, rfl, hs, hs₁⟩
      · rcases ih (hstep s i s₁ hs hi hl hs₁) (htail s₁ hs₁) hrun with
          hend | ⟨pre, post, t, t', rfl, ht, hInv, ht'⟩
        · exact Or.inl hend
        · exact Or.inr ⟨i :: pre, post, t, t', rfl, by rw [run_cons, hs₁]; exact ht, hInv, ht'⟩

/-- **Stepwise equivalence.** Where two step conditions agree in the states of an unconditional
invariant, a run meets the one iff it meets the other. -/
theorem stepsMeet_iff {Inv : σ → Prop} {P R : σ → ι → Prop}
    (hstep : ∀ s i s', Inv s → step s i = some s' → Inv s')
    (hPR : ∀ s i, Inv s → (P s i ↔ R s i)) {s : σ} (hs : Inv s) (is : List ι) :
    StepsMeet step P s is ↔ StepsMeet step R s is := by
  have hInv := statesMeet_of_invariant hstep hs is
  constructor
  · intro h
    exact StepsMeet.of_statesMeet hInv h fun s i hi hP => (hPR s i hi).mp hP
  · intro h
    exact StepsMeet.of_statesMeet hInv h fun s i hi hR => (hPR s i hi).mpr hR

/-- **Exactness rule.** Let `Inv` imply `Good`, let the steps that meet both the assumption `E` and
the condition `P` keep `Inv`, and let a step that meets `E` but misses `P` reach a state that is not
`Good`. Then a run whose steps meet `E` stays in `Good` states iff its steps meet `P`. -/
theorem statesMeet_iff_stepsMeet {Inv Good : σ → Prop} {E P : σ → ι → Prop}
    (hgood : ∀ s, Inv s → Good s)
    (hstep : ∀ s i s', Inv s → E s i → P s i → step s i = some s' → Inv s')
    (hbad : ∀ s i, Inv s → E s i → ¬ P s i → ∃ s', step s i = some s' ∧ ¬ Good s')
    {s : σ} {is : List ι} (hs : Inv s) (hE : StepsMeet step E s is) :
    StatesMeet step Good s is ↔ StepsMeet step P s is := by
  induction is generalizing s with
  | nil => simp [hgood s hs]
  | cons i is ih =>
      obtain ⟨hEi, hEtail⟩ := stepsMeet_cons.mp hE
      rw [statesMeet_cons, stepsMeet_cons]
      by_cases hP : P s i
      · have htail : ∀ s', step s i = some s' →
            (StatesMeet step Good s' is ↔ StepsMeet step P s' is) :=
          fun s' hs' => ih (hstep s i s' hs hEi hP hs') (hEtail s' hs')
        constructor
        · rintro ⟨-, h⟩
          exact ⟨hP, fun s' hs' => (htail s' hs').mp (h s' hs')⟩
        · rintro ⟨-, h⟩
          exact ⟨hgood s hs, fun s' hs' => (htail s' hs').mpr (h s' hs')⟩
      · obtain ⟨s', hs', hnot⟩ := hbad s i hs hEi hP
        constructor
        · rintro ⟨-, h⟩
          exact absurd (h s' hs' [] List.nil_prefix s' rfl) hnot
        · rintro ⟨h, -⟩
          exact absurd h hP

/-- **Accounting rule.** Where a step leads to a good state iff it starts in one and meets `P`, a run
ends in a good state iff it starts in one and all its steps meet `P`. -/
theorem last_iff_stepsMeet {Inv Good : σ → Prop} {P : σ → ι → Prop}
    (hinv : ∀ s i s', Inv s → step s i = some s' → Inv s')
    (hgood : ∀ s i s', Inv s → step s i = some s' → (Good s' ↔ Good s ∧ P s i))
    {s s' : σ} {is : List ι} (hs : Inv s) (hrun : run step s is = some s') :
    Good s' ↔ Good s ∧ StepsMeet step P s is := by
  induction is generalizing s with
  | nil =>
      obtain rfl : s = s' := by simpa using hrun
      simp
  | cons i is ih =>
      rw [run_cons, Option.bind_eq_some_iff] at hrun
      obtain ⟨s₁, hs₁, hrun⟩ := hrun
      rw [ih (hinv s i s₁ hs hs₁) hrun, hgood s i s₁ hs hs₁, stepsMeet_cons, and_assoc]
      simp [hs₁]

/-- **Debt rule.** Let a step that misses `P` incur a debt `D`, which steps from good states keep. A
run through good states that ends without the debt never had it: its steps all meet `P`. -/
theorem stepsMeet_of_debt {Inv Good D : σ → Prop} {P : σ → ι → Prop}
    (hinv : ∀ s i s', Inv s → step s i = some s' → Inv s')
    (hkeeps : ∀ s i s', Inv s → D s → Good s → step s i = some s' → D s')
    (hincurs : ∀ s i s', Inv s → ¬ P s i → step s i = some s' → D s')
    {s s' : σ} {is : List ι} (hs : Inv s) (hrun : run step s is = some s') (hend : ¬ D s')
    (hgood : StatesMeet step Good s is) : ¬ D s ∧ StepsMeet step P s is := by
  induction is generalizing s with
  | nil =>
      obtain rfl : s = s' := by simpa using hrun
      exact ⟨hend, stepsMeet_nil⟩
  | cons i is ih =>
      rw [run_cons, Option.bind_eq_some_iff] at hrun
      obtain ⟨s₁, hs₁, hrun⟩ := hrun
      obtain ⟨hi, htail⟩ := statesMeet_cons.mp hgood
      obtain ⟨hdebt, hmeet⟩ := ih (hinv s i s₁ hs hs₁) hrun (htail s₁ hs₁)
      refine ⟨fun hD => hdebt (hkeeps s i s₁ hs hD hi hs₁), stepsMeet_cons.mpr ⟨?_, ?_⟩⟩
      · by_contra hP
        exact hdebt (hincurs s i s₁ hs hP hs₁)
      · intro s₂ hs₂
        obtain rfl : s₁ = s₂ := Option.some.inj (hs₁.symm.trans hs₂)
        exact hmeet

end LabelledRuns
