import Ts3100.Library.RealMode.Safety

/-! # Code that calls services

A routine may call services through software interrupts. What a service does is not part of the
routine: it is a function of the machine and of a world `ω` that is behind the services (a screen, a
file system). An interrupt is taken as a whole, from the `int` instruction to the handler's return.

* `ServiceInstr` — the instructions of the core, `lodsb`, interrupts, and jumps within the routine.
* `ServiceProgram.Ensures` — total correctness, by the rules `Ensures.goto` and `Ensures.returned`.
* `execBlock_core` — straight-line code of the core is executed by `Program.execAll`. -/

namespace RealMode

open Bus

universe u v w x

/-- What the handlers of interrupts do: the machine and the world after the return, if there is one. -/
abbrev Services (β : Type u) (ω : Type w) : Type (max u w) :=
  BitVec 8 → Machine β → ω → Option (Machine β × ω)

/-- The instructions of a routine that calls services: those of the core, over the labels `Label` of
the core's own jumps, and jumps to the routine's labels `L`. -/
inductive ServiceInstr (Label : Type v) (L : Type x)
  | core (i : Instr Label)
  | lodsb
  | int (n : BitVec 8)
  | jcc (c : Cond) (target : L)

/-- What an instruction or a block leads to. -/
inductive ServiceOutcome (L : Type x) (β : Type u) (ω : Type w)
  | next (m : Machine β) (world : ω)
  | goto (l : L) (m : Machine β) (world : ω)
  | returned (ip : Word) (m : Machine β) (world : ω)
  | fault

/-- A routine: the code of each label and the label it falls through to, over a core program for the
offsets of the core's calls. -/
structure ServiceProgram (Label : Type v) (L : Type x) where
  core : Program Label
  code : L → List (ServiceInstr Label L)
  next : L → Option L

namespace Machine

variable {β : Type u} [Bus β] (m : Machine β)

/-- `lodsb`. -/
def lodsb : Machine β :=
  { m with
    ax := word (hi m.ax) (read m.bus (linear m.ds m.si))
    si := m.si + if m.direction then -1#16 else 1#16 }

end Machine

variable {Label : Type v} {L : Type x} {β : Type u} {ω : Type w} [Bus β]

/-- The outcome of one instruction. -/
@[simp] def ServiceInstr.exec (p : Program Label) (services : Services β ω) (m : Machine β)
    (world : ω) : ServiceInstr Label L → ServiceOutcome L β ω
  | .core i =>
      match i.exec p m with
      | .next m' => .next m' world
      | .returned ip m' => .returned ip m' world
      | .goto _ _ => .fault
      | .fault => .fault
  | .lodsb => .next m.lodsb world
  | .int n =>
      match services n m world with
      | some r => .next r.1 r.2
      | none => .fault
  | .jcc c target => if c.holds m.flags then .goto target m world else .next m world

namespace ServiceProgram

variable (p : ServiceProgram Label L) (services : Services β ω)

/-- The outcome of the rest of a block, under the label `l`. -/
@[simp] def execBlock (l : L) : List (ServiceInstr Label L) → Machine β → ω → ServiceOutcome L β ω
  | [], m, world =>
      match p.next l with
      | some l' => .goto l' m world
      | none => .fault
  | i :: is, m, world =>
      match i.exec p.core services m world with
      | .next m' world' => execBlock l is m' world'
      | .goto l' m' world' => .goto l' m' world'
      | .returned ip m' world' => .returned ip m' world'
      | .fault => .fault

/-- The outcome of the block at a label. -/
def step (l : L) (m : Machine β) (world : ω) : ServiceOutcome L β ω :=
  p.execBlock services l (p.code l) m world

/-- The outcome of a routine entered at `l`, within a number of blocks. -/
def runFor : Nat → L → Machine β → ω → Option (ServiceOutcome L β ω)
  | 0, _, _, _ => none
  | fuel + 1, l, m, world =>
      match p.step services l m world with
      | .goto l' m' world' => runFor fuel l' m' world'
      | outcome => some outcome

/-- **Total correctness**: entered at `l`, the routine returns to a far caller with a machine and a
world that satisfy `Q`. -/
def Ensures (l : L) (m : Machine β) (world : ω) (Q : Word → Machine β → ω → Prop) : Prop :=
  ∃ fuel ip m' world', p.runFor services fuel l m world = some (.returned ip m' world') ∧
    Q ip m' world'

variable {p} {services} {l l' : L} {m m' : Machine β} {world world' : ω}
  {Q : Word → Machine β → ω → Prop}

/-- A block that jumps passes the obligation on. -/
theorem Ensures.goto (hstep : p.step services l m world = .goto l' m' world')
    (h : p.Ensures services l' m' world' Q) : p.Ensures services l m world Q := by
  obtain ⟨fuel, ip, m'', world'', hrun, hQ⟩ := h
  refine ⟨fuel + 1, ip, m'', world'', ?_, hQ⟩
  rw [runFor, hstep]
  exact hrun

/-- A block that returns meets the obligation at once. -/
theorem Ensures.returned {ip : Word} (hstep : p.step services l m world = .returned ip m' world')
    (hQ : Q ip m' world') : p.Ensures services l m world Q := by
  refine ⟨1, ip, m', world', ?_, hQ⟩
  rw [runFor, hstep]

/-- A block goes on after straight-line code of the core. -/
theorem execBlock_core {is : List (Instr Label)} {js : List (ServiceInstr Label L)}
    (h : p.core.execAll is m = some m') :
    p.execBlock services l (is.map .core ++ js) m world = p.execBlock services l js m' world := by
  induction is generalizing m with
  | nil =>
      obtain rfl := Option.some.inj h
      rfl
  | cons i is ih =>
      obtain ⟨m₁, hexec, hall⟩ := Program.execAll_cons h
      rw [List.map_cons, List.cons_append, execBlock, ServiceInstr.exec, hexec]
      exact ih hall

end ServiceProgram

end RealMode
