import Ts3100.Library.RealMode.Safety

/-! # Code in memory

A routine's code lies in the memory that it writes to: what a processor fetches at a label depends on
the bus it is entered with.

* `Program.EnsuresIn K Q l m` — total correctness with the property `K` of the bus at every label on
  the way.
* `StoredProgram` — the routine that each bus holds, with its runs (`runFor`) and its safety
  (`Always`).
* `EnsuresIn.runFor_stored`, `EnsuresIn.always_stored` — where a routine's own code is in memory at
  every label, what it does is what the stored program does. -/

namespace RealMode

universe u v

variable {Label : Type v} {β : Type u} [Bus β]

/-! ## A property of the bus at every label -/

/-- **Total correctness under a property of the bus**: entered at a label, the routine returns to a far
caller with a machine that satisfies `Q`, and the bus has `K` at every label on the way. -/
inductive Program.EnsuresIn (p : Program Label) (K : β → Prop) (Q : Word → Machine β → Prop) :
    Label → Machine β → Prop
  | returned {l : Label} {ip : Word} {m m' : Machine β} (hK : K m.bus)
      (hstep : p.step l m = .returned ip m') (hQ : Q ip m') : EnsuresIn p K Q l m
  | goto {l l' : Label} {m m' : Machine β} (hK : K m.bus) (hstep : p.step l m = .goto l' m')
      (hrest : EnsuresIn p K Q l' m') : EnsuresIn p K Q l m

namespace Program

variable {p : Program Label} {K K' : β → Prop} {Q R : Word → Machine β → Prop} {l : Label}
  {m : Machine β}

/-- The property and the postcondition may be weakened. -/
theorem EnsuresIn.mono (h : p.EnsuresIn K Q l m) (hK : ∀ b, K b → K' b)
    (hQ : ∀ ip m', Q ip m' → R ip m') : p.EnsuresIn K' R l m := by
  induction h with
  | returned hm hstep hreturned => exact .returned (hK _ hm) hstep (hQ _ _ hreturned)
  | goto hm hstep _ ih => exact .goto (hK _ hm) hstep ih

/-- The routine returns. -/
theorem EnsuresIn.ensures (h : p.EnsuresIn K Q l m) : p.Ensures l m Q := by
  induction h with
  | returned _ hstep hQ => exact .returned hstep hQ
  | goto _ hstep _ ih => exact .goto hstep ih

/-- A routine that returns does so on a way on which nothing is asked of the bus. -/
theorem Ensures.ensuresIn (h : p.Ensures l m Q) : p.EnsuresIn (fun _ => True) Q l m := by
  obtain ⟨fuel, ip, m', hrun, hQ⟩ := h
  induction fuel generalizing l m with
  | zero => cases hrun
  | succ fuel ih =>
      rw [runFor] at hrun
      cases hstep : p.step l m with
      | next m₁ => rw [hstep] at hrun; cases hrun
      | goto l₁ m₁ =>
          rw [hstep] at hrun
          exact .goto trivial hstep (ih hrun)
      | returned ip₁ m₁ =>
          rw [hstep] at hrun
          cases hrun
          exact .returned trivial hstep hQ
      | fault => rw [hstep] at hrun; cases hrun

variable {P : Instr Label → Machine β → Prop}

/-- What always holds, holds after a jump. -/
theorem Always.goto {l' : Label} {m' : Machine β} (h : p.Always P l m)
    (hstep : p.step l m = .goto l' m') : p.Always P l' m' := by
  intro fuel
  have hleads := (h (fuel + 1)).2
  rwa [hstep] at hleads

/-- What always holds, holds at each instruction of the first block. -/
theorem Always.blockMeets (h : p.Always P l m) : p.BlockMeets P (p.code l) m := (h 1).1

end Program

/-! ## The routine that memory holds -/

/-- The routine that is fetched from each bus. -/
structure StoredProgram (Label : Type v) (β : Type u) where
  fetched : β → Program Label

/-- What a block does depends on other labels' offsets only, not on their code. -/
theorem Program.execBlock_withCode (p : Program Label) (code : Label → List (Instr Label)) (l : Label)
    (is : List (Instr Label)) (m : Machine β) :
    { p with code := code }.execBlock l is m = p.execBlock l is m := by
  induction is generalizing m with
  | nil => rfl
  | cons i is ih =>
      have hexec : i.exec { p with code := code } m = i.exec p m := by cases i <;> rfl
      rw [Program.execBlock, Program.execBlock, hexec]
      cases i.exec p m <;> first | exact ih _ | rfl

namespace StoredProgram

variable (s : StoredProgram Label β)

/-- The outcome of the stored routine entered at `l`, within a number of blocks: the code of a block is
fetched when the block is entered. -/
def runFor : Nat → Label → Machine β → Option (Outcome Label β)
  | 0, _, _ => none
  | fuel + 1, l, m =>
      match (s.fetched m.bus).step l m with
      | .goto l' m' => runFor fuel l' m'
      | outcome => some outcome

/-- `P` holds at each instruction of the first blocks that are fetched. -/
def MeetsFor (P : Instr Label → Machine β → Prop) : Nat → Label → Machine β → Prop
  | 0, _, _ => True
  | fuel + 1, l, m => (s.fetched m.bus).BlockMeets P ((s.fetched m.bus).code l) m ∧
      ((s.fetched m.bus).step l m).Leads (MeetsFor P fuel) fun _ => True

/-- **Safety of a stored routine**: entered at `l` with `m`, it meets `P` at each instruction that is
fetched and executed. -/
def Always (P : Instr Label → Machine β → Prop) (l : Label) (m : Machine β) : Prop :=
  ∀ fuel, s.MeetsFor P fuel l m

variable {s} {P : Instr Label → Machine β → Prop} {l l' : Label} {m m' : Machine β}

/-- What always holds, holds after a jump. -/
theorem Always.goto (h : s.Always P l m) (hstep : (s.fetched m.bus).step l m = .goto l' m') :
    s.Always P l' m' := by
  intro fuel
  have hleads := (h (fuel + 1)).2
  rwa [hstep] at hleads

/-- What always holds, holds at each instruction of the block that is fetched first. -/
theorem Always.blockMeets (h : s.Always P l m) :
    (s.fetched m.bus).BlockMeets P ((s.fetched m.bus).code l) m := (h 1).1

end StoredProgram

section stored

variable {p : Program Label} {s : StoredProgram Label β} {Q : Word → Machine β → Prop} {l : Label}
  {m : Machine β}

/-- **A routine whose code is in memory at every label** runs as the stored program. -/
theorem Program.EnsuresIn.runFor_stored (h : p.EnsuresIn (fun b => s.fetched b = p) Q l m)
    (fuel : Nat) : s.runFor fuel l m = p.runFor fuel l m := by
  induction h generalizing fuel with
  | returned hcode hstep _ =>
      cases fuel with
      | zero => rfl
      | succ fuel => rw [StoredProgram.runFor, Program.runFor, hcode, hstep]
  | goto hcode hstep _ ih =>
      cases fuel with
      | zero => rfl
      | succ fuel =>
          rw [StoredProgram.runFor, Program.runFor, hcode, hstep]
          exact ih fuel

/-- What a routine always meets, the stored program meets while the routine's code is in memory. -/
theorem Program.EnsuresIn.always_stored {P : Instr Label → Machine β → Prop}
    (h : p.EnsuresIn (fun b => s.fetched b = p) Q l m) (halways : p.Always P l m) :
    s.Always P l m := by
  intro fuel
  induction fuel generalizing l m with
  | zero => trivial
  | succ fuel ih =>
      cases h with
      | returned hcode hstep _ =>
          rw [StoredProgram.MeetsFor, hcode, hstep]
          exact ⟨halways.blockMeets, trivial⟩
      | goto hcode hstep hrest =>
          rw [StoredProgram.MeetsFor, hcode, hstep]
          exact ⟨halways.blockMeets, ih hrest (halways.goto hstep)⟩

end stored

end RealMode
