import Ts3100.Library.RealMode.StringMove

/-! # Safety of a routine

What holds at every instruction a routine executes, whether or not it returns.

* `Program.Always P l m` — entered at `l` with `m`, the routine meets `P` at each instruction it
  executes.
* `Program.Invariant` — an invariant at the labels; `Invariant.always` and `Invariant.returned` are
  the rules it gives.
* `Kept` — a property of the bus that memory writes and port reads keep. A block with no port write
  keeps it (`Kept.leads`, `Kept.blockMeets`), so that only the blocks that write to a port are left
  to be executed.
* `Program.execAll` — straight-line code, to take a block apart (`execBlock_append`,
  `blockMeets_append`). -/

namespace RealMode

open Bus

universe u v

variable {Label : Type v} {β : Type u} [Bus β]

/-! ## Straight-line code -/

namespace Program

variable (p : Program Label)

/-- The machine after instructions that each go on to the next one. -/
@[simp] def execAll : List (Instr Label) → Machine β → Option (Machine β)
  | [], m => some m
  | i :: is, m =>
      match i.exec p m with
      | .next m' => execAll is m'
      | _ => none

/-- `P` holds at each instruction that is executed of the rest of a block. -/
@[simp] def BlockMeets (P : Instr Label → Machine β → Prop) :
    List (Instr Label) → Machine β → Prop
  | [], _ => True
  | i :: is, m => P i m ∧
      match i.exec p m with
      | .next m' => BlockMeets P is m'
      | _ => True

variable {p} {l : Label} {is js : List (Instr Label)} {m m' : Machine β}
  {P : Instr Label → Machine β → Prop}

/-- The first instruction of straight-line code goes on. -/
theorem execAll_cons {i : Instr Label} (h : p.execAll (i :: is) m = some m') :
    ∃ m₁, i.exec p m = .next m₁ ∧ p.execAll is m₁ = some m' := by
  rw [execAll] at h
  cases hexec : i.exec p m with
  | next m₁ => exact ⟨m₁, rfl, by rwa [hexec] at h⟩
  | goto l m₁ => rw [hexec] at h; cases h
  | returned ip m₁ => rw [hexec] at h; cases h
  | fault => rw [hexec] at h; cases h

/-- A block goes on after straight-line code. -/
theorem execBlock_append (h : p.execAll is m = some m') :
    p.execBlock l (is ++ js) m = p.execBlock l js m' := by
  induction is generalizing m with
  | nil =>
      obtain rfl := Option.some.inj h
      rfl
  | cons i is ih =>
      obtain ⟨m₁, hexec, hall⟩ := execAll_cons h
      rw [List.cons_append, execBlock, hexec]
      exact ih hall

/-- Straight-line code goes on after straight-line code. -/
theorem execAll_append (h : p.execAll is m = some m') :
    p.execAll (is ++ js) m = p.execAll js m' := by
  induction is generalizing m with
  | nil =>
      obtain rfl := Option.some.inj h
      rfl
  | cons i is ih =>
      obtain ⟨m₁, hexec, hall⟩ := execAll_cons h
      rw [List.cons_append, execAll, hexec]
      exact ih hall

/-- Two pieces of a block meet what each of them does. -/
theorem blockMeets_append (hall : p.execAll is m = some m') (his : p.BlockMeets P is m)
    (hjs : p.BlockMeets P js m') : p.BlockMeets P (is ++ js) m := by
  induction is generalizing m with
  | nil =>
      obtain rfl := Option.some.inj hall
      exact hjs
  | cons i is ih =>
      obtain ⟨m₁, hexec, hall⟩ := execAll_cons hall
      rw [BlockMeets, hexec] at his
      rw [List.cons_append, BlockMeets, hexec]
      exact ⟨his.1, ih hall his.2⟩

end Program

/-! ## Invariants -/

/-- An outcome that jumps leads to a machine of the invariant, one that returns to a bus with `K`. -/
@[simp] def Outcome.Leads (Inv : Label → Machine β → Prop) (K : β → Prop) :
    Outcome Label β → Prop
  | .goto l m => Inv l m
  | .returned _ m => K m.bus
  | .next _ => True
  | .fault => True

namespace Program

variable (p : Program Label)

/-- `P` holds at each instruction of the first blocks of a routine entered at a label. -/
def MeetsFor (P : Instr Label → Machine β → Prop) : Nat → Label → Machine β → Prop
  | 0, _, _ => True
  | fuel + 1, l, m => p.BlockMeets P (p.code l) m ∧
      (p.step l m).Leads (MeetsFor P fuel) fun _ => True

/-- **Safety of a routine**: entered at `l` with `m`, it meets `P` at each instruction that it
executes. -/
def Always (P : Instr Label → Machine β → Prop) (l : Label) (m : Machine β) : Prop :=
  ∀ fuel, p.MeetsFor P fuel l m

/-- An invariant of the machines at the labels of a routine, which gives `P` at each instruction and
`K` for the bus the routine returns with. -/
structure Invariant (P : Instr Label → Machine β → Prop) (K : β → Prop)
    (Inv : Label → Machine β → Prop) : Prop where
  meets : ∀ {l m}, Inv l m → p.BlockMeets P (p.code l) m
  leads : ∀ {l m}, Inv l m → (p.step l m).Leads Inv K

variable {p} {P : Instr Label → Machine β → Prop} {K : β → Prop} {Inv : Label → Machine β → Prop}
  {l : Label} {m : Machine β}

/-- What an invariant gives at each instruction always holds. -/
theorem Invariant.always (hinv : p.Invariant P K Inv) (hm : Inv l m) : p.Always P l m := by
  intro fuel
  induction fuel generalizing l m with
  | zero => trivial
  | succ fuel ih =>
      have hleads := hinv.leads hm
      refine ⟨hinv.meets hm, ?_⟩
      cases hstep : p.step l m with
      | next m' => trivial
      | goto l' m' =>
          rw [hstep] at hleads
          exact ih hleads
      | returned ip m' => trivial
      | fault => trivial

/-- A routine entered under an invariant returns with what the invariant promises. -/
theorem Invariant.returned (hinv : p.Invariant P K Inv) (hm : Inv l m) {fuel : Nat} {ip : Word}
    {m' : Machine β} (hrun : p.runFor fuel l m = some (.returned ip m')) : K m'.bus := by
  induction fuel generalizing l m with
  | zero => cases hrun
  | succ fuel ih =>
      have hleads := hinv.leads hm
      rw [runFor] at hrun
      cases hstep : p.step l m with
      | next m₁ => rw [hstep] at hrun; cases hrun
      | goto l₁ m₁ =>
          rw [hstep] at hrun hleads
          exact ih hleads hrun
      | returned ip₁ m₁ =>
          rw [hstep] at hrun hleads
          cases hrun
          exact hleads
      | fault => rw [hstep] at hrun; cases hrun

end Program

/-! ## Where a block may go -/

/-- The label an instruction names as its target. -/
def Instr.target : Instr Label → Option Label
  | .jcc _ l => some l
  | .jmp l => some l
  | .call l _ => some l
  | _ => none

/-- The labels the block at `l` may lead to: the targets of its jumps, the labels a `ret` finds, and
the label it falls through to. -/
def Program.Successor (p : Program Label) (l l' : Label) : Prop :=
  (∃ i ∈ p.code l, i.target = some l') ∨ (∃ w, p.labelAt w = some l') ∨ p.next l = some l'

/-- The bus of any machine an outcome carries has `K`. -/
@[simp] def Outcome.Keeps (K : β → Prop) : Outcome Label β → Prop
  | .next m => K m.bus
  | .goto _ m => K m.bus
  | .returned _ m => K m.bus
  | .fault => True

omit [Bus β] in
/-- An instruction that may fault keeps what it keeps where it does not. -/
theorem Outcome.ofOption_keeps {K : β → Prop} {o : Option (Machine β)}
    (h : ∀ m, o = some m → K m.bus) : (Outcome.ofOption o : Outcome Label β).Keeps K := by
  cases o with
  | none => trivial
  | some m => exact h m rfl

section goto

variable {p : Program Label} {i : Instr Label} {is : List (Instr Label)} {l l' : Label}
  {m m' : Machine β}

omit [Bus β] in
/-- An instruction that may fail does not jump. -/
theorem ofOption_ne_goto (o : Option (Machine β)) : Outcome.ofOption o ≠ .goto l' m' := by
  cases o <;> simp

/-- An instruction jumps to the label it names, or to one that a `ret` finds. -/
theorem exec_goto (h : i.exec p m = .goto l' m') :
    i.target = some l' ∨ ∃ w, p.labelAt w = some l' := by
  cases i with
  | jcc c target =>
      simp only [Instr.exec] at h
      split at h
      · cases h
        exact Or.inl rfl
      · cases h
  | jmp target => cases h; exact Or.inl rfl
  | call target after => cases h; exact Or.inl rfl
  | ret =>
      simp only [Instr.exec] at h
      split at h
      · rename_i hlabel
        cases h
        exact Or.inr ⟨_, hlabel⟩
      · cases h
  | alu op dst src =>
      simp only [Instr.exec] at h
      split at h
      · exact absurd h (ofOption_ne_goto _)
      · cases h
  | alu8 op dst src =>
      simp only [Instr.exec] at h
      split at h
      · exact absurd h (ofOption_ne_goto _)
      · cases h
  -- the others go on in the block, fault or leave the routine
  | pop dst => exact absurd h (ofOption_ne_goto _)
  | mov dst src => exact absurd h (ofOption_ne_goto _)
  | mov8 dst src => exact absurd h (ofOption_ne_goto _)
  | shl8 dst => exact absurd h (ofOption_ne_goto _)
  | inAxDx => exact absurd h (ofOption_ne_goto _)
  | outDxAx => exact absurd h (ofOption_ne_goto _)
  | sti | cld | clc | push | mul | mul8 | repMovsw | retf => cases h

/-- A block leads to a target of one of its jumps, to a label that a `ret` finds, or to the label it
falls through to. -/
theorem execBlock_goto (h : p.execBlock l is m = .goto l' m') :
    (∃ i ∈ is, i.target = some l') ∨ (∃ w, p.labelAt w = some l') ∨ p.next l = some l' := by
  induction is generalizing m with
  | nil =>
      simp only [Program.execBlock] at h
      split at h
      · rename_i hnext
        cases h
        exact Or.inr (Or.inr hnext)
      · cases h
  | cons i is ih =>
      rw [Program.execBlock] at h
      cases hexec : i.exec p m with
      | next m₁ =>
          rw [hexec] at h
          rcases ih h with ⟨j, hj, htarget⟩ | hrest
          · exact Or.inl ⟨j, List.mem_cons_of_mem _ hj, htarget⟩
          · exact Or.inr hrest
      | goto l₁ m₁ =>
          rw [hexec] at h
          cases h
          rcases exec_goto hexec with htarget | hret
          · exact Or.inl ⟨i, List.mem_cons_self, htarget⟩
          · exact Or.inr (Or.inl hret)
      | returned ip m₁ => rw [hexec] at h; cases h
      | fault => rw [hexec] at h; cases h

end goto

/-! ## Properties of the bus -/

/-- Memory writes and port reads keep the property `K` of the bus. -/
structure Kept (K : β → Prop) : Prop where
  write : ∀ b a v, K b → K (write b a v)
  inWord : ∀ b port w b', K b → inWord b port = some (w, b') → K b'

namespace Kept

variable {K : β → Prop} {p : Program Label} {i : Instr Label} {is : List (Instr Label)}
  {l : Label} {m m' : Machine β}

/-- A word that is written keeps the property. -/
theorem writeWord (hK : Kept K) {b : β} (s o w : Word) (hb : K b) : K (writeWord b s o w) :=
  hK.write _ _ _ (hK.write _ _ _ hb)

/-- A store keeps the property. -/
theorem store (hK : Kept K) {dst : Operand} {w : Word} (h : m.store dst w = some m')
    (hm : K m.bus) : K m'.bus := by
  cases dst with
  | reg r =>
      cases h
      cases r <;> exact hm
  | seg s =>
      cases s with
      | cs => cases h
      | ds => cases h; exact hm
      | es => cases h; exact hm
      | ss => cases h; exact hm
  | imm w => cases h
  | mem a =>
      cases h
      exact hK.writeWord _ _ _ hm

/-- So does a store of a byte. -/
theorem store8 (hK : Kept K) {dst : Operand8} {v : BitVec 8} (h : m.store8 dst v = some m')
    (hm : K m.bus) : K m'.bus := by
  cases dst with
  | reg r =>
      cases h
      cases r <;> exact hm
  | imm v => cases h
  | mem a =>
      cases h
      exact hK.write _ _ _ hm

/-- An instruction other than a port write keeps the property. -/
theorem exec (hK : Kept K) (hi : i ≠ .outDxAx) (hm : K m.bus) : (i.exec p m).Keeps K := by
  cases i with
  | push src => exact hK.writeWord _ _ _ hm
  | pop dst => exact Outcome.ofOption_keeps fun _ h => hK.store h hm
  | mov dst src => exact Outcome.ofOption_keeps fun _ h => hK.store h hm
  | mov8 dst src => exact Outcome.ofOption_keeps fun _ h => hK.store8 h hm
  | shl8 dst => exact Outcome.ofOption_keeps fun _ h => hK.store8 h hm
  | alu op dst src =>
      simp only [Instr.exec]
      split
      · exact Outcome.ofOption_keeps fun _ h => hK.store h hm
      · exact hm
  | alu8 op dst src =>
      simp only [Instr.exec]
      split
      · exact Outcome.ofOption_keeps fun _ h => hK.store8 h hm
      · exact hm
  | inAxDx =>
      refine Outcome.ofOption_keeps fun m' h => ?_
      obtain ⟨r, hin, rfl⟩ := Option.map_eq_some_iff.mp h
      exact hK.inWord _ _ _ _ hm hin
  | outDxAx => exact absurd rfl hi
  | repMovsw => exact Machine.movswTimes_bus_induction hK.write hm
  | jcc c target =>
      simp only [Instr.exec]
      split <;> exact hm
  | call target after => exact hK.writeWord _ _ _ hm
  | ret =>
      simp only [Instr.exec]
      split
      · exact hm
      · trivial
  | sti | cld | clc | mul | mul8 | jmp | retf => exact hm

/-- A block with no port write keeps the property. -/
theorem execBlock (hK : Kept K) (hno : .outDxAx ∉ is) (hm : K m.bus) :
    (p.execBlock l is m).Keeps K := by
  induction is generalizing m with
  | nil =>
      simp only [Program.execBlock]
      split
      · exact hm
      · trivial
  | cons i is ih =>
      have hi : i ≠ .outDxAx := (List.ne_of_not_mem_cons hno).symm
      have his : .outDxAx ∉ is := List.not_mem_of_not_mem_cons hno
      have hkeeps := hK.exec (p := p) hi hm
      rw [Program.execBlock]
      cases hexec : i.exec p m with
      | next m₁ =>
          rw [hexec] at hkeeps
          exact ih his hkeeps
      | goto l₁ m₁ => rwa [hexec] at hkeeps
      | returned ip m₁ => rwa [hexec] at hkeeps
      | fault => trivial

/-- Straight-line code with no port write keeps the property. -/
theorem execAll (hK : Kept K) (hno : .outDxAx ∉ is) (hall : p.execAll is m = some m')
    (hm : K m.bus) : K m'.bus := by
  induction is generalizing m with
  | nil =>
      obtain rfl := Option.some.inj hall
      exact hm
  | cons i is ih =>
      have hi : i ≠ .outDxAx := (List.ne_of_not_mem_cons hno).symm
      obtain ⟨m₁, hexec, hall⟩ := Program.execAll_cons hall
      have hkeeps := hK.exec (p := p) hi hm
      rw [hexec] at hkeeps
      exact ih (List.not_mem_of_not_mem_cons hno) hall hkeeps

/-- What the property gives at each instruction of a block with no port write holds along it. -/
theorem blockMeets (hK : Kept K) {P : Instr Label → Machine β → Prop}
    (hP : ∀ i ∈ is, ∀ m, K m.bus → P i m) (hno : .outDxAx ∉ is) (hm : K m.bus) :
    p.BlockMeets P is m := by
  induction is generalizing m with
  | nil => trivial
  | cons i is ih =>
      have hi : i ≠ .outDxAx := (List.ne_of_not_mem_cons hno).symm
      have his : .outDxAx ∉ is := List.not_mem_of_not_mem_cons hno
      have hkeeps := hK.exec (p := p) hi hm
      refine ⟨hP i List.mem_cons_self m hm, ?_⟩
      cases hexec : i.exec p m with
      | next m₁ =>
          rw [hexec] at hkeeps
          exact ih (fun j hj => hP j (List.mem_cons_of_mem _ hj)) his hkeeps
      | goto l₁ m₁ => trivial
      | returned ip m₁ => trivial
      | fault => trivial

/-- **A label whose block has no port write**: the property passes to every label it may lead to. -/
theorem leads (hK : Kept K) {Inv : Label → Machine β → Prop} (hno : .outDxAx ∉ p.code l)
    (hm : K m.bus) (hsucc : ∀ l' m', p.Successor l l' → K m'.bus → Inv l' m') :
    (p.step l m).Leads Inv K := by
  have hkeeps := hK.execBlock (p := p) (l := l) hno hm
  cases hstep : p.step l m with
  | next m₁ => trivial
  | goto l₁ m₁ =>
      rw [Program.step] at hstep
      rw [hstep] at hkeeps
      exact hsucc l₁ m₁ (execBlock_goto hstep) hkeeps
  | returned ip m₁ =>
      rw [Program.step] at hstep
      rwa [hstep] at hkeeps
  | fault => trivial

end Kept

end RealMode
