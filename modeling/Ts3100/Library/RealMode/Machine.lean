import Ts3100.Library.RealMode.Bus

/-! # A real-mode processor

The part of the 8086 instruction set that a 16-bit routine of moves, integer arithmetic, string
copies, port accesses and calls needs. `Machine β` is the register file over a bus `β`; an
instruction's effect is an `Outcome`: go on, jump to a label, return far out of the routine, or
fault.

* `Flags` holds the four arithmetic flags that conditional jumps and `adc` read; the parity and
  auxiliary flags are left out.
* Word accesses at offset `FFFF` wrap to offset `0`, as on the 8086.
* `Program` — the code of each label, and the offset a label has in the code segment (a `call`
  pushes it, a `ret` looks it up). -/

namespace RealMode

open Bus

universe u v

/-! ## Registers -/

/-- The 16-bit general registers. -/
inductive Reg
  | ax | bx | cx | dx | si | di | bp | sp
  deriving DecidableEq, Repr

/-- The byte registers. -/
inductive Reg8
  | al | ah | bl | bh | cl | ch | dl | dh
  deriving DecidableEq, Repr

/-- The segment registers. -/
inductive Seg
  | cs | ds | es | ss
  deriving DecidableEq, Repr

/-- The arithmetic flags. -/
structure Flags where
  carry : Bool := false
  zero : Bool := false
  sign : Bool := false
  overflow : Bool := false
  deriving DecidableEq, Repr

/-- The processor's registers over a bus. -/
structure Machine (β : Type u) where
  (ax bx cx dx si di bp sp : Word)
  (cs ds es ss : Word)
  flags : Flags
  direction : Bool
  interrupt : Bool
  bus : β

namespace Machine

variable {β : Type u} (m : Machine β)

/-- The value of a general register. -/
@[simp] def get : Reg → Word
  | .ax => m.ax
  | .bx => m.bx
  | .cx => m.cx
  | .dx => m.dx
  | .si => m.si
  | .di => m.di
  | .bp => m.bp
  | .sp => m.sp

/-- The machine with a general register set. -/
@[simp] def set (r : Reg) (w : Word) : Machine β :=
  match r with
  | .ax => { m with ax := w }
  | .bx => { m with bx := w }
  | .cx => { m with cx := w }
  | .dx => { m with dx := w }
  | .si => { m with si := w }
  | .di => { m with di := w }
  | .bp => { m with bp := w }
  | .sp => { m with sp := w }

/-- The value of a byte register. -/
@[simp] def get8 : Reg8 → BitVec 8
  | .al => lo m.ax
  | .ah => hi m.ax
  | .bl => lo m.bx
  | .bh => hi m.bx
  | .cl => lo m.cx
  | .ch => hi m.cx
  | .dl => lo m.dx
  | .dh => hi m.dx

/-- The machine with a byte register set; the other half of the word is kept. -/
@[simp] def set8 (r : Reg8) (b : BitVec 8) : Machine β :=
  match r with
  | .al => { m with ax := word (hi m.ax) b }
  | .ah => { m with ax := word b (lo m.ax) }
  | .bl => { m with bx := word (hi m.bx) b }
  | .bh => { m with bx := word b (lo m.bx) }
  | .cl => { m with cx := word (hi m.cx) b }
  | .ch => { m with cx := word b (lo m.cx) }
  | .dl => { m with dx := word (hi m.dx) b }
  | .dh => { m with dx := word b (lo m.dx) }

/-- The value of a segment register. -/
@[simp] def getSeg : Seg → Word
  | .cs => m.cs
  | .ds => m.ds
  | .es => m.es
  | .ss => m.ss

end Machine

/-! ## Operands -/

/-- A memory operand: `[s:d]`, `[s:r+d]` or `[s:r-d]`. -/
inductive Address
  | abs (s : Seg) (d : Word)
  | above (s : Seg) (r : Reg) (d : Word)
  | below (s : Seg) (r : Reg) (d : Word)
  deriving DecidableEq, Repr

/-- A 16-bit operand. -/
inductive Operand
  | reg (r : Reg)
  | seg (s : Seg)
  | imm (w : Word)
  | mem (a : Address)
  deriving DecidableEq, Repr

/-- An 8-bit operand. -/
inductive Operand8
  | reg (r : Reg8)
  | imm (b : BitVec 8)
  | mem (a : Address)
  deriving DecidableEq, Repr

namespace Machine

variable {β : Type u} [Bus β] (m : Machine β)

/-- The segment and the offset a memory operand designates. -/
@[simp] def effective : Address → Word × Word
  | .abs s d => (m.getSeg s, d)
  | .above s r d => (m.getSeg s, m.get r + d)
  | .below s r d => (m.getSeg s, m.get r - d)

/-- The value of a 16-bit operand. -/
@[simp] def load : Operand → Word
  | .reg r => m.get r
  | .seg s => m.getSeg s
  | .imm w => w
  | .mem a => readWord m.bus (m.effective a).1 (m.effective a).2

/-- The machine after a store to a 16-bit operand; an immediate and `cs` cannot be stored to. -/
@[simp] def store (dst : Operand) (w : Word) : Option (Machine β) :=
  match dst with
  | .reg r => some (m.set r w)
  | .seg .ds => some { m with ds := w }
  | .seg .es => some { m with es := w }
  | .seg .ss => some { m with ss := w }
  | .seg .cs => none
  | .imm _ => none
  | .mem a => some { m with bus := writeWord m.bus (m.effective a).1 (m.effective a).2 w }

/-- The value of an 8-bit operand. -/
@[simp] def load8 : Operand8 → BitVec 8
  | .reg r => m.get8 r
  | .imm b => b
  | .mem a => read m.bus (linear (m.effective a).1 (m.effective a).2)

/-- The machine after a store to an 8-bit operand. -/
@[simp] def store8 (dst : Operand8) (b : BitVec 8) : Option (Machine β) :=
  match dst with
  | .reg r => some (m.set8 r b)
  | .imm _ => none
  | .mem a => some { m with bus := write m.bus (linear (m.effective a).1 (m.effective a).2) b }

/-- The machine after a word is pushed. -/
@[simp] def push (w : Word) : Machine β :=
  { m with sp := m.sp - 2#16, bus := writeWord m.bus m.ss (m.sp - 2#16) w }

/-- The word on top of the stack. -/
@[simp] def top : Word := readWord m.bus m.ss m.sp

/-- The machine with `n` bytes dropped off the stack. -/
@[simp] def drop (n : Word) : Machine β := { m with sp := m.sp + n }

end Machine

/-! ## Arithmetic -/

/-- Addition with carry in: the sum and its flags. -/
def addc {w : Nat} (a b : BitVec w) (c : Bool) : BitVec w × Flags :=
  let sum := a + b + BitVec.ofNat w c.toNat
  (sum, ⟨decide (2 ^ w ≤ a.toNat + b.toNat + c.toNat), decide (sum = 0), sum.msb,
    a.msb == b.msb && sum.msb != a.msb⟩)

/-- Subtraction: the difference and its flags. -/
def subb {w : Nat} (a b : BitVec w) : BitVec w × Flags :=
  (a - b, ⟨decide (a.toNat < b.toNat), decide (a = b), (a - b).msb,
    a.msb != b.msb && (a - b).msb != a.msb⟩)

/-- The flags of a bitwise result. -/
def logic {w : Nat} (a : BitVec w) : BitVec w × Flags :=
  (a, ⟨false, decide (a = 0), a.msb, false⟩)

section flags

variable {w : Nat} (a b : BitVec w)

/-- A sum without a carry in. -/
@[simp] theorem addc_false_fst : (addc a b false).1 = a + b := by simp [addc]

/-- A sum as a number. -/
theorem toNat_addc (c : Bool) :
    (addc a b c).1.toNat = (a.toNat + b.toNat + c.toNat) % 2 ^ w := by
  simp [addc, Nat.add_mod]

/-- The carry out of a sum. -/
@[simp] theorem addc_carry (c : Bool) :
    (addc a b c).2.carry = decide (2 ^ w ≤ a.toNat + b.toNat + c.toNat) := rfl

/-- A difference. -/
@[simp] theorem subb_fst : (subb a b).1 = a - b := rfl

/-- It is zero where the operands are equal. -/
@[simp] theorem subb_zero : (subb a b).2.zero = decide (a = b) := rfl

/-- The result of a logical operation. -/
@[simp] theorem logic_fst : (logic a).1 = a := rfl

/-- Its zero flag. -/
@[simp] theorem logic_zero : (logic a).2.zero = decide (a = 0) := rfl

end flags

/-- The two-operand instructions. -/
inductive AluOp
  | add | adc | sub | cmp | and | test | xor
  deriving DecidableEq, Repr

/-- The result and the flags of an operation, given the carry flag before it. -/
@[simp] def AluOp.eval {w : Nat} (op : AluOp) (carry : Bool) (a b : BitVec w) : BitVec w × Flags :=
  match op with
  | .add => addc a b false
  | .adc => addc a b carry
  | .sub => subb a b
  | .cmp => subb a b
  | .and => logic (a &&& b)
  | .test => logic (a &&& b)
  | .xor => logic (a ^^^ b)

/-- `cmp` and `test` only set the flags. -/
@[simp] def AluOp.stores : AluOp → Bool
  | .cmp => false
  | .test => false
  | _ => true

/-- The conditions of the conditional jumps. -/
inductive Cond
  | e | ne | ng
  deriving DecidableEq, Repr

/-- A condition holds of the flags. -/
def Cond.holds (c : Cond) (f : Flags) : Bool :=
  match c with
  | .e => f.zero
  | .ne => !f.zero
  | .ng => f.zero || f.sign != f.overflow

/-- `je` goes by the zero flag. -/
@[simp] theorem holds_e (f : Flags) : Cond.e.holds f = f.zero := rfl

/-- `jne` goes by its complement. -/
@[simp] theorem holds_ne (f : Flags) : Cond.ne.holds f = !f.zero := rfl

/-- The sign of a difference, corrected by its overflow, is the signed order. -/
theorem msb_sub_bne {w : Nat} (a b : BitVec w) :
    ((a - b).msb != (a.msb != b.msb && (a - b).msb != a.msb)) = a.slt b := by
  cases w with
  | zero => simp [Subsingleton.elim a 0#0, Subsingleton.elim b 0#0]
  | succ w =>
      have hpow : 2 ^ (w + 1) = 2 * 2 ^ w := by rw [Nat.pow_succ, Nat.mul_comm]
      have ha := a.isLt
      have hb := b.isLt
      rw [BitVec.slt_eq_decide, BitVec.toInt_eq_msb_cond, BitVec.toInt_eq_msb_cond]
      simp only [BitVec.msb_eq_decide, Nat.add_sub_cancel, BitVec.toNat_sub, hpow] at *
      have hsub : (2 * 2 ^ w - b.toNat + a.toNat) % (2 * 2 ^ w) =
          if b.toNat ≤ a.toNat then a.toNat - b.toNat else 2 * 2 ^ w + a.toNat - b.toNat := by
        split
        · rw [show 2 * 2 ^ w - b.toNat + a.toNat = a.toNat - b.toNat + 2 * 2 ^ w by omega,
            Nat.add_mod_right, Nat.mod_eq_of_lt (by omega)]
        · rw [Nat.mod_eq_of_lt (by omega)]
          omega
      rw [hsub]
      generalize a.toNat = x at *
      generalize b.toNat = y at *
      generalize 2 ^ w = p at *
      -- the signs of the operands, their order and the sign of the difference decide both sides
      by_cases hx : p ≤ x <;> by_cases hy : p ≤ y <;> by_cases hxy : y ≤ x <;>
        by_cases hd : p ≤ x - y <;> simp [hx, hy, hxy, hd] <;> omega

/-- After `cmp a, b`, the jump `jng` is taken where `a ≤ b` as signed numbers. -/
@[simp] theorem holds_ng_subb {w : Nat} (a b : BitVec w) :
    Cond.ng.holds (subb a b).2 = a.sle b := by
  rw [BitVec.sle_eq_slt_or_eq, ← msb_sub_bne, Bool.or_comm]
  rfl

/-! ## Instructions -/

/-- The instructions, over the labels a jump may name. A `call` carries the label of the instruction
after it. -/
inductive Instr (Label : Type v)
  | sti
  | cld
  | clc
  | push (src : Operand)
  | pop (dst : Operand)
  | mov (dst src : Operand)
  | mov8 (dst src : Operand8)
  | alu (op : AluOp) (dst src : Operand)
  | alu8 (op : AluOp) (dst src : Operand8)
  | mul (src : Operand)
  | mul8 (src : Operand8)
  | shl8 (dst : Operand8)
  | inAxDx
  | outDxAx
  | repMovsw
  | jcc (c : Cond) (target : Label)
  | jmp (target : Label)
  | call (target after : Label)
  | ret
  | retf (n : Word)

/-- What an instruction or a block leads to. -/
inductive Outcome (Label : Type v) (β : Type u)
  | next (m : Machine β)
  | goto (l : Label) (m : Machine β)
  | returned (ip : Word) (m : Machine β)
  | fault

/-- A routine: the code of each label, the label it falls through to, and the labels' offsets in the
code segment. -/
structure Program (Label : Type v) where
  code : Label → List (Instr Label)
  next : Label → Option Label
  offset : Label → Word
  labelAt : Word → Option Label

namespace Machine

variable {β : Type u} [Bus β] (m : Machine β)

/-- One `movsw`. -/
def movsw : Machine β :=
  let δ : Word := if m.direction then -2#16 else 2#16
  { m with
    bus := writeWord m.bus m.es m.di (readWord m.bus m.ds m.si)
    si := m.si + δ
    di := m.di + δ }

/-- `movsw` repeated `n` times. -/
def movswTimes : Nat → Machine β → Machine β
  | 0, m => m
  | n + 1, m => movswTimes n m.movsw

/-- `rep movsw`. -/
def repMovsw : Machine β := { movswTimes m.cx.toNat m with cx := 0#16 }

end Machine

variable {Label : Type v} {β : Type u} [Bus β]

/-- Go on with a machine, or fault where there is none. -/
@[simp] def Outcome.ofOption : Option (Machine β) → Outcome Label β
  | some m => .next m
  | none => .fault

/-- The outcome of one instruction. -/
@[simp] def Instr.exec (p : Program Label) (m : Machine β) : Instr Label → Outcome Label β
  | .sti => .next { m with interrupt := true }
  | .cld => .next { m with direction := false }
  | .clc => .next { m with flags := { m.flags with carry := false } }
  | .push src => .next (m.push (m.load src))
  | .pop dst => .ofOption ((m.drop 2#16).store dst m.top)
  | .mov dst src => .ofOption (m.store dst (m.load src))
  | .mov8 dst src => .ofOption (m.store8 dst (m.load8 src))
  | .alu op dst src =>
      let r := op.eval m.flags.carry (m.load dst) (m.load src)
      let m' := { m with flags := r.2 }
      if op.stores then .ofOption (m'.store dst r.1) else .next m'
  | .alu8 op dst src =>
      let r := op.eval m.flags.carry (m.load8 dst) (m.load8 src)
      let m' := { m with flags := r.2 }
      if op.stores then .ofOption (m'.store8 dst r.1) else .next m'
  | .mul src =>
      let product : BitVec 32 := m.ax.setWidth 32 * (m.load src).setWidth 32
      let wide := decide (product.extractLsb' 16 16 ≠ 0#16)
      .next { m with
        ax := product.extractLsb' 0 16
        dx := product.extractLsb' 16 16
        flags := { m.flags with carry := wide, overflow := wide } }
  | .mul8 src =>
      let product : Word := (lo m.ax).setWidth 16 * (m.load8 src).setWidth 16
      let wide := decide (hi product ≠ 0#8)
      .next { m with ax := product, flags := { m.flags with carry := wide, overflow := wide } }
  | .shl8 dst =>
      let b := m.load8 dst
      let r := b <<< 1
      .ofOption ({ m with flags := ⟨b.msb, decide (r = 0#8), r.msb, r.msb != b.msb⟩ }.store8 dst r)
  | .inAxDx => .ofOption ((inWord m.bus m.dx).map fun r => { m with ax := r.1, bus := r.2 })
  | .outDxAx => .ofOption ((outWord m.bus m.dx m.ax).map fun b => { m with bus := b })
  | .repMovsw => .next m.repMovsw
  | .jcc c target => if c.holds m.flags then .goto target m else .next m
  | .jmp target => .goto target m
  | .call target after => .goto target (m.push (p.offset after))
  | .ret =>
      match p.labelAt m.top with
      | some target => .goto target (m.drop 2#16)
      | none => .fault
  | .retf n =>
      .returned m.top { m.drop (4#16 + n) with cs := readWord m.bus m.ss (m.sp + 2#16) }

namespace Program

variable (p : Program Label)

/-- The outcome of the rest of a block, under the label `l`. -/
@[simp] def execBlock (l : Label) : List (Instr Label) → Machine β → Outcome Label β
  | [], m =>
      match p.next l with
      | some l' => .goto l' m
      | none => .fault
  | i :: is, m =>
      match i.exec p m with
      | .next m' => execBlock l is m'
      | outcome => outcome

/-- The outcome of the block at a label. -/
def step (l : Label) (m : Machine β) : Outcome Label β := p.execBlock l (p.code l) m

/-- The outcome of a routine entered at `l`, within a number of blocks. -/
def runFor : Nat → Label → Machine β → Option (Outcome Label β)
  | 0, _, _ => none
  | fuel + 1, l, m =>
      match p.step l m with
      | .goto l' m' => runFor fuel l' m'
      | outcome => some outcome

/-- **Total correctness of a routine**: entered at `l`, it returns to a far caller with a machine
that satisfies `Q`. -/
def Ensures (l : Label) (m : Machine β) (Q : Word → Machine β → Prop) : Prop :=
  ∃ fuel ip m', p.runFor fuel l m = some (.returned ip m') ∧ Q ip m'

variable {p} {l l' : Label} {m m' : Machine β} {Q R : Word → Machine β → Prop}

/-- A block that jumps passes the obligation on. -/
theorem Ensures.goto (hstep : p.step l m = .goto l' m') (h : p.Ensures l' m' Q) :
    p.Ensures l m Q := by
  obtain ⟨fuel, ip, m'', hrun, hQ⟩ := h
  refine ⟨fuel + 1, ip, m'', ?_, hQ⟩
  rw [runFor, hstep]
  exact hrun

/-- A block that returns meets the obligation at once. -/
theorem Ensures.returned {ip : Word} (hstep : p.step l m = .returned ip m') (hQ : Q ip m') :
    p.Ensures l m Q := by
  refine ⟨1, ip, m', ?_, hQ⟩
  rw [runFor, hstep]

/-- What is ensured may be weakened. -/
theorem Ensures.mono (h : p.Ensures l m Q) (hQR : ∀ ip m', Q ip m' → R ip m') :
    p.Ensures l m R := by
  obtain ⟨fuel, ip, m', hrun, hQ⟩ := h
  exact ⟨fuel, ip, m', hrun, hQR ip m' hQ⟩

/-- More fuel does not change an outcome. -/
theorem runFor_mono {fuel fuel' : Nat} {out : Outcome Label β} (hle : fuel ≤ fuel')
    (h : p.runFor fuel l m = some out) : p.runFor fuel' l m = some out := by
  induction fuel generalizing fuel' l m with
  | zero => cases h
  | succ fuel ih =>
      obtain ⟨k, rfl⟩ : ∃ k, fuel' = k + 1 := ⟨fuel' - 1, by omega⟩
      rw [runFor] at h ⊢
      split at h
      · exact ih (by omega) h
      · exact h

/-- **The result of a routine is unique**: two postconditions that it ensures hold together. -/
theorem Ensures.and (hQ : p.Ensures l m Q) (hR : p.Ensures l m R) :
    p.Ensures l m fun ip m' => Q ip m' ∧ R ip m' := by
  obtain ⟨fuel, ip, m₁, hrun, hQ⟩ := hQ
  obtain ⟨fuel', ip', m₂, hrun', hR⟩ := hR
  have h₁ := runFor_mono (Nat.le_max_left fuel fuel') hrun
  have h₂ := runFor_mono (Nat.le_max_right fuel fuel') hrun'
  rw [h₁, Option.some.injEq, Outcome.returned.injEq] at h₂
  obtain ⟨rfl, rfl⟩ := h₂
  exact ⟨_, ip, m₁, h₁, hQ, hR⟩

/-- A routine ensures no impossible result. -/
theorem Ensures.false_elim (h : p.Ensures l m fun _ _ => False) : False := by
  obtain ⟨-, -, -, -, hfalse⟩ := h
  exact hfalse

end Program

end RealMode
