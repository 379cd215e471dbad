import Ts3100.Library.RealMode.Machine

/-! # A 386 in real mode

The part of the 386 instruction set that 16-bit code with 32-bit registers and 32-bit addresses
needs. An offset is 32 bits wide, but an access that does not end within the first 64 KiB of its
segment faults; the stack is addressed by the low half of `esp`.

* `Machine σ` — the registers, a byte-addressed memory, and a world `σ` that only interrupts reach.
  `stored` records the offsets of the bytes stored through `es`; no instruction reads it.
* `Program` — the code of each label, where a near return to an address of the program leads, and
  the service behind each interrupt.
* `Program.Ensures` — total correctness: the program returns to an address outside it with a
  machine that satisfies a postcondition. `Program.alone` is the program whose first `ret` ends it,
  and `Ensures.follow` puts a routine verified alone where its caller continues. -/

namespace I386

open RealMode (Word Flags AluOp addc subb logic fill word)

universe u v

/-- A 32-bit word. -/
abbrev Dword := BitVec 32

/-! ## Values in memory -/

/-- Byte `i` of a value. -/
def byteOf {w : Nat} (v : BitVec w) (i : Nat) : BitVec 8 := v.extractLsb' (8 * i) 8

/-- The word at `a`. -/
def read16 (mem : Nat → BitVec 8) (a : Nat) : Word := word (mem (a + 1)) (mem a)

/-- The double word at `a`. -/
def read32 (mem : Nat → BitVec 8) (a : Nat) : Dword :=
  mem (a + 3) ++ mem (a + 2) ++ mem (a + 1) ++ mem a

section values

variable {mem mem' : Nat → BitVec 8} {a : Nat}

/-- A word depends on its two bytes. -/
theorem read16_congr (h : ∀ i < 2, mem' (a + i) = mem (a + i)) : read16 mem' a = read16 mem a := by
  rw [read16, read16, h 1 (by omega), ← Nat.add_zero a, h 0 (by omega)]

/-- A double word depends on its four bytes. -/
theorem read32_congr (h : ∀ i < 4, mem' (a + i) = mem (a + i)) : read32 mem' a = read32 mem a := by
  have h₀ := h 0 (by omega)
  rw [Nat.add_zero] at h₀
  rw [read32, read32, h 3 (by omega), h 2 (by omega), h 1 (by omega), h₀]

/-- A word reads back as written. -/
theorem read16_fill (v : Word) : read16 (fill mem a 2 (byteOf v)) a = v := by
  have h₀ : fill mem a 2 (byteOf v) a = byteOf v 0 := RealMode.fill_add (a := a) (x := 0) (by omega)
  rw [read16, RealMode.fill_add (by omega), h₀]
  exact RealMode.word_hi_lo v

/-- A byte of a value as a number. -/
theorem toNat_byteOf {w : Nat} (v : BitVec w) (i : Nat) :
    (byteOf v i).toNat = v.toNat / 2 ^ (8 * i) % 256 := by
  simp [byteOf, Nat.shiftRight_eq_div_pow]

/-- A double word in memory as a number. -/
theorem toNat_read32 (mem : Nat → BitVec 8) (a : Nat) : (read32 mem a).toNat =
    (mem (a + 3)).toNat * 16777216 + (mem (a + 2)).toNat * 65536 + (mem (a + 1)).toNat * 256 +
      (mem a).toNat := by
  have h₀ := (mem a).isLt
  have h₁ := (mem (a + 1)).isLt
  have h₂ := (mem (a + 2)).isLt
  rw [read32, BitVec.toNat_append, BitVec.toNat_append, BitVec.toNat_append,
    ← Nat.shiftLeft_add_eq_or_of_lt h₀, ← Nat.shiftLeft_add_eq_or_of_lt h₁,
    ← Nat.shiftLeft_add_eq_or_of_lt h₂]
  simp only [Nat.shiftLeft_eq]
  omega

/-- A double word reads back as written. -/
theorem read32_fill (v : Dword) : read32 (fill mem a 4 (byteOf v)) a = v := by
  have hv := v.isLt
  have h₀ : fill mem a 4 (byteOf v) a = byteOf v 0 := RealMode.fill_add (a := a) (x := 0) (by omega)
  apply BitVec.eq_of_toNat_eq
  rw [toNat_read32, RealMode.fill_add (by omega), RealMode.fill_add (by omega),
    RealMode.fill_add (by omega), h₀]
  simp only [toNat_byteOf, Nat.reduceMul, Nat.reducePow, Nat.div_one] at *
  omega

end values

/-! ## Registers -/

/-- The 32-bit general registers. -/
inductive Reg
  | eax | ebx | ecx | edx | esi | edi | ebp | esp
  deriving DecidableEq, Repr

/-- The byte registers. -/
inductive Reg8
  | al | ah | cl
  deriving DecidableEq, Repr

/-- The segment registers of data. -/
inductive Seg
  | ds | es | ss
  deriving DecidableEq, Repr

/-- The processor's registers, the memory and the world. -/
structure Machine (σ : Type u) where
  (eax ebx ecx edx esi edi ebp esp : Dword)
  (ds es ss : Word)
  flags : Flags
  direction : Bool
  memory : Nat → BitVec 8
  stored : List Dword
  world : σ

/-- The low half of a register replaced. -/
def setLow (v : Dword) (w : Word) : Dword := v.extractLsb' 16 16 ++ w

/-- The lowest byte of a register replaced. -/
def setByte0 (v : Dword) (b : BitVec 8) : Dword := v.extractLsb' 8 24 ++ b

/-- The second byte of a register replaced. -/
def setByte1 (v : Dword) (b : BitVec 8) : Dword := v.extractLsb' 16 16 ++ b ++ v.extractLsb' 0 8

/-- The lowest byte that is set is there. -/
@[simp] theorem byteOf_setByte0 (v : Dword) (b : BitVec 8) : byteOf (setByte0 v b) 0 = b := by
  unfold byteOf setByte0
  exact BitVec.extractLsb'_append_eq_right

/-- So is the second. -/
@[simp] theorem byteOf_setByte1 (v : Dword) (b : BitVec 8) : byteOf (setByte1 v b) 1 = b := by
  have hlow : (v.extractLsb' 0 8).toNat < 2 ^ 8 := (v.extractLsb' 0 8).isLt
  have hb : b.toNat < 2 ^ 8 := b.isLt
  apply BitVec.eq_of_toNat_eq
  rw [toNat_byteOf, setByte1, BitVec.toNat_append, BitVec.toNat_append,
    ← Nat.shiftLeft_add_eq_or_of_lt hb, ← Nat.shiftLeft_add_eq_or_of_lt hlow]
  simp only [Nat.shiftLeft_eq]
  omega

namespace Machine

variable {σ : Type u} (m : Machine σ)

/-- The value of a general register. -/
@[simp] def get : Reg → Dword
  | .eax => m.eax
  | .ebx => m.ebx
  | .ecx => m.ecx
  | .edx => m.edx
  | .esi => m.esi
  | .edi => m.edi
  | .ebp => m.ebp
  | .esp => m.esp

/-- The machine with a general register set. -/
@[simp] def set (r : Reg) (v : Dword) : Machine σ :=
  match r with
  | .eax => { m with eax := v }
  | .ebx => { m with ebx := v }
  | .ecx => { m with ecx := v }
  | .edx => { m with edx := v }
  | .esi => { m with esi := v }
  | .edi => { m with edi := v }
  | .ebp => { m with ebp := v }
  | .esp => { m with esp := v }

/-- The value of a byte register. -/
@[simp] def get8 : Reg8 → BitVec 8
  | .al => byteOf m.eax 0
  | .ah => byteOf m.eax 1
  | .cl => byteOf m.ecx 0

/-- The machine with a byte register set; the rest of the register is kept. -/
@[simp] def set8 (r : Reg8) (b : BitVec 8) : Machine σ :=
  match r with
  | .al => { m with eax := setByte0 m.eax b }
  | .ah => { m with eax := setByte1 m.eax b }
  | .cl => { m with ecx := setByte0 m.ecx b }

/-- The value of a segment register. -/
@[simp] def getSeg : Seg → Word
  | .ds => m.ds
  | .es => m.es
  | .ss => m.ss

/-- The linear address of `s:o`. -/
@[simp] def linear (s : Seg) (o : Dword) : Nat := (m.getSeg s).toNat * 16 + o.toNat

/-- The linear address of `n` bytes at `s:o`; none beyond the segment's 64 KiB. -/
def address (s : Seg) (o : Dword) (n : Nat) : Option Nat :=
  if o.toNat + n ≤ 65536 then some (m.linear s o) else none

variable {m} in
/-- An access inside the segment has its linear address. -/
theorem address_eq {s : Seg} {o : Dword} {n : Nat} (h : o.toNat + n ≤ 65536) :
    m.address s o n = some (m.linear s o) := if_pos h

end Machine

/-! ## The stack -/

/-- The low half of the stack pointer advanced. -/
def addSp (e : Dword) (n : Word) : Dword := setLow e (e.setWidth 16 + n)

/-- The offset in the stack segment that a stack pointer designates. -/
def stackOffset (e : Dword) : Dword := (e.setWidth 16).setWidth 32

/-- A double word with another low word, as a number. -/
theorem toNat_setLow (v : Dword) (w : Word) :
    (setLow v w).toNat = v.toNat / 65536 * 65536 + w.toNat := by
  have hv : v.toNat / 65536 < 65536 := by omega
  have hw : w.toNat < 2 ^ 16 := w.isLt
  rw [setLow, BitVec.toNat_append, ← Nat.shiftLeft_add_eq_or_of_lt hw, Nat.shiftLeft_eq]
  simp [Nat.shiftRight_eq_div_pow, Nat.mod_eq_of_lt hv]

section stack

variable {e : Dword}

/-- A stack pointer of 16 bits is its own offset. -/
theorem stackOffset_eq (h : e.toNat < 65536) : stackOffset e = e := by
  apply BitVec.eq_of_toNat_eq
  simp only [stackOffset, BitVec.toNat_setWidth, Nat.reducePow]
  omega

/-- The stack pointer moves modulo 64 KiB. -/
theorem toNat_addSp (h : e.toNat < 65536) (n : Word) :
    (addSp e n).toNat = (e.toNat + n.toNat) % 65536 := by
  rw [addSp, toNat_setLow, BitVec.toNat_add, BitVec.toNat_setWidth]
  omega

/-- Down, as long as there is room. -/
theorem addSp_neg {n : Nat} (hlow : n ≤ e.toNat) (hhigh : e.toNat < 65536) :
    addSp e (-BitVec.ofNat 16 n) = e - BitVec.ofNat 32 n := by
  apply BitVec.eq_of_toNat_eq
  rw [toNat_addSp hhigh, BitVec.toNat_neg, BitVec.toNat_sub]
  simp only [BitVec.toNat_ofNat, Nat.reducePow]
  omega

/-- Up, as long as it does not wrap. -/
theorem addSp_add {n : Nat} (h : e.toNat + n < 65536) :
    addSp e (BitVec.ofNat 16 n) = e + BitVec.ofNat 32 n := by
  apply BitVec.eq_of_toNat_eq
  rw [toNat_addSp (by omega), BitVec.toNat_add]
  simp only [BitVec.toNat_ofNat, Nat.reducePow]
  omega

end stack

namespace Machine

variable {σ : Type u} (m : Machine σ)

/-- The machine after a double word is pushed. -/
def push32 (v : Dword) : Option (Machine σ) :=
  let e := addSp m.esp (-4#16)
  (m.address .ss (stackOffset e) 4).map fun a =>
    { m with esp := e, memory := fill m.memory a 4 (byteOf v) }

/-- The machine after a word is pushed. -/
def push16 (v : Word) : Option (Machine σ) :=
  let e := addSp m.esp (-2#16)
  (m.address .ss (stackOffset e) 2).map fun a =>
    { m with esp := e, memory := fill m.memory a 2 (byteOf v) }

/-- The double word on top of the stack, and the machine after it is dropped. -/
def pop32 : Option (Dword × Machine σ) :=
  (m.address .ss (stackOffset m.esp) 4).map fun a =>
    (read32 m.memory a, { m with esp := addSp m.esp 4#16 })

/-- The word on top of the stack, and the machine after it is dropped. -/
def pop16 : Option (Word × Machine σ) :=
  (m.address .ss (stackOffset m.esp) 2).map fun a =>
    (read16 m.memory a, { m with esp := addSp m.esp 2#16 })

variable {m}

/-- A push of a double word with room on the stack. -/
theorem push32_eq (hlow : 4 ≤ m.esp.toNat) (hhigh : m.esp.toNat < 65536) (v : Dword) :
    m.push32 v = some { m with
      esp := m.esp - 4#32
      memory := fill m.memory (m.ss.toNat * 16 + m.esp.toNat - 4) 4 (byteOf v) } := by
  have he : addSp m.esp (-4#16) = m.esp - 4#32 := addSp_neg hlow hhigh
  have hsub : (m.esp - 4#32).toNat = m.esp.toNat - 4 := by bv_omega
  rw [push32, he, stackOffset_eq (by omega), address_eq (by omega)]
  simp only [linear, getSeg, hsub, Option.map_some, Nat.add_sub_assoc hlow]

/-- A push of a word with room on the stack. -/
theorem push16_eq (hlow : 2 ≤ m.esp.toNat) (hhigh : m.esp.toNat < 65536) (v : Word) :
    m.push16 v = some { m with
      esp := m.esp - 2#32
      memory := fill m.memory (m.ss.toNat * 16 + m.esp.toNat - 2) 2 (byteOf v) } := by
  have he : addSp m.esp (-2#16) = m.esp - 2#32 := addSp_neg hlow hhigh
  have hsub : (m.esp - 2#32).toNat = m.esp.toNat - 2 := by bv_omega
  rw [push16, he, stackOffset_eq (by omega), address_eq (by omega)]
  simp only [linear, getSeg, hsub, Option.map_some, Nat.add_sub_assoc hlow]

/-- A pop of a double word that does not wrap. -/
theorem pop32_eq (h : m.esp.toNat + 4 < 65536) :
    m.pop32 = some (read32 m.memory (m.ss.toNat * 16 + m.esp.toNat),
      { m with esp := m.esp + 4#32 }) := by
  have he : addSp m.esp 4#16 = m.esp + 4#32 := addSp_add h
  rw [pop32, he, stackOffset_eq (by omega), address_eq (by omega)]
  rfl

/-- A pop of a word from inside the segment. -/
theorem pop16_eq (h : m.esp.toNat + 2 ≤ 65536) :
    m.pop16 = some (read16 m.memory (m.ss.toNat * 16 + m.esp.toNat),
      { m with esp := addSp m.esp 2#16 }) := by
  rw [pop16, stackOffset_eq (by omega), address_eq (by omega)]
  rfl

end Machine

/-! ## Instructions -/

/-- A 32-bit operand: a register, an immediate, or `[s:r]`. -/
inductive Operand
  | reg (r : Reg)
  | imm (v : Dword)
  | mem (s : Seg) (r : Reg)
  deriving DecidableEq, Repr

/-- The conditions of the conditional jumps. -/
inductive Cond
  | e | ne | b
  deriving DecidableEq, Repr

/-- A condition holds of the flags. -/
@[simp] def Cond.holds (c : Cond) (f : Flags) : Bool :=
  match c with
  | .e => f.zero
  | .ne => !f.zero
  | .b => f.carry

/-- The instructions, over the labels a jump may name. String instructions have 32-bit addresses. -/
inductive Instr (Label : Type v)
  | cld
  | push (src : Reg)
  | pushWord (w : Word)
  | pop (dst : Reg)
  | popWord (dst : Reg)
  | mov (dst : Reg) (src : Operand)
  | mov8 (dst : Reg8) (b : BitVec 8)
  | movEs (r : Reg) (b : BitVec 8)
  | movzx8 (dst : Reg) (s : Seg) (r : Reg)
  | movsx8 (dst : Reg) (s : Seg) (r : Reg)
  | movzx16 (dst : Reg) (s : Seg) (r : Reg)
  | movsx16 (dst : Reg) (s : Seg) (r : Reg)
  | alu (op : AluOp) (dst : Reg) (src : Operand)
  | alu8 (op : AluOp) (dst : Reg8) (b : BitVec 8)
  | cmpAx (w : Word)
  | not (dst : Reg)
  | inc (dst : Reg)
  | dec (dst : Reg)
  | div (src : Operand)
  | shrCl (dst : Reg)
  | xlat
  | stosb
  | lodsw
  | repneScasb
  | jcc (c : Cond) (target : Label)
  | jmp (target : Label)
  | ret
  | int (n : BitVec 8)

/-- What an instruction or a block leads to. -/
inductive Outcome (Label : Type v) (σ : Type u)
  | next (m : Machine σ)
  | goto (l : Label) (m : Machine σ)
  | returned (ip : Word) (m : Machine σ)
  | fault

/-- The code of each label, the label it falls through to, the labels that near returns lead to, and
the services behind the interrupts. -/
structure Program (Label : Type v) (σ : Type u) where
  code : Label → List (Instr Label)
  next : Label → Option Label
  labelAt : Word → Option Label
  interrupt : BitVec 8 → Machine σ → Option (Machine σ)

namespace Machine

variable {σ : Type u} (m : Machine σ)

/-- The value of an operand. -/
def load : Operand → Option Dword
  | .reg r => some (m.get r)
  | .imm v => some v
  | .mem s r => (m.address s (m.get r) 4).map (read32 m.memory)

/-- A register operand. -/
@[simp] theorem load_reg (r : Reg) : m.load (.reg r) = some (m.get r) := rfl

/-- An immediate operand. -/
@[simp] theorem load_imm (v : Dword) : m.load (.imm v) = some v := rfl

/-- The byte at `[s:r]`. -/
def load8 (s : Seg) (r : Reg) : Option (BitVec 8) := (m.address s (m.get r) 1).map m.memory

/-- The word at `[s:r]`. -/
def load16 (s : Seg) (r : Reg) : Option Word := (m.address s (m.get r) 2).map (read16 m.memory)

/-- The machine after a byte is stored at `es:o`. -/
def storeEs (o : Dword) (b : BitVec 8) : Option (Machine σ) :=
  (m.address .es o 1).map fun a =>
    { m with memory := Function.update m.memory a b, stored := m.stored ++ [o] }

/-- What a string instruction adds to its pointer. -/
def stride (n : Dword) : Dword := if m.direction then -n else n

/-- `stosb`. -/
def stosb : Option (Machine σ) :=
  (m.storeEs m.edi (byteOf m.eax 0)).map fun m' => { m' with edi := m'.edi + m'.stride 1#32 }

/-- `lodsw`. -/
def lodsw : Option (Machine σ) :=
  (m.load16 .ds .esi).map fun w =>
    { m with eax := setLow m.eax w, esi := m.esi + m.stride 2#32 }

/-- One round of `repne scasb`. -/
def scasb : Option (Machine σ) :=
  (m.load8 .es .edi).map fun b =>
    { m with
      flags := (subb (byteOf m.eax 0) b).2
      edi := m.edi + m.stride 1#32
      ecx := m.ecx - 1#32 }

/-- `repne scasb` with a count of `n`. -/
def scasbTimes : Nat → Machine σ → Option (Machine σ)
  | 0, m => some m
  | n + 1, m =>
      m.scasb.bind fun m' => if m'.flags.zero then some m' else scasbTimes n m'

/-- `xlat`. -/
def xlat : Option (Machine σ) :=
  (m.address .ds (m.ebx + (byteOf m.eax 0).setWidth 32) 1).map fun a =>
    { m with eax := setByte0 m.eax (m.memory a) }

variable {m} in
/-- `xlat` with its table inside the segment. -/
theorem xlat_eq (h : (m.ebx + (byteOf m.eax 0).setWidth 32).toNat + 1 ≤ 65536) :
    m.xlat = some { m with
      eax := setByte0 m.eax
        (m.memory (m.ds.toNat * 16 + (m.ebx + (byteOf m.eax 0).setWidth 32).toNat)) } := by
  rw [xlat, address_eq h]
  rfl

/-- `div`: faults where the quotient does not fit. The flags it leaves undefined are kept. -/
def div (v : Dword) : Option (Machine σ) :=
  let dividend := m.edx.toNat * 2 ^ 32 + m.eax.toNat
  if v.toNat ≠ 0 ∧ dividend / v.toNat < 2 ^ 32 then
    some { m with
      eax := BitVec.ofNat 32 (dividend / v.toNat)
      edx := BitVec.ofNat 32 (dividend % v.toNat) }
  else none

variable {m} in
/-- A division of a double word. -/
theorem div_eq {v : Dword} (hedx : m.edx = 0#32) (hv : v ≠ 0#32) :
    m.div v = some { m with eax := m.eax / v, edx := m.eax % v } := by
  have hpos : v.toNat ≠ 0 := fun h => hv (BitVec.eq_of_toNat_eq h)
  have hquotient : m.eax.toNat / v.toNat < 2 ^ 32 :=
    Nat.lt_of_le_of_lt (Nat.div_le_self _ _) m.eax.isLt
  simp only [div, hedx, BitVec.toNat_ofNat, Nat.zero_mod, Nat.zero_mul, Nat.zero_add]
  rw [if_pos ⟨hpos, hquotient⟩, ← BitVec.toNat_udiv, ← BitVec.toNat_umod, BitVec.ofNat_toNat,
    BitVec.ofNat_toNat, BitVec.setWidth_eq, BitVec.setWidth_eq]

/-- `shr r, cl`. -/
def shrCl (r : Reg) : Machine σ :=
  let n := (byteOf m.ecx 0).toNat % 32
  let v := m.get r
  { m.set r (v >>> n) with
    flags :=
      if n = 0 then m.flags
      else ⟨v.getLsbD (n - 1), decide (v >>> n = 0#32), (v >>> n).msb, v.msb⟩ }

end Machine

variable {Label : Type v} {σ : Type u}

/-- Go on with a machine, or fault where there is none. -/
@[simp] def Outcome.ofOption : Option (Machine σ) → Outcome Label σ
  | some m => .next m
  | none => .fault

/-- The outcome of one instruction. -/
@[simp] def Instr.exec (p : Program Label σ) (m : Machine σ) : Instr Label → Outcome Label σ
  | .cld => .next { m with direction := false }
  | .push src => .ofOption (m.push32 (m.get src))
  | .pushWord w => .ofOption (m.push16 w)
  | .pop dst => .ofOption (m.pop32.map fun r => r.2.set dst r.1)
  | .popWord dst => .ofOption (m.pop16.map fun r => r.2.set dst (setLow (r.2.get dst) r.1))
  | .mov dst src => .ofOption ((m.load src).map (m.set dst))
  | .mov8 dst b => .next (m.set8 dst b)
  | .movEs r b => .ofOption (m.storeEs (m.get r) b)
  | .movzx8 dst s r => .ofOption ((m.load8 s r).map fun b => m.set dst (b.setWidth 32))
  | .movsx8 dst s r => .ofOption ((m.load8 s r).map fun b => m.set dst (b.signExtend 32))
  | .movzx16 dst s r => .ofOption ((m.load16 s r).map fun w => m.set dst (w.setWidth 32))
  | .movsx16 dst s r => .ofOption ((m.load16 s r).map fun w => m.set dst (w.signExtend 32))
  | .alu op dst src =>
      .ofOption ((m.load src).map fun v =>
        let r := op.eval m.flags.carry (m.get dst) v
        let m' := { m with flags := r.2 }
        if op.stores then m'.set dst r.1 else m')
  | .alu8 op dst b =>
      let r := op.eval m.flags.carry (m.get8 dst) b
      let m' := { m with flags := r.2 }
      .next (if op.stores then m'.set8 dst r.1 else m')
  | .cmpAx w => .next { m with flags := (subb (m.eax.setWidth 16) w).2 }
  | .not dst => .next (m.set dst (~~~ m.get dst))
  | .inc dst =>
      let r := addc (m.get dst) 1#32 false
      .next ({ m with flags := { r.2 with carry := m.flags.carry } }.set dst r.1)
  | .dec dst =>
      let r := subb (m.get dst) 1#32
      .next ({ m with flags := { r.2 with carry := m.flags.carry } }.set dst r.1)
  | .div src => .ofOption ((m.load src).bind m.div)
  | .shrCl dst => .next (m.shrCl dst)
  | .xlat => .ofOption m.xlat
  | .stosb => .ofOption m.stosb
  | .lodsw => .ofOption m.lodsw
  | .repneScasb => .ofOption (m.scasbTimes m.ecx.toNat)
  | .jcc c target => if c.holds m.flags then .goto target m else .next m
  | .jmp target => .goto target m
  | .ret =>
      match m.pop16 with
      | some (ip, m') => .returned ip m'
      | none => .fault
  | .int n => .ofOption (p.interrupt n m)

namespace Program

variable (p : Program Label σ)

/-- The outcome of the rest of a block, under the label `l`. -/
@[simp] def execBlock (l : Label) : List (Instr Label) → Machine σ → Outcome Label σ
  | [], m =>
      match p.next l with
      | some l' => .goto l' m
      | none => .fault
  | i :: is, m =>
      match i.exec p m with
      | .next m' => execBlock l is m'
      | outcome => outcome

/-- The outcome of the block at a label. -/
def step (l : Label) (m : Machine σ) : Outcome Label σ := p.execBlock l (p.code l) m

/-- The return out of the program of a run from `l`, within a number of blocks. -/
def runFor : Nat → Label → Machine σ → Option (Word × Machine σ)
  | 0, _, _ => none
  | fuel + 1, l, m =>
      match p.step l m with
      | .goto l' m' => runFor fuel l' m'
      | .returned ip m' =>
          match p.labelAt ip with
          | some l' => runFor fuel l' m'
          | none => some (ip, m')
      | _ => none

/-- **Total correctness**: entered at `l`, the program returns to an address outside it with a machine
that satisfies `Q`. -/
def Ensures (l : Label) (m : Machine σ) (Q : Word → Machine σ → Prop) : Prop :=
  ∃ fuel ip m', p.runFor fuel l m = some (ip, m') ∧ Q ip m'

/-- The program that ends at its first return. -/
def alone : Program Label σ := { p with labelAt := fun _ => none }

variable {p} {l l' : Label} {m m' : Machine σ} {ip : Word} {Q R : Word → Machine σ → Prop}

/-- A block that jumps passes the obligation on. -/
theorem Ensures.goto (hstep : p.step l m = .goto l' m') (h : p.Ensures l' m' Q) :
    p.Ensures l m Q := by
  obtain ⟨fuel, ip, m'', hrun, hQ⟩ := h
  refine ⟨fuel + 1, ip, m'', ?_, hQ⟩
  rw [runFor, hstep]
  exact hrun

/-- A block that returns into the program passes the obligation on. -/
theorem Ensures.returnsTo (hstep : p.step l m = .returned ip m') (hl : p.labelAt ip = some l')
    (h : p.Ensures l' m' Q) : p.Ensures l m Q := by
  obtain ⟨fuel, ip', m'', hrun, hQ⟩ := h
  refine ⟨fuel + 1, ip', m'', ?_, hQ⟩
  rw [runFor, hstep]
  simp only [hl]
  exact hrun

/-- A block that returns out of the program meets the obligation at once. -/
theorem Ensures.returned (hstep : p.step l m = .returned ip m') (hl : p.labelAt ip = none)
    (hQ : Q ip m') : p.Ensures l m Q := by
  refine ⟨1, ip, m', ?_, hQ⟩
  rw [runFor, hstep]
  simp only [hl]

/-- What is ensured may be weakened. -/
theorem Ensures.mono (h : p.Ensures l m Q) (hQR : ∀ ip m', Q ip m' → R ip m') :
    p.Ensures l m R := by
  obtain ⟨fuel, ip, m', hrun, hQ⟩ := h
  exact ⟨fuel, ip, m', hrun, hQR ip m' hQ⟩

/-- More fuel does not change a result. -/
theorem runFor_mono {fuel fuel' : Nat} {r : Word × Machine σ} (hle : fuel ≤ fuel')
    (h : p.runFor fuel l m = some r) : p.runFor fuel' l m = some r := by
  induction fuel generalizing fuel' l m with
  | zero => cases h
  | succ fuel ih =>
      obtain ⟨k, rfl⟩ : ∃ k, fuel' = k + 1 := ⟨fuel' - 1, by omega⟩
      rw [runFor] at h ⊢
      cases hstep : p.step l m with
      | goto l' m' =>
          rw [hstep] at h
          exact ih (by omega) h
      | returned ip m' =>
          rw [hstep] at h
          cases hl : p.labelAt ip with
          | some l' =>
              simp only [hl] at h ⊢
              exact ih (by omega) h
          | none =>
              simp only [hl] at h ⊢
              exact h
      | next m' =>
          rw [hstep] at h
          cases h
      | fault =>
          rw [hstep] at h
          cases h

/-- **The result of a run is unique**: two postconditions that it ensures hold together. -/
theorem Ensures.and (hQ : p.Ensures l m Q) (hR : p.Ensures l m R) :
    p.Ensures l m fun ip m' => Q ip m' ∧ R ip m' := by
  obtain ⟨fuel, ip, m₁, hrun, hQ⟩ := hQ
  obtain ⟨fuel', ip', m₂, hrun', hR⟩ := hR
  have h₁ := runFor_mono (Nat.le_max_left fuel fuel') hrun
  have h₂ := runFor_mono (Nat.le_max_right fuel fuel') hrun'
  rw [h₁, Option.some.injEq, Prod.mk.injEq] at h₂
  obtain ⟨rfl, rfl⟩ := h₂
  exact ⟨_, ip, m₁, h₁, hQ, hR⟩

/-- A block does the same alone. -/
theorem execBlock_alone (l : Label) (is : List (Instr Label)) (m : Machine σ) :
    p.alone.execBlock l is m = p.execBlock l is m := by
  induction is generalizing m with
  | nil => rfl
  | cons i is ih =>
      have hexec : i.exec p.alone m = i.exec p m := by cases i <;> rfl
      rw [execBlock, execBlock, hexec]
      cases i.exec p m with
      | next m' => exact ih m'
      | goto l' m' => rfl
      | returned ip m' => rfl
      | fault => rfl

/-- A block of the program alone is a block of the program. -/
theorem step_alone (l : Label) (m : Machine σ) : p.alone.step l m = p.step l m :=
  execBlock_alone l (p.code l) m

/-- **A routine verified alone, called**: where its first return leads, its caller continues. -/
theorem Ensures.follow (h : p.alone.Ensures l m Q)
    (hQ : ∀ ip m', Q ip m' → ∃ l', p.labelAt ip = some l' ∧ p.Ensures l' m' R) :
    p.Ensures l m R := by
  obtain ⟨fuel, ip, m', hrun, hpost⟩ := h
  obtain ⟨l', hl, hthen⟩ := hQ ip m' hpost
  induction fuel generalizing l m with
  | zero => cases hrun
  | succ fuel ih =>
      rw [runFor, step_alone] at hrun
      cases hstep : p.step l m with
      | goto l₁ m₁ =>
          rw [hstep] at hrun
          exact Ensures.goto hstep (ih hrun)
      | returned ip₁ m₁ =>
          rw [hstep] at hrun
          obtain ⟨rfl, rfl⟩ : ip₁ = ip ∧ m₁ = m' := by simpa [alone] using hrun
          exact Ensures.returnsTo hstep hl hthen
      | next m₁ =>
          rw [hstep] at hrun
          cases hrun
      | fault =>
          rw [hstep] at hrun
          cases hrun

end Program

end I386
