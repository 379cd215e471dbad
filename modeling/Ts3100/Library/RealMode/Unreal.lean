import Ts3100.Library.RealMode.Machine386

/-! # A 386 with segment descriptors

Every access to memory goes through the hidden descriptor of a segment register: a base address and the
last offset allowed. In protected mode a load of the register takes them from a table in memory; in real
mode it sets the base only, and the limit stays what it was. Code that has been in protected mode can so
go on in real mode with segments of 4 GiB ("unreal mode").

* `Machine` — the registers with their descriptors, and the memory at linear addresses.
* `Services` — the handlers of interrupts over a world `ω`. A service returns to the program or ends it.
* `Program.Ensures` — total correctness: the program is ended with a world that satisfies a
  postcondition.
* `movsdTimes_eq` — a forward `rep movsd` between disjoint ranges writes the source's bytes.

There is no interrupt descriptor table: whatever is executed with interrupts enabled in protected mode
faults, and so does an interrupt there. Paging is off. -/

namespace Unreal

open I386 (Dword Reg Reg8 Seg byteOf read16 read32 setLow setByte0 setByte1)
open RealMode (Word Flags AluOp addc subb logic fill)

universe u v

/-! ## Segments -/

/-- A segment register: its selector, and the base address and the last offset of its descriptor. -/
structure Segment where
  selector : Word
  base : Nat
  limit : Nat
  deriving DecidableEq, Repr

/-- The linear address of `n` bytes at an offset; none where they are not within the segment, or not
within 4 GiB. -/
def Segment.address (s : Segment) (o n : Nat) : Option Nat :=
  if o + n ≤ s.limit + 1 ∧ s.base + o + n ≤ 2 ^ 32 then some (s.base + o) else none

/-- An access inside a segment's limit has its linear address. -/
theorem Segment.address_eq {s : Segment} {o n : Nat} (hlimit : o + n ≤ s.limit + 1)
    (hbase : s.base + o + n ≤ 2 ^ 32) : s.address o n = some (s.base + o) :=
  if_pos ⟨hlimit, hbase⟩

/-- The base address in a segment descriptor. -/
def descriptorBase (d : Nat → BitVec 8) : Nat :=
  (d 7).toNat * 2 ^ 24 + (d 4).toNat * 2 ^ 16 + (d 3).toNat * 2 ^ 8 + (d 2).toNat

/-- The last offset in a segment descriptor, whose granularity is a byte or 4 KiB. -/
def descriptorLimit (d : Nat → BitVec 8) : Nat :=
  let raw := (d 6).toNat % 16 * 2 ^ 16 + (d 1).toNat * 2 ^ 8 + (d 0).toNat
  if (d 6).toNat / 128 = 0 then raw else raw * 4096 + 4095

/-- A descriptor is of a writable data segment that is present and expands upwards. -/
def WritableData (d : Nat → BitVec 8) : Prop := d 5 &&& 0x9E#8 = 0x92#8

instance (d : Nat → BitVec 8) : Decidable (WritableData d) := by
  unfold WritableData
  infer_instance

/-! ## The machine -/

/-- The processor's registers and the memory. -/
structure Machine where
  (eax ebx ecx edx esi edi ebp esp : Dword)
  (ds es ss : Segment)
  cr0 : Dword
  (gdtBase gdtLimit : Nat)
  flags : Flags
  direction : Bool
  interrupt : Bool
  memory : Nat → BitVec 8

namespace Machine

variable (m : Machine)

/-- The value of a general register. -/
@[simp] def get : Reg → Dword
  | .eax => m.eax
  | .ebx => m.ebx
  | .ecx => m.ecx
  | .edx => m.edx
  | .esi => m.esi
  | .edi => m.edi
  | .ebp => m.ebp
  | .esp => m.esp

/-- The machine with a general register set. -/
@[simp] def set (r : Reg) (v : Dword) : Machine :=
  match r with
  | .eax => { m with eax := v }
  | .ebx => { m with ebx := v }
  | .ecx => { m with ecx := v }
  | .edx => { m with edx := v }
  | .esi => { m with esi := v }
  | .edi => { m with edi := v }
  | .ebp => { m with ebp := v }
  | .esp => { m with esp := v }

/-- The low half of a general register. -/
@[simp] def get16 (r : Reg) : Word := (m.get r).setWidth 16

/-- The machine with the low half of a general register set. -/
@[simp] def set16 (r : Reg) (w : Word) : Machine := m.set r (setLow (m.get r) w)

/-- The value of a byte register. -/
@[simp] def get8 : Reg8 → BitVec 8
  | .al => byteOf m.eax 0
  | .ah => byteOf m.eax 1
  | .cl => byteOf m.ecx 0

/-- The machine with a byte register set. -/
@[simp] def set8 (r : Reg8) (b : BitVec 8) : Machine :=
  match r with
  | .al => { m with eax := setByte0 m.eax b }
  | .ah => { m with eax := setByte1 m.eax b }
  | .cl => { m with ecx := setByte0 m.ecx b }

/-- A segment register. -/
@[simp] def seg : Seg → Segment
  | .ds => m.ds
  | .es => m.es
  | .ss => m.ss

/-- The machine with a segment register set. -/
@[simp] def setSeg (s : Seg) (v : Segment) : Machine :=
  match s with
  | .ds => { m with ds := v }
  | .es => { m with es := v }
  | .ss => { m with ss := v }

/-- Bit `PE` of `cr0`. -/
def protectedMode : Bool := m.cr0.getLsbD 0

/-- The descriptor of a selector. -/
def descriptor (w : Word) (i : Nat) : BitVec 8 := m.memory (m.gdtBase + w.toNat / 8 * 8 + i)

/-- A selector can be loaded in protected mode: it is not null, in the table, and of a data segment that
its privilege allows. -/
def Selects (w : Word) : Prop :=
  8 ≤ w.toNat ∧ w.toNat / 4 % 2 = 0 ∧ w.toNat / 8 * 8 + 7 ≤ m.gdtLimit ∧
    WritableData (m.descriptor w) ∧ w.toNat % 4 ≤ (m.descriptor w 5).toNat / 32 % 4

instance (w : Word) : Decidable (m.Selects w) := by
  unfold Selects
  infer_instance

/-- The machine after a segment register is loaded. In protected mode the descriptor is marked as
accessed; the stack segment is not loaded there. -/
def loadSeg (s : Seg) (w : Word) : Option Machine :=
  if m.protectedMode then
    if m.Selects w ∧ s ≠ .ss then
      some ({ m with
        memory := Function.update m.memory (m.gdtBase + w.toNat / 8 * 8 + 5)
          (m.descriptor w 5 ||| 1#8) }.setSeg s
            ⟨w, descriptorBase (m.descriptor w), descriptorLimit (m.descriptor w)⟩)
    else none
  else some (m.setSeg s ⟨w, w.toNat * 16, (m.seg s).limit⟩)

/-- The machine after a word is pushed. -/
def push (w : Word) : Option Machine :=
  let sp := m.get16 .esp - 2#16
  (m.ss.address sp.toNat 2).map fun a =>
    { m with esp := setLow m.esp sp, memory := fill m.memory a 2 (byteOf w) }

/-- The word on top of the stack, and the machine after it is dropped. -/
def pop : Option (Word × Machine) :=
  (m.ss.address (m.get16 .esp).toNat 2).map fun a =>
    (read16 m.memory a, { m with esp := setLow m.esp (m.get16 .esp + 2#16) })

/-- `lgdt` of a 16-bit program, which takes 24 bits of the address. -/
def lgdt (disp : Word) : Option Machine :=
  (m.ds.address disp.toNat 6).map fun a =>
    { m with
      gdtLimit := (read16 m.memory a).toNat
      gdtBase := (read32 m.memory (a + 2)).toNat % 2 ^ 24 }

/-- `add [disp], v`. -/
def addMem (disp : Word) (v : Dword) : Option Machine :=
  (m.ds.address disp.toNat 4).map fun a =>
    let r := addc (read32 m.memory a) v false
    { m with flags := r.2, memory := fill m.memory a 4 (byteOf r.1) }

/-- `shl r, n`, for `n` from 1 to 31. The overflow flag, which it leaves undefined, is kept. -/
def shl (r : Reg) (n : Nat) : Machine :=
  let v := m.get r <<< n
  { m.set r v with
    flags := ⟨(m.get r).getLsbD (32 - n), decide (v = 0#32), v.msb, m.flags.overflow⟩ }

/-- What a string instruction adds to its pointers. -/
def stride (n : Dword) : Dword := if m.direction then -n else n

/-- One round of `rep movsd` with 32-bit addresses. -/
def movsd : Option Machine :=
  (m.ds.address m.esi.toNat 4).bind fun a => (m.es.address m.edi.toNat 4).map fun b =>
    { m with
      memory := fill m.memory b 4 fun i => m.memory (a + i)
      esi := m.esi + m.stride 4#32
      edi := m.edi + m.stride 4#32 }

/-- `rep movsd` with a count of `n`. -/
def movsdTimes : Nat → Machine → Option Machine
  | 0, m => some m
  | n + 1, m => m.movsd.bind (movsdTimes n)

/-- `rep movsd`. -/
def repMovsd : Option Machine :=
  (movsdTimes m.ecx.toNat m).map fun m' => { m' with ecx := 0#32 }

end Machine

/-! ## Instructions -/

/-- A 32-bit operand: a register, an immediate, or `[ds:disp]`. -/
inductive Operand
  | reg (r : Reg)
  | imm (v : Dword)
  | mem (disp : Word)
  deriving DecidableEq, Repr

/-- A 16-bit operand: the low half of a register, a segment register, or an immediate. -/
inductive Operand16
  | reg (r : Reg)
  | seg (s : Seg)
  | imm (w : Word)
  deriving DecidableEq, Repr

/-- The instructions, over the labels a jump may name. -/
inductive Instr (L : Type v)
  | cli
  | sti
  | cld
  | pushSeg (s : Seg)
  | popSeg (s : Seg)
  | push (r : Reg)
  | pop (r : Reg)
  | mov (dst : Reg) (src : Operand)
  | mov16 (dst : Reg) (src : Operand16)
  | mov8 (dst : Reg8) (b : BitVec 8)
  | movSeg (s : Seg) (src : Reg)
  | movzx16 (dst src : Reg)
  | alu (op : AluOp) (dst : Reg) (src : Operand)
  | alu16 (op : AluOp) (dst : Reg) (src : Operand16)
  | alu8 (op : AluOp) (dst : Reg8) (b : BitVec 8)
  | or8 (dst : Reg8) (b : BitVec 8)
  | addMem (disp : Word) (src : Reg)
  | shl (dst : Reg) (n : Nat)
  | lgdt (disp : Word)
  | movFromCr0 (dst : Reg)
  | movToCr0 (src : Reg)
  | repMovsd
  | jne (target : L)
  | int (n : BitVec 8)

namespace Machine

variable (m : Machine)

/-- The value of a 32-bit operand. -/
def load : Operand → Option Dword
  | .reg r => some (m.get r)
  | .imm v => some v
  | .mem disp => (m.ds.address disp.toNat 4).map (read32 m.memory)

/-- The value of a 16-bit operand. -/
@[simp] def load16 : Operand16 → Word
  | .reg r => m.get16 r
  | .seg s => (m.seg s).selector
  | .imm w => w

/-- A register operand. -/
@[simp] theorem load_reg (r : Reg) : m.load (.reg r) = some (m.get r) := rfl

/-- An immediate operand. -/
@[simp] theorem load_imm (v : Dword) : m.load (.imm v) = some v := rfl

end Machine

/-- What a service does: it returns to the program, or ends it. -/
inductive Answer (ω : Type u)
  | back (m : Machine) (world : ω)
  | ended (world : ω)

/-- What the handlers of interrupts do, if they answer. -/
abbrev Services (ω : Type u) : Type u := BitVec 8 → Machine → ω → Option (Answer ω)

/-- What an instruction or a block leads to. -/
inductive Outcome (L : Type v) (ω : Type u)
  | next (m : Machine) (world : ω)
  | goto (l : L) (m : Machine) (world : ω)
  | ended (world : ω)
  | fault

variable {L : Type v} {ω : Type u}

/-- Go on with a machine, or fault where there is none. -/
@[simp] def Outcome.ofOption (world : ω) : Option Machine → Outcome L ω
  | some m => .next m world
  | none => .fault

/-- What an instruction does. -/
@[simp] def Instr.execute (services : Services ω) (m : Machine) (world : ω) :
    Instr L → Outcome L ω
  | .cli => .next { m with interrupt := false } world
  | .sti => .next { m with interrupt := true } world
  | .cld => .next { m with direction := false } world
  | .pushSeg s => .ofOption world (m.push (m.seg s).selector)
  | .popSeg s => .ofOption world (m.pop.bind fun r => r.2.loadSeg s r.1)
  | .push r => .ofOption world (m.push (m.get16 r))
  | .pop r => .ofOption world (m.pop.map fun p => p.2.set16 r p.1)
  | .mov dst src => .ofOption world ((m.load src).map (m.set dst))
  | .mov16 dst src => .next (m.set16 dst (m.load16 src)) world
  | .mov8 dst b => .next (m.set8 dst b) world
  | .movSeg s src => .ofOption world (m.loadSeg s (m.get16 src))
  | .movzx16 dst src => .next (m.set dst ((m.get16 src).setWidth 32)) world
  | .alu op dst src =>
      .ofOption world ((m.load src).map fun v =>
        let r := op.eval m.flags.carry (m.get dst) v
        let m' := { m with flags := r.2 }
        if op.stores then m'.set dst r.1 else m')
  | .alu16 op dst src =>
      let r := op.eval m.flags.carry (m.get16 dst) (m.load16 src)
      let m' := { m with flags := r.2 }
      .next (if op.stores then m'.set16 dst r.1 else m') world
  | .alu8 op dst b =>
      let r := op.eval m.flags.carry (m.get8 dst) b
      let m' := { m with flags := r.2 }
      .next (if op.stores then m'.set8 dst r.1 else m') world
  | .or8 dst b =>
      let r := logic (m.get8 dst ||| b)
      .next ({ m with flags := r.2 }.set8 dst r.1) world
  | .addMem disp src => .ofOption world (m.addMem disp (m.get src))
  | .shl dst n => .next (m.shl dst n) world
  | .lgdt disp => .ofOption world (m.lgdt disp)
  | .movFromCr0 dst => .next (m.set dst m.cr0) world
  | .movToCr0 src => .next { m with cr0 := m.get src } world
  | .repMovsd => .ofOption world m.repMovsd
  | .jne target => if m.flags.zero then .next m world else .goto target m world
  | .int n =>
      if m.protectedMode then .fault
      else
        match services n m world with
        | some (.back m' world') => .next m' world'
        | some (.ended world') => .ended world'
        | none => .fault

/-- The outcome of one instruction. -/
@[simp] def Instr.exec (services : Services ω) (m : Machine) (world : ω) (i : Instr L) : Outcome L ω :=
  if m.protectedMode ∧ m.interrupt then .fault else i.execute services m world

/-! ## Programs -/

/-- The code of each label, and the label it falls through to. -/
structure Program (L : Type v) where
  code : L → List (Instr L)
  next : L → Option L

namespace Program

variable (p : Program L) (services : Services ω)

/-- The outcome of the rest of a block, under the label `l`. -/
@[simp] def execBlock (l : L) : List (Instr L) → Machine → ω → Outcome L ω
  | [], m, world =>
      match p.next l with
      | some l' => .goto l' m world
      | none => .fault
  | i :: is, m, world =>
      match i.exec services m world with
      | .next m' world' => execBlock l is m' world'
      | outcome => outcome

/-- The outcome of the block at a label. -/
def step (l : L) (m : Machine) (world : ω) : Outcome L ω := p.execBlock services l (p.code l) m world

/-- The world in which a program entered at `l` is ended, within a number of blocks. -/
def runFor : Nat → L → Machine → ω → Option ω
  | 0, _, _, _ => none
  | fuel + 1, l, m, world =>
      match p.step services l m world with
      | .goto l' m' world' => runFor fuel l' m' world'
      | .ended world' => some world'
      | _ => none

/-- **Total correctness**: entered at `l`, the program is ended with a world that satisfies `Q`. -/
def Ensures (l : L) (m : Machine) (world : ω) (Q : ω → Prop) : Prop :=
  ∃ fuel world', p.runFor services fuel l m world = some world' ∧ Q world'

variable {p} {services} {l l' : L} {m m' : Machine} {world world' : ω} {Q : ω → Prop}

/-- A block that jumps passes the obligation on. -/
theorem Ensures.goto (hstep : p.step services l m world = .goto l' m' world')
    (h : p.Ensures services l' m' world' Q) : p.Ensures services l m world Q := by
  obtain ⟨fuel, world'', hrun, hQ⟩ := h
  refine ⟨fuel + 1, world'', ?_, hQ⟩
  rw [runFor, hstep]
  exact hrun

/-- A block in which the program is ended meets the obligation at once. -/
theorem Ensures.ended (hstep : p.step services l m world = .ended world') (hQ : Q world') :
    p.Ensures services l m world Q := by
  refine ⟨1, world', ?_, hQ⟩
  rw [runFor, hstep]

end Program

/-! ## Straight-line code -/

/-- The machine and the world after instructions that do not jump. -/
@[simp] def execAll (services : Services ω) : List (Instr L) → Machine → ω → Option (Machine × ω)
  | [], m, world => some (m, world)
  | i :: is, m, world =>
      match i.exec services m world with
      | .next m' world' => execAll services is m' world'
      | _ => none

section straightLine

variable {services : Services ω} {is js : List (Instr L)} {m m' : Machine} {world world' : ω}

/-- Two pieces of straight code, one after the other. -/
theorem execAll_append (h : execAll services is m world = some (m', world')) :
    execAll services (is ++ js) m world = execAll services js m' world' := by
  induction is generalizing m world with
  | nil =>
      obtain ⟨rfl, rfl⟩ : m = m' ∧ world = world' := by simpa using h
      rfl
  | cons i is ih =>
      rw [execAll] at h
      rw [List.cons_append, execAll]
      cases hexec : i.exec services m world with
      | next m₁ world₁ =>
          rw [hexec] at h
          exact ih h
      | goto l m₁ world₁ =>
          rw [hexec] at h
          cases h
      | ended world₁ =>
          rw [hexec] at h
          cases h
      | fault =>
          rw [hexec] at h
          cases h

/-- A block goes on after straight-line code. -/
theorem Program.execBlock_append {p : Program L} {l : L}
    (h : execAll services is m world = some (m', world')) :
    p.execBlock services l (is ++ js) m world = p.execBlock services l js m' world' := by
  induction is generalizing m world with
  | nil =>
      obtain ⟨rfl, rfl⟩ : m = m' ∧ world = world' := by simpa using h
      rfl
  | cons i is ih =>
      rw [execAll] at h
      rw [List.cons_append, execBlock]
      cases hexec : i.exec services m world with
      | next m₁ world₁ =>
          rw [hexec] at h
          exact ih h
      | goto l m₁ world₁ =>
          rw [hexec] at h
          cases h
      | ended world₁ =>
          rw [hexec] at h
          cases h
      | fault =>
          rw [hexec] at h
          cases h

/-- A block of straight-line code falls through. -/
theorem Program.execBlock_eq_goto {p : Program L} {l l' : L}
    (h : execAll services is m world = some (m', world')) (hnext : p.next l = some l') :
    p.execBlock services l is m world = .goto l' m' world' := by
  rw [← List.append_nil is, execBlock_append h, execBlock, hnext]

end straightLine

/-! ## Registers -/

/-- The low word that is set is there. -/
@[simp] theorem setWidth_setLow (v : Dword) (w : Word) : (setLow v w).setWidth 16 = w := by
  apply BitVec.eq_of_toNat_eq
  rw [BitVec.toNat_setWidth, I386.toNat_setLow]
  omega

/-- It replaces one that was set before. -/
@[simp] theorem setLow_setLow (v : Dword) (w w' : Word) : setLow (setLow v w) w' = setLow v w' := by
  apply BitVec.eq_of_toNat_eq
  rw [I386.toNat_setLow, I386.toNat_setLow, I386.toNat_setLow]
  omega

/-- The lowest byte is that of the low word. -/
theorem byteOf_zero_setLow (v : Dword) (w : Word) : byteOf (setLow v w) 0 = byteOf w 0 := by
  apply BitVec.eq_of_toNat_eq
  rw [I386.toNat_byteOf, I386.toNat_byteOf, I386.toNat_setLow]
  omega

/-- Setting the second byte leaves the lowest. -/
theorem byteOf_zero_setByte1 (v : Dword) (b : BitVec 8) : byteOf (setByte1 v b) 0 = byteOf v 0 := by
  have hlow : (setByte1 v b).extractLsb' 0 8 = v.extractLsb' 0 8 :=
    BitVec.extractLsb'_append_eq_right
  exact hlow

namespace Machine

variable {m : Machine}

/-- A push on a stack of 64 KiB. -/
theorem push_eq (hlow : 2 ≤ (m.esp.setWidth 16).toNat) (hlimit : 0xFFFF ≤ m.ss.limit)
    (hbase : m.ss.base + 0x10000 ≤ 2 ^ 32) (w : Word) :
    m.push w = some { m with
      esp := setLow m.esp (m.esp.setWidth 16 - 2#16)
      memory := fill m.memory (m.ss.base + (m.esp.setWidth 16).toNat - 2) 2 (byteOf w) } := by
  have hsp := (m.esp.setWidth 16).isLt
  have hsub : (m.esp.setWidth 16 - 2#16).toNat = (m.esp.setWidth 16).toNat - 2 := by
    rw [BitVec.toNat_sub_of_le (by rwa [BitVec.le_def])]
    rfl
  rw [push]
  dsimp only [get16, get]
  rw [hsub, Segment.address_eq (by omega) (by omega), Option.map_some, Nat.add_sub_assoc hlow]

/-- A pop off a stack of 64 KiB. -/
theorem pop_eq (hhigh : (m.esp.setWidth 16).toNat + 2 ≤ 0x10000) (hlimit : 0xFFFF ≤ m.ss.limit)
    (hbase : m.ss.base + 0x10000 ≤ 2 ^ 32) :
    m.pop = some (read16 m.memory (m.ss.base + (m.esp.setWidth 16).toNat),
      { m with esp := setLow m.esp (m.esp.setWidth 16 + 2#16) }) := by
  rw [pop]
  dsimp only [get16, get]
  rw [Segment.address_eq (by omega) (by omega), Option.map_some]

/-! ## Block copies -/

/-- One `movsd` forwards. -/
theorem movsd_eq (hdir : m.direction = false)
    (hsrc : m.esi.toNat + 4 ≤ m.ds.limit + 1 ∧ m.ds.base + m.esi.toNat + 4 ≤ 2 ^ 32)
    (hdst : m.edi.toNat + 4 ≤ m.es.limit + 1 ∧ m.es.base + m.edi.toNat + 4 ≤ 2 ^ 32) :
    m.movsd = some { m with
      memory := fill m.memory (m.es.base + m.edi.toNat) 4 fun i =>
        m.memory (m.ds.base + m.esi.toNat + i)
      esi := m.esi + 4#32
      edi := m.edi + 4#32 } := by
  have hstride : m.stride 4#32 = 4#32 := by simp [stride, hdir]
  rw [movsd, Segment.address_eq hsrc.1 hsrc.2, Segment.address_eq hdst.1 hdst.2, hstride]
  rfl

/-- **A forward copy between disjoint ranges** writes the source's bytes to the destination. -/
theorem movsdTimes_eq {n : Nat} (hdir : m.direction = false)
    (hsrc : m.esi.toNat + 4 * n ≤ m.ds.limit + 1 ∧ m.ds.base + m.esi.toNat + 4 * n < 2 ^ 32)
    (hdst : m.edi.toNat + 4 * n ≤ m.es.limit + 1 ∧ m.es.base + m.edi.toNat + 4 * n < 2 ^ 32)
    (hdisjoint : m.ds.base + m.esi.toNat + 4 * n ≤ m.es.base + m.edi.toNat ∨
      m.es.base + m.edi.toNat + 4 * n ≤ m.ds.base + m.esi.toNat) :
    movsdTimes n m = some { m with
      memory := fill m.memory (m.es.base + m.edi.toNat) (4 * n) fun i =>
        m.memory (m.ds.base + m.esi.toNat + i)
      esi := m.esi + BitVec.ofNat 32 (4 * n)
      edi := m.edi + BitVec.ofNat 32 (4 * n) } := by
  induction n generalizing m with
  | zero =>
      have hfill : fill m.memory (m.es.base + m.edi.toNat) (4 * 0) (fun i =>
          m.memory (m.ds.base + m.esi.toNat + i)) = m.memory := by
        funext x
        exact RealMode.fill_of_notMem (by omega)
      simp only [hfill]
      simp [movsdTimes]
  | succ n ih =>
      have hesi : (m.esi + 4#32).toNat = m.esi.toNat + 4 := by
        rw [BitVec.toNat_add, BitVec.toNat_ofNat]
        omega
      have hedi : (m.edi + 4#32).toNat = m.edi.toNat + 4 := by
        rw [BitVec.toNat_add, BitVec.toNat_ofNat]
        omega
      have hstep (v : Dword) : v + 4#32 + BitVec.ofNat 32 (4 * n) =
          v + BitVec.ofNat 32 (4 * (n + 1)) := by
        bv_omega
      -- neither pointer wraps, and the ranges that are left are still disjoint
      rw [movsdTimes, movsd_eq hdir ⟨by omega, by omega⟩ ⟨by omega, by omega⟩, Option.bind_some]
      refine (ih ?_ ?_ ?_ ?_).trans ?_
      · exact hdir
      · dsimp only
        omega
      · dsimp only
        omega
      · dsimp only
        omega
      simp only [hstep, hesi, hedi]
      congr 2
      -- the later words are read outside the first and written behind it
      funext x
      by_cases hlow : m.es.base + m.edi.toNat ≤ x ∧ x < m.es.base + m.edi.toNat + 4
      · rw [RealMode.fill_of_notMem (by omega), RealMode.fill_of_mem hlow.1 hlow.2,
          RealMode.fill_of_mem hlow.1 (by omega)]
      · by_cases hhigh : m.es.base + m.edi.toNat ≤ x ∧ x < m.es.base + m.edi.toNat + 4 * (n + 1)
        · rw [RealMode.fill_of_mem (by omega) (by omega), RealMode.fill_of_notMem (by omega),
            RealMode.fill_of_mem hhigh.1 hhigh.2]
          congr 1
          omega
        · rw [RealMode.fill_of_notMem (by omega), RealMode.fill_of_notMem (by omega),
            RealMode.fill_of_notMem (by omega)]

/-- `rep movsd` between disjoint ranges. -/
theorem repMovsd_eq {n : Nat} (hecx : m.ecx.toNat = n) (hdir : m.direction = false)
    (hsrc : m.esi.toNat + 4 * n ≤ m.ds.limit + 1 ∧ m.ds.base + m.esi.toNat + 4 * n < 2 ^ 32)
    (hdst : m.edi.toNat + 4 * n ≤ m.es.limit + 1 ∧ m.es.base + m.edi.toNat + 4 * n < 2 ^ 32)
    (hdisjoint : m.ds.base + m.esi.toNat + 4 * n ≤ m.es.base + m.edi.toNat ∨
      m.es.base + m.edi.toNat + 4 * n ≤ m.ds.base + m.esi.toNat) :
    m.repMovsd = some { m with
      memory := fill m.memory (m.es.base + m.edi.toNat) (4 * n) fun i =>
        m.memory (m.ds.base + m.esi.toNat + i)
      esi := m.esi + BitVec.ofNat 32 (4 * n)
      edi := m.edi + BitVec.ofNat 32 (4 * n)
      ecx := 0#32 } := by
  rw [repMovsd, hecx, movsdTimes_eq hdir hsrc hdst hdisjoint]
  rfl

end Machine

end Unreal
