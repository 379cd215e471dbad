import Ts3100.Disk.Blocks

/-! # IncrementLBA

`IncrementLBA` adds 8 to the 32-bit LBA register through its two 16-bit halves. The `add dx, 2` that
moves to the port of the high half stands between the `add` and the `adc`, and clears the carry.
`increments_iff` says for which values the addition is right nevertheless: those whose low half does not
carry.

The routine runs here against `handlerDiskRegisters` alone, with nothing behind the update request, so
that no value of the register is refused by `mmap`. -/

namespace Ts3100

open RealMode

/-! ## The registers as a bus -/

/-- A port access of the guest. -/
structure PortAccess where
  isWrite : Bool
  port : Word
  deriving DecidableEq, Repr

/-- Guest memory, the disk registers, and the port accesses made so far. -/
structure RegisterBus where
  memory : Nat → Byte
  registers : DiskRegisters
  accesses : List PortAccess

namespace RegisterBus

/-- An access to a port of `handlerDiskRegisters`. -/
def performIo (b : RegisterBus) (isWrite : Bool) (port : Word) (data : List Byte) :
    Option (List Byte × RegisterBus) :=
  if 0xD000 ≤ port.toNat ∧ port.toNat < 0xD008 then
    match handlerDiskRegisters isWrite port data 1 b.registers with
    | .ok (registers, data') =>
        some (data', { b with registers := registers, accesses := b.accesses ++ [⟨isWrite, port⟩] })
    | .error _ => none
  else none

instance : Bus RegisterBus where
  read b a := b.memory a
  write b a v := { b with memory := Function.update b.memory a v }
  inWord b port :=
    match b.performIo false port [0#8, 0#8] with
    | some ([l, u], b') => some (word u l, b')
    | _ => none
  outWord b port w := (b.performIo true port [lo w, hi w]).map Prod.snd

instance : LawfulBus RegisterBus where
  read_write b a v a' := Function.update_apply b.memory a v a'

variable {b : RegisterBus} {high low : Word} {u : Bool}

/-- A word of memory does not depend on the registers or the accesses. -/
theorem readWord_congr {b' : RegisterBus} (h : b'.memory = b.memory) (s o : Word) :
    readWord b' s o = readWord b s o := by
  change word (b'.memory _) (b'.memory _) = _
  rw [h]
  rfl

/-- A read of `D000` returns the low half of the LBA. -/
theorem inWord_lbaLow (hr : b.registers = ⟨lbaOfWords high low, u⟩) :
    Bus.inWord b 0xD000#16 =
      some (low, { b with accesses := b.accesses ++ [⟨false, 0xD000#16⟩] }) := by
  obtain ⟨h₀, h₁, -, -⟩ := lbaByte_lbaOfWords high low u
  cases b
  subst hr
  simp [Bus.inWord, performIo, handlerDiskRegisters, h₀, h₁, List.range_succ]

/-- A read of `D002` returns the high half of the LBA. -/
theorem inWord_lbaHigh (hr : b.registers = ⟨lbaOfWords high low, u⟩) :
    Bus.inWord b 0xD002#16 =
      some (high, { b with accesses := b.accesses ++ [⟨false, 0xD002#16⟩] }) := by
  obtain ⟨-, -, h₂, h₃⟩ := lbaByte_lbaOfWords high low u
  cases b
  subst hr
  simp [Bus.inWord, performIo, handlerDiskRegisters, h₂, h₃, List.range_succ]

/-- A write of `D000` sets the low half of the LBA. -/
theorem outWord_lbaLow (hr : b.registers = ⟨lbaOfWords high low, u⟩) (w : Word) :
    Bus.outWord b 0xD000#16 w = some { b with
      registers := ⟨lbaOfWords high w, u⟩
      accesses := b.accesses ++ [⟨true, 0xD000#16⟩] } := by
  obtain ⟨-, -, h₂, h₃⟩ := lbaByte_lbaOfWords high low u
  have hlba : lbaOfBytes (fun i => [lo w, hi w].getD i
      (DiskRegisters.lbaByte ⟨lbaOfWords high low, u⟩ i)) = lbaOfWords high w :=
    lbaOfBytes_words rfl rfl h₂ h₃
  cases b
  subst hr
  simp [Bus.outWord, performIo, handlerDiskRegisters, ← hlba]

/-- A write of `D002` sets the high half of the LBA. -/
theorem outWord_lbaHigh (hr : b.registers = ⟨lbaOfWords high low, u⟩) (w : Word) :
    Bus.outWord b 0xD002#16 w = some { b with
      registers := ⟨lbaOfWords w low, u⟩
      accesses := b.accesses ++ [⟨true, 0xD002#16⟩] } := by
  obtain ⟨h₀, h₁, -, -⟩ := lbaByte_lbaOfWords high low u
  have hlba : lbaOfBytes (fun i => if 2 ≤ i then [lo w, hi w].getD (i - 2)
      (DiskRegisters.lbaByte ⟨lbaOfWords high low, u⟩ i)
      else DiskRegisters.lbaByte ⟨lbaOfWords high low, u⟩ i) = lbaOfWords w low :=
    lbaOfBytes_words h₀ h₁ rfl rfl
  cases b
  subst hr
  simp [Bus.outWord, performIo, handlerDiskRegisters, ← hlba]

/-- A write of `D004` requests an update. -/
theorem outWord_update (b : RegisterBus) (w : Word) :
    Bus.outWord b 0xD004#16 w = some { b with
      registers := { b.registers with updateDiskMapping := true }
      accesses := b.accesses ++ [⟨true, 0xD004#16⟩] } := by
  simp [Bus.outWord, performIo, handlerDiskRegisters]

end RegisterBus

/-! ## The routine -/

section

variable {m m' : Machine RegisterBus} {l : Label}

/-- The call advanced the window by one step: the LBA register is 8 further, the update is requested,
and only after both halves were written, and the registers are those before the call. -/
structure Increments (m m' : Machine RegisterBus) : Prop where
  selectedDiskLBA :
    m'.bus.registers.selectedDiskLBA = m.bus.registers.selectedDiskLBA + 8#32
  updateDiskMapping : m'.bus.registers.updateDiskMapping = true
  requestedLast : ∃ made, m'.bus.accesses = m.bus.accesses ++ made ∧
    ∀ pre a post, made = pre ++ a :: post → a.isWrite = true → 0xD004 ≤ a.port.toNat →
      ⟨true, 0xD000#16⟩ ∈ pre ∧ ⟨true, 0xD002#16⟩ ∈ pre
  ax : m'.ax = m.ax
  bx : m'.bx = m.bx
  cx : m'.cx = m.cx
  dx : m'.dx = m.dx
  si : m'.si = m.si
  di : m'.di = m.di
  sp : m'.sp = m.sp

/-- The accesses of `IncrementLBA`. -/
def incrementLBAAccesses : List PortAccess :=
  [⟨false, 0xD000#16⟩, ⟨true, 0xD000#16⟩, ⟨false, 0xD002#16⟩, ⟨true, 0xD002#16⟩, ⟨true, 0xD004#16⟩]

/-- The bus after the call and the two pushes of `IncrementLBA`. -/
def calledBus (m : Machine RegisterBus) (l : Label) : RegisterBus :=
  writeWord (writeWord (writeWord m.bus m.ss (m.sp - 2#16) l.offset) m.ss (m.sp - 4#16) m.dx) m.ss
    (m.sp - 6#16) m.ax

/-- Pushes are no port accesses. -/
theorem calledBus_registers (m : Machine RegisterBus) (l : Label) :
    (calledBus m l).registers = m.bus.registers ∧ (calledBus m l).accesses = m.bus.accesses :=
  ⟨rfl, rfl⟩

/-- The words that a call and the two pushes leave on the stack. -/
theorem readWord_calledBus (m : Machine RegisterBus) (l : Label) :
    readWord (calledBus m l) m.ss (m.sp - 6#16) = m.ax ∧
      readWord (calledBus m l) m.ss (m.sp - 4#16) = m.dx ∧
      readWord (calledBus m l) m.ss (m.sp - 2#16) = l.offset := by
  simp [calledBus, readWord_writeWord_sub]

/-- The return addresses lead back to their labels. -/
theorem labelAt_offset (hl : l ∈ Label.returnLabels) : optionRom.labelAt l.offset = some l := by
  unfold Label.returnLabels at hl
  simp only [List.mem_cons, List.not_mem_nil, or_false] at hl
  obtain rfl | rfl | rfl | rfl | rfl := hl <;> rfl

/-- **What a call of `IncrementLBA` does**: 8 is added to the low half alone. -/
theorem step_incrementLBA_registers (hl : l ∈ Label.returnLabels) :
    optionRom.step .incrementLBA (m.push l.offset) = .goto l { m with
      flags := (addc 0xD002#16 2#16 false).2
      bus := { calledBus m l with
        registers := ⟨lbaOfWords m.bus.registers.lbaHigh (m.bus.registers.lbaLow + 8#16), true⟩
        accesses := m.bus.accesses ++ incrementLBAAccesses } } := by
  obtain ⟨hregisters, haccesses⟩ := calledBus_registers m l
  have hr : (calledBus m l).registers =
      ⟨lbaOfWords m.bus.registers.lbaHigh m.bus.registers.lbaLow,
        m.bus.registers.updateDiskMapping⟩ := by
    rw [hregisters, lbaOfWords_lbaHigh_lbaLow]
  generalize m.bus.registers.lbaHigh = high at *
  generalize m.bus.registers.lbaLow = low at *
  generalize m.bus.registers.updateDiskMapping = u at *
  -- the ports, each access on the bus that the one before left
  let b₁ : RegisterBus :=
    { calledBus m l with accesses := (calledBus m l).accesses ++ [⟨false, 0xD000#16⟩] }
  let b₂ : RegisterBus :=
    { b₁ with
      registers := ⟨lbaOfWords high (low + 8#16), u⟩
      accesses := b₁.accesses ++ [⟨true, 0xD000#16⟩] }
  let b₃ : RegisterBus := { b₂ with accesses := b₂.accesses ++ [⟨false, 0xD002#16⟩] }
  let b₄ : RegisterBus := { b₃ with accesses := b₃.accesses ++ [⟨true, 0xD002#16⟩] }
  have hinLow : Bus.inWord (calledBus m l) 0xD000#16 = some (low, b₁) :=
    RegisterBus.inWord_lbaLow hr
  have houtLow : Bus.outWord b₁ 0xD000#16 (low + 8#16) = some b₂ :=
    RegisterBus.outWord_lbaLow (b := b₁) hr (low + 8#16)
  have hinHigh : Bus.inWord b₂ 0xD002#16 = some (high, b₃) :=
    RegisterBus.inWord_lbaHigh (b := b₂) rfl
  have houtHigh : Bus.outWord b₃ 0xD002#16 high = some b₄ :=
    RegisterBus.outWord_lbaHigh (b := b₃) rfl high
  let b₅ : RegisterBus :=
    { calledBus m l with
      registers := ⟨lbaOfWords high (low + 8#16), true⟩
      accesses := m.bus.accesses ++ incrementLBAAccesses }
  have houtUpdate : Bus.outWord b₄ 0xD004#16 high = some b₅ := by
    rw [RegisterBus.outWord_update]
    simp [b₁, b₂, b₃, b₄, b₅, haccesses, incrementLBAAccesses]
  -- what the pops and `ret` take from the stack
  obtain ⟨hax, hdx, htop⟩ := readWord_calledBus m l
  have hpops (s o : Word) : readWord b₅ s o = readWord (calledBus m l) s o :=
    RegisterBus.readWord_congr rfl s o
  have hret := labelAt_offset hl
  simp only [optionRom] at hret
  have hpop₄ (x : Word) : x - 6#16 + 2#16 = x - 4#16 := by bv_omega
  have hpop₂ (x : Word) : x - 4#16 + 2#16 = x - 2#16 := by bv_omega
  have hbus : writeWord (writeWord (writeWord m.bus m.ss (m.sp - 2#16) l.offset) m.ss
      (m.sp - 4#16) m.dx) m.ss (m.sp - 6#16) m.ax = calledBus m l := rfl
  change _ = Outcome.goto l { m with flags := (addc 0xD002#16 2#16 false).2, bus := b₅ }
  simp [Program.step, optionRom, incrementLBACode, BitVec.sub_sub, hbus, hinLow, houtLow, hinHigh,
    houtHigh, houtUpdate, hpop₄, hpop₂, hpops, hax, hdx, htop, hret]

/-- The update request is the last of the routine's accesses. -/
theorem incrementLBAAccesses_requestedLast {pre post : List PortAccess} {a : PortAccess}
    (h : incrementLBAAccesses = pre ++ a :: post) (ha : 0xD004 ≤ a.port.toNat) :
    ⟨true, 0xD000#16⟩ ∈ pre ∧ ⟨true, 0xD002#16⟩ ∈ pre := by
  have hbefore : ∀ i (hi : i < incrementLBAAccesses.length),
      0xD004 ≤ incrementLBAAccesses[i].port.toNat → i = 4 := by decide
  have hlen : pre.length < incrementLBAAccesses.length := by
    rw [h, List.length_append, List.length_cons]
    omega
  have hget : incrementLBAAccesses[pre.length] = a := by
    simp only [h, List.getElem_append_right, Nat.le_refl, Nat.sub_self, List.getElem_cons_zero]
  have hfour := hbefore pre.length hlen (hget ▸ ha)
  have hpre : pre = incrementLBAAccesses.take 4 := by
    rw [h, ← hfour, List.take_left]
  rw [hpre]
  decide

/-- Adding 8 to the low half alone is adding 8 iff the half does not carry. -/
theorem lbaOfWords_add_eight_iff (high low : Word) :
    lbaOfWords high (low + 8#16) = lbaOfWords high low + 8#32 ↔ low.toNat + 8 < 65536 := by
  have hlow := low.isLt
  have hhigh := high.isLt
  rw [← BitVec.toNat_inj, BitVec.toNat_add, lbaOfWords_toNat, lbaOfWords_toNat, BitVec.toNat_add]
  simp only [BitVec.toNat_ofNat, Nat.reducePow, Nat.reduceMod]
  omega

/-- **When `IncrementLBA` advances the window.** A call from any of the places the handler calls it from
returns there; it has advanced the window by one step iff the low half of the LBA did not carry. -/
theorem increments_iff (m : Machine RegisterBus) (hl : l ∈ Label.returnLabels) :
    ∃ m', optionRom.step .incrementLBA (m.push l.offset) = .goto l m' ∧
      (Increments m m' ↔ m.bus.registers.lbaLow.toNat + 8 < 65536) := by
  refine ⟨_, step_incrementLBA_registers hl, ?_⟩
  rw [← lbaOfWords_add_eight_iff m.bus.registers.lbaHigh, lbaOfWords_lbaHigh_lbaLow]
  constructor
  · intro h
    exact h.selectedDiskLBA
  · intro hlba
    exact
      { selectedDiskLBA := hlba
        updateDiskMapping := rfl
        requestedLast := ⟨incrementLBAAccesses, rfl, fun pre a post h _ ha =>
          incrementLBAAccesses_requestedLast h ha⟩
        ax := rfl
        bx := rfl
        cx := rfl
        dx := rfl
        si := rfl
        di := rfl
        sp := rfl }

/-- A machine whose LBA register holds `lba`. -/
def machineAt (lba : BitVec 32) : Machine RegisterBus where
  ax := 0#16
  bx := 0#16
  cx := 0#16
  dx := 0#16
  si := 0#16
  di := 0#16
  bp := 0#16
  sp := 0x1000#16
  cs := 0xC800#16
  ds := 0xC800#16
  es := 0#16
  ss := 0#16
  flags := {}
  direction := false
  interrupt := true
  bus := ⟨fun _ => 0#8, ⟨lba, false⟩, []⟩

/-- At LBA 8 the window advances to LBA 16. -/
theorem increments_iff_eight :
    Label.transfer .handleAH02 .nextBlock ∈ Label.returnLabels ∧
      ∃ m', optionRom.step .incrementLBA
          ((machineAt 8#32).push (Label.transfer .handleAH02 .nextBlock).offset) =
        .goto (.transfer .handleAH02 .nextBlock) m' ∧ Increments (machineAt 8#32) m' := by
  refine ⟨by decide, ?_⟩
  obtain ⟨m', hstep, hiff⟩ :=
    increments_iff (l := .transfer .handleAH02 .nextBlock) (machineAt 8#32) (by decide)
  exact ⟨m', hstep, hiff.mpr (by decide)⟩

/-- **The carry is lost**: from LBA `FFF8` the window goes back to LBA 0. -/
theorem not_increments : ¬ ∀ (m : Machine RegisterBus), ∀ l ∈ Label.returnLabels,
    ∃ m', optionRom.step .incrementLBA (m.push l.offset) = .goto l m' ∧ Increments m m' := by
  intro hclaim
  have hl : Label.transfer .handleAH02 .nextBlock ∈ Label.returnLabels := by decide
  obtain ⟨m', hstep, hincrements⟩ := hclaim (machineAt 0xFFF8#32) _ hl
  rw [step_incrementLBA_registers hl] at hstep
  cases hstep
  have hlost : lbaOfWords (machineAt 0xFFF8#32).bus.registers.lbaHigh
      ((machineAt 0xFFF8#32).bus.registers.lbaLow + 8#16) ≠ 0xFFF8#32 + 8#32 := by decide
  exact hlost hincrements.selectedDiskLBA

end

end Ts3100
