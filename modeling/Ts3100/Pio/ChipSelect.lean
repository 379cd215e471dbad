import Ts3100.Pio.Devices

/-! # What a chip select unit selects

A unit of the 386EX compares an address with its address register, bit by bit, except where its mask
register has a bit set. `selectsExactly_iff` compares `selectsMemoryAddress` and `selectsIOAddress`
with that, over every sequence of register writes: they do not look at the enable bit. -/

namespace Ts3100

/-- The cycles a unit answers to. -/
inductive CycleType where
  | memory
  | io
  deriving DecidableEq, Repr

namespace ChipSelectUnit

/-! ## The unions of the registers -/

/-- `HardwareMask`: the bits that the units can operate on. -/
def hardwareMask : BitVec 32 := 0x03FFF800#32

/-- `addressRegister`. -/
def addressRegister (s : ChipSelectUnit) : BitVec 32 :=
  s.addressHighRegister ++ s.addressLowRegister

/-- `maskRegister`. -/
def maskRegister (s : ChipSelectUnit) : BitVec 32 :=
  s.addressMaskHighRegister ++ s.addressMaskLowRegister

/-- `cycleType`: bit 8 of the low address word. -/
def cycleType (s : ChipSelectUnit) : CycleType :=
  if s.addressLowRegister.getLsbD 8 then .memory else .io

/-- `enable`: bit 0 of the low mask word. -/
def enable (s : ChipSelectUnit) : Bool := s.addressMaskLowRegister.getLsbD 0

/-- `selectsMemoryAddress`. -/
def selectsMemoryAddress (s : ChipSelectUnit) (address : BitVec 32) : Bool :=
  if s.cycleType ≠ .memory then
    false
  else
    let mask := ~~~s.maskRegister &&& hardwareMask
    address &&& mask == s.addressRegister &&& mask

/-- The mask of `selectsIOAddress`. -/
def ioMask (s : ChipSelectUnit) : BitVec 16 :=
  ((~~~s.maskRegister &&& hardwareMask) >>> 10).setWidth 16

/-- The `csuAddress` of `selectsIOAddress`. -/
def csuAddress (s : ChipSelectUnit) : BitVec 16 :=
  ((s.addressRegister &&& hardwareMask) >>> 10).setWidth 16

/-- `selectsIOAddress`. -/
def selectsIOAddress (s : ChipSelectUnit) (address : BitVec 16) : Bool :=
  if s.cycleType ≠ .io then
    false
  else
    address &&& s.ioMask == s.csuAddress &&& s.ioMask

/-- The unit after writes to its registers. -/
def after (s : ChipSelectUnit) (writes : List (BitVec 16 × BitVec 16)) : ChipSelectUnit :=
  writes.foldl (fun s w => s.iowrite16 w.1 w.2) s

/-! ## The programmed block -/

/-- A memory address in the block that the registers describe. -/
def MatchesMemory (s : ChipSelectUnit) (a : BitVec 32) : Prop :=
  ∀ i, 11 ≤ i → i ≤ 25 →
    s.maskRegister.getLsbD i = true ∨ a.getLsbD i = s.addressRegister.getLsbD i

/-- An I/O address in the block that the registers describe. -/
def MatchesIO (s : ChipSelectUnit) (a : BitVec 16) : Prop :=
  ∀ i, 1 ≤ i → i ≤ 15 →
    s.maskRegister.getLsbD (i + 10) = true ∨ a.getLsbD i = s.addressRegister.getLsbD (i + 10)

/-- The unit selects its programmed block exactly: while it is enabled, and in cycles of its type. -/
structure SelectsExactly (s : ChipSelectUnit) : Prop where
  memory : ∀ a, s.selectsMemoryAddress a = true ↔
    s.enable = true ∧ s.cycleType = .memory ∧ s.MatchesMemory a
  io : ∀ a, s.selectsIOAddress a = true ↔
    s.enable = true ∧ s.cycleType = .io ∧ s.MatchesIO a

/-- Whether the last write to the low mask word leaves the unit enabled. -/
def lastEnable (enabled : Bool) (writes : List (BitVec 16 × BitVec 16)) : Bool :=
  writes.foldl (fun enabled w => if (w.1 &&& 0x7#16).toNat = 4 then w.2.getLsbD 0 else enabled)
    enabled

variable {s : ChipSelectUnit}

/-! ## Comparison under a mask -/

/-- Two words agree under a mask iff they agree where it has a bit set. -/
theorem and_eq_and_iff {w : Nat} {a b mask : BitVec w} :
    a &&& mask = b &&& mask ↔ ∀ i < w, mask.getLsbD i = true → a.getLsbD i = b.getLsbD i := by
  constructor
  · intro h i hi hmask
    have hbit := congrArg (·.getLsbD i) h
    simpa [hmask] using hbit
  · intro h
    refine BitVec.eq_of_getLsbD_eq fun i hi => ?_
    cases hmask : mask.getLsbD i with
    | true => simp [hmask, h i hi hmask]
    | false => simp [hmask]

/-- The hardware mask covers bits 11 to 25. -/
theorem getLsbD_hardwareMask {i : Nat} (hi : i < 32) :
    hardwareMask.getLsbD i = decide (11 ≤ i ∧ i ≤ 25) := by
  revert i
  decide

/-- The comparison of `selectsMemoryAddress`. -/
theorem selectsMemoryAddress_iff {a : BitVec 32} :
    s.selectsMemoryAddress a = true ↔ s.cycleType = .memory ∧ s.MatchesMemory a := by
  unfold selectsMemoryAddress
  by_cases hcycle : s.cycleType = .memory
  · rw [if_neg (by simp [hcycle]), and_iff_right hcycle, beq_iff_eq, and_eq_and_iff]
    constructor
    · intro h i hlow hhigh
      cases hmask : s.maskRegister.getLsbD i with
      | true => exact Or.inl rfl
      | false =>
          have hbit : (~~~s.maskRegister &&& hardwareMask).getLsbD i = true := by
            rw [BitVec.getLsbD_and, BitVec.getLsbD_not, hmask, getLsbD_hardwareMask (by omega)]
            simp [hlow, hhigh, show i < 32 by omega]
          exact Or.inr (h i (by omega) hbit)
    · intro h i hi hbit
      rw [BitVec.getLsbD_and, BitVec.getLsbD_not, getLsbD_hardwareMask hi] at hbit
      simp only [Bool.and_eq_true, Bool.not_eq_true', decide_eq_true_eq] at hbit
      obtain ⟨⟨-, hmask⟩, hlow, hhigh⟩ := hbit
      exact (h i hlow hhigh).resolve_left (by simp [hmask])
  · rw [if_pos hcycle]
    simp [hcycle]

/-- The bits of the I/O mask. -/
theorem getLsbD_ioMask {i : Nat} (hi : i < 16) :
    s.ioMask.getLsbD i = (!s.maskRegister.getLsbD (i + 10) && decide (1 ≤ i)) := by
  have hrange : decide (11 ≤ i + 10 ∧ i + 10 ≤ 25) = decide (1 ≤ i) := decide_eq_decide.mpr (by omega)
  rw [ioMask, BitVec.getLsbD_setWidth, BitVec.getLsbD_ushiftRight, BitVec.getLsbD_and,
    BitVec.getLsbD_not, Nat.add_comm 10 i, getLsbD_hardwareMask (by omega), hrange,
    decide_eq_true hi, decide_eq_true (show i + 10 < 32 by omega), Bool.true_and, Bool.true_and]

/-- The bits of the I/O address. -/
theorem getLsbD_csuAddress {i : Nat} (hi : i < 16) :
    s.csuAddress.getLsbD i = (s.addressRegister.getLsbD (i + 10) && decide (1 ≤ i)) := by
  have hrange : decide (11 ≤ i + 10 ∧ i + 10 ≤ 25) = decide (1 ≤ i) := decide_eq_decide.mpr (by omega)
  rw [csuAddress, BitVec.getLsbD_setWidth, BitVec.getLsbD_ushiftRight, BitVec.getLsbD_and,
    Nat.add_comm 10 i, getLsbD_hardwareMask (by omega), hrange, decide_eq_true hi, Bool.true_and]

/-- The comparison of `selectsIOAddress`. -/
theorem selectsIOAddress_iff {a : BitVec 16} :
    s.selectsIOAddress a = true ↔ s.cycleType = .io ∧ s.MatchesIO a := by
  unfold selectsIOAddress
  by_cases hcycle : s.cycleType = .io
  · rw [if_neg (by simp [hcycle]), and_iff_right hcycle, beq_iff_eq, and_eq_and_iff]
    constructor
    · intro h i hlow hhigh
      cases hmask : s.maskRegister.getLsbD (i + 10) with
      | true => exact Or.inl rfl
      | false =>
          have hbit : s.ioMask.getLsbD i = true := by
            rw [getLsbD_ioMask (by omega), hmask]
            simpa using hlow
          have hequal := h i (by omega) hbit
          rw [getLsbD_csuAddress (by omega), decide_eq_true hlow, Bool.and_true] at hequal
          exact Or.inr hequal
    · intro h i hi hbit
      rw [getLsbD_ioMask hi] at hbit
      simp only [Bool.and_eq_true, Bool.not_eq_true', decide_eq_true_eq] at hbit
      obtain ⟨hmask, hlow⟩ := hbit
      rw [getLsbD_csuAddress hi, decide_eq_true hlow, Bool.and_true]
      exact (h i hlow (by omega)).resolve_left (by simp [hmask])
  · rw [if_pos hcycle]
    simp [hcycle]

/-! ## The enable bit -/

/-- A unit selects some address, enabled or not. -/
theorem exists_selects (s : ChipSelectUnit) :
    (∃ a, s.selectsMemoryAddress a = true) ∨ ∃ a, s.selectsIOAddress a = true := by
  cases hcycle : s.cycleType with
  | memory =>
      refine Or.inl ⟨s.addressRegister, selectsMemoryAddress_iff.mpr ⟨hcycle, fun i _ _ => ?_⟩⟩
      exact Or.inr rfl
  | io =>
      refine Or.inr ⟨s.csuAddress, selectsIOAddress_iff.mpr ⟨hcycle, fun i hlow hhigh => ?_⟩⟩
      rw [getLsbD_csuAddress (by omega), decide_eq_true hlow, Bool.and_true]
      exact Or.inr rfl

/-- A write sets the enable bit iff it is to the low mask word. -/
theorem enable_iowrite16 (s : ChipSelectUnit) (address value : BitVec 16) :
    (s.iowrite16 address value).enable =
      if (address &&& 0x7#16).toNat = 4 then value.getLsbD 0 else s.enable := by
  unfold iowrite16
  split
  case h_5 _ _ _ hne _ => exact (if_neg fun heq => hne heq).symm
  all_goals simp [enable, *]

/-- The enable bit is the one last written. -/
theorem enable_after (s : ChipSelectUnit) (writes : List (BitVec 16 × BitVec 16)) :
    (s.after writes).enable = lastEnable s.enable writes := by
  induction writes generalizing s with
  | nil => rfl
  | cons w writes ih =>
      show ((s.iowrite16 w.1 w.2).after writes).enable = _
      rw [ih, enable_iowrite16]
      rfl

/-- **When a unit selects exactly its block.** After any writes to the registers of any unit, it
selects the block they describe exactly iff the last write to the low mask word, or the unit at the
start, has the enable bit set. -/
theorem selectsExactly_iff (s : ChipSelectUnit) (writes : List (BitVec 16 × BitVec 16)) :
    (s.after writes).SelectsExactly ↔ lastEnable s.enable writes = true := by
  rw [← enable_after]
  constructor
  · intro h
    rcases (s.after writes).exists_selects with ⟨a, ha⟩ | ⟨a, ha⟩
    · exact ((h.memory a).mp ha).1
    · exact ((h.io a).mp ha).1
  · intro henable
    constructor
    · intro a
      rw [selectsMemoryAddress_iff, and_iff_right henable]
    · intro a
      rw [selectsIOAddress_iff, and_iff_right henable]

/-- **A unit reset to zero selects ports 0 and 1.** -/
theorem not_selectsExactly : ¬ ∀ (s : ChipSelectUnit) (writes : List (BitVec 16 × BitVec 16)),
    (s.after writes).SelectsExactly := by
  intro hclaim
  have hdisabled := ((hclaim {} []).io 0#16).mp (by decide)
  exact absurd hdisabled.1 (by decide)

end ChipSelectUnit

end Ts3100
