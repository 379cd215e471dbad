import Ts3100.Library.LabelledRuns

/-! # The flash command decoder

The `KVM_EXIT_MMIO` case of the main loop emulates a flash chip: writes to the flash window drive a
nine-state decoder that programs and erases `flashMemory`, and the identification command unmaps
the window so that reads trap as well. This file models the decoder of one access; the ioctls that
follow it are in `Flash.Mapping` and the address guard before it in `Flash.MmioExit`. -/

namespace Ts3100

/-- A byte of guest or host memory. -/
abbrev Byte : Type := BitVec 8

/-- How the emulator process ends: a failed `assert`, or `return EXIT_FAILURE` after a message. -/
inductive EmulatorExit where
  | assertionFailed
  | exitFailure (message : String)
  deriving DecidableEq, Repr

/-- `enum class FlashState`. -/
inductive FlashState where
  | read
  | commandByte1
  | commandByte2
  | commandByte3
  | commandByte4
  | commandByte5
  | program
  | productIdentification
  | sectorErase
  deriving DecidableEq, Repr

/-- The flash chip: the host memory behind `flashMemory`, and the global `flashState`. The memory is
indexed from the pointer on without a bound, so that a store past the `0x80000` mapped bytes would
show. -/
structure FlashChip where
  flashMemory : Nat → Byte
  flashState : FlashState

/-- An access the decoder handles: a one-byte write, or a trapped read. The offset is
`phys_addr & 0x7FFFF`. -/
inductive FlashAccess where
  | write (offset : BitVec 19) (command : Byte)
  | read (offset : BitVec 19)
  deriving DecidableEq, Repr

/-- The flags `unmapFlash` and `mapFlash` of one exit. -/
structure FlashRemap where
  unmapFlash : Bool := false
  mapFlash : Bool := false
  deriving DecidableEq, Repr

/-- `memset(memory + start, value, count)`. -/
def memset (memory : Nat → Byte) (start : Nat) (value : Byte) (count : Nat) : Nat → Byte :=
  fun i => if start ≤ i ∧ i < start + count then value else memory i

/-- A byte after `memset`. -/
theorem memset_apply (memory : Nat → Byte) (start : Nat) (value : Byte) (count i : Nat) :
    memset memory start value count i
      = if start ≤ i ∧ i < start + count then value else memory i := rfl

/-- The write `command` at an offset whose low 11 bits are `address`. -/
def isCommand (offset : BitVec 19) (command : Byte) (address : BitVec 19) (value : Byte) : Prop :=
  offset &&& 0x7FF#19 = address ∧ command = value

instance (offset : BitVec 19) (command : Byte) (address : BitVec 19) (value : Byte) :
    Decidable (isCommand offset command address value) :=
  inferInstanceAs (Decidable (_ ∧ _))

namespace FlashChip

/-- The chip with another decoder state. -/
def withState (chip : FlashChip) (state : FlashState) : FlashChip :=
  { chip with flashState := state }

/-- A change of state leaves the contents. -/
@[simp] theorem withState_flashMemory (chip : FlashChip) (state : FlashState) :
    (chip.withState state).flashMemory = chip.flashMemory := rfl

/-- The new state. -/
@[simp] theorem withState_flashState (chip : FlashChip) (state : FlashState) :
    (chip.withState state).flashState = state := rfl

/-- The write branch of the decoder, in the order of the source's tests. -/
def decodeWrite (chip : FlashChip) (offset : BitVec 19) (command : Byte) :
    Except EmulatorExit (FlashChip × FlashRemap) :=
  if chip.flashState = .program then
    .ok ({ flashMemory := Function.update chip.flashMemory offset.toNat command,
           flashState := .read }, {})
  else if command = 0xF0#8 then
    -- reset device
    .ok (chip.withState .read, {})
  else if chip.flashState = .read ∧ isCommand offset command 0x555#19 0xAA#8 then
    .ok (chip.withState .commandByte1, {})
  else if chip.flashState = .commandByte1 ∧ isCommand offset command 0x2AA#19 0x55#8 then
    .ok (chip.withState .commandByte2, {})
  else if chip.flashState = .commandByte2 ∧ isCommand offset command 0x555#19 0x80#8 then
    .ok (chip.withState .commandByte3, {})
  else if chip.flashState = .commandByte3 ∧ isCommand offset command 0x555#19 0xAA#8 then
    .ok (chip.withState .commandByte4, {})
  else if chip.flashState = .commandByte4 ∧ isCommand offset command 0x2AA#19 0x55#8 then
    .ok (chip.withState .commandByte5, {})
  else if chip.flashState = .commandByte2 ∧ isCommand offset command 0x555#19 0xA0#8 then
    .ok (chip.withState .program, {})
  else if chip.flashState = .commandByte2 ∧ isCommand offset command 0x555#19 0x90#8 then
    .ok (chip.withState .productIdentification, { unmapFlash := true })
  else if chip.flashState = .commandByte5 ∧ command = 0x30#8 then
    -- sector erase: accepted at any offset
    .ok ({ flashMemory := memset chip.flashMemory (offset &&& 0x70000#19).toNat 0xFF#8 0x10000,
           flashState := .read }, {})
  else if chip.flashState = .commandByte5 ∧ isCommand offset command 0x555#19 0x10#8 then
    -- chip erase
    .ok ({ flashMemory := memset chip.flashMemory 0 0xFF#8 0x80000, flashState := .read }, {})
  else
    .error (.exitFailure "flash disk: unknown command sequence.")

/-- The byte a trapped read returns in identification mode. -/
def identification (offset : BitVec 19) : Byte := if offset &&& 1#19 ≠ 0#19 then 0xA4#8 else 0x01#8

/-- The read branch of the decoder. The third component is the byte stored in `mmio.data`, if
any. -/
def decodeRead (chip : FlashChip) (offset : BitVec 19) : FlashChip × FlashRemap × Option Byte :=
  if chip.flashState = .productIdentification then
    (chip.withState .read, { mapFlash := true }, some (identification offset))
  else
    (chip.withState .read, {}, none)

/-- One access handled by the decoder. -/
def decode (chip : FlashChip) : FlashAccess → Except EmulatorExit (FlashChip × FlashRemap)
  | .write offset command => chip.decodeWrite offset command
  | .read offset => .ok ((chip.decodeRead offset).1, (chip.decodeRead offset).2.1)

/-- The chip after one access; `none` once the emulator exits. -/
def step (chip : FlashChip) (access : FlashAccess) : Option FlashChip :=
  (chip.decode access).toOption.map Prod.fst

/-! ## What one access can do -/

/-- The bus cycle a decoder state waits for when it advances to the next state on a command write:
the low 11 address bits, the data byte and the next state. -/
inductive Advances : FlashState → BitVec 19 → Byte → FlashState → Prop
  | byte1 : Advances .read 0x555#19 0xAA#8 .commandByte1
  | byte2 : Advances .commandByte1 0x2AA#19 0x55#8 .commandByte2
  | byte3 : Advances .commandByte2 0x555#19 0x80#8 .commandByte3
  | byte4 : Advances .commandByte3 0x555#19 0xAA#8 .commandByte4
  | byte5 : Advances .commandByte4 0x2AA#19 0x55#8 .commandByte5
  | program : Advances .commandByte2 0x555#19 0xA0#8 .program
  | identification : Advances .commandByte2 0x555#19 0x90#8 .productIdentification

/-- What a write that does not end the emulator does: it stores program data, resets the decoder,
advances it without touching memory, or erases. -/
inductive WriteEffect (chip : FlashChip) (offset : BitVec 19) (command : Byte) :
    FlashChip → FlashRemap → Prop
  | store (hstate : chip.flashState = .program) :
      WriteEffect chip offset command
        { flashMemory := Function.update chip.flashMemory offset.toNat command,
          flashState := .read } {}
  | reset (hstate : chip.flashState ≠ .program) (hcommand : command = 0xF0#8) :
      WriteEffect chip offset command (chip.withState .read) {}
  | advance {address : BitVec 19} {value : Byte} {next : FlashState}
      (hadvance : Advances chip.flashState address value next)
      (hcommand : isCommand offset command address value) :
      WriteEffect chip offset command (chip.withState next)
        { unmapFlash := decide (next = .productIdentification) }
  | sectorErase (hstate : chip.flashState = .commandByte5) (hcommand : command = 0x30#8) :
      WriteEffect chip offset command
        { flashMemory := memset chip.flashMemory (offset &&& 0x70000#19).toNat 0xFF#8 0x10000,
          flashState := .read } {}
  | chipErase (hstate : chip.flashState = .commandByte5)
      (hcommand : isCommand offset command 0x555#19 0x10#8) :
      WriteEffect chip offset command
        { flashMemory := memset chip.flashMemory 0 0xFF#8 0x80000, flashState := .read } {}

/-- **Inversion of a write.** Every write the decoder accepts has one of the listed effects. -/
theorem decodeWrite_effect {chip chip' : FlashChip} {offset : BitVec 19} {command : Byte}
    {remap : FlashRemap} (h : chip.decodeWrite offset command = .ok (chip', remap)) :
    WriteEffect chip offset command chip' remap := by
  rw [decodeWrite] at h
  by_cases hprogram : chip.flashState = .program
  · rw [if_pos hprogram] at h
    cases h
    exact .store hprogram
  rw [if_neg hprogram] at h
  by_cases hreset : command = 0xF0#8
  · rw [if_pos hreset] at h
    cases h
    exact .reset hprogram hreset
  rw [if_neg hreset] at h
  -- the seven command bytes that only advance the decoder
  iterate 7
    refine (ite_eq_iff.mp h).elim (fun hguard => ?_) (fun hguard => ?_)
    · obtain ⟨⟨hstate, hcommand⟩, hresult⟩ := hguard
      cases hresult
      refine .advance ?_ hcommand
      rw [hstate]
      constructor
    replace h := hguard.2
  by_cases hsector : chip.flashState = .commandByte5 ∧ command = 0x30#8
  · rw [if_pos hsector] at h
    cases h
    exact .sectorErase hsector.1 hsector.2
  rw [if_neg hsector] at h
  by_cases hchip : chip.flashState = .commandByte5 ∧ isCommand offset command 0x555#19 0x10#8
  · rw [if_pos hchip] at h
    cases h
    exact .chipErase hchip.1 hchip.2
  · rw [if_neg hchip] at h
    cases h

end FlashChip

end Ts3100
