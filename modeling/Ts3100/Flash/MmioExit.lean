import Ts3100.Flash.Mapping

/-! # Flash accesses through `KVM_EXIT_MMIO`

The MMIO case of the main loop hands an exit to the flash decoder when its address passes a range
test. The upper bound of that test is `0x350000`, below its lower bound `0x3400000`, so the test
passes for no address and every exit takes the branch for unhandled MMIO
(`not_flashGuard`, `mmioStep_eq`). What is left of flash programming is settled by
`mmioProgram_iff`. -/

namespace Ts3100

open LabelledRuns

/-- The fields of `vcpuRun->mmio`. -/
structure MmioExit where
  physAddr : BitVec 64
  data : Fin 8 → Byte
  len : Nat
  isWrite : Bool

/-- The address test of the MMIO case, with the source's bounds. -/
def FlashGuard (physAddr : BitVec 64) : Prop :=
  0x3400000 ≤ physAddr.toNat ∧ physAddr.toNat < 0x350000

instance (physAddr : BitVec 64) : Decidable (FlashGuard physAddr) :=
  inferInstanceAs (Decidable (_ ∧ _))

/-- `off_t offset = vcpuRun->mmio.phys_addr & 0x7FFFF`. -/
def flashOffset (physAddr : BitVec 64) : BitVec 19 := (physAddr &&& 0x7FFFF#64).setWidth 19

/-- The `KVM_EXIT_MMIO` case (`VIRTUAL_DISK` build): the next system and the bytes left in
`mmio.data`. -/
def handleMmio (host : HostPointers) (s : FlashSystem) (exit : MmioExit) :
    Except EmulatorExit (FlashSystem × (Fin 8 → Byte)) :=
  if FlashGuard exit.physAddr then
    if exit.isWrite then
      -- assert(vcpuRun->mmio.len == 1)
      if exit.len = 1 then do
        let s' ← s.access host (.write (flashOffset exit.physAddr) (exit.data 0))
        return (s', exit.data)
      else .error .assertionFailed
    else do
      let s' ← s.access host (.read (flashOffset exit.physAddr))
      match (s.chip.decodeRead (flashOffset exit.physAddr)).2.2 with
      | some byte => return (s', Function.update exit.data 0 byte)
      | none => return (s', exit.data)
  else if exit.isWrite then
    .ok (s, exit.data)
  else
    -- memset(vcpuRun->mmio.data, 0, sizeof vcpuRun->mmio.data)
    .ok (s, fun _ => 0#8)

/-- The system after one MMIO exit; `none` once the emulator exits. -/
def mmioStep (host : HostPointers) (s : FlashSystem) (exit : MmioExit) : Option FlashSystem :=
  (handleMmio host s exit).toOption.map Prod.fst

/-- The address range of the flash window and its alias. -/
def InFlashWindow (physAddr : BitVec 64) : Prop :=
  0x3400000 ≤ physAddr.toNat ∧ physAddr.toNat ≤ 0x34FFFFF

/-- The exit is a one-byte write of `value` at `physAddr`. -/
def MmioExit.IsByteWrite (exit : MmioExit) (physAddr : BitVec 64) (value : Byte) : Prop :=
  exit.physAddr = physAddr ∧ exit.isWrite = true ∧ exit.len = 1 ∧ exit.data 0 = value

/-- The four exits of a program command for the byte at `a`: three command cycles at addresses in
the windows with the required low 11 bits, then the data byte `d` at `a`. -/
structure ProgramCommand (a : BitVec 64) (d : Byte) where
  (c₁ c₂ c₃ : BitVec 64)
  (e₁ e₂ e₃ e₄ : MmioExit)
  byte₁ : InFlashWindow c₁ ∧ c₁ &&& 0x7FF#64 = 0x555#64 ∧ e₁.IsByteWrite c₁ 0xAA#8
  byte₂ : InFlashWindow c₂ ∧ c₂ &&& 0x7FF#64 = 0x2AA#64 ∧ e₂.IsByteWrite c₂ 0x55#8
  byte₃ : InFlashWindow c₃ ∧ c₃ &&& 0x7FF#64 = 0x555#64 ∧ e₃.IsByteWrite c₃ 0xA0#8
  data : InFlashWindow a ∧ e₄.IsByteWrite a d

/-- The exits of the command, in order. -/
def ProgramCommand.exits {a : BitVec 64} {d : Byte} (command : ProgramCommand a d) :
    List MmioExit :=
  [command.e₁, command.e₂, command.e₃, command.e₄]

/-- The exits leave `value` at the flash byte `physAddr` selects, every other flash byte unchanged
and the decoder in `Read`. -/
def ProgramsByte (host : HostPointers) (s : FlashSystem) (exits : List MmioExit)
    (physAddr : BitVec 64) (value : Byte) : Prop :=
  ∃ s', run (mmioStep host) s exits = some s' ∧
    s'.chip.flashMemory (flashOffset physAddr).toNat = value ∧
    (∀ i, i ≠ (flashOffset physAddr).toNat → s'.chip.flashMemory i = s.chip.flashMemory i) ∧
    s'.chip.flashState = .read

/-- The range test passes for no address. -/
theorem not_flashGuard (physAddr : BitVec 64) : ¬ FlashGuard physAddr := by
  rintro ⟨hlow, hhigh⟩
  omega

/-- An MMIO exit never reaches the decoder. -/
theorem mmioStep_eq (host : HostPointers) (s : FlashSystem) (exit : MmioExit) :
    mmioStep host s exit = some s := by
  rw [mmioStep, handleMmio, if_neg (not_flashGuard _)]
  split <;> rfl

/-- No sequence of MMIO exits changes the flash chip or its mapping. -/
theorem run_mmioStep (host : HostPointers) (s : FlashSystem) (exits : List MmioExit) :
    run (mmioStep host) s exits = some s := by
  induction exits with
  | nil => rfl
  | cons exit exits ih => rw [run_cons, mmioStep_eq, Option.bind_some, ih]

/-- **When flash programming works through the MMIO path.** The four exits of a program command
program the byte iff the flash already holds it there; and exits outside both windows change
neither the contents nor the decoder state. -/
theorem mmioProgram_iff (host : HostPointers) (s : FlashSystem)
    (hread : s.chip.flashState = .read) (a : BitVec 64) (d : Byte) (command : ProgramCommand a d) :
    (ProgramsByte host s command.exits a d ↔ s.chip.flashMemory (flashOffset a).toNat = d) ∧
      ∀ exits : List MmioExit, (∀ e ∈ exits, ¬ InFlashWindow e.physAddr) →
        ∃ s', run (mmioStep host) s exits = some s' ∧ s'.chip = s.chip := by
  refine ⟨?_, fun exits _ => ⟨s, run_mmioStep host s exits, rfl⟩⟩
  constructor
  · rintro ⟨s', hrun, hbyte, -, -⟩
    rw [run_mmioStep, Option.some.injEq] at hrun
    exact hrun ▸ hbyte
  · intro hbyte
    exact ⟨s, run_mmioStep host s _, hbyte, fun _ _ => rfl, hread⟩

/-- The command that programs `d` at the first byte of the flash window. -/
def programFirstByte (d : Byte) : ProgramCommand 0x3400000#64 d where
  c₁ := 0x3400555#64
  c₂ := 0x34002AA#64
  c₃ := 0x3400555#64
  e₁ := ⟨0x3400555#64, fun _ => 0xAA#8, 1, true⟩
  e₂ := ⟨0x34002AA#64, fun _ => 0x55#8, 1, true⟩
  e₃ := ⟨0x3400555#64, fun _ => 0xA0#8, 1, true⟩
  e₄ := ⟨0x3400000#64, fun _ => d, 1, true⟩
  byte₁ := ⟨⟨by decide, by decide⟩, by decide, rfl, rfl, rfl, rfl⟩
  byte₂ := ⟨⟨by decide, by decide⟩, by decide, rfl, rfl, rfl, rfl⟩
  byte₃ := ⟨⟨by decide, by decide⟩, by decide, rfl, rfl, rfl, rfl⟩
  data := ⟨⟨by decide, by decide⟩, rfl, rfl, rfl, rfl⟩

/-- Programming `FF` into an erased byte works. -/
theorem mmioProgram_iff_erased :
    ProgramsByte ⟨0, 0, 0⟩ ⟨⟨fun _ => 0xFF#8, .read⟩, MemorySlots.empty⟩
      (programFirstByte 0xFF#8).exits 0x3400000#64 0xFF#8 :=
  (mmioProgram_iff _ _ rfl _ _ (programFirstByte 0xFF#8)).1.mpr rfl

/-- **Programming `00` into an erased byte is lost**: the four exits never reach the decoder. -/
theorem not_mmioProgram :
    ¬ ∀ (host : HostPointers) (s : FlashSystem), s.chip.flashState = .read →
      ∀ (a : BitVec 64) (d : Byte) (command : ProgramCommand a d),
        ProgramsByte host s command.exits a d := by
  intro hclaim
  obtain ⟨s', hrun, hbyte, -, -⟩ := hclaim ⟨0, 0, 0⟩ ⟨⟨fun _ => 0xFF#8, .read⟩, MemorySlots.empty⟩
    rfl _ _ (programFirstByte 0x00#8)
  rw [run_mmioStep, Option.some.injEq] at hrun
  rw [← hrun] at hbyte
  exact absurd hbyte (by decide)

end Ts3100
