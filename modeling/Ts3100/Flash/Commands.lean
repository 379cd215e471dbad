import Ts3100.Flash.Decoder

/-! # Complete flash commands

What the flash chip is for: a program or erase command is an uninterrupted run of bus cycles, and
memory changes exactly where such a run completes. The abstract recogniser looks at the trace only:

* `completedCommand history` — the command whose last cycle is the newest access of `history`;
* `commandEffects accesses` — the commands a trace completes, in order;
* `FlashEffect.apply` — what a completed command does to memory.

`flashMemory_run` shows that the nine-state decoder computes the recogniser's effects over every
trace. The simulation relates the decoder state to the newest cycles of the history, in both
directions (`DecoderTracks`). -/

namespace Ts3100

open LabelledRuns

/-- A bus cycle of a command: the low 11 address bits and the data byte. -/
abbrev CommandCycle : Type := BitVec 19 × Byte

/-- The cycles before the data cycle of a program command, newest first. -/
def programPrefix : List CommandCycle := [(0x555#19, 0xA0#8), (0x2AA#19, 0x55#8), (0x555#19, 0xAA#8)]

/-- The cycles before the last cycle of an erase command, newest first. -/
def erasePrefix : List CommandCycle :=
  [(0x2AA#19, 0x55#8), (0x555#19, 0xAA#8), (0x555#19, 0x80#8), (0x2AA#19, 0x55#8), (0x555#19, 0xAA#8)]

/-- The access is a write of the given command cycle. -/
def FlashAccess.Matches : FlashAccess → CommandCycle → Prop
  | .write offset command, cycle => isCommand offset command cycle.1 cycle.2
  | .read _, _ => False

instance (access : FlashAccess) (cycle : CommandCycle) : Decidable (access.Matches cycle) :=
  match access with
  | .write offset command => inferInstanceAs (Decidable (isCommand offset command cycle.1 cycle.2))
  | .read _ => inferInstanceAs (Decidable False)

/-- The newest accesses of a history (newest first) are the given cycles. -/
def EndsWith : List FlashAccess → List CommandCycle → Prop
  | _, [] => True
  | [], _ :: _ => False
  | access :: history, cycle :: cycles => access.Matches cycle ∧ EndsWith history cycles

/-- Whether a history ends with the given cycles is decided by comparing them one by one. -/
def decideEndsWith : ∀ history cycles, Decidable (EndsWith history cycles)
  | [], [] => .isTrue trivial
  | _ :: _, [] => .isTrue trivial
  | [], _ :: _ => .isFalse id
  | access :: history, cycle :: cycles =>
      have := decideEndsWith history cycles
      inferInstanceAs (Decidable (access.Matches cycle ∧ EndsWith history cycles))

instance (history : List FlashAccess) (cycles : List CommandCycle) :
    Decidable (EndsWith history cycles) :=
  decideEndsWith history cycles

/-- Every history ends with no cycles. -/
@[simp] theorem endsWith_nil (history : List FlashAccess) : EndsWith history [] := by
  cases history <;> exact trivial

/-- The last access matches the last cycle, and those before it the others. -/
@[simp] theorem endsWith_cons (access : FlashAccess) (history : List FlashAccess)
    (cycle : CommandCycle) (cycles : List CommandCycle) :
    EndsWith (access :: history) (cycle :: cycles)
      ↔ access.Matches cycle ∧ EndsWith history cycles := Iff.rfl

/-- No accesses match no cycle. -/
@[simp] theorem not_endsWith_nil_cons (cycle : CommandCycle) (cycles : List CommandCycle) :
    ¬ EndsWith [] (cycle :: cycles) := id

/-- What a completed command does: a byte store, a sector erase or a chip erase. -/
inductive FlashEffect where
  | store (offset : BitVec 19) (data : Byte)
  | eraseSector (offset : BitVec 19)
  | eraseChip
  deriving DecidableEq, Repr

/-- The effect on memory: a sector is the 64 KiB block the offset lies in. -/
def FlashEffect.apply (memory : Nat → Byte) : FlashEffect → Nat → Byte
  | .store offset data => Function.update memory offset.toNat data
  | .eraseSector offset => fun i => if i / 0x10000 = offset.toNat / 0x10000 then 0xFF#8 else memory i
  | .eraseChip => fun i => if i < 0x80000 then 0xFF#8 else memory i

/-- The command completed by the newest access of a history (newest first), if any: the data cycle
after the program prefix, `30` anywhere or `10@555` after the erase prefix. -/
def completedCommand : List FlashAccess → Option FlashEffect
  | .write offset command :: history =>
      if EndsWith history programPrefix then some (.store offset command)
      else if EndsWith history erasePrefix ∧ command = 0x30#8 then some (.eraseSector offset)
      else if EndsWith history erasePrefix ∧ isCommand offset command 0x555#19 0x10#8 then
        some .eraseChip
      else none
  | _ => none

/-- The effects of the commands a trace completes, in order: one test for each prefix. -/
def commandEffects (accesses : List FlashAccess) : List FlashEffect :=
  accesses.inits.filterMap fun pre => completedCommand pre.reverse

/-- One more access appends the effect of the command it completes. -/
theorem commandEffects_concat (accesses : List FlashAccess) (access : FlashAccess) :
    commandEffects (accesses ++ [access])
      = commandEffects accesses ++ (completedCommand (access :: accesses.reverse)).toList := by
  have hinits : (accesses ++ [access]).inits = accesses.inits ++ [accesses ++ [access]] := by
    rw [List.inits_append]
    rfl
  have hrev : (accesses ++ [access]).reverse = access :: accesses.reverse := by simp
  rw [commandEffects, commandEffects, hinits, List.filterMap_append, List.filterMap_cons, hrev]
  cases completedCommand (access :: accesses.reverse) <;> rfl

/-! ## The decoder tracks the history -/

/-- The cycles a decoder state has seen, newest first. -/
def FlashState.seen : FlashState → List CommandCycle
  | .read | .productIdentification | .sectorErase => []
  | .commandByte1 => [(0x555#19, 0xAA#8)]
  | .commandByte2 => [(0x2AA#19, 0x55#8), (0x555#19, 0xAA#8)]
  | .commandByte3 => [(0x555#19, 0x80#8), (0x2AA#19, 0x55#8), (0x555#19, 0xAA#8)]
  | .commandByte4 => [(0x555#19, 0xAA#8), (0x555#19, 0x80#8), (0x2AA#19, 0x55#8), (0x555#19, 0xAA#8)]
  | .commandByte5 => erasePrefix
  | .program => programPrefix

/-- The decoder state after a history: it has seen the newest cycles it waits on, and a history that
ends with a (partial) command run has brought the decoder to a state of that run. A first cycle
may also have been program data, which leaves the decoder in `Read`. -/
structure DecoderTracks (state : FlashState) (history : List FlashAccess) : Prop where
  seen : EndsWith history state.seen
  byte1 : EndsWith history [(0x555#19, 0xAA#8)] →
    state = .commandByte1 ∨ state = .commandByte4 ∨ state = .read
  byte2 : EndsWith history [(0x2AA#19, 0x55#8), (0x555#19, 0xAA#8)] →
    state = .commandByte2 ∨ state = .commandByte5
  byte3 : EndsWith history [(0x555#19, 0x80#8), (0x2AA#19, 0x55#8), (0x555#19, 0xAA#8)] →
    state = .commandByte3
  byte4 : EndsWith history
      [(0x555#19, 0xAA#8), (0x555#19, 0x80#8), (0x2AA#19, 0x55#8), (0x555#19, 0xAA#8)] →
    state = .commandByte4
  program : EndsWith history programPrefix → state = .program
  erase : EndsWith history erasePrefix → state = .commandByte5

/-- Before any access the decoder is in `Read` and has seen nothing. -/
theorem decoderTracks_nil : DecoderTracks .read [] := by
  constructor <;> simp [FlashState.seen, programPrefix, erasePrefix]

section DecoderTracks

variable {state next : FlashState} {history : List FlashAccess} {offset : BitVec 19}
  {command : Byte}

/-- A trapped read leaves nothing seen. -/
theorem DecoderTracks.read (offset : BitVec 19) :
    DecoderTracks .read (.read offset :: history) := by
  constructor <;> simp [FlashState.seen, programPrefix, erasePrefix, FlashAccess.Matches]

/-- A reset or erase byte is no earlier cycle of a command and leaves nothing seen. -/
theorem DecoderTracks.last (hcommand : command = 0xF0#8 ∨ command = 0x30#8 ∨ command = 0x10#8) :
    DecoderTracks .read (.write offset command :: history) := by
  rcases hcommand with rfl | rfl | rfl <;> constructor <;>
    simp [FlashState.seen, programPrefix, erasePrefix, FlashAccess.Matches, isCommand]

/-- A command cycle that advances the decoder extends what it has seen. -/
theorem DecoderTracks.advance {address : BitVec 19} {value : Byte}
    (h : DecoderTracks state history) (hadvance : FlashChip.Advances state address value next)
    (hcommand : isCommand offset command address value) :
    DecoderTracks next (.write offset command :: history) := by
  obtain ⟨hseen, h1, h2, h3, h4, hprogram, herase⟩ := h
  obtain ⟨hoffset, rfl⟩ := hcommand
  cases hadvance <;> constructor <;>
    simp_all [FlashState.seen, programPrefix, erasePrefix, FlashAccess.Matches, isCommand]

/-- Program data ends the run: it can only be the first cycle of another one, and the decoder
is then in `Read`. -/
theorem DecoderTracks.store (h : DecoderTracks .program history) :
    DecoderTracks .read (.write offset command :: history) := by
  obtain ⟨hseen, h1, h2, h3, h4, hprogram, herase⟩ := h
  constructor <;>
    simp_all [FlashState.seen, programPrefix, erasePrefix, FlashAccess.Matches, isCommand]

end DecoderTracks

/-! ## The decoder computes the recogniser's effects -/

/-- The sector base `offset & 0x70000` clears the low 16 bits. -/
theorem toNat_sectorBase (offset : BitVec 19) :
    (offset &&& 0x70000#19).toNat = offset.toNat / 0x10000 * 0x10000 := by
  have hmask : offset &&& 0x70000#19 = (offset >>> 16) <<< 16 := by
    ext i hi
    have hbit : (0x70000#19)[i] = decide (16 ≤ i) := by
      revert i
      decide
    rw [BitVec.getElem_and, hbit]
    simp
    grind
  have hlt := offset.isLt
  rw [hmask]
  simp only [BitVec.toNat_shiftLeft, BitVec.toNat_ushiftRight, Nat.shiftRight_eq_div_pow,
    Nat.shiftLeft_eq]
  omega

/-- A sector fill is the memset of the source at the sector's base. -/
theorem FlashEffect.apply_eraseSector (memory : Nat → Byte) (offset : BitVec 19) :
    FlashEffect.apply memory (.eraseSector offset)
      = memset memory (offset &&& 0x70000#19).toNat 0xFF#8 0x10000 := by
  have hbase := toNat_sectorBase offset
  funext i
  have hiff : i / 0x10000 = offset.toNat / 0x10000 ↔
      (offset &&& 0x70000#19).toNat ≤ i ∧ i < (offset &&& 0x70000#19).toNat + 0x10000 := by
    omega
  rw [memset_apply, FlashEffect.apply]
  simp only [hiff]

/-- A chip fill is the memset of the source over the whole flash memory. -/
theorem FlashEffect.apply_eraseChip (memory : Nat → Byte) :
    FlashEffect.apply memory .eraseChip = memset memory 0 0xFF#8 0x80000 := by
  funext i
  simp [memset_apply, FlashEffect.apply]

/-- No effect reaches past the flash memory. -/
theorem FlashEffect.apply_of_le (memory : Nat → Byte) (effect : FlashEffect) {i : Nat}
    (hi : 0x80000 ≤ i) : effect.apply memory i = memory i := by
  cases effect with
  | store offset data =>
      have hlt := offset.isLt
      exact Function.update_of_ne (by omega) _ _
  | eraseSector offset =>
      have hlt := offset.isLt
      exact if_neg (by omega)
  | eraseChip => exact if_neg (by omega)

namespace FlashChip

variable {chip chip' : FlashChip} {history : List FlashAccess}

/-- A step that succeeds is a read or one of the effects of a write. -/
theorem step_eq_some {access : FlashAccess} (h : chip.step access = some chip') :
    (∃ offset, access = .read offset ∧ chip' = chip.withState .read) ∨
      ∃ offset command remap, access = .write offset command ∧
        WriteEffect chip offset command chip' remap := by
  cases access with
  | read offset =>
      left
      refine ⟨offset, rfl, ?_⟩
      simp only [step, decode, Except.toOption, Option.map_some, Option.some.injEq] at h
      rw [← h, decodeRead]
      split <;> rfl
  | write offset command =>
      right
      cases hdecode : chip.decodeWrite offset command with
      | error e => simp [step, decode, hdecode, Except.toOption] at h
      | ok result =>
          obtain ⟨after, remap⟩ := result
          obtain rfl : after = chip' := by
            simpa [step, decode, hdecode, Except.toOption] using h
          exact ⟨offset, command, remap, rfl, decodeWrite_effect hdecode⟩

/-- A history brought to a state other than `Program` and `CommandByte_5` completes nothing. -/
theorem completedCommand_of_ne {access : FlashAccess} {state : FlashState}
    (htracks : DecoderTracks state history) (hprogram : state ≠ .program)
    (herase : state ≠ .commandByte5) : completedCommand (access :: history) = none := by
  have hp : ¬ EndsWith history programPrefix := fun h => hprogram (htracks.program h)
  have he : ¬ EndsWith history erasePrefix := fun h => herase (htracks.erase h)
  cases access with
  | read offset => rfl
  | write offset command => simp [completedCommand, hp, he]

/-- **Step lemma.** A step keeps the simulation, and memory changes by the effect of the command
the access completes. -/
theorem step_tracks {access : FlashAccess} (htracks : DecoderTracks chip.flashState history)
    (h : chip.step access = some chip') :
    DecoderTracks chip'.flashState (access :: history) ∧
      chip'.flashMemory =
        (completedCommand (access :: history)).toList.foldl FlashEffect.apply chip.flashMemory := by
  rcases step_eq_some h with ⟨offset, rfl, rfl⟩ | ⟨offset, command, remap, rfl, heffect⟩
  · exact ⟨.read offset, rfl⟩
  cases heffect with
  | store hstate =>
      rw [hstate] at htracks
      have hp : EndsWith history programPrefix := htracks.seen
      refine ⟨htracks.store, ?_⟩
      simp [completedCommand, hp, FlashEffect.apply]
  | reset hstate hcommand =>
      refine ⟨.last (.inl hcommand), ?_⟩
      have hp : ¬ EndsWith history programPrefix := fun h => hstate (htracks.program h)
      simp [completedCommand, hp, isCommand, hcommand]
  | advance hadvance hcommand =>
      refine ⟨htracks.advance hadvance hcommand, ?_⟩
      rw [completedCommand_of_ne htracks]
      · -- the state that advances is neither before a byte to program nor before an erase command
        rfl
      · intro hs
        rw [hs] at hadvance
        cases hadvance
      · intro hs
        rw [hs] at hadvance
        cases hadvance
  | sectorErase hstate hcommand =>
      refine ⟨.last (.inr (.inl hcommand)), ?_⟩
      rw [hstate] at htracks
      have hp : ¬ EndsWith history programPrefix := fun h => by cases htracks.program h
      have he : EndsWith history erasePrefix := htracks.seen
      simp [completedCommand, hp, he, hcommand, FlashEffect.apply_eraseSector]
  | chipErase hstate hcommand =>
      refine ⟨.last (.inr (.inr hcommand.2)), ?_⟩
      obtain ⟨haddress, rfl⟩ := hcommand
      rw [hstate] at htracks
      have hp : ¬ EndsWith history programPrefix := fun h => by cases htracks.program h
      have he : EndsWith history erasePrefix := htracks.seen
      simp [completedCommand, hp, he, isCommand, haddress, FlashEffect.apply_eraseChip]

/-- **Run lemma.** Along a run from `Read` the decoder tracks the accesses handled so far, and
memory is the initial content with the effects of the completed commands applied in order. -/
theorem run_tracks {accesses : List FlashAccess} (hread : chip.flashState = .read)
    (hrun : run step chip accesses = some chip') :
    DecoderTracks chip'.flashState accesses.reverse ∧
      chip'.flashMemory = (commandEffects accesses).foldl FlashEffect.apply chip.flashMemory := by
  induction accesses using List.reverseRecOn generalizing chip' with
  | nil =>
      obtain rfl : chip = chip' := by simpa using hrun
      rw [hread]
      exact ⟨decoderTracks_nil, rfl⟩
  | append_singleton accesses access ih =>
      rw [run_concat, Option.bind_eq_some_iff] at hrun
      obtain ⟨before, hbefore, hstep⟩ := hrun
      obtain ⟨htracks, hmemory⟩ := ih hbefore
      obtain ⟨htracks', hmemory'⟩ := step_tracks htracks hstep
      refine ⟨by simpa using htracks', ?_⟩
      rw [commandEffects_concat, List.foldl_append, ← hmemory, hmemory']

/-- Effects applied in order never reach past the flash memory. -/
theorem foldl_apply_of_le (effects : List FlashEffect) (memory : Nat → Byte) {i : Nat}
    (hi : 0x80000 ≤ i) : effects.foldl FlashEffect.apply memory i = memory i := by
  induction effects generalizing memory with
  | nil => rfl
  | cons effect effects ih => rw [List.foldl_cons, ih, FlashEffect.apply_of_le memory effect hi]

/-- A trapped read, or a reset byte that is not program data, takes the decoder to `Read` and
leaves memory as it is. -/
theorem step_abort {access : FlashAccess} (htracks : DecoderTracks chip.flashState history)
    (habort : (∃ offset, access = .read offset) ∨
      (∃ offset, access = .write offset 0xF0#8) ∧ ¬ EndsWith history programPrefix) :
    chip.step access = some (chip.withState .read) := by
  rcases habort with ⟨offset, rfl⟩ | ⟨⟨offset, rfl⟩, hdata⟩
  · rw [step, decode, decodeRead]
    split <;> rfl
  · have hstate : chip.flashState ≠ .program := by
      intro hs
      rw [hs] at htracks
      exact hdata htracks.seen
    rw [step, decode, decodeWrite, if_neg hstate, if_pos rfl]
    rfl

/-- **Memory changes for complete commands only.** Over every trace of accesses the decoder handles
from `Read`, up to where the emulator exits, flash memory is the initial content with the effects
of the completed commands applied in order; nothing is stored past the `0x80000` mapped bytes; and
a trapped read, or `F0` other than as program data, takes the decoder back to `Read` with memory
unchanged. -/
theorem flashMemory_run (chip : FlashChip) (hread : chip.flashState = .read)
    (accesses : List FlashAccess) (chip' : FlashChip)
    (hrun : run step chip accesses = some chip') :
    chip'.flashMemory = (commandEffects accesses).foldl FlashEffect.apply chip.flashMemory ∧
      (∀ i, 0x80000 ≤ i → chip'.flashMemory i = chip.flashMemory i) ∧
      ∀ access, ((∃ offset, access = .read offset) ∨
          (∃ offset, access = .write offset 0xF0#8) ∧
            ¬ EndsWith accesses.reverse programPrefix) →
        chip'.step access = some (chip'.withState .read) := by
  obtain ⟨htracks, hmemory⟩ := run_tracks hread hrun
  refine ⟨hmemory, fun i hi => ?_, fun access habort => step_abort htracks habort⟩
  rw [hmemory, foldl_apply_of_le _ _ hi]

/-- The law at a program command with data `F0` that follows an aborted identification command. -/
theorem flashMemory_run_program :
    ∃ chip', run step ⟨fun _ => 0xFF#8, .read⟩
        [.write 0x555#19 0xAA#8, .write 0x2AA#19 0x55#8, .write 0x555#19 0x90#8, .read 0#19,
          .write 0x555#19 0xAA#8, .write 0x2AA#19 0x55#8, .write 0x555#19 0xA0#8,
          .write 0x10#19 0xF0#8] = some chip' ∧
      chip'.flashMemory = (commandEffects
        [.write 0x555#19 0xAA#8, .write 0x2AA#19 0x55#8, .write 0x555#19 0x90#8, .read 0#19,
          .write 0x555#19 0xAA#8, .write 0x2AA#19 0x55#8, .write 0x555#19 0xA0#8,
          .write 0x10#19 0xF0#8]).foldl FlashEffect.apply fun _ => 0xFF#8 :=
  ⟨_, rfl, (flashMemory_run ⟨fun _ => 0xFF#8, .read⟩ rfl _ _ rfl).1⟩

end FlashChip

end Ts3100
