import Ts3100.Kvm.MemorySlots

/-! # The disassembler

In a `DISASSEMBLE` build, `main` prints up to eight instructions after an exit of the virtual CPU.
It chooses a host buffer by the linear instruction pointer, and hands the rest of that buffer to the
decoder, as an offset and a length.

* `codeWindow` — the buffer, the offset and the length for an instruction pointer.
* `nextInstructions` — what one exit makes the disassembler do, call by call.
* `disassembly` — the same over a sequence of exits.
* `readsInside_iff` — where the bytes handed to the decoder are in the buffer.

The decoder is a library: `decode` stands for `ZydisDecoderDecodeBuffer`, which returns the length of
the instruction where it succeeds. The text of an instruction is left out. -/

namespace Ts3100

namespace Disassembler

/-- `ZyanUSize`. -/
abbrev ZyanUSize := BitVec 64

/-! ## Windows of the host's buffers -/

/-- `HIGH_MEMORY_SIZE`. -/
def highMemorySize : Nat := 0

/-- The buffers that code is read from: the flash memory, and two halves of 64 KiB in it. -/
inductive CodeBuffer where
  | ram
  | optionRom
  | flashDos
  | flashBios
  | flashMemory
  deriving DecidableEq, Repr

/-- The number of bytes of a buffer. -/
def CodeBuffer.size : CodeBuffer → Nat
  | .ram => lowMemorySize + highMemorySize
  | .optionRom => 0x2000
  | .flashDos => 0x10000
  | .flashBios => 0x10000
  | .flashMemory => 0x80000

/-- The variables of the loop: the instruction pointer, and what is left of a buffer; `none` is `NULL`. -/
structure CodeWindow where
  ip : ZyanUSize
  codeBuffer : Option CodeBuffer
  offset : ZyanUSize
  length : ZyanUSize
  deriving DecidableEq, Repr

/-- The memory region that the instruction pointer is in. -/
def codeWindow (ip : ZyanUSize) : CodeWindow :=
  if ip < 0xA0000 then
    ⟨ip, some .ram, ip, 0xA0000 - ip⟩
  else if 0xC8000 ≤ ip ∧ ip < 0xCA000 then
    ⟨ip, some .optionRom, ip &&& 0x1FFF, 0x2000 - ip⟩
  else if 0xE0000 ≤ ip ∧ ip < 0xF0000 then
    ⟨ip, some .flashDos, ip &&& 0xFFFF, 0x10000 - ip⟩
  else if 0xF0000 ≤ ip ∧ ip < 0x100000 then
    ⟨ip, some .flashBios, ip &&& 0xFFFF, 0x10000 - ip⟩
  else if 0x3400000 ≤ ip ∧ ip ≤ 0x34FFFFF then
    ⟨ip, some .flashMemory, ip &&& 0x7FFFF, 0x80000 - (ip &&& 0x7FFFF)⟩
  else
    ⟨ip, none, 0, 0⟩

/-- The window behind an instruction. -/
def CodeWindow.advance (w : CodeWindow) (length : BitVec 8) : CodeWindow :=
  { w with
    ip := w.ip + length.setWidth 64
    offset := w.offset + length.setWidth 64
    length := w.length - length.setWidth 64 }

/-! ## What an exit prints -/

/-- What the disassembler sees of an exit: registers, and whether it is `KVM_EXIT_DEBUG`. -/
structure Exit where
  csBase : BitVec 64
  rip : BitVec 64
  cr0 : BitVec 64
  csDb : BitVec 8
  debug : Bool
  deriving DecidableEq, Repr

/-- `ip`. -/
def Exit.ip (e : Exit) : ZyanUSize := e.csBase + e.rip

/-- The decoders. -/
inductive Decoder where
  | decoderReal
  | decoderP16
  | decoderP32
  deriving DecidableEq, Repr

/-- The decoder of a processor mode. -/
def Exit.decoder (e : Exit) : Decoder :=
  if e.cr0 &&& 1 ≠ 0 then
    if e.csDb ≠ 0 then .decoderP32 else .decoderP16
  else .decoderReal

/-- The digits of an offset, as printed. -/
def Decoder.digits : Decoder → Nat
  | .decoderP32 => 8
  | _ => 4

/-- What the disassembler does: print a line, hand a window to a decoder, or print the address of an
instruction. -/
inductive Event where
  | line (text : String)
  | decode (decoder : Decoder) (codeBuffer : Option CodeBuffer) (offset length : ZyanUSize)
  | address (base offset : ZyanUSize) (digits : Nat)
  deriving DecidableEq, Repr

/-- The results of a decoder. What a call finds in memory may differ from one call to the next, so the
first argument counts them down. -/
abbrev Decode := Nat → Decoder → Option CodeBuffer → ZyanUSize → ZyanUSize → Option (BitVec 8)

/-- The loop, with `count` rounds left. -/
def decodeNext (decode : Decode) (e : Exit) : Nat → CodeWindow → List Event
  | 0, _ => []
  | count + 1, w =>
      .decode e.decoder w.codeBuffer w.offset w.length ::
        match decode count e.decoder w.codeBuffer w.offset w.length with
        | none => []
        | some length =>
            .address e.csBase (w.ip - e.csBase) e.decoder.digits ::
              decodeNext decode e count (w.advance length)

/-- The disassembly at an exit. -/
def nextInstructions (decode : Decode) (e : Exit) : List Event :=
  .line "--- next instructions ---" ::
    (decodeNext decode e 8 (codeWindow e.ip) ++ [.line "--- ----------------- ---"])

/-- The disassembly is printed at this exit; `previousWasDebug` is the flag of the exit before. -/
def Exit.Disassembled (e : Exit) (previousWasDebug : Bool) : Prop :=
  previousWasDebug = false ∨ e.debug = true

instance (e : Exit) (previousWasDebug : Bool) : Decidable (e.Disassembled previousWasDebug) :=
  inferInstanceAs (Decidable (_ ∨ _))

/-- `previousWasDebug` after an exit. It is cleared only where nothing is printed, and set by every
`KVM_EXIT_DEBUG`. -/
def Exit.wasDebug (e : Exit) (previousWasDebug : Bool) : Bool :=
  if e.debug then true
  else if e.Disassembled previousWasDebug then previousWasDebug
  else false

/-- The disassembly over a sequence of exits. -/
def disassembly (decode : Decode) : Bool → List Exit → List Event
  | _, [] => []
  | previousWasDebug, e :: exits =>
      (if e.Disassembled previousWasDebug then nextInstructions decode e else []) ++
        disassembly decode (e.wasDebug previousWasDebug) exits

/-! ## Windows inside their buffers -/

/-- The `length` bytes at an offset are in a buffer; none are at `NULL`. -/
def Inside : Option CodeBuffer → ZyanUSize → ZyanUSize → Prop
  | some codeBuffer, offset, length => offset.toNat + length.toNat ≤ codeBuffer.size
  | none, _, _ => False

/-- What is handed to a decoder is in the buffer chosen. -/
def Event.Inside : Event → Prop
  | .decode _ codeBuffer offset length => Disassembler.Inside codeBuffer offset length
  | _ => True

/-- Whatever the disassembler hands to a decoder at an exit is in the buffer chosen. -/
def ReadsInside (decode : Decode) (e : Exit) : Prop :=
  ∀ event ∈ nextInstructions decode e, event.Inside

/-- An instruction pointer in the window of the flash memory. -/
def InFlash (ip : ZyanUSize) : Prop := 0x3400000 ≤ ip ∧ ip ≤ 0x34FFFFF

instance (ip : ZyanUSize) : Decidable (InFlash ip) := inferInstanceAs (Decidable (_ ∧ _))

/-- A decoder does not find an instruction that is longer than its window. -/
def Decode.Bounded (decode : Decode) : Prop :=
  ∀ count decoder codeBuffer offset length n,
    decode count decoder codeBuffer offset length = some n → n.toNat ≤ length.toNat

variable {decode : Decode} {w : CodeWindow} {ip : ZyanUSize}

/-- Behind an instruction that is in the window, the window ends where it did. -/
theorem inside_advance {n : BitVec 8} (h : Inside w.codeBuffer w.offset w.length)
    (hn : n.toNat ≤ w.length.toNat) :
    Inside (w.advance n).codeBuffer (w.advance n).offset (w.advance n).length := by
  obtain ⟨ip, codeBuffer, offset, length⟩ := w
  cases codeBuffer with
  | none => exact h
  | some codeBuffer =>
      change offset.toNat + length.toNat ≤ codeBuffer.size at h
      change (offset + n.setWidth 64).toNat + (length - n.setWidth 64).toNat ≤ codeBuffer.size
      have hsize : codeBuffer.size < 2 ^ 64 := by cases codeBuffer <;> decide
      have hwidth : (n.setWidth 64).toNat = n.toNat := by
        rw [BitVec.toNat_setWidth]
        omega
      simp only at hn
      rw [BitVec.toNat_add, BitVec.toNat_sub, hwidth]
      omega

/-- A loop that begins inside a buffer stays there. -/
theorem forall_inside_decodeNext (hdecode : decode.Bounded) (e : Exit) (count : Nat)
    (h : Inside w.codeBuffer w.offset w.length) :
    ∀ event ∈ decodeNext decode e count w, event.Inside := by
  induction count generalizing w with
  | zero => simp [decodeNext]
  | succ count ih =>
      rw [decodeNext, List.forall_mem_cons]
      refine ⟨h, ?_⟩
      cases hresult : decode count e.decoder w.codeBuffer w.offset w.length with
      | none => simp
      | some n =>
          rw [List.forall_mem_cons]
          exact ⟨trivial, ih (inside_advance h (hdecode _ _ _ _ _ _ hresult))⟩

/-- **The loop stays inside a buffer exactly if it begins there**: the first window is always handed to
the decoder. -/
theorem forall_inside_decodeNext_iff (hdecode : decode.Bounded) (e : Exit) (count : Nat)
    (w : CodeWindow) :
    (∀ event ∈ decodeNext decode e (count + 1) w, event.Inside) ↔
      Inside w.codeBuffer w.offset w.length := by
  constructor
  · intro h
    exact h (.decode e.decoder w.codeBuffer w.offset w.length) (List.mem_cons_self ..)
  · exact forall_inside_decodeNext hdecode e (count + 1)

/-- A length that is less than nothing is greater than every buffer. -/
theorem not_inside_sub {n : ZyanUSize} (hlow : n.toNat < ip.toNat) (hhigh : ip.toNat < 2 ^ 32)
    (codeBuffer : CodeBuffer) (offset : ZyanUSize) :
    ¬ Inside (some codeBuffer) offset (n - ip) := by
  have hsize : codeBuffer.size ≤ 0x80000 := by cases codeBuffer <;> decide
  intro h
  change offset.toNat + (n - ip).toNat ≤ codeBuffer.size at h
  rw [BitVec.toNat_sub] at h
  omega

/-- **Only the window of the flash memory is inside its buffer**: `ram` is shorter than its region, the
lengths for the ROMs are less than nothing, and elsewhere there is no buffer. -/
theorem inside_codeWindow_iff (ip : ZyanUSize) :
    Inside (codeWindow ip).codeBuffer (codeWindow ip).offset (codeWindow ip).length ↔ InFlash ip := by
  have hle (n m : ZyanUSize) : n ≤ m ↔ n.toNat ≤ m.toNat := BitVec.le_def
  have hlt (n m : ZyanUSize) : n < m ↔ n.toNat < m.toNat := BitVec.lt_def
  unfold codeWindow InFlash
  simp only [hle, hlt, BitVec.ofNat_eq_ofNat, BitVec.toNat_ofNat, Nat.reducePow, Nat.reduceMod]
  split_ifs with hram hoption hdos hbios hflash
  · -- `ram` has `0x70000` bytes, whatever the instruction pointer is
    refine iff_of_false (fun h => ?_) (by omega)
    change ip.toNat + (0xA0000#64 - ip).toNat ≤ 0x70000 at h
    rw [BitVec.toNat_sub, BitVec.toNat_ofNat] at h
    omega
  · -- `0x2000 - ip`, where `ip` still has the bits of the segment; so also for the halves of the flash
    exact iff_of_false (not_inside_sub (by simp only [BitVec.toNat_ofNat]; omega) (by omega) _ _)
      (by omega)
  · exact iff_of_false (not_inside_sub (by simp only [BitVec.toNat_ofNat]; omega) (by omega) _ _)
      (by omega)
  · exact iff_of_false (not_inside_sub (by simp only [BitVec.toNat_ofNat]; omega) (by omega) _ _)
      (by omega)
  · -- `flashMemory`: the length is what the offset leaves
    refine iff_of_true ?_ hflash
    change (ip &&& 0x7FFFF#64).toNat + (0x80000#64 - (ip &&& 0x7FFFF#64)).toNat ≤ 0x80000
    have hmask : (ip &&& 0x7FFFF#64).toNat = ip.toNat % 0x80000 := by
      rw [BitVec.toNat_and, show (0x7FFFF#64).toNat = 2 ^ 19 - 1 from rfl,
        Nat.and_two_pow_sub_one_eq_mod]
    rw [BitVec.toNat_sub, BitVec.toNat_ofNat, hmask]
    omega
  · -- no buffer, and the decoder is called all the same
    exact iff_of_false id hflash

/-! ## The disassembly -/

/-- The lines around the loop read nothing. -/
theorem readsInside_iff_decodeNext (decode : Decode) (e : Exit) :
    ReadsInside decode e ↔ ∀ event ∈ decodeNext decode e 8 (codeWindow e.ip), event.Inside := by
  rw [ReadsInside, nextInstructions, List.forall_mem_cons, List.forall_mem_append,
    List.forall_mem_singleton]
  exact ⟨fun h => h.2.1, fun h => ⟨trivial, h, trivial⟩⟩

/-- At one exit, the disassembler reads inside its buffers exactly where the instruction pointer is in the
window of the flash memory. -/
theorem readsInside_iff_inFlash (hdecode : decode.Bounded) (e : Exit) :
    ReadsInside decode e ↔ InFlash e.ip := by
  rw [readsInside_iff_decodeNext, forall_inside_decodeNext_iff hdecode, inside_codeWindow_iff]

/-- The exits at which the disassembly is printed. -/
def disassembled : Bool → List Exit → List Exit
  | _, [] => []
  | previousWasDebug, e :: exits =>
      (if e.Disassembled previousWasDebug then [e] else []) ++
        disassembled (e.wasDebug previousWasDebug) exits

/-- Over a sequence of exits, it does exactly if the instruction pointer is in that window whenever the
disassembly is printed. -/
theorem forall_inside_disassembly_iff (hdecode : decode.Bounded) (previousWasDebug : Bool)
    (exits : List Exit) :
    (∀ event ∈ disassembly decode previousWasDebug exits, event.Inside) ↔
      ∀ e ∈ disassembled previousWasDebug exits, InFlash e.ip := by
  induction exits generalizing previousWasDebug with
  | nil => simp [disassembly, disassembled]
  | cons e exits ih =>
      rw [disassembly, disassembled, List.forall_mem_append, List.forall_mem_append, ih]
      refine and_congr_left fun _ => ?_
      by_cases hprint : e.Disassembled previousWasDebug
      · rw [if_pos hprint, if_pos hprint, List.forall_mem_singleton, ← ReadsInside,
          readsInside_iff_inFlash hdecode]
      · rw [if_neg hprint, if_neg hprint]
        simp

/-- **The disassembler reads inside its buffers exactly where the instruction pointer is in the window of
the flash memory**: at every exit, and over every sequence of exits at those at which it prints. -/
theorem readsInside_iff (hdecode : decode.Bounded) :
    (∀ e, ReadsInside decode e ↔ InFlash e.ip) ∧
      ∀ previousWasDebug exits,
        (∀ event ∈ disassembly decode previousWasDebug exits, event.Inside) ↔
          ∀ e ∈ disassembled previousWasDebug exits, InFlash e.ip :=
  ⟨readsInside_iff_inFlash hdecode, forall_inside_disassembly_iff hdecode⟩

/-- The reset vector. -/
def resetExit : Exit := { csBase := 0x03470000, rip := 0xFFF0, cr0 := 0, csDb := 0, debug := true }

/-- A decoder of memory that is full of `nop`. -/
def decodeNops : Decode := fun _ _ _ _ length => if length = 0 then none else some 1#8

/-- It finds instructions of a byte, and none in an empty window. -/
theorem decodeNops_bounded : decodeNops.Bounded := by
  intro count decoder codeBuffer offset length n hresult
  rw [decodeNops] at hresult
  split at hresult
  · cases hresult
  · rename_i hlength
    rw [← Option.some.inj hresult]
    have hpos : length.toNat ≠ 0 := fun h => hlength (BitVec.eq_of_toNat_eq h)
    exact Nat.one_le_iff_ne_zero.mpr hpos

/-- At the reset vector, all that is read is inside the flash memory; and so it is over the exits of two
instructions from there on, and of a port access in RAM, at which nothing is printed. -/
theorem readsInside_iff_reset :
    ReadsInside decodeNops resetExit ∧
      ∀ event ∈ disassembly decodeNops true
          [resetExit, { resetExit with rip := 0xFFF1 },
            { resetExit with csBase := 0, rip := 0x7C00, debug := false }], event.Inside :=
  ⟨((readsInside_iff decodeNops_bounded).1 resetExit).mpr (by decide),
    ((readsInside_iff decodeNops_bounded).2 true _).mpr (by decide)⟩

/-- At `0x7C00`, where a boot sector is, the window ends behind `ram`. -/
theorem not_readsInside :
    ¬ ∀ (decode : Decode) (e : Exit), decode.Bounded → ReadsInside decode e := by
  intro h
  have hinside := h decodeNops { resetExit with csBase := 0, rip := 0x7C00 } decodeNops_bounded
  rw [readsInside_iff_decodeNext, forall_inside_decodeNext_iff decodeNops_bounded,
    inside_codeWindow_iff] at hinside
  exact absurd hinside (by decide)

end Disassembler

end Ts3100
