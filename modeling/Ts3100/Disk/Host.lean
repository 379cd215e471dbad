import Ts3100.Flash.Decoder
import Ts3100.Library.RealMode.StringMove

/-! # The virtual disk's host side

The option ROM reaches the disk image through a 32-bit LBA register at ports `D000..D003`, an update
register at `D004..D007`, and a 4 KiB window at `C9000` onto the image. This file models

* `handlerDiskRegisters` — the port handler, a `memcpy` into or out of the bytes of
  `selectedDiskLBA`;
* `Host.updateMapping` — the remapping the main loop does after each port exit;
* `Host` as the bus of the guest's processor, with `read_outsideWindow`-style lemmas that say which
  of guest memory and disk image a write reaches.

Guest memory outside the window is a byte an address. The emulator has such memory at `0..6FFFF` and in
the option ROM's page only: there, and in the window, the emulator is shown to be this bus
(`trace_emulator_eq_bus`), and the results about requests ask for buffers and stack frames there. -/

namespace Ts3100

open RealMode

/-! ## The disk registers -/

/-- The globals `selectedDiskLBA` and `updateDiskMapping`. -/
structure DiskRegisters where
  selectedDiskLBA : BitVec 32 := 0#32
  updateDiskMapping : Bool := false
  deriving DecidableEq, Repr

/-- Byte `i` of `selectedDiskLBA` in host memory (little-endian). -/
def DiskRegisters.lbaByte (r : DiskRegisters) (i : Nat) : Byte :=
  r.selectedDiskLBA.extractLsb' (8 * i) 8

/-- The 32-bit value whose bytes in host memory are `f 0, …, f 3`. -/
def lbaOfBytes (f : Nat → Byte) : BitVec 32 := f 3 ++ f 2 ++ f 1 ++ f 0

/-- Why `handlerDiskRegisters` has no result. -/
inductive DiskRegisterFault where
  | assertionFailed
  | copyOutOfBounds
  deriving DecidableEq, Repr

/-- `handlerDiskRegisters`: the registers after the access and the data left in the exit's buffer.
`data` holds the `length` bytes of the buffer; a copy that leaves the four bytes of
`selectedDiskLBA` has no result. -/
def handlerDiskRegisters (isWrite : Bool) (addr : Word) (data : List Byte) (count : Nat)
    (r : DiskRegisters) : Except DiskRegisterFault (DiskRegisters × List Byte) :=
  if count ≠ 1 then .error .assertionFailed
  else
    let offset := (addr &&& 0x03#16).toNat
    if isWrite then
      if (addr &&& 0x07#16).toNat < 4 then
        -- write is to the (4K) LBA register
        if offset + data.length ≤ 4 then
          .ok ({ r with selectedDiskLBA := lbaOfBytes fun i =>
            if offset ≤ i then data.getD (i - offset) (r.lbaByte i) else r.lbaByte i }, data)
        else .error .copyOutOfBounds
      else
        -- write is to the update mapping register
        .ok ({ r with updateDiskMapping := true }, data)
    else if offset + data.length ≤ 4 then
      .ok (r, (List.range data.length).map fun i => r.lbaByte (offset + i))
    else .error .copyOutOfBounds

/-- The low word of the LBA register. -/
def DiskRegisters.lbaLow (r : DiskRegisters) : Word := r.selectedDiskLBA.extractLsb' 0 16

/-- The high word of the LBA register. -/
def DiskRegisters.lbaHigh (r : DiskRegisters) : Word := r.selectedDiskLBA.extractLsb' 16 16

/-- The LBA register with high word `high` and low word `low`. -/
def lbaOfWords (high low : Word) : BitVec 32 := high ++ low

/-! ## The host -/

/-- What the guest's processor is connected to: guest memory, the disk image, the disk registers,
and the offset in the image of the page `diskData` mapped at `C9000`. -/
structure Host where
  memory : Nat → Byte
  image : Nat → Byte
  registers : DiskRegisters
  diskData : Nat

/-- `regionOptionRom_Disk`'s guest-physical range. -/
def InDiskWindow (a : Nat) : Prop := 0xC9000 ≤ a ∧ a < 0xCA000

instance (a : Nat) : Decidable (InDiskWindow a) := inferInstanceAs (Decidable (_ ∧ _))

namespace Host

/-- The check after each port exit: a requested update unmaps the window and maps the page of the
image at `selectedDiskLBA * 512`. `mmap` refuses an offset that is not a multiple of the page
size. -/
def updateMapping (h : Host) : Option Host :=
  if h.registers.updateDiskMapping then
    if h.registers.selectedDiskLBA.toNat * 512 % 4096 = 0 then
      some { h with
        registers.updateDiskMapping := false
        diskData := h.registers.selectedDiskLBA.toNat * 512 }
    else none
  else some h

/-- A `KVM_EXIT_IO` exit for the port range of `handlerDiskRegisters`: the data read and the next
host. Other ports are other devices. -/
def performIo (h : Host) (isWrite : Bool) (port : Word) (data : List Byte) :
    Option (List Byte × Host) :=
  if 0xD000 ≤ port.toNat ∧ port.toNat < 0xD008 then
    match handlerDiskRegisters isWrite port data 1 h.registers with
    | .ok (registers, data') => ({ h with registers := registers }.updateMapping).map (data', ·)
    | .error _ => none
  else none

/-- The offset in the image of a guest-physical address of the window, for the page mapped there. -/
@[irreducible] def imageOffset (diskData a : Nat) : Nat := diskData + (a - 0xC9000)

instance : Bus Host where
  read h a := if InDiskWindow a then h.image (imageOffset h.diskData a) else h.memory a
  write h a v :=
    if InDiskWindow a then
      { h with image := Function.update h.image (imageOffset h.diskData a) v }
    else { h with memory := Function.update h.memory a v }
  inWord h port :=
    match h.performIo false port [0#8, 0#8] with
    | some ([l, u], h') => some (word u l, h')
    | _ => none
  outWord h port w := (h.performIo true port [lo w, hi w]).map Prod.snd

variable (h : Host)

/-- A byte is read from the mapped page in the window, from memory elsewhere. -/
theorem read_eq (a : Nat) : Bus.read h a =
    if InDiskWindow a then h.image (imageOffset h.diskData a) else h.memory a := rfl

/-- A byte is written likewise. -/
theorem write_eq (a : Nat) (v : Byte) : Bus.write h a v =
    if InDiskWindow a then
      { h with image := Function.update h.image (imageOffset h.diskData a) v }
    else { h with memory := Function.update h.memory a v } := rfl

/-- Distinct addresses of the window show distinct bytes of the image. -/
theorem imageOffset_inj {diskData a a' : Nat} (ha : InDiskWindow a) (ha' : InDiskWindow a') :
    imageOffset diskData a' = imageOffset diskData a ↔ a' = a := by
  unfold InDiskWindow at ha ha'
  unfold imageOffset
  omega

instance : LawfulBus Host where
  read_write h a v a' := by
    by_cases ha : InDiskWindow a <;> by_cases ha' : InDiskWindow a'
    · simp only [write_eq, read_eq, if_pos ha, if_pos ha', Function.update_apply,
        imageOffset_inj ha ha']
    · have hne : a' ≠ a := fun h => ha' (h ▸ ha)
      simp only [write_eq, read_eq, if_pos ha, if_neg ha', if_neg hne]
    · have hne : a' ≠ a := fun h => ha (h ▸ ha')
      simp only [write_eq, read_eq, if_neg ha, if_pos ha', if_neg hne]
    · simp only [write_eq, read_eq, if_neg ha, if_neg ha', Function.update_apply]

/-! ## Blocks of writes -/

/-- A block written outside the window goes to guest memory. -/
theorem writeBytes_outside {a n : Nat} (f : Nat → Byte)
    (hout : ∀ i < n, ¬ InDiskWindow (a + i)) :
    writeBytes h a n f = { h with memory := fill h.memory a n f } := by
  induction n with
  | zero => rw [writeBytes_zero, fill_zero]
  | succ n ih =>
      rw [writeBytes_succ, ih fun i hi => hout i (by omega), write_eq, if_neg (hout n (by omega)),
        update_fill]

/-- A block written inside the window goes to the mapped page of the image. -/
theorem writeBytes_inside {a n : Nat} (f : Nat → Byte) (hlow : 0xC9000 ≤ a)
    (hhigh : a + n ≤ 0xCA000) :
    writeBytes h a n f = { h with image := fill h.image (imageOffset h.diskData a) n f } := by
  induction n with
  | zero => rw [writeBytes_zero, fill_zero]
  | succ n ih =>
      have hn : imageOffset h.diskData (a + n) = imageOffset h.diskData a + n := by
        unfold imageOffset
        omega
      have hin : InDiskWindow (a + n) := ⟨by omega, by omega⟩
      simp only [writeBytes_succ, ih (by omega), write_eq, if_pos hin, hn, update_fill]

/-- No write moves the window or reaches the image outside the mapped page. -/
theorem write_keeps (a : Nat) (v : Byte) :
    (Bus.write h a v).registers = h.registers ∧ (Bus.write h a v).diskData = h.diskData ∧
      ∀ x, ¬ (h.diskData ≤ x ∧ x < h.diskData + 4096) → (Bus.write h a v).image x = h.image x := by
  rw [write_eq]
  by_cases ha : InDiskWindow a
  · have hpage : h.diskData ≤ imageOffset h.diskData a ∧
        imageOffset h.diskData a < h.diskData + 4096 := by
      unfold InDiskWindow at ha
      unfold imageOffset
      omega
    rw [if_pos ha]
    refine ⟨rfl, rfl, fun x hx => Function.update_of_ne ?_ _ _⟩
    rintro rfl
    exact hx hpage
  · rw [if_neg ha]
    exact ⟨rfl, rfl, fun _ _ => rfl⟩

/-- The word at `s:o` lies outside the window. -/
def WordOutside (s o : Word) : Prop :=
  ¬ InDiskWindow (linear s o) ∧ ¬ InDiskWindow (linear s (o + 1#16))

/-- A word outside the window does not depend on the disk registers or the mapped page. -/
theorem readWord_remapped {s o : Word} (hout : WordOutside s o) (r : DiskRegisters) (d : Nat) :
    readWord { h with registers := r, diskData := d } s o = readWord h s o := by
  simp only [readWord, read_eq, if_neg hout.1, if_neg hout.2]

/-! ## Port accesses -/

/-- `selectedDiskLBA` has high word `high` and low word `low`, the window shows the page of the
image it selects, and no update is pending. -/
structure Selects (high low : Word) : Prop where
  registers : h.registers = ⟨lbaOfWords high low, false⟩
  diskData : h.diskData = (high.toNat * 65536 + low.toNat) * 512

end Host

/-! ## Words of the LBA register -/

/-- The LBA of two words as a number. -/
theorem lbaOfWords_toNat (high low : Word) :
    (lbaOfWords high low).toNat = high.toNat * 65536 + low.toNat := by
  have hlow : low.toNat < 2 ^ 16 := low.isLt
  rw [lbaOfWords, BitVec.toNat_append, ← Nat.shiftLeft_add_eq_or_of_lt hlow, Nat.shiftLeft_eq]

/-- The LBA of four bytes as a number. -/
theorem lbaOfBytes_toNat (f : Nat → Byte) : (lbaOfBytes f).toNat =
    (f 3).toNat * 16777216 + (f 2).toNat * 65536 + (f 1).toNat * 256 + (f 0).toNat := by
  have h₀ := (f 0).isLt
  have h₁ := (f 1).isLt
  have h₂ := (f 2).isLt
  rw [lbaOfBytes, BitVec.toNat_append, BitVec.toNat_append, BitVec.toNat_append,
    ← Nat.shiftLeft_add_eq_or_of_lt h₀, ← Nat.shiftLeft_add_eq_or_of_lt h₁,
    ← Nat.shiftLeft_add_eq_or_of_lt h₂]
  simp only [Nat.shiftLeft_eq]
  omega

/-- A byte of the LBA as a number. -/
theorem lbaByte_toNat (r : DiskRegisters) (i : Nat) :
    (r.lbaByte i).toNat = r.selectedDiskLBA.toNat / 2 ^ (8 * i) % 256 := by
  simp [DiskRegisters.lbaByte, Nat.shiftRight_eq_div_pow]

/-- The bytes of an LBA register given by its words. -/
theorem lbaByte_lbaOfWords (high low : Word) (b : Bool) :
    DiskRegisters.lbaByte ⟨lbaOfWords high low, b⟩ 0 = lo low ∧
      DiskRegisters.lbaByte ⟨lbaOfWords high low, b⟩ 1 = hi low ∧
      DiskRegisters.lbaByte ⟨lbaOfWords high low, b⟩ 2 = lo high ∧
      DiskRegisters.lbaByte ⟨lbaOfWords high low, b⟩ 3 = hi high := by
  have hlow := low.isLt
  have hhigh := high.isLt
  refine ⟨?_, ?_, ?_, ?_⟩ <;>
    (apply BitVec.eq_of_toNat_eq
     simp only [lbaByte_toNat, lbaOfWords_toNat, toNat_lo, toNat_hi]
     omega)

/-- The LBA register whose bytes are those of two words. -/
theorem lbaOfBytes_words {f : Nat → Byte} {high low : Word} (h₀ : f 0 = lo low)
    (h₁ : f 1 = hi low) (h₂ : f 2 = lo high) (h₃ : f 3 = hi high) :
    lbaOfBytes f = lbaOfWords high low := by
  apply BitVec.eq_of_toNat_eq
  rw [lbaOfBytes_toNat, lbaOfWords_toNat, h₀, h₁, h₂, h₃, toNat_lo, toNat_hi, toNat_lo, toNat_hi]
  omega

/-- The LBA register is made of its words. -/
theorem lbaOfWords_lbaHigh_lbaLow (r : DiskRegisters) :
    lbaOfWords r.lbaHigh r.lbaLow = r.selectedDiskLBA := by
  have hlt := r.selectedDiskLBA.isLt
  apply BitVec.eq_of_toNat_eq
  rw [lbaOfWords_toNat]
  simp [DiskRegisters.lbaHigh, DiskRegisters.lbaLow, Nat.shiftRight_eq_div_pow]
  omega

/-- A register with no update pending, by its words. -/
theorem registers_eq_of_settled {h : Host} (hs : h.registers.updateDiskMapping = false) :
    h.registers = ⟨lbaOfWords h.registers.lbaHigh h.registers.lbaLow, false⟩ := by
  rw [lbaOfWords_lbaHigh_lbaLow, ← hs]

/-! ## Port accesses -/

namespace Host

variable {h : Host} {high low : Word}

/-- A read of `D000` returns the low word of the LBA. -/
theorem inWord_lbaLow (hr : h.registers = ⟨lbaOfWords high low, false⟩) :
    Bus.inWord h 0xD000#16 = some (low, h) := by
  obtain ⟨h₀, h₁, -, -⟩ := lbaByte_lbaOfWords high low false
  cases h
  subst hr
  simp [Bus.inWord, performIo, handlerDiskRegisters, updateMapping, h₀, h₁, List.range_succ]

/-- A read of `D002` returns the high word of the LBA. -/
theorem inWord_lbaHigh (hr : h.registers = ⟨lbaOfWords high low, false⟩) :
    Bus.inWord h 0xD002#16 = some (high, h) := by
  obtain ⟨-, -, h₂, h₃⟩ := lbaByte_lbaOfWords high low false
  cases h
  subst hr
  simp [Bus.inWord, performIo, handlerDiskRegisters, updateMapping, h₂, h₃, List.range_succ]

/-- A write of `D000` sets the low word of the LBA. -/
theorem outWord_lbaLow (hr : h.registers = ⟨lbaOfWords high low, false⟩) (w : Word) :
    Bus.outWord h 0xD000#16 w = some { h with registers := ⟨lbaOfWords high w, false⟩ } := by
  obtain ⟨-, -, h₂, h₃⟩ := lbaByte_lbaOfWords high low false
  have hlba : lbaOfBytes (fun i => [lo w, hi w].getD i
      (DiskRegisters.lbaByte ⟨lbaOfWords high low, false⟩ i)) = lbaOfWords high w :=
    lbaOfBytes_words rfl rfl h₂ h₃
  cases h
  subst hr
  simp [Bus.outWord, performIo, handlerDiskRegisters, updateMapping, ← hlba]

/-- A write of `D002` sets the high word of the LBA. -/
theorem outWord_lbaHigh (hr : h.registers = ⟨lbaOfWords high low, false⟩) (w : Word) :
    Bus.outWord h 0xD002#16 w = some { h with registers := ⟨lbaOfWords w low, false⟩ } := by
  obtain ⟨h₀, h₁, -, -⟩ := lbaByte_lbaOfWords high low false
  have hlba : lbaOfBytes (fun i => if 2 ≤ i then [lo w, hi w].getD (i - 2)
      (DiskRegisters.lbaByte ⟨lbaOfWords high low, false⟩ i)
      else DiskRegisters.lbaByte ⟨lbaOfWords high low, false⟩ i) = lbaOfWords w low :=
    lbaOfBytes_words h₀ h₁ rfl rfl
  cases h
  subst hr
  simp [Bus.outWord, performIo, handlerDiskRegisters, updateMapping, ← hlba]

/-- A write of `D004` maps the selected page, if `mmap` accepts its offset. -/
theorem outWord_update (hr : h.registers = ⟨lbaOfWords high low, false⟩)
    (hlow : low.toNat % 8 = 0) (w : Word) :
    Bus.outWord h 0xD004#16 w =
      some { h with diskData := (high.toNat * 65536 + low.toNat) * 512 } := by
  have hpage : (high.toNat * 65536 + low.toNat) * 512 % 4096 = 0 := by omega
  cases h
  subst hr
  simp [Bus.outWord, performIo, handlerDiskRegisters, updateMapping, lbaOfWords_toNat, hpage]

end Host

end Ts3100
