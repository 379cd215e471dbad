import Ts3100.Disk.Coherence
import Ts3100.StringFormat.Code
import Ts3100.Library.RealMode.Services

/-! # The option ROM's initialization

The system BIOS calls `rom_init` at boot. It saves the vectors of INT 13h and INT 19h and installs its
own, takes the next drive number, selects sector 0 of the disk, prints `rom_message` through the video
BIOS and returns. `int19h_handler` passes a bootstrap request on to the saved vector. This file is the
code, what it asks of the video BIOS, and what `rom_init` does to memory and to the disk:

* `bootRoutines` — the two routines; the first part of `rom_init` is `romInitCode`.
* `VideoBios` — what is asked of the video BIOS.
* `execAll_romInitCode` — the machine when the video BIOS is called; its memory is `romInitBus`.
* `InitFrame` — the registers and the return address on the stack. -/

namespace Ts3100

open RealMode

/-! ## Code -/

/-- The labels of `rom_init` and of `int19h_handler`. -/
inductive BootLabel where
  | romInit
  | printMessage
  | restoreRegisters
  | int19hHandler
  deriving DecidableEq, Repr

/-- The offset of `rom_message` in the ROM. -/
def romMessage : Word := 0x4CE#16

/-- The text of `rom_message`. -/
def romMessageText : List Byte :=
  [13#8, 10#8] ++ "-= Virtual Disk Driver =-".toList.map StringFormat.ascii ++ [13#8, 10#8] ++
    "v0.0.1 (2020-05-06)".toList.map StringFormat.ascii ++ [13#8, 10#8] ++
    "Released under GNU GPL v2".toList.map StringFormat.ascii ++ [13#8, 10#8]

/-- `rom_init` where it restores the registers it has saved. -/
def romInitRestore : List (Instr Label) :=
  [ .pop (.seg .es),
    .pop (.seg .ds),
    .pop (.reg .bp),
    .pop (.reg .si),
    .pop (.reg .dx),
    .pop (.reg .cx),
    .pop (.reg .bx),
    .pop (.reg .ax) ]

/-- `int19h_handler` up to its `retf`. -/
def int19hHandler : List (Instr Label) :=
  [ .sti,
    -- set a stack frame
    .push (.reg .bp),
    .mov (.reg .bp) (.reg .sp),
    .alu .sub (.reg .sp) (.imm 8#16),
    -- replace call with old bios call
    .mov (stackVar 2#16) (.reg .ax),
    .mov (stackVar 4#16) (.reg .bx),
    .mov (stackVar 6#16) (.seg .ds),
    .mov (stackVar 8#16) (.seg .es),
    .alu .xor (.reg .ax) (.reg .ax),
    .mov (.seg .es) (.reg .ax),
    .mov (.reg .ax) (.seg .cs),
    .mov (.seg .ds) (.reg .ax),
    .mov (.reg .ax) (.mem (.abs .es 0x4C#16)),
    .mov (.reg .bx) (.mem (.abs .es 0x4E#16)),
    .push (.mem (.abs .ds biosInt19hSegment)),
    .push (.mem (.abs .ds biosInt19hOffset)),
    .mov (.reg .ax) (stackVar 2#16),
    .mov (.reg .bx) (stackVar 4#16),
    .mov (.seg .ds) (stackVar 6#16),
    .mov (.seg .es) (stackVar 8#16) ]

/-- The code of `rom_init` and of `int19h_handler`. -/
def bootBlock : BootLabel → List (ServiceInstr Label BootLabel)
  | .romInit => romInitCode.map .core ++
      [ -- get the current video mode
        .core (.mov8 (.reg .ah) (.imm 0x0F#8)),
        .int 0x10#8,
        -- print messages
        .core (.mov8 (.reg .ah) (.imm 0x0E#8)),
        .core (.mov (.reg .si) (.imm romMessage)),
        .lodsb ]
  | .printMessage =>
      [ .int 0x10#8,
        .lodsb,
        .core (.alu8 .test (.reg .al) (.reg .al)),
        .jcc .ne .printMessage ]
  | .restoreRegisters => romInitRestore.map .core ++ [.core (.retf 0#16)]
  | .int19hHandler => int19hHandler.map .core ++ [.core (.retf 0#16)]

/-- `rom_init` and `int19h_handler`. -/
def bootRoutines : ServiceProgram Label BootLabel where
  core := optionRom
  code := bootBlock
  next
    | .romInit => some .printMessage
    | .printMessage => some .restoreRegisters
    | .restoreRegisters => none
    | .int19hHandler => none

/-! ## The video BIOS -/

/-- What a service leaves of the bus: what it does not touch, the disk's registers and the image. -/
structure BusKept (touched : Nat → Prop) (b b' : Host) : Prop where
  read : ∀ a, ¬ touched a → Bus.read b' a = Bus.read b a
  registers : b'.registers = b.registers
  diskData : b'.diskData = b.diskData
  image : b'.image = b.image

/-- A bus keeps itself. -/
theorem BusKept.refl (touched : Nat → Prop) (b : Host) : BusKept touched b b :=
  ⟨fun _ _ => rfl, rfl, rfl, rfl⟩

/-- What is kept twice is kept. -/
theorem BusKept.trans {touched : Nat → Prop} {b b' b'' : Host} (h : BusKept touched b b')
    (h' : BusKept touched b' b'') : BusKept touched b b'' where
  read a ha := (h'.read a ha).trans (h.read a ha)
  registers := h'.registers.trans h.registers
  diskData := h'.diskData.trans h.diskData
  image := h'.image.trans h.image

/-- What calls of the video BIOS leave of the machine: all but `ax`, `bx`, `cx`, `dx`, `bp` and, for
the routine's own use, `si`. -/
structure ServiceKept (touched : Nat → Prop) (m m' : Machine Host) : Prop where
  di : m'.di = m.di
  sp : m'.sp = m.sp
  cs : m'.cs = m.cs
  ds : m'.ds = m.ds
  es : m'.es = m.es
  ss : m'.ss = m.ss
  direction : m'.direction = m.direction
  bus : BusKept touched m.bus m'.bus

/-- What two services keep, both keep in turn. -/
theorem ServiceKept.trans {touched : Nat → Prop} {m m' m'' : Machine Host}
    (h : ServiceKept touched m m') (h' : ServiceKept touched m' m'') : ServiceKept touched m m'' where
  di := h'.di.trans h.di
  sp := h'.sp.trans h.sp
  cs := h'.cs.trans h.cs
  ds := h'.ds.trans h.ds
  es := h'.es.trans h.es
  ss := h'.ss.trans h.ss
  direction := h'.direction.trans h.direction
  bus := h.bus.trans h'.bus

/-- **The video BIOS**: function 0Fh returns the mode, function 0Eh appends the character in `al` to
the text on the screen and keeps `ah` and `si`. Both return, and write to memory only where `touched`
says. -/
structure VideoBios (services : Services Host (List Byte)) (touched : Nat → Prop) : Prop where
  mode : ∀ (m : Machine Host) (text : List Byte), hi m.ax = 0x0F#8 →
    ∃ m', services 0x10#8 m text = some (m', text) ∧ ServiceKept touched m m'
  teletype : ∀ (m : Machine Host) (text : List Byte), hi m.ax = 0x0E#8 →
    ∃ m', services 0x10#8 m text = some (m', text ++ [lo m.ax]) ∧ ServiceKept touched m m' ∧
      hi m'.ax = hi m.ax ∧ m'.si = m.si

/-! ## The vectors and the drive number -/

section vectors

variable {m : Machine Host} {b : Host}

/-- The bus with `rom_init`'s registers on the stack. -/
def romInitFrame (m : Machine Host) : Host :=
  let b := writeWord m.bus m.ss (m.sp - 2#16) m.ax
  let b := writeWord b m.ss (m.sp - 4#16) m.bx
  let b := writeWord b m.ss (m.sp - 6#16) m.cx
  let b := writeWord b m.ss (m.sp - 8#16) m.dx
  let b := writeWord b m.ss (m.sp - 10#16) m.si
  let b := writeWord b m.ss (m.sp - 12#16) m.bp
  let b := writeWord b m.ss (m.sp - 14#16) m.ds
  writeWord b m.ss (m.sp - 16#16) m.es

/-- The bus with the vectors saved in the ROM. -/
def savedVectors (b : Host) : Host :=
  let saved := writeWord b 0xC800#16 biosInt13hOffset (readWord b 0#16 0x4C#16)
  let saved := writeWord saved 0xC800#16 biosInt13hSegment (readWord b 0#16 0x4E#16)
  let saved := writeWord saved 0xC800#16 biosInt19hOffset (readWord b 0#16 0x64#16)
  writeWord saved 0xC800#16 biosInt19hSegment (readWord b 0#16 0x66#16)

/-- The bus with the ROM's own vectors. -/
def installedVectors (b : Host) : Host :=
  let b := writeWord b 0#16 0x4C#16 Label.int13hHandler.offset
  let b := writeWord b 0#16 0x4E#16 0xC800#16
  let b := writeWord b 0#16 0x64#16 int19hHandlerOffset
  writeWord b 0#16 0x66#16 0xC800#16

/-- The bus with the drive counted. -/
def countedDrive (b : Host) : Host :=
  let count := Bus.read b (linear 0x40#16 0x75#16)
  let b := Bus.write b (linear 0xC800#16 vdiskDrivenum) (count + 0x80#8)
  Bus.write b (linear 0x40#16 0x75#16) (count + 1#8)

/-- The bus when sector 0 is about to be selected. -/
def romInitBus (m : Machine Host) : Host :=
  countedDrive (installedVectors (savedVectors (romInitFrame m)))

/-- The ROM is not in the first 64 KiB. -/
theorem linear_low_ne (x y : Word) : linear 0#16 x ≠ linear 0xC800#16 y := by
  have hx := x.isLt
  simp only [linear, BitVec.toNat_ofNat]
  omega

/-- A word in the first 64 KiB is not one of the ROM. -/
theorem readWord_writeWord_low (b : Host) (o o' w : Word) :
    readWord (writeWord b 0xC800#16 o w) 0#16 o' = readWord b 0#16 o' := by
  rw [readWord, readWord, read_writeWord_of_ne (linear_low_ne _ _) (linear_low_ne _ _),
    read_writeWord_of_ne (linear_low_ne _ _) (linear_low_ne _ _)]

/-- Saving the registers. -/
theorem execAll_pushes : optionRom.execAll (romInitVectors.take 8) m =
    some { m with sp := m.sp - 16#16, bus := romInitFrame m } := by
  simp [romInitVectors, romInitFrame, BitVec.sub_sub]

/-- Saving the vectors. -/
theorem execAll_save (hcs : m.cs = 0xC800#16) :
    ∃ flags, optionRom.execAll ((romInitVectors.drop 8).take 12) m = some { m with
      ax := readWord m.bus 0#16 0x66#16
      ds := 0xC800#16
      es := 0#16
      flags
      bus := savedVectors m.bus } := by
  simp [romInitVectors, hcs, readWord_writeWord_low, savedVectors]

/-- Installing the ROM's own. -/
theorem execAll_install (hcs : m.cs = 0xC800#16) (hes : m.es = 0#16) :
    optionRom.execAll ((romInitVectors.drop 20).take 4) m =
      some { m with bus := installedVectors m.bus } := by
  simp [romInitVectors, installedVectors, hcs, hes]

/-- Counting the drive. -/
theorem execAll_count (hds : m.ds = 0xC800#16) :
    ∃ ax bx flags, optionRom.execAll (romInitVectors.drop 24) m = some { m with
      ax, bx, es := 0x40#16, flags, bus := countedDrive m.bus } := by
  simp [romInitVectors, countedDrive, hds]

/-- **`rom_init` up to the disk's ports.** -/
theorem execAll_romInitVectors (hcs : m.cs = 0xC800#16) :
    ∃ ax bx flags, optionRom.execAll romInitVectors m = some { m with
      ax
      bx
      sp := m.sp - 16#16
      ds := 0xC800#16
      es := 0x40#16
      flags
      bus := romInitBus m } := by
  -- the registers, the vectors of before, the ROM's vectors, the drive
  have hsplit : romInitVectors = romInitVectors.take 8 ++ ((romInitVectors.drop 8).take 12 ++
      ((romInitVectors.drop 20).take 4 ++ romInitVectors.drop 24)) := rfl
  obtain ⟨flags, hsave⟩ := execAll_save
    (m := { m with sp := m.sp - 16#16, bus := romInitFrame m }) hcs
  have hinstall := execAll_install (m := { m with
    ax := readWord (romInitFrame m) 0#16 0x66#16
    sp := m.sp - 16#16
    ds := 0xC800#16
    es := 0#16
    flags
    bus := savedVectors (romInitFrame m) }) hcs rfl
  obtain ⟨ax, bx, flags', hcount⟩ := execAll_count (m := { m with
    ax := readWord (romInitFrame m) 0#16 0x66#16
    sp := m.sp - 16#16
    ds := 0xC800#16
    es := 0#16
    flags
    bus := installedVectors (savedVectors (romInitFrame m)) }) rfl
  refine ⟨ax, bx, flags', ?_⟩
  rw [hsplit, Program.execAll_append execAll_pushes, Program.execAll_append hsave,
    Program.execAll_append hinstall]
  exact hcount

/-! ### What is written -/

/-- What `rom_init` writes beside its stack: the two vectors, the count of fixed disks, and the ROM's
variables. -/
def InRomInitData (a : Nat) : Prop :=
  (0x4C ≤ a ∧ a < 0x50) ∨ (0x64 ≤ a ∧ a < 0x68) ∨ a = 0x475 ∨ (0xC84C5 ≤ a ∧ a < 0xC84CE)

/-- The BIOS's disk count is data that `rom_init` writes. -/
theorem inRomInitData_count : InRomInitData 0x475 := Or.inr (Or.inr (Or.inl rfl))

/-- So is the drive number. -/
theorem inRomInitData_drive : InRomInitData 0xC84CD :=
  Or.inr (Or.inr (Or.inr ⟨by omega, by omega⟩))

/-- The stack that `rom_init` uses, and the return address above it. -/
def InRomInitFrame (m : Machine Host) (a : Nat) : Prop :=
  ∃ i < 20, a = linear m.ss (m.sp - 16#16 + BitVec.ofNat 16 i)

/-- Saving the vectors writes to that data only. -/
theorem read_savedVectors {a : Nat} (ha : ¬ InRomInitData a) :
    Bus.read (savedVectors b) a = Bus.read b a := by
  have hne : ∀ o : Word, 0x4C5 ≤ o.toNat → o.toNat < 0x4CE → a ≠ linear 0xC800#16 o := by
    rintro o hlow hhigh rfl
    refine ha (Or.inr (Or.inr (Or.inr ?_)))
    simp only [linear, BitVec.toNat_ofNat]
    omega
  unfold savedVectors
  rw [read_writeWord_of_ne, read_writeWord_of_ne, read_writeWord_of_ne, read_writeWord_of_ne] <;>
    exact hne _ (by decide) (by decide)

/-- So does installing the ROM's own. -/
theorem read_installedVectors {a : Nat} (ha : ¬ InRomInitData a) :
    Bus.read (installedVectors b) a = Bus.read b a := by
  have hne : ∀ o : Word, 0x4C ≤ o.toNat ∧ o.toNat < 0x50 ∨ 0x64 ≤ o.toNat ∧ o.toNat < 0x68 →
      a ≠ linear 0#16 o := by
    rintro o ho rfl
    unfold InRomInitData linear at ha
    simp only [BitVec.toNat_ofNat] at ha
    omega
  unfold installedVectors
  rw [read_writeWord_of_ne, read_writeWord_of_ne, read_writeWord_of_ne, read_writeWord_of_ne] <;>
    exact hne _ (by decide)

/-- Counting the drive writes the count and the drive number. -/
theorem read_countedDrive {a : Nat} (ha : a ≠ 0x475) (hdrive : a ≠ 0xC84CD) :
    Bus.read (countedDrive b) a = Bus.read b a := by
  have hcount : linear 0x40#16 0x75#16 = 0x475 := rfl
  have hvdisk : linear 0xC800#16 vdiskDrivenum = 0xC84CD := rfl
  unfold countedDrive
  simp only [LawfulBus.read_write, hcount, hvdisk, if_neg ha, if_neg hdrive]

/-- The vectors are written on top of what is saved. -/
theorem read_romInitBus {a : Nat} (ha : ¬ InRomInitData a) :
    Bus.read (romInitBus m) a = Bus.read (romInitFrame m) a := by
  have hne : a ≠ 0x475 ∧ a ≠ 0xC84CD := by
    unfold InRomInitData at ha
    omega
  rw [romInitBus, read_countedDrive hne.1 hne.2, read_installedVectors ha, read_savedVectors ha]

/-- What is not among the pushed bytes is as it was. -/
theorem read_romInitFrame {a : Nat}
    (ha : ∀ i < 16, a ≠ linear m.ss (m.sp - 16#16 + BitVec.ofNat 16 i)) :
    Bus.read (romInitFrame m) a = Bus.read m.bus a := by
  -- offsets on the stack wrap, so the addresses are compared as words
  have hne : ∀ i : Word, 1 ≤ i.toNat → i.toNat ≤ 16 → a ≠ linear m.ss (m.sp - i) := by
    rintro i hlow hhigh rfl
    refine ha (16 - i.toNat) (by omega) ?_
    congr 1
    bv_omega
  have hnext : ∀ i : Word, 2 ≤ i.toNat → i.toNat ≤ 16 → a ≠ linear m.ss (m.sp - i + 1#16) := by
    intro i hlow hhigh
    rw [show m.sp - i + 1#16 = m.sp - (i - 1#16) by bv_omega]
    exact hne _ (by bv_omega) (by bv_omega)
  unfold romInitFrame
  simp only [
    read_writeWord_of_ne (hne 2#16 (by decide) (by decide)) (hnext 2#16 (by decide) (by decide)),
    read_writeWord_of_ne (hne 4#16 (by decide) (by decide)) (hnext 4#16 (by decide) (by decide)),
    read_writeWord_of_ne (hne 6#16 (by decide) (by decide)) (hnext 6#16 (by decide) (by decide)),
    read_writeWord_of_ne (hne 8#16 (by decide) (by decide)) (hnext 8#16 (by decide) (by decide)),
    read_writeWord_of_ne (hne 10#16 (by decide) (by decide)) (hnext 10#16 (by decide) (by decide)),
    read_writeWord_of_ne (hne 12#16 (by decide) (by decide)) (hnext 12#16 (by decide) (by decide)),
    read_writeWord_of_ne (hne 14#16 (by decide) (by decide)) (hnext 14#16 (by decide) (by decide)),
    read_writeWord_of_ne (hne 16#16 (by decide) (by decide)) (hnext 16#16 (by decide) (by decide))]

/-- What is outside the frame is as it was. -/
theorem read_romInitFrame_of_notMem {a : Nat} (ha : ¬ InRomInitFrame m a) :
    Bus.read (romInitFrame m) a = Bus.read m.bus a :=
  read_romInitFrame fun i hi heq => ha ⟨i, by omega, heq⟩

/-- A word of the frame, where its bytes are those that were pushed. -/
theorem readWord_frame (h : ∀ a, InRomInitFrame m a → Bus.read b a = Bus.read (romInitFrame m) a)
    {i : Nat} (hi : i < 19) :
    readWord b m.ss (m.sp - 16#16 + BitVec.ofNat 16 i) =
      readWord (romInitFrame m) m.ss (m.sp - 16#16 + BitVec.ofNat 16 i) := by
  have hnext : m.sp - 16#16 + BitVec.ofNat 16 i + 1#16 =
      m.sp - 16#16 + BitVec.ofNat 16 (i + 1) := by
    rw [BitVec.ofNat_add, BitVec.add_assoc]
  rw [readWord, readWord, hnext, h _ ⟨i, by omega, rfl⟩, h _ ⟨i + 1, by omega, rfl⟩]

/-- The frame holds the registers in the order of the pops, and above them the return address. -/
structure InitFrame (m : Machine Host) (b : Host) : Prop where
  es : readWord b m.ss (m.sp - 16#16) = m.es
  ds : readWord b m.ss (m.sp - 14#16) = m.ds
  bp : readWord b m.ss (m.sp - 12#16) = m.bp
  si : readWord b m.ss (m.sp - 10#16) = m.si
  dx : readWord b m.ss (m.sp - 8#16) = m.dx
  cx : readWord b m.ss (m.sp - 6#16) = m.cx
  bx : readWord b m.ss (m.sp - 4#16) = m.bx
  ax : readWord b m.ss (m.sp - 2#16) = m.ax
  ip : readWord b m.ss m.sp = readWord m.bus m.ss m.sp
  cs : readWord b m.ss (m.sp + 2#16) = readWord m.bus m.ss (m.sp + 2#16)

/-- `rom_init`'s frame holds the caller's registers. -/
theorem initFrame_romInitFrame (m : Machine Host) : InitFrame m (romInitFrame m) := by
  -- the return address is above what is pushed
  have habove : ∀ k : Word, k.toNat < 4 → ∀ i < 16,
      linear m.ss (m.sp + k) ≠ linear m.ss (m.sp - 16#16 + BitVec.ofNat 16 i) := by
    intro k hk i hi heq
    rw [linear_inj] at heq
    bv_omega
  have hreturn : ∀ k : Word, k.toNat < 3 →
      readWord (romInitFrame m) m.ss (m.sp + k) = readWord m.bus m.ss (m.sp + k) := by
    intro k hk
    rw [readWord, readWord, BitVec.add_assoc, read_romInitFrame (habove k (by omega)),
      read_romInitFrame (habove (k + 1#16) (by bv_omega))]
  refine ⟨?_, ?_, ?_, ?_, ?_, ?_, ?_, ?_, ?_, hreturn 2#16 (by decide)⟩
  case refine_9 => simpa only [BitVec.add_zero] using hreturn 0#16 (by decide)
  all_goals
    unfold romInitFrame
    simp only [readWord_writeWord_self, readWord_writeWord_sub, ne_eq, BitVec.reduceEq,
      BitVec.reduceAdd, not_false_eq_true]

/-- The frame is known by the bytes that were pushed. -/
theorem InitFrame.of_read
    (h : ∀ a, InRomInitFrame m a → Bus.read b a = Bus.read (romInitFrame m) a) : InitFrame m b := by
  have hword : ∀ k : Word, k.toNat < 19 → readWord b m.ss (m.sp - 16#16 + k) =
      readWord (romInitFrame m) m.ss (m.sp - 16#16 + k) := by
    intro k hk
    simpa only [BitVec.ofNat_toNat, BitVec.setWidth_eq] using readWord_frame h hk
  have hsub : ∀ j : Word, j.toNat ≤ 16 →
      readWord b m.ss (m.sp - j) = readWord (romInitFrame m) m.ss (m.sp - j) := by
    intro j hj
    have heq : m.sp - j = m.sp - 16#16 + (16#16 - j) := by bv_omega
    rw [heq]
    exact hword _ (by bv_omega)
  have hip : readWord b m.ss m.sp = readWord (romInitFrame m) m.ss m.sp := by
    simpa only [BitVec.sub_add_cancel] using hword 16#16 (by decide)
  have hcs : readWord b m.ss (m.sp + 2#16) = readWord (romInitFrame m) m.ss (m.sp + 2#16) := by
    have heq : m.sp + 2#16 = m.sp - 16#16 + 18#16 := by bv_omega
    rw [heq]
    exact hword _ (by decide)
  have hsaved := initFrame_romInitFrame m
  exact ⟨(hsub _ (by decide)).trans hsaved.es, (hsub _ (by decide)).trans hsaved.ds,
    (hsub _ (by decide)).trans hsaved.bp, (hsub _ (by decide)).trans hsaved.si,
    (hsub _ (by decide)).trans hsaved.dx, (hsub _ (by decide)).trans hsaved.cx,
    (hsub _ (by decide)).trans hsaved.bx, (hsub _ (by decide)).trans hsaved.ax,
    hip.trans hsaved.ip, hcs.trans hsaved.cs⟩

/-! ### The vectors -/

/-- The vector of an interrupt: segment and offset. -/
def interruptVector (b : Host) (n : Word) : Word × Word :=
  (readWord b 0#16 (4#16 * n + 2#16), readWord b 0#16 (4#16 * n))

/-- The vector of INT 13h that `rom_init` has saved. -/
def savedInt13h (b : Host) : Word × Word :=
  (readWord b 0xC800#16 biosInt13hSegment, readWord b 0xC800#16 biosInt13hOffset)

/-- The vector of INT 19h that `rom_init` has saved. -/
def savedInt19h (b : Host) : Word × Word :=
  (readWord b 0xC800#16 biosInt19hSegment, readWord b 0xC800#16 biosInt19hOffset)

/-- The ROM's words are not among the vectors that are installed. -/
theorem readWord_installedVectors (o : Word) (ho : 0x68 ≤ o.toNat) (ho' : o.toNat < 0xFFFF) :
    readWord (installedVectors b) 0xC800#16 o = readWord b 0xC800#16 o := by
  have hout : ∀ o : Word, 0x68 ≤ o.toNat → Bus.read (installedVectors b) (linear 0xC800#16 o) =
      Bus.read b (linear 0xC800#16 o) := by
    intro o ho
    unfold installedVectors
    simp only [read_writeWord_of_ne (linear_low_ne _ o).symm (linear_low_ne _ o).symm]
  rw [readWord, readWord, hout o ho, hout (o + 1#16) (by bv_omega)]

/-- A word apart from these two is as before. -/
theorem readWord_countedDrive {s o : Word}
    (h : ∀ a, a = linear s o ∨ a = linear s (o + 1#16) → a ≠ 0x475 ∧ a ≠ 0xC84CD) :
    readWord (countedDrive b) s o = readWord b s o := by
  obtain ⟨hcount, hdrive⟩ := h _ (Or.inl rfl)
  obtain ⟨hcount', hdrive'⟩ := h _ (Or.inr rfl)
  rw [readWord, readWord, read_countedDrive hcount hdrive, read_countedDrive hcount' hdrive']

/-- The vectors are the ROM's. -/
theorem interruptVector_romInitBus :
    interruptVector (romInitBus m) 0x13#16 = (0xC800#16, Label.int13hHandler.offset) ∧
      interruptVector (romInitBus m) 0x19#16 = (0xC800#16, int19hHandlerOffset) := by
  have hcounted : ∀ (b : Host) (o : Word), o.toNat < 0x100 →
      readWord (countedDrive b) 0#16 o = readWord b 0#16 o := by
    intro b o ho
    refine readWord_countedDrive ?_
    rintro a (rfl | rfl) <;> simp only [linear, BitVec.toNat_add, BitVec.toNat_ofNat] <;> omega
  unfold interruptVector romInitBus
  rw [hcounted _ _ (by decide), hcounted _ _ (by decide), hcounted _ _ (by decide),
    hcounted _ _ (by decide)]
  simp [installedVectors, readWord_writeWord_of_ne]

/-- The vectors are among the ROM's data. -/
theorem interruptVector_of_data {b' : Host}
    (h : ∀ a, InRomInitData a → Bus.read b' a = Bus.read b a) {n : Word}
    (hn : n = 0x13#16 ∨ n = 0x19#16) : interruptVector b' n = interruptVector b n := by
  have hword : ∀ o : Word, 0x4C ≤ o.toNat ∧ o.toNat < 0x4F ∨ 0x64 ≤ o.toNat ∧ o.toNat < 0x67 →
      readWord b' 0#16 o = readWord b 0#16 o := by
    intro o ho
    rw [readWord, readWord, h, h]
    · unfold InRomInitData linear
      simp only [BitVec.toNat_ofNat]
      omega
    · unfold InRomInitData linear
      simp only [BitVec.toNat_add, BitVec.toNat_ofNat]
      omega
  unfold interruptVector
  rcases hn with rfl | rfl <;> rw [hword _ (by decide), hword _ (by decide)]

/-- The vectors that `rom_init` found are saved. -/
theorem savedInt_romInitBus (hframe : ∀ a, InRomInitFrame m a → ¬ InRomInitData a) :
    savedInt13h (romInitBus m) = interruptVector m.bus 0x13#16 ∧
      savedInt19h (romInitBus m) = interruptVector m.bus 0x19#16 := by
  have hcounted : ∀ (b : Host) (o : Word), 0x4C5 ≤ o.toNat → o.toNat < 0x4CC →
      readWord (countedDrive (installedVectors b)) 0xC800#16 o = readWord b 0xC800#16 o := by
    intro b o hlow hhigh
    rw [readWord_countedDrive, readWord_installedVectors _ (by omega) (by omega)]
    rintro a (rfl | rfl) <;> simp only [linear, BitVec.toNat_add, BitVec.toNat_ofNat] <;> omega
  have hkept : ∀ a, InRomInitData a → Bus.read (romInitFrame m) a = Bus.read m.bus a :=
    fun a ha => read_romInitFrame_of_notMem fun hin => hframe a hin ha
  rw [← interruptVector_of_data hkept (Or.inl rfl), ← interruptVector_of_data hkept (Or.inr rfl)]
  unfold savedInt13h savedInt19h romInitBus
  rw [hcounted _ _ (by decide) (by decide), hcounted _ _ (by decide) (by decide),
    hcounted _ _ (by decide) (by decide), hcounted _ _ (by decide) (by decide)]
  simp [savedVectors, interruptVector, readWord_writeWord_of_ne, biosInt13hOffset,
    biosInt13hSegment, biosInt19hOffset, biosInt19hSegment]

/-- The drive's number is the count of the fixed disks before it, from 80h; the count is advanced. -/
theorem drive_romInitBus (hframe : ∀ a, InRomInitFrame m a → ¬ InRomInitData a) :
    Bus.read (romInitBus m) 0xC84CD = Bus.read m.bus 0x475 + 0x80#8 ∧
      Bus.read (romInitBus m) 0x475 = Bus.read m.bus 0x475 + 1#8 := by
  have hcount : linear 0x40#16 0x75#16 = 0x475 := rfl
  have hdrive : linear 0xC800#16 vdiskDrivenum = 0xC84CD := rfl
  have hsaved : Bus.read (savedVectors (romInitFrame m)) 0x475 = Bus.read (romInitFrame m) 0x475 := by
    unfold savedVectors
    rw [read_writeWord_of_ne, read_writeWord_of_ne, read_writeWord_of_ne, read_writeWord_of_ne] <;>
      decide
  have hinstalled : Bus.read (installedVectors (savedVectors (romInitFrame m))) 0x475 =
      Bus.read (savedVectors (romInitFrame m)) 0x475 := by
    unfold installedVectors
    rw [read_writeWord_of_ne, read_writeWord_of_ne, read_writeWord_of_ne, read_writeWord_of_ne] <;>
      decide
  have hfound : Bus.read (romInitFrame m) 0x475 = Bus.read m.bus 0x475 :=
    read_romInitFrame_of_notMem fun hin => hframe _ hin (Or.inr (Or.inr (Or.inl rfl)))
  simp only [romInitBus, countedDrive, LawfulBus.read_write, hcount, hdrive, hinstalled, hsaved,
    hfound, if_true, Nat.reduceEqDiff, if_false, and_self]

/-! ### The disk -/

/-- A word outside the window leaves the image. -/
theorem image_writeWord {s o w : Word} (h : Host.WordOutside s o) :
    (writeWord b s o w).image = b.image := by
  rw [writeWord, Host.write_eq, if_neg h.2, Host.write_eq, if_neg h.1]

/-- Nothing of this is written to the image. -/
theorem image_romInitBus (hframe : ∀ a, InRomInitFrame m a → ¬ InDiskWindow a) :
    (romInitBus m).image = m.bus.image := by
  have hcounted : ∀ b : Host, (countedDrive b).image = b.image := by
    intro b
    have hcount : ¬ InDiskWindow (linear 0x40#16 0x75#16) := by decide
    have hdrive : ¬ InDiskWindow (linear 0xC800#16 vdiskDrivenum) := by decide
    simp only [countedDrive, Host.write_eq, if_neg hcount, if_neg hdrive]
  have houtside : ∀ i : Word, 2 ≤ i.toNat → i.toNat ≤ 16 → Host.WordOutside m.ss (m.sp - i) := by
    intro i hlow hhigh
    refine ⟨hframe _ ⟨16 - i.toNat, by omega, ?_⟩, hframe _ ⟨17 - i.toNat, by omega, ?_⟩⟩
    · congr 1
      bv_omega
    · congr 1
      bv_omega
  rw [romInitBus, hcounted]
  unfold installedVectors savedVectors romInitFrame
  rw [image_writeWord (by unfold Host.WordOutside; decide),
    image_writeWord (by unfold Host.WordOutside; decide),
    image_writeWord (by unfold Host.WordOutside; decide),
    image_writeWord (by unfold Host.WordOutside; decide),
    image_writeWord (by unfold Host.WordOutside; decide),
    image_writeWord (by unfold Host.WordOutside; decide),
    image_writeWord (by unfold Host.WordOutside; decide),
    image_writeWord (by unfold Host.WordOutside; decide)]
  rw [image_writeWord (houtside 16#16 (by decide) (by decide)),
    image_writeWord (houtside 14#16 (by decide) (by decide)),
    image_writeWord (houtside 12#16 (by decide) (by decide)),
    image_writeWord (houtside 10#16 (by decide) (by decide)),
    image_writeWord (houtside 8#16 (by decide) (by decide)),
    image_writeWord (houtside 6#16 (by decide) (by decide)),
    image_writeWord (houtside 4#16 (by decide) (by decide)),
    image_writeWord (houtside 2#16 (by decide) (by decide))]

/-- **`rom_init` up to the video BIOS.** -/
theorem execAll_romInitCode (hcs : m.cs = 0xC800#16)
    (hs : m.bus.registers.updateDiskMapping = false) :
    ∃ bx flags, optionRom.execAll romInitCode m = some { m with
      ax := 0#16
      bx
      dx := 0xD004#16
      sp := m.sp - 16#16
      ds := 0xC800#16
      es := 0x40#16
      flags
      bus := selectWords (romInitBus m) 0#16 0#16 } := by
  obtain ⟨ax, bx, flags, hvectors⟩ := execAll_romInitVectors hcs
  have hs₁ : (romInitBus m).registers.updateDiskMapping = false :=
    kept_settled.execAll romInitVectors_code hvectors hs
  have hout := Host.outWord_lbaLow (registers_eq_of_settled hs₁) 0#16
  have hout' := Host.outWord_lbaHigh
    (h := { romInitBus m with registers := ⟨lbaOfWords (romInitBus m).registers.lbaHigh 0#16, false⟩ })
    rfl 0#16
  have hupdate := Host.outWord_update
    (h := { romInitBus m with registers := ⟨lbaOfWords 0#16 0#16, false⟩ }) rfl rfl 0#16
  refine ⟨bx, (addc 0xD002#16 2#16 false).2, ?_⟩
  rw [romInitCode, Program.execAll_append hvectors]
  simp [romInitSelect, selectWords, hout, hout', hupdate]

end vectors

end Ts3100
