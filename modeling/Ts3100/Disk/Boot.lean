import Ts3100.Disk.RomInit

/-! # Booting with the virtual disk

* `ensures_printMessage` — the loop that prints, by induction on the text.
* `ensures_romInit` — what `rom_init` leaves to the system BIOS, for any video BIOS.
* `ensures_int19hHandler` — where a bootstrap request goes after it. -/

namespace Ts3100

open RealMode

/-! ## The message -/

section message

variable {services : Services Host (List Byte)} {touched : Nat → Prop} {m : Machine Host}
  {world text : List Byte} {Q : Word → Machine Host → List Byte → Prop}

/-- `text` and the zero that ends it are in memory at `s:o`, where no service writes. -/
structure MessageAt (touched : Nat → Prop) (b : Host) (s o : Word) (text : List Byte) : Prop where
  byte : ∀ i < text.length + 1,
    Bus.read b (linear s (o + BitVec.ofNat 16 i)) = (text ++ [0#8]).getD i 0#8
  untouched : ∀ i < text.length + 1, ¬ touched (linear s (o + BitVec.ofNat 16 i))

/-- The first character of a message. -/
theorem MessageAt.head {b : Host} {s o : Word} {c : Byte}
    (h : MessageAt touched b s o (c :: text)) : Bus.read b (linear s o) = c := by
  simpa using h.byte 0 (by simp)

/-- The rest of a message follows its first character. -/
theorem MessageAt.tail {b : Host} {s o : Word} {c : Byte}
    (h : MessageAt touched b s o (c :: text)) : MessageAt touched b s (o + 1#16) text := by
  have hnext : ∀ i, o + 1#16 + BitVec.ofNat 16 i = o + BitVec.ofNat 16 (i + 1) := by
    intro i
    rw [BitVec.ofNat_add, BitVec.add_assoc, BitVec.add_comm 1#16]
  constructor
  · intro i hi
    rw [hnext, h.byte (i + 1) (by simpa using hi)]
    rfl
  · intro i hi
    rw [hnext]
    exact h.untouched (i + 1) (by simpa using hi)

/-- The zero at the end. -/
theorem MessageAt.nil {b : Host} {s o : Word} (h : MessageAt touched b s o []) :
    Bus.read b (linear s o) = 0#8 := by
  simpa using h.byte 0 (by simp)

/-- Where a message begins, the video BIOS stores nothing. -/
theorem MessageAt.untouched_head {b : Host} {s o : Word} (h : MessageAt touched b s o text) :
    ¬ touched (linear s o) := by
  simpa using h.untouched 0 (Nat.succ_pos _)

/-- A service leaves the message. -/
theorem MessageAt.kept {b b' : Host} {s o : Word} (h : MessageAt touched b s o text)
    (hkept : BusKept touched b b') : MessageAt touched b' s o text where
  byte i hi := (hkept.read _ (h.untouched i hi)).trans (h.byte i hi)
  untouched := h.untouched

/-- One character is printed and the next one is loaded. -/
theorem step_printMessage (world : List Byte) {c : Byte} (hbios : VideoBios services touched)
    (hax : m.ax = word 0x0E#8 c) (hdirection : m.direction = false)
    (huntouched : ¬ touched (linear m.ds m.si)) :
    ∃ m', ServiceKept touched m m' ∧ m'.ax = word 0x0E#8 (Bus.read m.bus (linear m.ds m.si)) ∧
      m'.si = m.si + 1#16 ∧
      bootRoutines.step services .printMessage m world = .goto
        (if Bus.read m.bus (linear m.ds m.si) = 0#8 then .restoreRegisters else .printMessage)
        m' (world ++ [c]) := by
  obtain ⟨m₁, hservice, hkept, hah, hsi⟩ := hbios.teletype m world (by rw [hax, hi_word])
  have hbyte : Bus.read m₁.bus (linear m.ds m.si) = Bus.read m.bus (linear m.ds m.si) :=
    hkept.bus.read _ huntouched
  have hdirection₁ : m₁.direction = false := hkept.direction.trans hdirection
  rw [hax, lo_word] at hservice
  rw [hax, hi_word] at hah
  -- `lodsb` overwrites `al` and leaves `ah`, the function, for the next call
  generalize Bus.read m.bus (linear m.ds m.si) = next at hbyte
  refine ⟨{ m₁ with
    ax := word 0x0E#8 next
    si := m.si + 1#16
    flags := (logic (next &&& next)).2 }, hkept.trans ⟨rfl, rfl, rfl, rfl, rfl, rfl, rfl, .refl _ _⟩,
    rfl, rfl, ?_⟩
  by_cases hzero : next = 0#8 <;>
    simp [ServiceProgram.step, bootRoutines, bootBlock, hservice, Machine.lodsb, hah, hdirection₁,
      hkept.ds, hsi, hbyte, hzero]

/-- **The loop that prints**: with a character in `al` and the rest of the text at `ds:si`, all of them
are appended to the screen. The induction is on the rest of the text. -/
theorem ensures_printMessage (hbios : VideoBios services touched) (rest : List Byte) {c : Byte}
    (hax : m.ax = word 0x0E#8 c) (hdirection : m.direction = false)
    (hmessage : MessageAt touched m.bus m.ds m.si rest) (hrest : 0#8 ∉ rest)
    (hnext : ∀ m', ServiceKept touched m m' →
      bootRoutines.Ensures services .restoreRegisters m' (world ++ c :: rest) Q) :
    bootRoutines.Ensures services .printMessage m world Q := by
  induction rest generalizing m world c with
  | nil =>
      obtain ⟨m', hkept, -, -, hstep⟩ :=
        step_printMessage world hbios hax hdirection hmessage.untouched_head
      -- the zero ends the loop
      rw [if_pos hmessage.nil] at hstep
      exact .goto hstep (hnext m' hkept)
  | cons c' rest ih =>
      have hne : c' ≠ 0#8 := (List.ne_of_not_mem_cons hrest).symm
      obtain ⟨m', hkept, hax', hsi, hstep⟩ :=
        step_printMessage world hbios hax hdirection hmessage.untouched_head
      rw [hmessage.head] at hax' hstep
      rw [if_neg hne] at hstep
      have hmessage' : MessageAt touched m'.bus m'.ds m'.si rest := by
        rw [hkept.ds, hsi]
        exact hmessage.tail.kept hkept.bus
      have hdirection' : m'.direction = false := hkept.direction.trans hdirection
      refine .goto hstep (ih hax' hdirection' hmessage' (List.not_mem_of_not_mem_cons hrest) ?_)
      intro m₁ hkept₁
      rw [List.append_assoc]
      exact hnext m₁ (hkept.trans hkept₁)

end message

/-! ## The routine -/

section routine

variable {services : Services Host (List Byte)} {touched : Nat → Prop} {m m₁ : Machine Host}
  {world : List Byte}

/-- A call of `rom_init`: the BIOS found the ROM at `C8000`, its message is in place, the stack is in
memory that nothing else of this is in, and the video BIOS does not write to any of it. -/
structure RomInitCall (touched : Nat → Prop) (m : Machine Host) : Prop where
  cs : m.cs = 0xC800#16
  direction : m.direction = false
  settled : m.bus.registers.updateDiskMapping = false
  message : MessageAt touched m.bus 0xC800#16 romMessage romMessageText
  frame : ∀ a, InRomInitFrame m a → ¬ InRomInitData a ∧ ¬ InDiskWindow a ∧ ¬ touched a
  frameMessage : ∀ a, InRomInitFrame m a → ¬ (0xC84CE ≤ a ∧ a < 0xC851C)
  data : ∀ a, InRomInitData a → ¬ touched a

/-- What `rom_init`, entered with `m`, makes of the bus: the ROM's vectors are in place and those before
them saved, the drive is counted, and sector 0 is selected. The image is as it was, and so is memory
that neither the ROM's data nor its stack nor the BIOS takes. -/
structure Initialized (touched : Nat → Prop) (m : Machine Host) (b : Host) : Prop where
  vectors : interruptVector b 0x13#16 = (0xC800#16, Label.int13hHandler.offset) ∧
    interruptVector b 0x19#16 = (0xC800#16, int19hHandlerOffset)
  saved : savedInt13h b = interruptVector m.bus 0x13#16 ∧
    savedInt19h b = interruptVector m.bus 0x19#16
  drive : Bus.read b 0xC84CD = Bus.read m.bus 0x475 + 0x80#8
  count : Bus.read b 0x475 = Bus.read m.bus 0x475 + 1#8
  selects : b.Selects 0#16 0#16
  image : b.image = m.bus.image
  memory : ∀ a, ¬ InRomInitData a → ¬ InRomInitFrame m a → ¬ touched a → ¬ InDiskWindow a →
    Bus.read b a = Bus.read m.bus a

/-- What `rom_init` leaves of the caller's machine: all but the flags, with the return address
popped. -/
structure ReturnedFromInit (m m' : Machine Host) (ip : Word) : Prop where
  ip : ip = readWord m.bus m.ss m.sp
  registers : m' = { m with
    sp := m.sp + 4#16
    cs := readWord m.bus m.ss (m.sp + 2#16)
    flags := m'.flags
    interrupt := m'.interrupt
    bus := m'.bus }

/-- Selecting a sector changes what is read in the window only. -/
theorem read_selectWords {b : Host} {high low : Word} {a : Nat} (ha : ¬ InDiskWindow a) :
    Bus.read (selectWords b high low) a = Bus.read b a := by
  simp only [selectWords, Host.read_eq, if_neg ha]

/-- The ROM's data are not in the window. -/
theorem InRomInitData.notInDiskWindow {a : Nat} (ha : InRomInitData a) : ¬ InDiskWindow a := by
  unfold InRomInitData at ha
  unfold InDiskWindow
  omega

section kept

variable {b : Host}

/-- The frame is there when the video BIOS has returned. -/
theorem RomInitCall.initFrame (hcall : RomInitCall touched m)
    (hkept : BusKept touched (selectWords (romInitBus m) 0#16 0#16) b) : InitFrame m b := by
  apply InitFrame.of_read
  intro a ha
  obtain ⟨hdata, hwindow, htouched⟩ := hcall.frame a ha
  rw [hkept.read a htouched, read_selectWords hwindow, read_romInitBus hdata]

/-- And so is the message. -/
theorem RomInitCall.messageAt (hcall : RomInitCall touched m) :
    MessageAt touched (selectWords (romInitBus m) 0#16 0#16) 0xC800#16 romMessage romMessageText where
  byte i hi := by
    have haddress : linear 0xC800#16 (romMessage + BitVec.ofNat 16 i) = 0xC84CE + i := by
      have hlength : romMessageText.length = 77 := rfl
      exact linear_add (by rw [hlength] at hi; simp only [romMessage, BitVec.toNat_ofNat]; omega)
    have hi' : i < 78 := hi
    rw [← hcall.message.byte i hi, haddress, read_selectWords, read_romInitBus,
      read_romInitFrame_of_notMem]
    · exact fun hin => hcall.frameMessage _ hin ⟨by omega, by omega⟩
    · unfold InRomInitData
      omega
    · unfold InDiskWindow
      omega
  untouched := hcall.message.untouched

/-- So are the vectors that are saved. -/
theorem savedInt_of_data {b b' : Host}
    (h : ∀ a, InRomInitData a → Bus.read b' a = Bus.read b a) :
    savedInt13h b' = savedInt13h b ∧ savedInt19h b' = savedInt19h b := by
  have hword : ∀ o : Word, 0x4C5 ≤ o.toNat → o.toNat < 0x4CD →
      readWord b' 0xC800#16 o = readWord b 0xC800#16 o := by
    intro o hlow hhigh
    rw [readWord, readWord, h, h]
    · unfold InRomInitData linear
      simp only [BitVec.toNat_ofNat]
      omega
    · unfold InRomInitData linear
      simp only [BitVec.toNat_add, BitVec.toNat_ofNat]
      omega
  unfold savedInt13h savedInt19h
  rw [hword _ (by decide) (by decide), hword _ (by decide) (by decide),
    hword _ (by decide) (by decide), hword _ (by decide) (by decide)]
  exact ⟨rfl, rfl⟩

/-- The vectors, the drive and the disk when the video BIOS has returned. -/
theorem RomInitCall.initialized (hcall : RomInitCall touched m)
    (hkept : BusKept touched (selectWords (romInitBus m) 0#16 0#16) b) :
    Initialized touched m b := by
  have hframe : ∀ a, InRomInitFrame m a → ¬ InRomInitData a := fun a ha => (hcall.frame a ha).1
  have hdata : ∀ a, InRomInitData a → Bus.read b a = Bus.read (romInitBus m) a := by
    intro a ha
    rw [hkept.read a (hcall.data a ha), read_selectWords ha.notInDiskWindow]
  obtain ⟨hvector13h, hvector19h⟩ := interruptVector_romInitBus (m := m)
  obtain ⟨hsaved13h, hsaved19h⟩ := savedInt_romInitBus hframe
  obtain ⟨hdrive, hcount⟩ := drive_romInitBus hframe
  obtain ⟨hkept13h, hkept19h⟩ := savedInt_of_data hdata
  refine ⟨⟨?_, ?_⟩, ⟨?_, ?_⟩, ?_, ?_, ⟨hkept.registers, hkept.diskData⟩, ?_, ?_⟩
  · rw [interruptVector_of_data hdata (Or.inl rfl), hvector13h]
  · rw [interruptVector_of_data hdata (Or.inr rfl), hvector19h]
  · rw [hkept13h, hsaved13h]
  · rw [hkept19h, hsaved19h]
  · rw [hdata 0xC84CD inRomInitData_drive, hdrive]
  · rw [hdata 0x475 inRomInitData_count, hcount]
  · rw [hkept.image, ← image_romInitBus fun a ha => (hcall.frame a ha).2.1, selectWords]
  · intro a hdata hframe htouched hwindow
    rw [hkept.read a htouched, read_selectWords hwindow, read_romInitBus hdata,
      read_romInitFrame_of_notMem hframe]

end kept

/-- The block that restores the registers. -/
theorem step_restoreRegisters (services : Services Host (List Byte)) (world : List Byte)
    (hframe : InitFrame m m₁.bus) (hss : m₁.ss = m.ss) (hsp : m₁.sp = m.sp - 16#16) :
    bootRoutines.step services .restoreRegisters m₁ world =
      .returned (readWord m.bus m.ss m.sp) { m₁ with
        ax := m.ax
        bx := m.bx
        cx := m.cx
        dx := m.dx
        si := m.si
        bp := m.bp
        ds := m.ds
        es := m.es
        sp := m.sp + 4#16
        cs := readWord m.bus m.ss (m.sp + 2#16) } world := by
  -- what is popped from above the stack pointer was pushed below the caller's
  have hadd : ∀ k : Word, m.sp - 16#16 + k = m.sp - (16#16 - k) := by
    intro k
    bv_omega
  have habove : m.sp - 16#16 + 18#16 = m.sp + 2#16 ∧ m.sp - 16#16 + 20#16 = m.sp + 4#16 :=
    ⟨by bv_omega, by bv_omega⟩
  simp [ServiceProgram.step, bootRoutines, bootBlock, romInitRestore, hss, hsp, BitVec.add_assoc]
  simp only [hadd, BitVec.reduceSub, hframe.ip, hframe.cs, hframe.ax, hframe.bx, hframe.cx,
    hframe.dx, hframe.si, hframe.bp, hframe.ds, hframe.es, and_self]

/-- The block that is entered, up to the first character. -/
theorem step_romInit (hbios : VideoBios services touched) (hcall : RomInitCall touched m)
    (world : List Byte) :
    ∃ m', bootRoutines.step services .romInit m world = .goto .printMessage m' world ∧
      m'.ax = word 0x0E#8 13#8 ∧ m'.si = romMessage + 1#16 ∧ m'.di = m.di ∧
      m'.sp = m.sp - 16#16 ∧ m'.ss = m.ss ∧ m'.ds = 0xC800#16 ∧ m'.direction = false ∧
      BusKept touched (selectWords (romInitBus m) 0#16 0#16) m'.bus := by
  obtain ⟨bx, flags, hcode⟩ := execAll_romInitCode hcall.cs hcall.settled
  obtain ⟨m₁, hservice, hkept⟩ := hbios.mode { m with
    ax := word 0x0F#8 (lo 0#16)
    bx
    dx := 0xD004#16
    sp := m.sp - 16#16
    ds := 0xC800#16
    es := 0x40#16
    flags
    bus := selectWords (romInitBus m) 0#16 0#16 } world (hi_word _ _)
  have hbyte : Bus.read m₁.bus (linear 0xC800#16 romMessage) = 13#8 :=
    (hcall.messageAt.kept hkept.bus).head
  have hdirection : m₁.direction = false := hkept.direction.trans hcall.direction
  refine ⟨{ m₁ with ax := word 0x0E#8 13#8, si := romMessage + 1#16 }, ?_, rfl, rfl, hkept.di,
    hkept.sp, hkept.ss, hkept.ds, hdirection, hkept.bus⟩
  change bootRoutines.execBlock services _ (romInitCode.map .core ++ _) m world = _
  rw [ServiceProgram.execBlock_core hcode]
  simp [bootRoutines, hservice, Machine.lodsb, hdirection, hkept.ds, hbyte]

end routine

/-! ## A BIOS for the message -/

/-- A video BIOS with a screen. -/
def screenBios : Services Host (List Byte) := fun n m text =>
  if n = 0x10#8 then some (m, if hi m.ax = 0x0E#8 then text ++ [lo m.ax] else text) else none

/-- It keeps what a video BIOS must. -/
theorem videoBios_screenBios : VideoBios screenBios fun _ => False where
  mode m text hfunction := by
    refine ⟨m, ?_, ⟨rfl, rfl, rfl, rfl, rfl, rfl, rfl, .refl _ _⟩⟩
    have hne : hi m.ax ≠ 0x0E#8 := by
      rw [hfunction]
      decide
    simp only [screenBios, if_true, if_neg hne]
  teletype m text hfunction := by
    refine ⟨m, ?_, ⟨rfl, rfl, rfl, rfl, rfl, rfl, rfl, .refl _ _⟩, rfl, rfl⟩
    simp only [screenBios, if_true, if_pos hfunction]

/-- The machine at the call of `rom_init`, with one fixed disk and the stack below `7000`. -/
def bootMachine : Machine Host where
  ax := 1#16
  bx := 2#16
  cx := 3#16
  dx := 4#16
  si := 5#16
  di := 6#16
  bp := 7#16
  sp := 0x7000#16
  cs := 0xC800#16
  ds := 8#16
  es := 9#16
  ss := 0#16
  flags := ⟨false, false, false, false⟩
  direction := false
  interrupt := true
  bus := {
    memory := fun a =>
      if a = 0x475 then 1#8 else if a < 0xC84CE then 0#8 else romMessageText.getD (a - 0xC84CE) 0#8
    image := fun _ => 0#8
    registers := ⟨0#32, false⟩
    diskData := 0 }

/-- It is a call of `rom_init`. -/
theorem romInitCall_bootMachine : RomInitCall (fun _ => False) bootMachine := by
  have hframe : ∀ a, InRomInitFrame bootMachine a → 0x6FF0 ≤ a ∧ a < 0x7004 := by
    rintro a ⟨i, hi, rfl⟩
    simp only [linear, bootMachine]
    bv_omega
  refine ⟨rfl, rfl, rfl, ⟨?_, fun _ _ => not_false⟩, ?_, ?_, fun _ _ => not_false⟩
  · intro i hi
    have haddress : linear 0xC800#16 (romMessage + BitVec.ofNat 16 i) = 0xC84CE + i := by
      have hi' : i < 78 := hi
      exact linear_add (by simp only [romMessage, BitVec.toNat_ofNat]; omega)
    have hmemory : ∀ i < 78, bootMachine.bus.memory (0xC84CE + i) =
        (romMessageText ++ [0#8]).getD i 0#8 := by
      decide
    rw [haddress, Host.read_eq, if_neg, hmemory i hi]
    have hi' : i < 78 := hi
    unfold InDiskWindow
    omega
  · intro a ha
    obtain ⟨hlow, hhigh⟩ := hframe a ha
    unfold InRomInitData InDiskWindow
    refine ⟨by omega, by omega, not_false⟩
  · intro a ha
    obtain ⟨hlow, hhigh⟩ := hframe a ha
    omega

section bootstrap

variable {services : Services Host (List Byte)} {touched : Nat → Prop} {m m₀ : Machine Host}
  {b : Host} {screen : List Byte}

/-- The stack that `int19h_handler` uses. -/
def InInt19hFrame (m : Machine Host) (a : Nat) : Prop :=
  ∃ i < 14, a = linear m.ss (m.sp - 14#16 + BitVec.ofNat 16 i)

/-- The bus with the stack frame of `int19h_handler`. -/
def int19hFrame (m : Machine Host) : Host :=
  let b := writeWord m.bus m.ss (m.sp - 2#16) m.bp
  let b := writeWord b m.ss (m.sp - 4#16) m.ax
  let b := writeWord b m.ss (m.sp - 6#16) m.bx
  let b := writeWord b m.ss (m.sp - 8#16) m.ds
  writeWord b m.ss (m.sp - 10#16) m.es

/-- The bus with the saved vector on top of it. -/
def int19hBus (m : Machine Host) : Host :=
  writeWord (writeWord (int19hFrame m) m.ss (m.sp - 12#16) (savedInt19h m.bus).1) m.ss
    (m.sp - 14#16) (savedInt19h m.bus).2

/-- A word of the frame is not read elsewhere. -/
theorem read_writeWord_int19hFrame {a : Nat} {i w : Word} (ha : ¬ InInt19hFrame m a)
    (hlow : 2 ≤ i.toNat) (hhigh : i.toNat ≤ 14) :
    Bus.read (writeWord b m.ss (m.sp - i) w) a = Bus.read b a := by
  apply read_writeWord_of_ne
  · rintro rfl
    refine ha ⟨14 - i.toNat, by omega, ?_⟩
    congr 1
    bv_omega
  · rintro rfl
    refine ha ⟨15 - i.toNat, by omega, ?_⟩
    congr 1
    bv_omega

/-- Outside the handler's frame, memory reads as before. -/
theorem read_int19hFrame {a : Nat} (ha : ¬ InInt19hFrame m a) :
    Bus.read (int19hFrame m) a = Bus.read m.bus a := by
  unfold int19hFrame
  rw [read_writeWord_int19hFrame ha (by decide) (by decide),
    read_writeWord_int19hFrame ha (by decide) (by decide),
    read_writeWord_int19hFrame ha (by decide) (by decide),
    read_writeWord_int19hFrame ha (by decide) (by decide),
    read_writeWord_int19hFrame ha (by decide) (by decide)]

/-- So it does once the loader's address is pushed. -/
theorem read_int19hBus {a : Nat} (ha : ¬ InInt19hFrame m a) :
    Bus.read (int19hBus m) a = Bus.read m.bus a := by
  rw [int19hBus, read_writeWord_int19hFrame ha (by decide) (by decide),
    read_writeWord_int19hFrame ha (by decide) (by decide), read_int19hFrame ha]

/-- **How the previous bootstrap loader starts**: where the saved vector says, with interrupts on and
the caller's registers but for `bp`; the frame of 10 bytes stays on the stack. -/
structure StartsBootstrap (m start : Machine Host) (ip : Word) : Prop where
  vector : (start.cs, ip) = savedInt19h m.bus
  registers : start = { m with
    bp := m.sp - 2#16
    sp := m.sp - 10#16
    cs := start.cs
    flags := start.flags
    interrupt := true
    bus := start.bus }
  memory : ∀ a, ¬ InInt19hFrame m a → Bus.read start.bus a = Bus.read m.bus a

/-- The frame reads back, and the saved vector is not in it. -/
structure Int19hStack (m : Machine Host) : Prop where
  segment : readWord (int19hFrame m) 0xC800#16 biosInt19hSegment = (savedInt19h m.bus).1
  offset : ∀ w, readWord (writeWord (int19hFrame m) m.ss (m.sp - 12#16) w) 0xC800#16
    biosInt19hOffset = (savedInt19h m.bus).2
  ax : readWord (int19hBus m) m.ss (m.sp - 4#16) = m.ax
  bx : readWord (int19hBus m) m.ss (m.sp - 6#16) = m.bx
  ds : readWord (int19hBus m) m.ss (m.sp - 8#16) = m.ds
  es : readWord (int19hBus m) m.ss (m.sp - 10#16) = m.es
  top : readWord (int19hBus m) m.ss (m.sp - 14#16) = (savedInt19h m.bus).2
  next : readWord (int19hBus m) m.ss (m.sp - 12#16) = (savedInt19h m.bus).1

/-- A frame apart from the saved vectors is read back as it was written. -/
theorem int19hStack (hframe : ∀ a, InInt19hFrame m a → ¬ (0xC84C9 ≤ a ∧ a < 0xC84CD)) :
    Int19hStack m := by
  have hread : ∀ a, 0xC84C9 ≤ a → a < 0xC84CD → Bus.read (int19hFrame m) a = Bus.read m.bus a :=
    fun a hlow hhigh => read_int19hFrame fun hin => hframe a hin ⟨hlow, hhigh⟩
  have hwrite : ∀ a w, 0xC84C9 ≤ a → a < 0xC84CD →
      Bus.read (writeWord (int19hFrame m) m.ss (m.sp - 12#16) w) a = Bus.read m.bus a := by
    intro a w hlow hhigh
    have hout : ¬ InInt19hFrame m a := fun hin => hframe a hin ⟨hlow, hhigh⟩
    rw [read_writeWord_int19hFrame hout (by decide) (by decide), read_int19hFrame hout]
  constructor
  case segment =>
    simp only [savedInt19h]
    rw [readWord, readWord, hread, hread] <;> decide
  case offset =>
    intro w
    simp only [savedInt19h]
    rw [readWord, readWord, hwrite, hwrite] <;> decide
  all_goals
    unfold int19hBus int19hFrame
    simp only [readWord_writeWord_self, readWord_writeWord_sub, ne_eq, BitVec.reduceEq,
      BitVec.reduceAdd, not_false_eq_true]

/-- The handler up to its `retf`. -/
theorem execAll_int19hHandler (hcs : m.cs = 0xC800#16) (hstack : Int19hStack m) :
    optionRom.execAll int19hHandler m = some { m with
      bp := m.sp - 2#16
      sp := m.sp - 14#16
      flags := (logic (0#16)).2
      interrupt := true
      bus := int19hBus m } := by
  have hframed : optionRom.execAll (int19hHandler.take 8) m = some { m with
      bp := m.sp - 2#16
      sp := m.sp - 10#16
      flags := (subb (m.sp - 2#16) 8#16).2
      interrupt := true
      bus := int19hFrame m } := by
    simp [int19hHandler, stackVar, int19hFrame, BitVec.sub_sub]
  rw [← List.take_append_drop 8 int19hHandler, Program.execAll_append hframed]
  have hbus : writeWord (writeWord (int19hFrame m) m.ss (m.sp - 12#16) (savedInt19h m.bus).1) m.ss
      (m.sp - 14#16) (savedInt19h m.bus).2 = int19hBus m := rfl
  simp [int19hHandler, stackVar, hcs, BitVec.sub_sub, hstack.segment, hstack.offset, hbus,
    hstack.ax, hstack.bx, hstack.ds, hstack.es]

/-- **A bootstrap request** after `rom_init` goes on to the loader that the vector named before. -/
theorem ensures_int19hHandler (hinit : Initialized touched m₀ b)
    (hsaved : savedInt19h m.bus = savedInt19h b) (hcs : m.cs = 0xC800#16)
    (hframe : ∀ a, InInt19hFrame m a → ¬ (0xC84C9 ≤ a ∧ a < 0xC84CD)) :
    bootRoutines.Ensures services .int19hHandler m screen fun ip start screen' =>
      screen' = screen ∧ StartsBootstrap m start ip ∧
        (start.cs, ip) = interruptVector m₀.bus 0x19#16 := by
  have hstack := int19hStack hframe
  have hnext : m.sp - 14#16 + 2#16 = m.sp - 12#16 ∧ m.sp - 14#16 + 4#16 = m.sp - 10#16 :=
    ⟨by bv_omega, by bv_omega⟩
  have hstep : bootRoutines.step services .int19hHandler m screen =
      .returned (savedInt19h m.bus).2 { m with
        bp := m.sp - 2#16
        sp := m.sp - 10#16
        cs := (savedInt19h m.bus).1
        flags := (logic (0#16)).2
        interrupt := true
        bus := int19hBus m } screen := by
    change bootRoutines.execBlock services _ (int19hHandler.map .core ++ _) m screen = _
    rw [ServiceProgram.execBlock_core (execAll_int19hHandler hcs hstack)]
    simp [hstack.top, hstack.next, hnext]
  refine .returned hstep ⟨rfl, ⟨rfl, rfl, fun a ha => read_int19hBus ha⟩, ?_⟩
  rw [← hinit.saved.2, ← hsaved]

/-- A bootstrap request right after `rom_init` on the machine with one fixed disk. -/
theorem ensures_int19hHandler_bootMachine :
    let m := { bootMachine with bus := selectWords (romInitBus bootMachine) 0#16 0#16 }
    bootRoutines.Ensures screenBios .int19hHandler m [] fun ip start screen' =>
      screen' = [] ∧ StartsBootstrap m start ip ∧
        (start.cs, ip) = interruptVector bootMachine.bus 0x19#16 := by
  intro m
  refine ensures_int19hHandler (romInitCall_bootMachine.initialized (.refl _ _)) rfl rfl ?_
  rintro a ⟨i, hi, rfl⟩
  simp only [m, linear, bootMachine]
  bv_omega

end bootstrap

end Ts3100
