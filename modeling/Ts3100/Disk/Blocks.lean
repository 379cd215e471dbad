import Ts3100.Library.RealMode.Safety
import Ts3100.Disk.OptionRom

/-! # What each block of the INT 13h handler does

One equation a block: the machine it leaves and the label it goes to, for the path of the virtual
disk's own transfer requests. The blocks that copy are stated over the machine `M` that their
`rep movsw` leaves. -/

namespace Ts3100

open RealMode

variable {t : Transfer} {m M : Machine Host}

/-! ## Entry: saving the caller's registers -/

/-- The bus once the handler has saved its caller's registers. -/
def savedBus (m : Machine Host) : Host :=
  let b := writeWord (writeWord m.bus m.ss (m.sp - 2#16) m.bp) m.ss (m.sp - 4#16) m.ax
  let b := writeWord (writeWord b m.ss (m.sp - 6#16) m.ds) m.ss (m.sp - 8#16) m.cx
  let b := writeWord (writeWord b m.ss (m.sp - 10#16) m.di) m.ss (m.sp - 12#16) m.dx
  writeWord b m.ss (m.sp - 14#16) m.si

/-- The stack frame of a handler entered with the machine `m` holds the registers of `m`. -/
structure SavedFrame (m : Machine Host) (b : Host) : Prop where
  bp : readWord b m.ss (m.sp - 2#16) = m.bp
  ax : readWord b m.ss (m.sp - 4#16) = m.ax
  ds : readWord b m.ss (m.sp - 6#16) = m.ds
  cx : readWord b m.ss (m.sp - 8#16) = m.cx
  di : readWord b m.ss (m.sp - 10#16) = m.di
  dx : readWord b m.ss (m.sp - 12#16) = m.dx
  si : readWord b m.ss (m.sp - 14#16) = m.si

/-- The saved bus holds the saved frame. -/
theorem savedFrame_savedBus (m : Machine Host) : SavedFrame m (savedBus m) := by
  constructor <;> simp [savedBus, readWord_writeWord_sub]

/-- `int13h_handler` dispatches a transfer request for the virtual disk. -/
theorem step_int13hHandler (hah : hi m.ax = t.function)
    (hdl : lo m.dx = Bus.read (savedBus m) (linear m.cs vdiskDrivenum)) :
    optionRom.step .int13hHandler m = .goto (.transfer t .entry) { m with
      bp := m.sp - 2#16
      sp := m.sp - 14#16
      ds := m.cs
      flags := (subb (hi m.ax) t.function).2
      interrupt := true
      bus := savedBus m } := by
  have hax := (savedFrame_savedBus m).ax
  unfold savedBus at hdl hax
  cases t <;>
    simp [Program.step, optionRom, int13hHandlerCode, stackVar, BitVec.sub_sub, savedBus, hax, hah,
      ← hdl]

/-! ## The address of the first sector -/

/-- `ax` after `add ax, dx`: the track `255 * C + H`. -/
def chsTrack (m : Machine Host) : Word := 255#16 * (hi m.cx).setWidth 16 + word 0#8 (hi m.dx)

/-- `dx:ax` after `mul dx`: the first sector of the track. -/
def chsProduct (m : Machine Host) : BitVec 32 := (chsTrack m).setWidth 32 * 63#32

/-- The low word of the LBA. -/
def chsLow (m : Machine Host) : Word :=
  (chsProduct m).extractLsb' 0 16 + word 0#8 (lo m.cx - 1#8)

/-- The high word of the LBA. -/
def chsHigh (m : Machine Host) : Word :=
  (addc ((chsProduct m).extractLsb' 16 16) 0#16
    (addc ((chsProduct m).extractLsb' 0 16) (word 0#8 (lo m.cx - 1#8)) false).2.carry).1

/-- The machine after the first block of a transfer function, up to `ax`, `dx` and the flags. -/
def chsMachine (t : Transfer) (m : Machine Host) : Machine Host :=
  { m.set t.buffer m.bx with
    bx := chsLow m &&& 0xFFF8#16
    cx := chsHigh m
    sp := m.sp - 2#16
    direction := false
    bus := writeWord m.bus m.ss (m.sp - 2#16) (chsLow m) }

section entry

variable {high low : Word}

/-- The instructions of a transfer function that compare the LBA register with `cx:bx`. -/
def lbaCheck (t : Transfer) : List (Instr Label) := (optionRom.code (.transfer t .entry)).drop 18

/-- The first block up to the comparison. -/
theorem step_entry (t : Transfer) (m : Machine Host) : optionRom.step (.transfer t .entry) m =
    optionRom.execBlock (.transfer t .entry) (lbaCheck t)
      { chsMachine t m with
        ax := chsLow m
        dx := 0xD000#16
        flags := (logic (chsLow m &&& 0xFFF8#16)).2 } := by
  have hall : optionRom.execAll ((optionRom.code (.transfer t .entry)).take 18) m =
      some { chsMachine t m with
        ax := chsLow m
        dx := 0xD000#16
        flags := (logic (chsLow m &&& 0xFFF8#16)).2 } := by
    cases t <;>
      simp [optionRom, handleAH02, handleAH03, transferCode, chsMachine, chsLow, chsHigh, chsProduct,
        chsTrack]
  rw [Program.step, ← List.take_append_drop 18 (optionRom.code (.transfer t .entry)),
    Program.execBlock_append hall]
  rfl

/-- The low word must be changed. -/
theorem execBlock_lbaCheck_low (hdx : m.dx = 0xD000#16)
    (hr : m.bus.registers = ⟨lbaOfWords high low, false⟩) (hlow : low ≠ m.bx) :
    optionRom.execBlock (.transfer t .entry) (lbaCheck t) m =
      .goto (.transfer t .outputLBALowWord)
        { m with
          ax := low
          flags := (subb low m.bx).2 } := by
  have hin := Host.inWord_lbaLow hr
  cases t <;> simp [lbaCheck, optionRom, handleAH02, handleAH03, transferCode, hdx, hin, hlow]

/-- The low word matches, and the high word is read. -/
theorem execAll_lbaCheck (hdx : m.dx = 0xD000#16)
    (hr : m.bus.registers = ⟨lbaOfWords high low, false⟩) (hlow : low = m.bx) :
    ∃ f, optionRom.execAll ((lbaCheck t).take 5) m =
      some { m with ax := high, dx := 0xD002#16, flags := f } := by
  have hin := Host.inWord_lbaLow hr
  have hin' := Host.inWord_lbaHigh hr
  refine ⟨(addc 0xD000#16 2#16 false).2, ?_⟩
  cases t <;>
    simp [lbaCheck, optionRom, handleAH02, handleAH03, transferCode, hdx, hin, hin', hlow]

/-- The low word matches, and the high word is compared. -/
theorem execBlock_lbaCheck (hdx : m.dx = 0xD000#16)
    (hr : m.bus.registers = ⟨lbaOfWords high low, false⟩) (hlow : low = m.bx) :
    optionRom.execBlock (.transfer t .entry) (lbaCheck t) m =
      if high = m.cx then
        .goto (.transfer t .skipLBA)
          { m with ax := high, dx := 0xD002#16, flags := (subb high m.cx).2 }
      else
        .goto (.transfer t .outputLBAHighWord)
          { m with ax := high, dx := 0xD002#16, flags := (subb high m.cx).2 } := by
  have hrest : (lbaCheck t).drop 5 =
      [ .alu .cmp (.reg .ax) (.reg .cx), .jcc .ne (.transfer t .outputLBAHighWord),
        .jmp (.transfer t .skipLBA) ] := by
    cases t <;> rfl
  obtain ⟨f, hall⟩ := execAll_lbaCheck (t := t) hdx hr hlow
  rw [← List.take_append_drop 5 (lbaCheck t), Program.execBlock_append hall, hrest]
  by_cases hhigh : high = m.cx <;> simp [hhigh]

/-- The first block where the low word must be changed. -/
theorem step_entry_low (hr : (chsMachine t m).bus.registers = ⟨lbaOfWords high low, false⟩)
    (hlow : low ≠ chsLow m &&& 0xFFF8#16) :
    optionRom.step (.transfer t .entry) m = .goto (.transfer t .outputLBALowWord)
      { chsMachine t m with
        ax := low
        dx := 0xD000#16
        flags := (subb low (chsLow m &&& 0xFFF8#16)).2 } := by
  rw [step_entry]
  exact execBlock_lbaCheck_low rfl hr hlow

/-- The first block where only the high word must be changed. -/
theorem step_entry_high (hr : (chsMachine t m).bus.registers = ⟨lbaOfWords high low, false⟩)
    (hlow : low = chsLow m &&& 0xFFF8#16) (hhigh : high ≠ chsHigh m) :
    optionRom.step (.transfer t .entry) m = .goto (.transfer t .outputLBAHighWord)
      { chsMachine t m with
        ax := high
        dx := 0xD002#16
        flags := (subb high (chsHigh m)).2 } := by
  rw [step_entry]
  exact Eq.trans (execBlock_lbaCheck rfl hr hlow) (if_neg hhigh)

/-- The first block where the LBA register already matches. -/
theorem step_entry_skip (hr : (chsMachine t m).bus.registers = ⟨lbaOfWords high low, false⟩)
    (hlow : low = chsLow m &&& 0xFFF8#16) (hhigh : high = chsHigh m) :
    optionRom.step (.transfer t .entry) m = .goto (.transfer t .skipLBA)
      { chsMachine t m with
        ax := high
        dx := 0xD002#16
        flags := (subb high (chsHigh m)).2 } := by
  rw [step_entry]
  exact Eq.trans (execBlock_lbaCheck rfl hr hlow) (if_pos hhigh)

end entry

/-! ## Selecting the first window -/

section select

variable {high low : Word}

/-- `.HandleAH0x_OutputLBALowWord`. -/
theorem step_outputLBALowWord (hdx : m.dx = 0xD000#16)
    (hr : m.bus.registers = ⟨lbaOfWords high low, false⟩) :
    optionRom.step (.transfer t .outputLBALowWord) m = .goto (.transfer t .outputLBAHighWord) { m with
      ax := m.bx
      dx := 0xD002#16
      flags := (addc 0xD000#16 2#16 false).2
      bus := { m.bus with registers := ⟨lbaOfWords high m.bx, false⟩ } } := by
  have hout := Host.outWord_lbaLow hr m.bx
  cases t <;>
    simp [Program.step, optionRom, handleAH02, handleAH03, transferCode, Label.next, hdx, hout]

/-- `.HandleAH0x_OutputLBAHighWord`. -/
theorem step_outputLBAHighWord (hdx : m.dx = 0xD002#16)
    (hr : m.bus.registers = ⟨lbaOfWords high low, false⟩) (hlow : low.toNat % 8 = 0) :
    optionRom.step (.transfer t .outputLBAHighWord) m = .goto (.transfer t .skipLBA) { m with
      ax := m.cx
      dx := 0xD004#16
      flags := (addc 0xD002#16 2#16 false).2
      bus := { m.bus with
        registers := ⟨lbaOfWords m.cx low, false⟩
        diskData := (m.cx.toNat * 65536 + low.toNat) * 512 } } := by
  have hout := Host.outWord_lbaHigh hr m.cx
  have hupdate := Host.outWord_update (h := { m.bus with registers := ⟨lbaOfWords m.cx low, false⟩ })
    rfl hlow m.cx
  cases t <;>
    simp [Program.step, optionRom, handleAH02, handleAH03, transferCode, Label.next, hdx, hout,
      hupdate]

end select

/-! ## Copying -/

/-- `ds` and `es` exchanged, for the function that exchanges them. -/
def swapped (t : Transfer) (m : Machine Host) : Machine Host :=
  match t with
  | .handleAH02 => m
  | .handleAH03 => { m with bx := m.es, dx := m.ds, es := m.ds, ds := m.es }

/-- The machine after `.HandleAH0x_SkipLBA` has restored the count to `bl` and the offset of the
first sector in its window to `ax`, up to the flags. -/
def offsetMachine (t : Transfer) (m : Machine Host) : Machine Host :=
  { swapped t m with
    ax := m.top &&& 0x0007#16
    bx := readWord m.bus m.ss (m.bp - 2#16)
    sp := m.sp + 2#16 }

/-- `.HandleAH0x_SkipLBA` where the first sector is the first of its window. -/
theorem step_skipLBA_aligned (hoff : m.top &&& 0x0007#16 = 0#16) :
    optionRom.step (.transfer t .skipLBA) m = .goto (.transfer t .skipAlignment)
      { offsetMachine t m with flags := (logic (m.top &&& 0x0007#16)).2 } := by
  simp only [Machine.top] at hoff
  cases t <;>
    simp [Program.step, optionRom, handleAH02, handleAH03, transferCode, swapDsEs, stackVar,
      offsetMachine, swapped, hoff]

/-- The number of sectors `.HandleAH0x_SkipLBA` decides to copy from the first window, for the
offset `off` in the window and the count `n`: the comparison is signed. -/
def headCount (off n : Byte) : Byte := if (8#8 - off).sle n then 8#8 - off else n

/-- `.HandleAH0x_SkipLBA` where the first sector is inside its window. -/
theorem step_skipLBA_unaligned (hoff : m.top &&& 0x0007#16 ≠ 0#16) :
    optionRom.step (.transfer t .skipLBA) m = .goto (.transfer t .startCopy)
      { offsetMachine t m with
        cx := word (headCount (lo (m.top &&& 0x0007#16)) (lo (readWord m.bus m.ss (m.bp - 2#16))))
          0#8
        flags := (subb (8#8 - lo (m.top &&& 0x0007#16))
          (lo (readWord m.bus m.ss (m.bp - 2#16)))).2 } := by
  by_cases hng : (8#8 - lo (m.top &&& 0x0007#16)).sle (lo (readWord m.bus m.ss (m.bp - 2#16))) <;>
    simp only [Machine.top] at hoff hng <;>
    cases t <;>
      simp [Program.step, optionRom, handleAH02, handleAH03, transferCode, swapDsEs, stackVar,
        offsetMachine, swapped, headCount, Label.next, hoff, hng]

/-- A copy inside a block. -/
theorem execBlock_repMovsw {p : Program Label} {l : Label} {is : List (Instr Label)}
    (hM : m.repMovsw = M) : p.execBlock l (.repMovsw :: is) m = p.execBlock l is M := by
  rw [← hM]
  rfl

/-- The machine at the `rep movsw` of `.HandleAH0x_StartCopy`. -/
def headMachine (t : Transfer) (m : Machine Host) : Machine Host :=
  { m.set t.window (0x1000#16 + word (lo m.ax <<< 1) 0#8) with
    ax := word (lo m.ax <<< 1) 0#8
    bx := word (hi m.bx) (lo m.bx - hi m.cx)
    flags := (addc 0x1000#16 (word (lo m.ax <<< 1) 0#8) false).2 }

/-- `.HandleAH0x_StartCopy`. -/
theorem step_startCopy (hM : (headMachine t m).repMovsw = M) :
    optionRom.step (.transfer t .startCopy) m =
      if lo M.bx = 0#8 then
        .goto (.transfer t .finishCopy) { M with flags := (logic (lo M.bx)).2 }
      else
        .goto .incrementLBA ({ M with flags := (logic (lo M.bx)).2 }.push
          (Label.transfer t .skipAlignment).offset) := by
  by_cases hbl : lo M.bx = 0#8 <;>
    cases t <;>
      simp [headMachine] at hM <;>
      simp [Program.step, optionRom, handleAH02, handleAH03, transferCode, hM, hbl]

/-- The machine at the `rep movsw` of `.HandleAH0x_SkipAlignment`. -/
def windowMachine (t : Transfer) (m : Machine Host) : Machine Host :=
  { m.set t.window 0x1000#16 with
    cx := 2048#16
    flags := (logic (lo m.bx &&& 0xF8#8)).2 }

/-- `.HandleAH0x_SkipAlignment` where a whole window is left. -/
theorem step_skipAlignment (hbl : lo m.bx &&& 0xF8#8 ≠ 0#8) (hM : (windowMachine t m).repMovsw = M) :
    optionRom.step (.transfer t .skipAlignment) m =
      if lo M.bx = 8#8 then
        .goto (.transfer t .finishCopy)
          { M with bx := word (hi M.bx) (lo M.bx - 8#8), flags := (subb (lo M.bx) 8#8).2 }
      else
        .goto .incrementLBA
          ({ M with bx := word (hi M.bx) (lo M.bx - 8#8), flags := (subb (lo M.bx) 8#8).2 }.push
            (Label.transfer t .nextBlock).offset) := by
  have hall : optionRom.execAll ((optionRom.code (.transfer t .skipAlignment)).take 4) m =
      some (windowMachine t m) := by
    cases t <;> simp [optionRom, handleAH02, handleAH03, transferCode, windowMachine, hbl]
  have hrest : (optionRom.code (.transfer t .skipAlignment)).drop 4 =
      [ .repMovsw, .alu8 .sub (.reg .bl) (.imm 8#8), .jcc .e (.transfer t .finishCopy),
        .call .incrementLBA (.transfer t .nextBlock) ] := by
    cases t <;> rfl
  -- the copy is never unfolded, only named
  rw [Program.step, ← List.take_append_drop 4 (optionRom.code (.transfer t .skipAlignment)),
    Program.execBlock_append hall, hrest, execBlock_repMovsw hM]
  by_cases hlast : lo M.bx = 8#8 <;> simp [optionRom, hlast]

/-- `.HandleAH0x_SkipAlignment` where less than a window is left. -/
theorem step_skipAlignment_last (hbl : lo m.bx &&& 0xF8#8 = 0#8) :
    optionRom.step (.transfer t .skipAlignment) m =
      .goto (.transfer t .lastCopy) { m with flags := (logic (lo m.bx &&& 0xF8#8)).2 } := by
  cases t <;> simp [Program.step, optionRom, handleAH02, handleAH03, transferCode, hbl]

/-- The `jmp` after the second `call IncrementLBA`. -/
theorem step_nextBlock :
    optionRom.step (.transfer t .nextBlock) m = .goto (.transfer t .skipAlignment) m := by
  cases t <;> rfl

/-- The machine at the `rep movsw` of `.HandleAH0x_LastCopy`. -/
def tailMachine (t : Transfer) (m : Machine Host) : Machine Host :=
  { m.set t.window 0x1000#16 with
    cx := word (lo m.bx) 0#8
    flags := (logic (lo m.cx ^^^ lo m.cx)).2 }

/-- `.HandleAH0x_LastCopy`. -/
theorem step_lastCopy (hM : (tailMachine t m).repMovsw = M) :
    optionRom.step (.transfer t .lastCopy) m = .goto (.transfer t .finishCopy) M := by
  cases t <;>
    simp [tailMachine] at hM <;>
    simp [Program.step, optionRom, handleAH02, handleAH03, transferCode, Label.next, hM]

/-! ## Leaving -/

/-- `.HandleAH0x_FinishCopy`: the result in the saved `ax`, and the carry flag clear. -/
theorem step_finishCopy :
    optionRom.step (.transfer t .finishCopy) m = .goto .finishInt13hHandler
      { swapped t m with
        ax := word 0#8 (lo (readWord m.bus m.ss (m.bp - 2#16)))
        flags := { (logic 0#8).2 with carry := false }
        bus := writeWord m.bus m.ss (m.bp - 2#16)
          (word 0#8 (lo (readWord m.bus m.ss (m.bp - 2#16)))) } := by
  cases t <;>
    simp [Program.step, optionRom, handleAH02, handleAH03, transferCode, swapDsEs, stackVar, swapped]

/-- `.FinishInt13hHandler`: restore the registers and return past the flags. -/
theorem step_finishInt13hHandler :
    optionRom.step .finishInt13hHandler m = .returned (readWord m.bus m.ss (m.bp + 2#16)) { m with
      ax := readWord m.bus m.ss (m.bp - 2#16)
      ds := readWord m.bus m.ss (m.bp - 4#16)
      cx := readWord m.bus m.ss (m.bp - 6#16)
      di := readWord m.bus m.ss (m.bp - 8#16)
      dx := readWord m.bus m.ss (m.bp - 10#16)
      si := readWord m.bus m.ss (m.bp - 12#16)
      bp := readWord m.bus m.ss m.bp
      sp := m.bp + 2#16 + 6#16
      cs := readWord m.bus m.ss (m.bp + 2#16 + 2#16) } := by
  simp [Program.step, optionRom, finishInt13hHandlerCode, stackVar]

/-! ## The next window -/

section increment

variable {high low : Word}

/-- The bus after the two pushes of `IncrementLBA`. -/
def pushedBus (m : Machine Host) : Host :=
  writeWord (writeWord m.bus m.ss (m.sp - 2#16) m.dx) m.ss (m.sp - 4#16) m.ax

/-- The host with the LBA register set and its page mapped. -/
def selectWords (h : Host) (high low : Word) : Host :=
  { h with
    registers := ⟨lbaOfWords high low, false⟩
    diskData := (high.toNat * 65536 + low.toNat) * 512 }

/-- `IncrementLBA` adds 8 to the low word and leaves the high word: the `add dx, 2` between `add`
and `adc` clears the carry. -/
theorem step_incrementLBA {l : Label} (hr : (pushedBus m).registers = ⟨lbaOfWords high low, false⟩)
    (hlow : low.toNat % 8 = 0) (h₀ : Host.WordOutside m.ss m.sp)
    (h₂ : Host.WordOutside m.ss (m.sp - 2#16)) (h₄ : Host.WordOutside m.ss (m.sp - 4#16))
    (hret : optionRom.labelAt m.top = some l) :
    optionRom.step .incrementLBA m = .goto l { m with
      sp := m.sp + 2#16
      flags := (addc 0xD002#16 2#16 false).2
      bus := selectWords (pushedBus m) high (low + 8#16) } := by
  have hin := Host.inWord_lbaLow hr
  have hout := Host.outWord_lbaLow hr (low + 8#16)
  have hin' := Host.inWord_lbaHigh
    (h := { pushedBus m with registers := ⟨lbaOfWords high (low + 8#16), false⟩ }) rfl
  have hout' := Host.outWord_lbaHigh
    (h := { pushedBus m with registers := ⟨lbaOfWords high (low + 8#16), false⟩ }) rfl high
  have hupdate := Host.outWord_update
    (h := { pushedBus m with registers := ⟨lbaOfWords high (low + 8#16), false⟩ }) rfl
    (by bv_omega) high
  have hax : readWord (pushedBus m) m.ss (m.sp - 4#16) = m.ax := by
    simp [pushedBus]
  have hdx : readWord (pushedBus m) m.ss (m.sp - 2#16) = m.dx := by
    simp [pushedBus, readWord_writeWord_sub]
  have htop : readWord (pushedBus m) m.ss m.sp = m.top := by
    simp only [pushedBus, Machine.top]
    rw [readWord_writeWord_of_ne (by bv_omega) (by bv_omega) (by bv_omega),
      readWord_writeWord_of_ne (by bv_omega) (by bv_omega) (by bv_omega)]
  have hpop (x : Word) : x - 4#16 + 2#16 = x - 2#16 := by bv_omega
  simp only [optionRom, Machine.top] at hret htop
  simp only [pushedBus] at *
  simp [Program.step, optionRom, incrementLBACode, BitVec.sub_sub, selectWords, hin, hout, hin',
    hout', hupdate, Host.readWord_remapped, h₀, h₂, h₄, hax, hdx, htop, hpop, hret]

end increment

end Ts3100
