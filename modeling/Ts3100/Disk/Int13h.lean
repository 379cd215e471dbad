import Ts3100.Disk.Copying
import Ts3100.Disk.Rounds

/-! # The transfer functions of INT 13h

From the entry of the handler to its far return, for a transfer request with at most 127 sectors or
an aligned first sector: the handler terminates, has transferred every sector of the request to the
place `wrapSector` names, and returns with the caller's registers (`ensures_finished`). -/

namespace Ts3100

open RealMode

variable {t : Transfer} {m₀ m : Machine Host} {k : Nat}

/-! ## Leaving -/

/-- What the handler leaves to a caller it was entered by with `m₀`. -/
structure Finished (t : Transfer) (m₀ m : Machine Host) : Prop where
  transferred : Transferred t m₀ (sectorCount m₀) m.bus
  ax : m.ax = word 0#8 (lo m₀.ax)
  carry : m.flags.carry = false
  cx : m.cx = m₀.cx
  dx : m.dx = m₀.dx
  si : m.si = m₀.si
  di : m.di = m₀.di
  bp : m.bp = m₀.bp
  sp : m.sp = m₀.sp + 6#16
  ds : m.ds = m₀.ds
  es : m.es = m₀.es
  ss : m.ss = m₀.ss

/-- How the handler returns to a caller it was entered by with `m₀`: without an error, with results in
`cx` and `dx`, and with what it has saved of the other registers. -/
structure Returned (m₀ : Machine Host) (cx dx : Word) (m : Machine Host) : Prop where
  ax : m.ax = word 0#8 (lo m₀.ax)
  carry : m.flags.carry = false
  cx : m.cx = cx
  dx : m.dx = dx
  si : m.si = m₀.si
  di : m.di = m₀.di
  bp : m.bp = m₀.bp
  sp : m.sp = m₀.sp + 6#16
  ds : m.ds = m₀.ds
  es : m.es = m₀.es
  ss : m.ss = m₀.ss

/-- The value `bx` has once the segments are exchanged back. -/
def finalBx (t : Transfer) (m : Machine Host) : Word := (swapped t m).bx

/-- From `.HandleAH0x_FinishCopy` on the handler returns with what is in its frame. -/
theorem ensures_finishCopy_of_saved (hss : m.ss = m₀.ss) (hbp : m.bp = m₀.sp - 2#16)
    (hsegments : (m.ds, m.es) = match t with
      | .handleAH02 => (0xC800#16, m₀.es)
      | .handleAH03 => (m₀.es, 0xC800#16)) (hsaved : SavedFrame m₀ m.bus) :
    optionRom.Ensures (.transfer t .finishCopy) m fun _ m' =>
      Returned m₀ m₀.cx m₀.dx m' ∧ m'.bx = finalBx t m ∧
        m'.bus = writeWord m.bus m₀.ss (m₀.sp - 4#16) (word 0#8 (lo m₀.ax)) := by
  refine Program.Ensures.goto step_finishCopy (Program.Ensures.returned step_finishInt13hHandler ?_)
  -- the saved registers, read back past the store to the saved `ax`
  have hread {j w : Word} (hj : j = 2#16 ∨ j = 6#16 ∨ j = 8#16 ∨ j = 10#16 ∨ j = 12#16 ∨ j = 14#16) :
      readWord (writeWord m.bus m₀.ss (m₀.sp - 4#16) w) m₀.ss (m₀.sp - j) =
        readWord m.bus m₀.ss (m₀.sp - j) := by
    rcases hj with rfl | rfl | rfl | rfl | rfl | rfl <;> exact readWord_writeWord_sub
      (by decide) (by decide) (by decide)
  cases t with
  | handleAH02 =>
    obtain ⟨-, hes⟩ := Prod.mk.inj hsegments
    refine ⟨?_, rfl, ?_⟩
    · constructor <;>
        simp [swapped, hss, hbp, hes, BitVec.sub_sub, hread, hsaved.ax, hsaved.bp, hsaved.ds,
          hsaved.cx, hsaved.di, hsaved.dx, hsaved.si]
    · simp [hss, hbp, BitVec.sub_sub, hsaved.ax]
  | handleAH03 =>
    obtain ⟨hds, -⟩ := Prod.mk.inj hsegments
    refine ⟨?_, rfl, ?_⟩
    · constructor <;>
        simp [swapped, hss, hbp, hds, BitVec.sub_sub, hread, hsaved.ax, hsaved.bp, hsaved.ds,
          hsaved.cx, hsaved.di, hsaved.dx, hsaved.si]
    · simp [hss, hbp, BitVec.sub_sub, hsaved.ax]

/-- From `.HandleAH0x_FinishCopy` on the handler returns. -/
theorem ensures_finishCopy (req : TransferRequest t m₀) (hm : Copying t m₀ (sectorCount m₀) m) :
    optionRom.Ensures (.transfer t .finishCopy) m fun _ m' => Finished t m₀ m' := by
  refine (ensures_finishCopy_of_saved hm.ss hm.bp hm.segments hm.saved).mono ?_
  rintro _ m' ⟨hr, -, hbus⟩
  have hsame := req.frame.sameOutsideFrame_writeWord (i := 4) (by omega) (by omega) m.bus
    (word 0#8 (lo m₀.ax))
  refine ⟨?_, hr.ax, hr.carry, hr.cx, hr.dx, hr.si, hr.di, hr.bp, hr.sp, hr.ds, hr.es, hr.ss⟩
  rw [hbus]
  exact hm.transferred.sameOutsideFrame hsame

/-! ## The rounds -/

/-- The data registers, the window pointer and the flags are not part of the invariant. -/
theorem Copying.update (hm : Copying t m₀ k m) (ax bx cx dx w : Word) (f : Flags) :
    Copying t m₀ k { m.set t.window w with ax := ax, bx := bx, cx := cx, dx := dx, flags := f } := by
  have hpointer := hm.pointer
  cases t <;>
    exact ⟨hm.cs, hm.ss, hm.bp, hm.sp, hm.segments, hm.direction, hpointer, hm.saved,
      hm.transferred⟩

/-- Where a copy stands does not depend on `bx` and the flags. -/
theorem Copying.set_bx_flags (hm : Copying t m₀ k m) (w : Word) (f : Flags) :
    Copying t m₀ k { m with bx := w, flags := f } := by
  cases t <;> exact hm.update _ w _ _ _ f

/-- The sector after a window. -/
theorem wrapSector_next {L k c : Nat} (h : wrapSector L k % 8 + c = 8) :
    wrapSector L (k + c) / 65536 = wrapSector L k / 65536 ∧
      wrapSector L (k + c) % 65536 / 8 * 8 = (wrapSector L k % 65536 / 8 * 8 + 8) % 65536 ∧
      wrapSector L (k + c) % 8 = 0 := by
  unfold wrapSector at *
  omega

/-- What holds of a transfer where the window shows the next sector. -/
def AtSector (t : Transfer) (m₀ : Machine Host) (k : Nat) (m : Machine Host) : Prop :=
  Copying t m₀ k m ∧ ShowsSector (wrapSector (firstSector m₀) k) m.bus

/-- What holds of a transfer after a copy of `c` sectors from the `j`-th on. -/
def AfterCopy (t : Transfer) (m₀ : Machine Host) (k : Nat) (m : Machine Host) : Prop :=
  Copying t m₀ k m ∧ ∃ j c, j + c = k ∧ 1 ≤ c ∧ wrapSector (firstSector m₀) j % 8 + c ≤ 8 ∧
    ShowsSector (wrapSector (firstSector m₀) j) m.bus

/-- The offset of a sector in its window. -/
theorem add_mod_eq_wrapSector (L k : Nat) : (L % 8 + k) % 8 = wrapSector L k % 8 := by
  unfold wrapSector
  omega

/-- Copies inside one window and calls of `IncrementLBA` transfer the request. -/
theorem transferRules (req : TransferRequest t m₀) :
    TransferRules t (firstSector m₀ % 8) (sectorCount m₀) (fun _ => True) (AtSector t m₀)
      (AfterCopy t m₀) where
  bus _ := trivial
  push _ _ := trivial
  update hm ax bx cx dx w f := by
    refine ⟨hm.1.update ax bx cx dx w f, ?_⟩
    cases t <;> exact hm.2
  updateDone hm bx f := ⟨hm.1.set_bx_flags bx f, hm.2⟩
  copy := by
    intro k c m hm hcx hwindow hpos hfit hkc
    rw [add_mod_eq_wrapSector] at hwindow hfit
    obtain ⟨hdone, hshows, hbx⟩ := hm.1.repMovsw req hcx hwindow hm.2 hpos hfit hkc
    exact ⟨⟨hdone, k, c, rfl, hpos, hfit, hshows⟩, hbx⟩
  increment := by
    rintro k m l ⟨hm, j, c, rfl, hpos, hfit, hshows⟩ haligned hret
    rw [add_mod_eq_wrapSector] at haligned
    obtain ⟨hhigh, hlow, -⟩ := wrapSector_next (L := firstSector m₀) (k := j) (c := c) (by
      unfold wrapSector at *
      omega)
    obtain ⟨m', hincrement, hcopying, hshows', hbx⟩ := hm.incrementLBA req hshows hhigh hlow hret
    exact ⟨m', hincrement, ⟨hcopying, hshows'⟩, hbx⟩

/-! ## The first window -/

/-- Masking three bits is shifting them out and zeros in. -/
theorem and_FFF8 (w : Word) : w &&& 0xFFF8#16 = (w >>> 3) <<< 3 := by
  ext i hi
  interval_cases i <;> simp

/-- The low word of the window a sector is in. -/
theorem toNat_and_FFF8 (w : Word) : (w &&& 0xFFF8#16).toNat = w.toNat / 8 * 8 := by
  have hw := w.isLt
  rw [and_FFF8, BitVec.toNat_shiftLeft, BitVec.toNat_ushiftRight, Nat.shiftLeft_eq,
    Nat.shiftRight_eq_div_pow]
  omega

/-- The handler entered with `m₀` has selected the first window, and the low word of the first
sector is on the stack. -/
structure Located (t : Transfer) (m₀ m : Machine Host) : Prop where
  cs : m.cs = 0xC800#16
  ss : m.ss = m₀.ss
  bp : m.bp = m₀.sp - 2#16
  sp : m.sp = m₀.sp - 16#16
  ds : m.ds = 0xC800#16
  es : m.es = m₀.es
  direction : m.direction = false
  pointer : m.get t.buffer = m₀.bx
  top : readWord m.bus m₀.ss (m₀.sp - 16#16) = BitVec.ofNat 16 (firstSector m₀)
  saved : SavedFrame m₀ m.bus
  transferred : Transferred t m₀ 0 m.bus
  shows : ShowsSector (firstSector m₀) m.bus

/-- Once the first window is selected, the segments are set up for the copy. -/
theorem Located.copying (hm : Located t m₀ m) (cx : Word) (f : Flags) :
    Copying t m₀ 0 { offsetMachine t m with cx := cx, flags := f } := by
  have hpointer := hm.pointer
  have hsp : m.sp + 2#16 = m₀.sp - 14#16 := by
    rw [hm.sp]
    bv_omega
  have hcs := hm.cs
  have hds := hm.ds
  have hes := hm.es
  cases t with
  | handleAH02 =>
    exact ⟨hcs, hm.ss, hm.bp, hsp, Prod.ext hds hes, hm.direction,
      by rw [Nat.mul_zero, BitVec.add_zero]; exact hpointer, hm.saved, hm.transferred⟩
  | handleAH03 =>
    exact ⟨hcs, hm.ss, hm.bp, hsp, Prod.ext hes hds, hm.direction,
      by rw [Nat.mul_zero, BitVec.add_zero]; exact hpointer, hm.saved, hm.transferred⟩

/-- The offset of the first sector in its window, popped off the stack. -/
theorem Located.toNat_offset (hm : Located t m₀ m) :
    (m.top &&& 0x0007#16).toNat = firstSector m₀ % 8 := by
  have htop : m.top = BitVec.ofNat 16 (firstSector m₀) := by
    rw [Machine.top, hm.ss, hm.sp]
    exact hm.top
  rw [toNat_and_7, htop, BitVec.toNat_ofNat]
  omega

/-- The offset of the first sector in its window, as `bl` gets it. -/
theorem Located.toNat_lo_offset (hm : Located t m₀ m) :
    (lo (m.top &&& 0x0007#16)).toNat = firstSector m₀ % 8 := by
  rw [toNat_lo, hm.toNat_offset]
  omega

/-- The count, read back from the stack frame. -/
theorem Located.saved_ax (hm : Located t m₀ m) : readWord m.bus m.ss (m.bp - 2#16) = m₀.ax := by
  rw [hm.ss, hm.bp, BitVec.sub_sub]
  exact hm.saved.ax

/-- From `.HandleAH0x_SkipLBA` on. -/
theorem ensures_skipLBA (req : TransferRequest t m₀) (hm : Located t m₀ m)
    (hok : sectorCount m₀ ≤ 127 ∨ firstSector m₀ % 8 = 0) :
    optionRom.Ensures (.transfer t .skipLBA) m fun _ m' => Finished t m₀ m' := by
  refine ((transferRules req).ensures_skipLBA (fun cx f => ⟨hm.copying cx f, ?_⟩) hm.toNat_offset
    (by rw [hm.saved_ax, sectorCount]) req.count.1 hok
    fun m' hm' _ => (ensures_finishCopy req hm'.1).ensuresIn).ensures
  rw [wrapSector_zero]
  cases t <;> exact hm.shows

/-! ## The entry -/

/-- The machine at the entry of the transfer function. -/
def dispatched (t : Transfer) (m₀ : Machine Host) : Machine Host :=
  { m₀ with
    bp := m₀.sp - 2#16
    sp := m₀.sp - 14#16
    ds := m₀.cs
    flags := (subb (hi m₀.ax) t.function).2
    interrupt := true
    bus := savedBus m₀ }

section entry

variable {high low : Word} {b : Host}

/-- Saving the registers leaves the drive number. -/
theorem FrameOutside.read_drive (hframe : FrameOutside m₀) (hcs : m₀.cs = 0xC800#16) :
    Bus.read (savedBus m₀) (linear m₀.cs vdiskDrivenum) = m₀.bus.memory 0xC84CD := by
  have haddr : linear m₀.cs vdiskDrivenum = 0xC84CD := by
    rw [hcs]
    rfl
  have hout : ¬ InDiskWindow 0xC84CD := by
    unfold InDiskWindow
    omega
  have hdrive : ¬ InFrame m₀ 0xC84CD := by
    intro hin
    have := hframe _ hin
    unfold InOptionRom at this
    omega
  rw [haddr, Host.read_eq, if_neg hout, hframe.sameOutsideFrame_savedBus.memory _ hdrive]

/-- The bus at the entry of the transfer function, after the low word of the LBA is pushed. -/
theorem chsMachine_bus (t : Transfer) (m₀ : Machine Host) :
    (chsMachine t (dispatched t m₀)).bus =
      writeWord (savedBus m₀) m₀.ss (m₀.sp - 16#16) (chsLow m₀) := by
  show writeWord (savedBus m₀) m₀.ss (m₀.sp - 14#16 - 2#16) (chsLow m₀) = _
  rw [BitVec.sub_sub]
  rfl

/-- Up to there the handler writes only to its frame. -/
theorem FrameOutside.sameOutsideFrame_chsMachine (hframe : FrameOutside m₀) (t : Transfer) :
    SameOutsideFrame m₀ m₀.bus (chsMachine t (dispatched t m₀)).bus := by
  rw [chsMachine_bus]
  exact hframe.sameOutsideFrame_savedBus.trans
    (hframe.sameOutsideFrame_writeWord (i := 16) (by omega) (by omega) _ _)

/-- The saved registers, and on top of the stack the low word of the LBA, whatever the disk registers
are. -/
theorem FrameOutside.chsMachine_frame (hframe : FrameOutside m₀)
    (hmemory : b.memory = (chsMachine t (dispatched t m₀)).bus.memory) :
    SavedFrame m₀ b ∧ readWord b m₀.ss (m₀.sp - 16#16) = chsLow m₀ := by
  have hsaved : SavedFrame m₀ (chsMachine t (dispatched t m₀)).bus := by
    rw [chsMachine_bus]
    exact (savedFrame_savedBus m₀).writeWord_below (by decide)
  have htop : readWord (chsMachine t (dispatched t m₀)).bus m₀.ss (m₀.sp - 16#16) = chsLow m₀ := by
    rw [chsMachine_bus, readWord_writeWord_self]
  have hsame : ∀ a, InFrame m₀ a → b.memory a = _ := fun a _ => congrFun hmemory a
  exact ⟨hframe.savedFrame_of_memory hsaved hsame,
    (hframe.readWord_frame (i := 16) (by omega) (by omega) hsame).trans htop⟩

/-- The low word that is written is a multiple of 8. -/
theorem chsLow_aligned (m : Machine Host) : (chsLow m &&& 0xFFF8#16).toNat % 8 = 0 := by
  rw [toNat_and_FFF8]
  omega

/-- **The entry.** Whatever the LBA register holds, the handler reaches `.HandleAH0x_SkipLBA` with
the register at the window of the first sector; if the window showed the selected page before, it
does so there. Up to there only the frame is written, so that a property of the rest of memory holds
at every label. -/
theorem FrameOutside.ensuresIn_skipLBA (hframe : FrameOutside m₀) (hcs : m₀.cs = 0xC800#16)
    (hfunction : hi m₀.ax = t.function) (hdrive : lo m₀.dx = m₀.bus.memory 0xC84CD)
    (hr : m₀.bus.registers = ⟨lbaOfWords high low, false⟩) {K : Host → Prop}
    {Q : Word → Machine Host → Prop}
    (hK : ∀ b : Host, (∀ a, ¬ InFrame m₀ a → b.memory a = m₀.bus.memory a) → K b)
    (hrest : ∀ ax dx f b, b.memory = (chsMachine t (dispatched t m₀)).bus.memory →
      b.image = (chsMachine t (dispatched t m₀)).bus.image →
      b.registers = ⟨lbaOfWords (chsHigh m₀) (chsLow m₀ &&& 0xFFF8#16), false⟩ →
      (m₀.bus.Selects high low → b.Selects (chsHigh m₀) (chsLow m₀ &&& 0xFFF8#16)) →
      optionRom.EnsuresIn K Q (.transfer t .skipLBA)
        { chsMachine t (dispatched t m₀) with ax := ax, dx := dx, flags := f, bus := b }) :
    optionRom.EnsuresIn K Q .int13hHandler m₀ := by
  have hsame := hframe.sameOutsideFrame_chsMachine t
  have hr' := hsame.registers.trans hr
  have hmultiple := chsLow_aligned m₀
  have hentry : K (dispatched t m₀).bus := hK _ hframe.sameOutsideFrame_savedBus.memory
  have hpushed {b : Host} (hb : b.memory = (chsMachine t (dispatched t m₀)).bus.memory) : K b :=
    hK b fun a ha => (congrFun hb a).trans (hsame.memory a ha)
  refine .goto (hK _ fun _ _ => rfl)
    (step_int13hHandler hfunction (hdrive.trans (hframe.read_drive hcs).symm)) ?_
  show optionRom.EnsuresIn K Q (.transfer t .entry) (dispatched t m₀)
  by_cases hlowEq : low = chsLow m₀ &&& 0xFFF8#16
  · by_cases hhighEq : high = chsHigh m₀
    · -- the register already matches
      refine .goto hentry (step_entry_skip hr' hlowEq hhighEq)
        (hrest _ _ _ _ rfl rfl ?_ fun hselects => ⟨?_, ?_⟩)
      · rw [← hlowEq, ← hhighEq]
        exact hr'
      · rw [← hlowEq, ← hhighEq]
        exact hr'
      · rw [← hlowEq, ← hhighEq, hsame.diskData]
        exact hselects.diskData
    · -- only the high word differs
      refine .goto hentry (step_entry_high hr' hlowEq hhighEq) (.goto (hpushed rfl)
        (step_outputLBAHighWord rfl hr' (hlowEq ▸ hmultiple)) (hrest _ _ _ _ rfl rfl ?_ fun _ => ?_))
      · rw [← hlowEq]
        rfl
      · rw [← hlowEq]
        exact ⟨rfl, rfl⟩
  · -- the low word differs, and the high word is written whether it does or not
    exact .goto hentry (step_entry_low hr' hlowEq) (.goto (hpushed rfl)
      (step_outputLBALowWord rfl hr') (.goto (hpushed rfl)
        (step_outputLBAHighWord rfl rfl hmultiple) (hrest _ _ _ _ rfl rfl rfl fun _ => ⟨rfl, rfl⟩)))

/-- The entry, where nothing is asked on the way. -/
theorem FrameOutside.ensures_skipLBA (hframe : FrameOutside m₀) (hcs : m₀.cs = 0xC800#16)
    (hfunction : hi m₀.ax = t.function) (hdrive : lo m₀.dx = m₀.bus.memory 0xC84CD)
    (hr : m₀.bus.registers = ⟨lbaOfWords high low, false⟩) {Q : Word → Machine Host → Prop}
    (hrest : ∀ ax dx f b, b.memory = (chsMachine t (dispatched t m₀)).bus.memory →
      b.image = (chsMachine t (dispatched t m₀)).bus.image →
      b.registers = ⟨lbaOfWords (chsHigh m₀) (chsLow m₀ &&& 0xFFF8#16), false⟩ →
      (m₀.bus.Selects high low → b.Selects (chsHigh m₀) (chsLow m₀ &&& 0xFFF8#16)) →
      optionRom.Ensures (.transfer t .skipLBA)
        { chsMachine t (dispatched t m₀) with ax := ax, dx := dx, flags := f, bus := b } Q) :
    optionRom.Ensures .int13hHandler m₀ Q :=
  (hframe.ensuresIn_skipLBA hcs hfunction hdrive hr (fun _ _ => trivial)
    fun ax dx f b hmemory himage hregisters hselects =>
      (hrest ax dx f b hmemory himage hregisters hselects).ensuresIn).ensures

end entry

/-- Once the window shows the first sector, and nothing else has changed, the handler is at
`.HandleAH0x_SkipLBA` as it should be. -/
theorem located (req : TransferRequest t m₀) {b : Host} (ax dx : Word) (f : Flags)
    (hmemory : b.memory = (chsMachine t (dispatched t m₀)).bus.memory)
    (himage : b.image = (chsMachine t (dispatched t m₀)).bus.image)
    (hshows : ShowsSector (firstSector m₀) b) :
    Located t m₀ { chsMachine t (dispatched t m₀) with ax := ax, dx := dx, flags := f, bus := b } := by
  obtain ⟨hsaved, htop⟩ := req.frame.chsMachine_frame hmemory
  rw [(chs_eq req).1] at htop
  have htransferred : Transferred t m₀ 0 b := by
    have hzero := transferred_zero (t := t) (req.frame.sameOutsideFrame_chsMachine t)
    cases t with
    | handleAH02 => exact ⟨himage.trans hzero.1, fun a ha => hmemory ▸ hzero.2 a ha⟩
    | handleAH03 =>
      exact ⟨fun a ha => hmemory ▸ hzero.1 a ha, by simp, fun x hx => himage ▸ hzero.2.2 x hx⟩
  have hsp : m₀.sp - 14#16 - 2#16 = m₀.sp - 16#16 := by bv_omega
  cases t with
  | handleAH02 =>
    exact ⟨req.cs, rfl, rfl, hsp, req.cs, rfl, rfl, rfl, htop, hsaved, htransferred, hshows⟩
  | handleAH03 =>
    exact ⟨req.cs, rfl, rfl, hsp, req.cs, rfl, rfl, rfl, htop, hsaved, htransferred, hshows⟩

/-- For a transfer request, the window of the first sector is selected at `.HandleAH0x_SkipLBA`. -/
theorem ensures_int13hHandler (req : TransferRequest t m₀)
    {Q : Word → Machine Host → Prop}
    (hrest : ∀ m, Located t m₀ m → optionRom.Ensures (.transfer t .skipLBA) m Q) :
    optionRom.Ensures .int13hHandler m₀ Q := by
  obtain ⟨high, low, hselects⟩ := req.selects
  obtain ⟨hlow, hhigh⟩ := chs_eq req
  have haligned : chsLow m₀ &&& 0xFFF8#16 = BitVec.ofNat 16 (firstSector m₀ % 65536 / 8 * 8) := by
    apply BitVec.eq_of_toNat_eq
    rw [toNat_and_FFF8, hlow, BitVec.toNat_ofNat, BitVec.toNat_ofNat]
    omega
  refine req.frame.ensures_skipLBA req.cs req.function req.drive hselects.registers
    fun ax dx f b hmemory himage _ hshows => hrest _ (located req ax dx f hmemory himage ?_)
  have hshown := hshows hselects
  rwa [haligned, hhigh] at hshown

/-- **A transfer request is served**: with at most 127 sectors, or an aligned first sector, the
handler returns with every sector transferred and the caller's registers restored. -/
theorem ensures_finished (req : TransferRequest t m₀)
    (hok : sectorCount m₀ ≤ 127 ∨ firstSector m₀ % 8 = 0) :
    optionRom.Ensures .int13hHandler m₀ fun _ m => Finished t m₀ m :=
  ensures_int13hHandler req fun _ hm => ensures_skipLBA req hm hok

end Ts3100
