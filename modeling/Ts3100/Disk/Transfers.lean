import Ts3100.Disk.Int13h

/-! # When INT 13h transfers the right sectors

`ReadsSectors` and `WritesSectors` say what functions 02h and 03h are for. Each holds for every disk
content exactly when the request meets `NoOverrun` (the signed comparison of the head of the
transfer does not take 128 sectors for a negative count) and `NoLostCarry` (the request does not
cross sector 65536, where `IncrementLBA` loses the carry): `readsSectors_iff`, `writesSectors_iff`. -/

namespace Ts3100

open RealMode

/-! ## What the functions are for -/

/-- Entered with `m₀`, the handler returns with the sectors of the request in the buffer, and
nothing else changed outside its stack frame. -/
def ReadsSectors (m₀ : Machine Host) : Prop :=
  optionRom.Ensures .int13hHandler m₀ fun _ m =>
    (∀ j < 512 * sectorCount m₀,
      m.bus.memory (buffer m₀ + j) = m₀.bus.image (firstSector m₀ * 512 + j)) ∧
    (∀ a, ¬ InFrame m₀ a → ¬ InBuffer m₀ a → m.bus.memory a = m₀.bus.memory a) ∧
    m.bus.image = m₀.bus.image

/-- Entered with `m₀`, the handler returns with the buffer in the sectors of the request, every
other sector as it was, and the ROM's own 4 KiB of code and data as they were. -/
def WritesSectors (m₀ : Machine Host) : Prop :=
  optionRom.Ensures .int13hHandler m₀ fun _ m =>
    (∀ j < 512 * sectorCount m₀,
      m.bus.image (firstSector m₀ * 512 + j) = m₀.bus.memory (buffer m₀ + j)) ∧
    (∀ x, ¬ (firstSector m₀ * 512 ≤ x ∧ x < (firstSector m₀ + sectorCount m₀) * 512) →
      m.bus.image x = m₀.bus.image x) ∧
    ∀ a, 0xC8000 ≤ a → a < 0xC9000 → m.bus.memory a = m₀.bus.memory a

/-- The request of `m₀` on a disk with the content `disk`. -/
def withImage (m₀ : Machine Host) (disk : Nat → Byte) : Machine Host :=
  { m₀ with bus := { m₀.bus with image := disk } }

/-- The request does not ask for 128 sectors from the middle of a window. -/
def NoOverrun (m₀ : Machine Host) : Prop := sectorCount m₀ ≤ 127 ∨ firstSector m₀ % 8 = 0

/-- The request does not cross sector 65536. -/
def NoLostCarry (m₀ : Machine Host) : Prop :=
  ¬ (firstSector m₀ < 65536 ∧ 65536 < firstSector m₀ + sectorCount m₀)

instance (m₀ : Machine Host) : Decidable (NoOverrun m₀) := inferInstanceAs (Decidable (_ ∨ _))

instance (m₀ : Machine Host) : Decidable (NoLostCarry m₀) := inferInstanceAs (Decidable (¬ _))

variable {t : Transfer} {m₀ : Machine Host}

/-- A transfer request does not depend on the disk content. -/
theorem TransferRequest.withImage (req : TransferRequest t m₀) (disk : Nat → Byte) :
    TransferRequest t (withImage m₀ disk) where
  cs := req.cs
  function := req.function
  drive := req.drive
  count := req.count
  cylinder := req.cylinder
  head := req.head
  sector := req.sector
  selects := by
    obtain ⟨high, low, hselects⟩ := req.selects
    exact ⟨high, low, hselects.registers, hselects.diskData⟩
  bufferEnd := req.bufferEnd
  bufferInRam := req.bufferInRam
  frameInRam := req.frameInRam
  frameApart := req.frameApart

/-- A byte of the buffer is not in the frame. -/
theorem TransferRequest.buffer_not_inFrame (req : TransferRequest t m₀) {j : Nat}
    (hj : j < 512 * sectorCount m₀) : ¬ InFrame m₀ (buffer m₀ + j) := by
  intro hin
  refine (req.frameOutside _ hin).2 ?_
  unfold InBuffer
  omega

/-! ## Requests that are served -/

/-- Where no carry is lost, the handler reaches the sectors it was asked for. -/
theorem sectorByte_eq (req : TransferRequest t m₀) (hcarry : NoLostCarry m₀) {j : Nat}
    (hj : j < 512 * sectorCount m₀) :
    sectorByte (firstSector m₀) j = firstSector m₀ * 512 + j := by
  have hlt := firstSector_lt req
  have hn := req.count
  unfold NoLostCarry at hcarry
  rw [sectorByte, wrapSector_eq (by omega) (by omega)]
  omega

/-- A read that reaches neither defect reads its sectors. -/
theorem readsSectors (req : TransferRequest .handleAH02 m₀) (hover : NoOverrun m₀)
    (hcarry : NoLostCarry m₀) : ReadsSectors m₀ := by
  refine (ensures_finished req hover).mono fun _ m hm => ?_
  obtain ⟨himage, hmemory⟩ := hm.transferred
  refine ⟨fun j hj => ?_, fun a hframe hbuffer => ?_, himage⟩
  · rw [hmemory _ (req.buffer_not_inFrame hj), fill_add hj, sectorByte_eq req hcarry hj]
  · rw [hmemory a hframe]
    exact fill_of_notMem hbuffer

/-- A write that reaches neither defect writes its sectors. -/
theorem writesSectors (req : TransferRequest .handleAH03 m₀) (hover : NoOverrun m₀)
    (hcarry : NoLostCarry m₀) : WritesSectors m₀ := by
  refine (ensures_finished req hover).mono fun _ m hm => ?_
  obtain ⟨hmemory, hdone, hother⟩ := hm.transferred
  refine ⟨fun j hj => ?_, fun x hx => hother x fun j hj heq => ?_, fun a hlow hhigh => ?_⟩
  · rw [← sectorByte_eq req hcarry hj]
    exact hdone j hj
  · rw [sectorByte_eq req hcarry hj] at heq
    omega
  · refine hmemory a fun hin => (req.frameOutside a hin).1 ?_
    unfold InOptionRom
    omega

/-- A byte is not the one after it. -/
theorem byte_ne_succ (b : Byte) : b + 1#8 ≠ b := by
  intro h
  bv_omega

/-! ## Requests that cross sector 65536 -/

/-- The byte of the request at which sector 65536 begins is looked for at the start of the disk. -/
theorem sectorByte_lostCarry {L n : Nat} (h : L < 65536 ∧ 65536 < L + n) :
    sectorByte L (512 * (65536 - L)) = 0 := by
  unfold sectorByte wrapSector
  omega

/-- Where sector 65536 is in a transfer that reaches it. -/
theorem byte_of_sector65536 {L : Nat} (h : L < 65536) :
    L * 512 + 512 * (65536 - L) = 65536 * 512 := by
  omega

/-- A request that crosses sector 65536 does not read it. -/
theorem not_readsSectors_of_lostCarry (req : TransferRequest .handleAH02 m₀)
    (hover : NoOverrun m₀) (hcross : ¬ NoLostCarry m₀)
    (hdisk : m₀.bus.image (65536 * 512) ≠ m₀.bus.image 0) : ¬ ReadsSectors m₀ := by
  intro hreads
  have hcross' := not_not.mp hcross
  have hj : 512 * (65536 - firstSector m₀) < 512 * sectorCount m₀ := by omega
  have hboth := (ensures_finished req hover).and hreads
  refine Program.Ensures.false_elim (hboth.mono fun _ m hm => hdisk ?_)
  obtain ⟨hfinished, hread, -, -⟩ := hm
  have hright := hread _ hj
  obtain ⟨-, hmemory⟩ := hfinished.transferred
  have hwrong := hmemory _ (req.buffer_not_inFrame hj)
  rw [fill_add hj, sectorByte_lostCarry hcross'] at hwrong
  rw [byte_of_sector65536 hcross'.1] at hright
  exact hright.symm.trans hwrong

/-- A request that crosses sector 65536 does not write it. -/
theorem not_writesSectors_of_lostCarry (req : TransferRequest .handleAH03 m₀)
    (hover : NoOverrun m₀) (hcross : ¬ NoLostCarry m₀)
    (hdisk : m₀.bus.image (65536 * 512) ≠
      m₀.bus.memory (buffer m₀ + 512 * (65536 - firstSector m₀))) : ¬ WritesSectors m₀ := by
  intro hwrites
  have hcross' := not_not.mp hcross
  have hn := req.count
  have hj : 512 * (65536 - firstSector m₀) < 512 * sectorCount m₀ := by omega
  have hboth := (ensures_finished req hover).and hwrites
  refine Program.Ensures.false_elim (hboth.mono fun _ m hm => hdisk ?_)
  obtain ⟨hfinished, hwrite, -, -⟩ := hm
  have hright := hwrite _ hj
  obtain ⟨-, -, hother⟩ := hfinished.transferred
  -- no byte of the transfer lands in sector 65536
  have hmissed := hother (65536 * 512) fun j hj heq => by
    unfold sectorByte wrapSector at heq
    omega
  rw [byte_of_sector65536 hcross'.1] at hright
  exact hmissed.symm.trans hright

/-! ## Requests for 128 sectors from the middle of a window -/

/-- As a signed byte, a count of 128 is below every number of sectors left in a window. -/
theorem headCount_128 {off : Byte} (hoff : 1 ≤ off.toNat ∧ off.toNat < 8) :
    headCount off 128#8 = 128#8 := by
  have hsub : (8#8 - off).toNat = 8 - off.toNat := by bv_omega
  have hgt : ¬ (8#8 - off).sle 128#8 = true := by
    rw [BitVec.sle_iff_toInt_le, BitVec.toInt_eq_toNat_of_lt (by omega), hsub]
    have : (128#8).toInt = -128 := by decide
    omega
  rw [headCount, if_neg hgt]

/-- The copy a request for 128 sectors from the middle of a window starts with: 64 KiB from the
offset of the first sector in its window on. -/
structure Overrun (t : Transfer) (m₀ H : Machine Host) : Prop where
  copying : Copying t m₀ 0 H
  window : H.get t.window = 0x1000#16 + BitVec.ofNat 16 (512 * (firstSector m₀ % 8))
  count : H.cx.toNat = 32768
  shows : ShowsSector (firstSector m₀) H.bus

/-- From `.HandleAH0x_StartCopy` on, with 128 sectors to copy in one go. -/
theorem ensures_startCopy_overrun {m : Machine Host} (hm : Copying t m₀ 0 m)
    (hshows : ShowsSector (firstSector m₀) m.bus) (hoff : (lo m.ax).toNat = firstSector m₀ % 8)
    (hcx : m.cx = word 128#8 0#8) (hbl : lo m.bx = 128#8) :
    optionRom.Ensures (.transfer t .startCopy) m fun _ m' =>
      ∃ H, Overrun t m₀ H ∧ ∃ w, m'.bus =
        writeWord (Machine.movswTimes 32768 H).bus m₀.ss (m₀.sp - 4#16) w := by
  -- `H` stands before `rep movsw`, with its count still in bytes: 128 sectors give 0x8000
  obtain ⟨H, hH⟩ : ∃ H, headMachine t m = H := ⟨_, rfl⟩
  have hcopying : Copying t m₀ 0 H := hH ▸ hm.update _ _ _ _ _ _
  have hcount : H.cx.toNat = 32768 := by
    have hsame : H.cx = m.cx := by
      rw [← hH]
      cases t <;> rfl
    rw [hsame, hcx]
    decide
  have hwindow : H.get t.window = 0x1000#16 + BitVec.ofNat 16 (512 * (firstSector m₀ % 8)) := by
    have hword := toNat_shl_word (show (lo m.ax).toNat < 8 by omega)
    have hget : H.get t.window = 0x1000#16 + word (lo m.ax <<< 1) 0#8 := by
      rw [← hH]
      cases t <;> rfl
    rw [hget]
    congr 1
    apply BitVec.eq_of_toNat_eq
    rw [hword, hoff, BitVec.toNat_ofNat]
    omega
  -- all 128 sectors are taken off at once, so the copy is the last one
  have hbx : lo H.bx = 0#8 := by
    have hsame : H.bx = word (hi m.bx) (lo m.bx - hi m.cx) := by
      rw [← hH]
      cases t <;> rfl
    rw [hsame, lo_word, hbl, hcx, hi_word]
    decide
  have hshows' : ShowsSector (firstSector m₀) H.bus := by
    rw [← hH]
    cases t <;> exact hshows
  have hregisters := Machine.repMovsw_registers hcopying.direction
  obtain ⟨M, hM⟩ : ∃ M, H.repMovsw = M := ⟨_, rfl⟩
  rw [hM, hcount] at hregisters
  have hstep := step_startCopy (t := t) (hH ▸ hM)
  have hbx' : lo M.bx = 0#8 := by
    rw [hregisters]
    exact hbx
  rw [if_pos hbx'] at hstep
  refine Program.Ensures.goto hstep (Program.Ensures.goto step_finishCopy
    (Program.Ensures.returned step_finishInt13hHandler
      ⟨H, ⟨hcopying, hwindow, hcount, hshows'⟩,
        word 0#8 (lo (readWord M.bus M.ss (M.bp - 2#16))), ?_⟩))
  have hss : M.ss = m₀.ss := by
    rw [hregisters]
    exact hcopying.ss
  have hbp : M.bp - 2#16 = m₀.sp - 4#16 := by
    have hsame : M.bp = m₀.sp - 2#16 := by
      rw [hregisters]
      exact hcopying.bp
    rw [hsame, BitVec.sub_sub]
    rfl
  have hbus : M.bus = (Machine.movswTimes 32768 H).bus := by rw [hregisters]
  rw [← hss, ← hbp, ← hbus]

/-- Such a request makes this one copy, and then returns. -/
theorem ensures_overrun (req : TransferRequest t m₀) (hover : ¬ NoOverrun m₀) :
    optionRom.Ensures .int13hHandler m₀ fun _ m =>
      ∃ H, Overrun t m₀ H ∧ ∃ w, m.bus =
        writeWord (Machine.movswTimes 32768 H).bus m₀.ss (m₀.sp - 4#16) w := by
  refine ensures_int13hHandler req fun m hm => ?_
  have hn := req.count
  unfold NoOverrun at hover
  have hoff := hm.toNat_offset
  have hlo := hm.toNat_lo_offset
  have hnonzero : m.top &&& 0x0007#16 ≠ 0#16 := by
    intro hzero
    rw [hzero] at hoff
    exact hover (Or.inr hoff.symm)
  have hal : lo m₀.ax = 128#8 := by
    apply BitVec.eq_of_toNat_eq
    show sectorCount m₀ = 128
    omega
  have hstep := step_skipLBA_unaligned (t := t) hnonzero
  rw [hm.saved_ax, hal, headCount_128 (by omega)] at hstep
  refine Program.Ensures.goto hstep
    (ensures_startCopy_overrun (hm.copying _ _) ?_ ?_ rfl ?_)
  · cases t <;> exact hm.shows
  · exact hlo
  · show lo (readWord m.bus m.ss (m.bp - 2#16)) = 128#8
    rw [hm.saved_ax, hal]

/-- A request for 128 sectors from the middle of a window does not read them all. -/
theorem not_readsSectors_of_overrun (req : TransferRequest .handleAH02 m₀)
    (hover : ¬ NoOverrun m₀)
    (hdisk : m₀.bus.image (firstSector m₀ * 512 + (61440 - 512 * (firstSector m₀ % 8))) ≠
      m₀.bus.memory 0xC8000) : ¬ ReadsSectors m₀ := by
  intro hreads
  have hn := req.count
  have hend := req.bufferEnd
  have hover' : sectorCount m₀ = 128 ∧ firstSector m₀ % 8 ≠ 0 := by
    unfold NoOverrun at hover
    omega
  obtain ⟨k, hk⟩ : ∃ k, k = 30720 - 256 * (firstSector m₀ % 8) := ⟨_, rfl⟩
  have hbyte : 61440 - 512 * (firstSector m₀ % 8) = 2 * k := by omega
  rw [hbyte] at hdisk
  refine Program.Ensures.false_elim (((ensures_overrun req hover).and hreads).mono ?_)
  rintro _ m ⟨⟨H, hH, w, hbus⟩, hread, -, -⟩
  have hright := hread (2 * k) (by omega)
  refine hdisk (hright.symm.trans ?_)
  obtain ⟨hds, hes⟩ := Prod.mk.inj hH.copying.segments
  have hdi : H.di = m₀.bx := by
    have hpointer := hH.copying.pointer
    rwa [Nat.mul_zero, BitVec.add_zero] at hpointer
  have hdest : linear H.es H.di = buffer m₀ := by rw [hes, hdi, buffer]
  have hdst : H.di.toNat + 2 * 32768 ≤ 65536 := by
    rw [hdi]
    omega
  -- the source offset has wrapped to the start of the ROM
  have hsource : linear H.ds (H.si + BitVec.ofNat 16 (2 * k)) = 0xC8000 := by
    have hsi : H.si + BitVec.ofNat 16 (2 * k) = 0#16 := by
      have hwindow : H.si = 0x1000#16 + BitVec.ofNat 16 (512 * (firstSector m₀ % 8)) := hH.window
      rw [hwindow]
      apply BitVec.eq_of_toNat_eq
      simp only [BitVec.toNat_add, BitVec.toNat_ofNat]
      omega
    rw [hsi, hds]
    rfl
  have hcopied := Machine.read_movswTimes_word (k := k) hH.copying.direction hdst (by omega)
  rw [hdest, hsource] at hcopied
  have hrom : ¬ InDiskWindow 0xC8000 := by
    unfold InDiskWindow
    omega
  have hromFrame : ¬ InFrame m₀ 0xC8000 := by
    intro hin
    have hout := (req.frameOutside _ hin).1
    unfold InOptionRom at hout
    omega
  have hdisjoint := req.buffer_disjoint
  have hbuffer : ¬ InDiskWindow (buffer m₀ + 2 * k) := by
    unfold InDiskWindow
    omega
  have hold : Bus.read (Machine.movswTimes k H).bus 0xC8000 = Bus.read H.bus 0xC8000 :=
    Machine.read_movswTimes_of_notMem hH.copying.direction (by omega) (by rw [hdest]; omega)
  rw [hold, Host.read_eq, Host.read_eq, if_neg hrom, if_neg hbuffer,
    hH.copying.transferred.2 _ hromFrame, Nat.mul_zero, fill_zero] at hcopied
  rw [hbus, (req.frame.sameOutsideFrame_writeWord (i := 4) (by omega) (by omega) _ w).memory _
    (req.buffer_not_inFrame (by omega)), hcopied]

/-- A request for 128 sectors from the middle of a window does not write them all. The copy goes on past
the window, over the ROM's own code too, so that the machine need not even come back. -/
theorem not_writesSectors_of_overrun (req : TransferRequest .handleAH03 m₀)
    (hover : ¬ NoOverrun m₀)
    (hdisk : m₀.bus.image (firstSector m₀ * 512 + 512 * (8 - firstSector m₀ % 8)) ≠
      m₀.bus.memory (buffer m₀ + 512 * (8 - firstSector m₀ % 8))) : ¬ WritesSectors m₀ := by
  intro hwrites
  have hn := req.count
  have hover' : sectorCount m₀ = 128 ∧ firstSector m₀ % 8 ≠ 0 := by
    unfold NoOverrun at hover
    omega
  refine Program.Ensures.false_elim (((ensures_overrun req hover).and hwrites).mono ?_)
  rintro _ m ⟨⟨H, hH, w, hbus⟩, hwrite, -, -⟩
  have hright := hwrite (512 * (8 - firstSector m₀ % 8)) (by omega)
  refine hdisk (Eq.trans ?_ hright)
  -- the copy reaches the image only through the first window
  have hlt := firstSector_lt req
  have hdata := hH.shows.diskData (by omega)
  have hkeeps : m.bus.diskData = H.bus.diskData ∧
      ∀ x, ¬ (H.bus.diskData ≤ x ∧ x < H.bus.diskData + 4096) → m.bus.image x = H.bus.image x := by
    have hwrite (b : Host) (a : Nat) (v : Byte) (hb : b.diskData = H.bus.diskData ∧
        ∀ x, ¬ (H.bus.diskData ≤ x ∧ x < H.bus.diskData + 4096) → b.image x = H.bus.image x) :
        (Bus.write b a v).diskData = H.bus.diskData ∧
          ∀ x, ¬ (H.bus.diskData ≤ x ∧ x < H.bus.diskData + 4096) →
            (Bus.write b a v).image x = H.bus.image x := by
      obtain ⟨-, hd, hi⟩ := Host.write_keeps b a v
      exact ⟨hd.trans hb.1, fun x hx => (hi x (by rw [hb.1]; exact hx)).trans (hb.2 x hx)⟩
    rw [hbus]
    exact hwrite _ _ _ (hwrite _ _ _
      (Machine.movswTimes_bus_induction hwrite ⟨rfl, fun _ _ => rfl⟩))
  rw [hkeeps.2 _ (by omega), hH.copying.transferred.2.2 _ (by simp)]

/-! ## Exactly when -/

/-- **When INT 13h AH=02h reads the right sectors**, whatever is on the disk: it is not asked for
128 sectors from the middle of a window, nor for sectors on both sides of sector 65536. -/
theorem readsSectors_iff (req : TransferRequest .handleAH02 m₀) :
    (∀ disk, ReadsSectors (withImage m₀ disk)) ↔ NoOverrun m₀ ∧ NoLostCarry m₀ := by
  constructor
  · intro hreads
    have hover : NoOverrun m₀ := by
      by_contra hover
      refine not_readsSectors_of_overrun (req.withImage fun _ => m₀.bus.memory 0xC8000 + 1#8) hover
        (byte_ne_succ _) (hreads _)
    refine ⟨hover, ?_⟩
    by_contra hcross
    refine not_readsSectors_of_lostCarry (req.withImage fun x => if x = 0 then 0#8 else 1#8) hover
      hcross ?_ (hreads _)
    simp [withImage]
  · rintro ⟨hover, hcarry⟩ disk
    exact readsSectors (req.withImage disk) hover hcarry

/-- A request for `n` sectors from `c`/`h`/`s` on: buffer at `1000:0000`, stack below `0000:7C00`, the
first window selected, drive number `80`, and a disk with the content `image`. -/
def sampleRequest (t : Transfer) (n c h s : Byte) (image : Nat → Byte) : Machine Host where
  ax := word t.function n
  bx := 0#16
  cx := word c s
  dx := word h 0x80#8
  si := 0#16
  di := 0#16
  bp := 0#16
  sp := 0x7C00#16
  cs := 0xC800#16
  ds := 0#16
  es := 0x1000#16
  ss := 0#16
  flags := {}
  direction := false
  interrupt := true
  bus :=
    { memory := fun a => if a = 0xC84CD then 0x80#8 else 0#8
      image := image
      registers := ⟨lbaOfWords 0#16 0#16, false⟩
      diskData := 0 }

/-- Its frame is in the first 64 KiB. -/
theorem inFrame_sample (t : Transfer) (n c h s : Byte) (image : Nat → Byte) (a : Nat)
    (ha : InFrame (sampleRequest t n c h s image) a) : a < 65536 := by
  obtain ⟨i, -, -, heq⟩ := ha
  have hoffset := ((sampleRequest t n c h s image).sp - BitVec.ofNat 16 i).isLt
  have hss : (sampleRequest t n c h s image).ss.toNat = 0 := rfl
  rw [heq, linear, hss]
  omega

/-- It is a transfer request. -/
theorem transferRequest_sample {n c h s : Byte} {image : Nat → Byte}
    (hn : 1 ≤ n.toNat ∧ n.toNat ≤ 128) (hc : c.toNat ≤ 7) (hh : h.toNat ≤ 254)
    (hs : 1 ≤ s.toNat ∧ s.toNat ≤ 63) : TransferRequest t (sampleRequest t n c h s image) := by
  have hcount : sectorCount (sampleRequest t n c h s image) = n.toNat := by
    simp [sectorCount, sampleRequest]
  have hbuffer : buffer (sampleRequest t n c h s image) = 65536 := by
    simp [buffer, linear, sampleRequest]
  have hframe := inFrame_sample t n c h s image
  refine ⟨rfl, hi_word _ _, ?_, hcount ▸ hn, ?_, ?_, ?_, ⟨0#16, 0#16, rfl, rfl⟩, ?_, ?_, ?_, ?_⟩
  · simp [sampleRequest]
  · simpa [sampleRequest] using hc
  · simpa [sampleRequest] using hh
  · simpa [sampleRequest] using hs
  · rw [hcount]
    have hbx : (sampleRequest t n c h s image).bx.toNat = 0 := rfl
    omega
  · intro a ha
    unfold InBuffer at ha
    unfold lowMemorySize
    omega
  · intro a ha
    have hlt := hframe a ha
    unfold lowMemorySize
    omega
  · intro a ha
    have hlt := hframe a ha
    unfold InBuffer
    omega

/-- Reading the first sector of a disk of `FF` works. -/
theorem readsSectors_iff_first :
    ReadsSectors (withImage (sampleRequest .handleAH02 1#8 0#8 0#8 1#8 fun _ => 0#8) fun _ => 0xFF#8) :=
  (readsSectors_iff (transferRequest_sample (by decide) (by decide) (by decide) (by decide))).mpr
    ⟨by decide, by decide⟩ _

/-- **Reading two sectors from sector 65535 on fails**: the second one read is sector 0. The disk holds
`01` at the start of sector 65536 and `00` elsewhere. -/
theorem not_readsSectors : ¬ ∀ m₀, TransferRequest .handleAH02 m₀ → ReadsSectors m₀ := by
  intro hclaim
  have req : TransferRequest .handleAH02 (sampleRequest .handleAH02 2#8 4#8 20#8 16#8
      fun x => if x = 33554432 then 1#8 else 0#8) :=
    transferRequest_sample (by decide) (by decide) (by decide) (by decide)
  refine not_readsSectors_of_lostCarry req (by decide) (by decide) ?_
    (hclaim _ req)
  simp [sampleRequest]

/-- **When INT 13h AH=03h writes exactly the requested sectors**, whatever is on the disk: under the
same two conditions. -/
theorem writesSectors_iff (req : TransferRequest .handleAH03 m₀) :
    (∀ disk, WritesSectors (withImage m₀ disk)) ↔ NoOverrun m₀ ∧ NoLostCarry m₀ := by
  constructor
  · intro hwrites
    have hover : NoOverrun m₀ := by
      by_contra hover
      exact not_writesSectors_of_overrun (req.withImage fun _ =>
        m₀.bus.memory (buffer m₀ + 512 * (8 - firstSector m₀ % 8)) + 1#8) hover (byte_ne_succ _)
        (hwrites _)
    refine ⟨hover, ?_⟩
    by_contra hcross
    exact not_writesSectors_of_lostCarry (req.withImage fun _ =>
      m₀.bus.memory (buffer m₀ + 512 * (65536 - firstSector m₀)) + 1#8) hover hcross
      (byte_ne_succ _) (hwrites _)
  · rintro ⟨hover, hcarry⟩ disk
    exact writesSectors (req.withImage disk) hover hcarry

/-- Writing the first sector of a disk of `FF` works. -/
theorem writesSectors_iff_first :
    WritesSectors
      (withImage (sampleRequest .handleAH03 1#8 0#8 0#8 1#8 fun _ => 0#8) fun _ => 0xFF#8) :=
  (writesSectors_iff (transferRequest_sample (by decide) (by decide) (by decide) (by decide))).mpr
    ⟨by decide, by decide⟩ _

/-- **Writing two sectors from sector 65535 on fails**: the second one written is sector 0. The buffer
holds `00`, the disk `FF`. -/
theorem not_writesSectors : ¬ ∀ m₀, TransferRequest .handleAH03 m₀ → WritesSectors m₀ := by
  intro hclaim
  have req : TransferRequest .handleAH03 (sampleRequest .handleAH03 2#8 4#8 20#8 16#8
      fun _ => 0xFF#8) :=
    transferRequest_sample (by decide) (by decide) (by decide) (by decide)
  have hfirst : firstSector (sampleRequest .handleAH03 2#8 4#8 20#8 16#8 fun _ => 0xFF#8) = 65535 := by
    decide
  refine not_writesSectors_of_lostCarry req (by decide) (by decide) ?_ (hclaim _ req)
  rw [hfirst]
  simp [sampleRequest, buffer, linear]

end Ts3100
