import Ts3100.Disk.Sectors

/-! # The state of a transfer between its blocks

`Copying t m₀ k m` says that the machine `m` is inside the transfer function `t` of a handler entered
with `m₀`, with `k` sectors done. This file shows what keeps it: the handler's own stack writes
(`SameOutsideFrame`), a `rep movsw` inside one window (`Copying.repMovsw`), and `IncrementLBA`
(`Copying.incrementLBA`). -/

namespace Ts3100

open RealMode

variable {t : Transfer} {m₀ m : Machine Host} {k : Nat} {h h' : Host}

/-! ## The stack frame -/

/-- The hosts differ only in the handler's stack frame. -/
structure SameOutsideFrame (m₀ : Machine Host) (h h' : Host) : Prop where
  image : h'.image = h.image
  registers : h'.registers = h.registers
  diskData : h'.diskData = h.diskData
  memory : ∀ a, ¬ InFrame m₀ a → h'.memory a = h.memory a

/-- What is the same twice is the same. -/
theorem SameOutsideFrame.trans {h'' : Host} (h₁ : SameOutsideFrame m₀ h h')
    (h₂ : SameOutsideFrame m₀ h' h'') : SameOutsideFrame m₀ h h'' where
  image := h₂.image.trans h₁.image
  registers := h₂.registers.trans h₁.registers
  diskData := h₂.diskData.trans h₁.diskData
  memory a ha := (h₂.memory a ha).trans (h₁.memory a ha)

section frame

variable {i : Nat}

/-- Both bytes of a word of the frame are in the frame. -/
theorem inFrame_word (m₀ : Machine Host) (hlow : 2 ≤ i) (hhigh : i ≤ 20) :
    InFrame m₀ (linear m₀.ss (m₀.sp - BitVec.ofNat 16 i)) ∧
      InFrame m₀ (linear m₀.ss (m₀.sp - BitVec.ofNat 16 i + 1#16)) := by
  have hnext : m₀.sp - BitVec.ofNat 16 i + 1#16 = m₀.sp - BitVec.ofNat 16 (i - 1) := by bv_omega
  exact ⟨⟨i, by omega, hhigh, rfl⟩, ⟨i - 1, by omega, by omega, by rw [hnext]⟩⟩

/-- The window is in the option ROM. -/
theorem not_inDiskWindow_of_not_inOptionRom {a : Nat} (ha : ¬ InOptionRom a) : ¬ InDiskWindow a := by
  unfold InOptionRom at ha
  unfold InDiskWindow
  omega

section outside

variable (hframe : FrameOutside m₀)

include hframe

/-- A word of the frame is outside the disk window. -/
theorem FrameOutside.wordOutside (hlow : 2 ≤ i) (hhigh : i ≤ 20) :
    Host.WordOutside m₀.ss (m₀.sp - BitVec.ofNat 16 i) := by
  obtain ⟨h₀, h₁⟩ := inFrame_word m₀ hlow hhigh
  exact ⟨not_inDiskWindow_of_not_inOptionRom (hframe _ h₀),
    not_inDiskWindow_of_not_inOptionRom (hframe _ h₁)⟩

/-- A write to a word of the frame. -/
theorem FrameOutside.sameOutsideFrame_writeWord (hlow : 2 ≤ i) (hhigh : i ≤ 20) (h : Host)
    (w : Word) :
    SameOutsideFrame m₀ h (writeWord h m₀.ss (m₀.sp - BitVec.ofNat 16 i) w) := by
  obtain ⟨hout₀, hout₁⟩ := hframe.wordOutside hlow hhigh
  obtain ⟨hin₀, hin₁⟩ := inFrame_word m₀ hlow hhigh
  rw [writeWord, Host.write_eq, if_neg hout₁, Host.write_eq, if_neg hout₀]
  refine ⟨rfl, rfl, rfl, fun a ha => ?_⟩
  have hne₀ : a ≠ linear m₀.ss (m₀.sp - BitVec.ofNat 16 i) := fun heq => ha (heq ▸ hin₀)
  have hne₁ : a ≠ linear m₀.ss (m₀.sp - BitVec.ofNat 16 i + 1#16) := fun heq => ha (heq ▸ hin₁)
  show Function.update (Function.update h.memory _ _) _ _ a = h.memory a
  rw [Function.update_of_ne hne₁, Function.update_of_ne hne₀]

/-- A word of the frame depends only on the memory of the frame. -/
theorem FrameOutside.readWord_frame (hlow : 2 ≤ i) (hhigh : i ≤ 20)
    (hmem : ∀ a, InFrame m₀ a → h'.memory a = h.memory a) :
    readWord h' m₀.ss (m₀.sp - BitVec.ofNat 16 i) = readWord h m₀.ss (m₀.sp - BitVec.ofNat 16 i) := by
  obtain ⟨hout₀, hout₁⟩ := hframe.wordOutside hlow hhigh
  obtain ⟨hin₀, hin₁⟩ := inFrame_word m₀ hlow hhigh
  simp only [readWord, Host.read_eq, if_neg hout₀, if_neg hout₁, hmem _ hin₀, hmem _ hin₁]

/-- The saved registers depend only on the memory of the frame. -/
theorem FrameOutside.savedFrame_of_memory (hsaved : SavedFrame m₀ h)
    (hmem : ∀ a, InFrame m₀ a → h'.memory a = h.memory a) : SavedFrame m₀ h' where
  bp := (hframe.readWord_frame (i := 2) (by omega) (by omega) hmem).trans hsaved.bp
  ax := (hframe.readWord_frame (i := 4) (by omega) (by omega) hmem).trans hsaved.ax
  ds := (hframe.readWord_frame (i := 6) (by omega) (by omega) hmem).trans hsaved.ds
  cx := (hframe.readWord_frame (i := 8) (by omega) (by omega) hmem).trans hsaved.cx
  di := (hframe.readWord_frame (i := 10) (by omega) (by omega) hmem).trans hsaved.di
  dx := (hframe.readWord_frame (i := 12) (by omega) (by omega) hmem).trans hsaved.dx
  si := (hframe.readWord_frame (i := 14) (by omega) (by omega) hmem).trans hsaved.si

/-- Saving the registers writes only to the frame. -/
theorem FrameOutside.sameOutsideFrame_savedBus : SameOutsideFrame m₀ m₀.bus (savedBus m₀) := by
  have hwrite {i : Nat} (hlow : 2 ≤ i) (hhigh : i ≤ 20) (w : Word) {h h' : Host}
      (hs : SameOutsideFrame m₀ h h') :
      SameOutsideFrame m₀ h (writeWord h' m₀.ss (m₀.sp - BitVec.ofNat 16 i) w) :=
    hs.trans (hframe.sameOutsideFrame_writeWord hlow hhigh h' w)
  have hbp := hframe.sameOutsideFrame_writeWord (i := 2) (by omega) (by omega) m₀.bus m₀.bp
  have hax := hwrite (i := 4) (by omega) (by omega) m₀.ax hbp
  have hds := hwrite (i := 6) (by omega) (by omega) m₀.ds hax
  have hcx := hwrite (i := 8) (by omega) (by omega) m₀.cx hds
  have hdi := hwrite (i := 10) (by omega) (by omega) m₀.di hcx
  have hdx := hwrite (i := 12) (by omega) (by omega) m₀.dx hdi
  exact hwrite (i := 14) (by omega) (by omega) m₀.si hdx

end outside

end frame

/-! ## The sectors done -/

/-- Memory and image of a handler entered with `m₀`, once `k` sectors are transferred. -/
def Transferred (t : Transfer) (m₀ : Machine Host) (k : Nat) (h : Host) : Prop :=
  match t with
  | .handleAH02 =>
      h.image = m₀.bus.image ∧
        ∀ a, ¬ InFrame m₀ a → h.memory a = fill m₀.bus.memory (buffer m₀) (512 * k)
          (fun j => m₀.bus.image (sectorByte (firstSector m₀) j)) a
  | .handleAH03 =>
      (∀ a, ¬ InFrame m₀ a → h.memory a = m₀.bus.memory a) ∧
        (∀ j < 512 * k, h.image (sectorByte (firstSector m₀) j) = m₀.bus.memory (buffer m₀ + j)) ∧
        ∀ x, (∀ j < 512 * k, sectorByte (firstSector m₀) j ≠ x) → h.image x = m₀.bus.image x

/-- Before the first sector nothing is transferred. -/
theorem transferred_zero (hsame : SameOutsideFrame m₀ m₀.bus h) : Transferred t m₀ 0 h := by
  cases t with
  | handleAH02 => exact ⟨hsame.image, fun a ha => by rw [fill_zero]; exact hsame.memory a ha⟩
  | handleAH03 => exact ⟨hsame.memory, by simp, fun x _ => by rw [hsame.image]⟩

/-- Stack writes leave the sectors done. -/
theorem Transferred.sameOutsideFrame (ht : Transferred t m₀ k h)
    (hsame : SameOutsideFrame m₀ h h') : Transferred t m₀ k h' := by
  cases t with
  | handleAH02 =>
      exact ⟨hsame.image.trans ht.1, fun a ha => (hsame.memory a ha).trans (ht.2 a ha)⟩
  | handleAH03 =>
      refine ⟨fun a ha => (hsame.memory a ha).trans (ht.1 a ha), ?_, ?_⟩
      · rw [hsame.image]
        exact ht.2.1
      · rw [hsame.image]
        exact ht.2.2

/-- The window shows the eight sectors around sector `s`. -/
def ShowsSector (s : Nat) (h : Host) : Prop :=
  h.Selects (BitVec.ofNat 16 (s / 65536)) (BitVec.ofNat 16 (s % 65536 / 8 * 8))

/-- Where in the image the window around sector `s` begins. -/
theorem ShowsSector.diskData {s : Nat} (hs : ShowsSector s h) (hlt : s < 4294967296) :
    h.diskData = s / 8 * 8 * 512 := by
  have hhigh : s / 65536 < 65536 := by omega
  have hlow : s % 65536 / 8 * 8 < 65536 := by omega
  rw [Host.Selects.diskData hs, BitVec.toNat_ofNat, BitVec.toNat_ofNat, Nat.mod_eq_of_lt hhigh,
    Nat.mod_eq_of_lt hlow]
  omega

/-- The window depends only on the disk registers and the mapped page. -/
theorem ShowsSector.of_eq {s : Nat} (hs : ShowsSector s h) (hregisters : h'.registers = h.registers)
    (hdata : h'.diskData = h.diskData) : ShowsSector s h' :=
  ⟨hregisters.trans hs.registers, hdata.trans (Host.Selects.diskData hs)⟩

/-! ## The invariant -/

/-- The handler entered with `m₀` is inside the transfer function `t`, with `k` sectors done. -/
structure Copying (t : Transfer) (m₀ : Machine Host) (k : Nat) (m : Machine Host) : Prop where
  cs : m.cs = 0xC800#16
  ss : m.ss = m₀.ss
  bp : m.bp = m₀.sp - 2#16
  sp : m.sp = m₀.sp - 14#16
  segments : (m.ds, m.es) = match t with
    | .handleAH02 => (0xC800#16, m₀.es)
    | .handleAH03 => (m₀.es, 0xC800#16)
  direction : m.direction = false
  pointer : m.get t.buffer = m₀.bx + BitVec.ofNat 16 (512 * k)
  saved : SavedFrame m₀ m.bus
  transferred : Transferred t m₀ k m.bus

section copying

variable {c s : Nat}

/-- An address of the window shows the byte of the image at its distance from the shown sector. -/
theorem ShowsSector.imageOffset (hs : ShowsSector s h) (hlt : s < 4294967296) (i : Nat) :
    Host.imageOffset h.diskData (0xC9000 + 512 * (s % 8) + i) = s * 512 + i := by
  have hdata := hs.diskData hlt
  unfold Host.imageOffset
  omega

/-- A non-empty buffer outside the ROM lies below it or above it. -/
theorem TransferRequest.buffer_disjoint (req : TransferRequest t m₀) :
    buffer m₀ + 512 * sectorCount m₀ ≤ 0xC8000 ∨ 0xCA000 ≤ buffer m₀ := by
  by_contra hmeet
  have hcount := req.count
  have hin : InBuffer m₀ (max (buffer m₀) 0xC8000) := by
    unfold InBuffer
    omega
  refine req.bufferOutside _ hin ?_
  unfold InOptionRom
  omega

/-- The buffer and the frame have no address in common. -/
theorem TransferRequest.frame_disjoint (req : TransferRequest t m₀) {a : Nat} (ha : InFrame m₀ a)
    (hkc : k + c ≤ sectorCount m₀) :
    ¬ (buffer m₀ + 512 * k ≤ a ∧ a < buffer m₀ + 512 * k + 512 * c) := by
  have hout := (req.frameOutside a ha).2
  unfold InBuffer at hout
  omega

/-- The bus after `c` sectors are copied from the window, at sector `s`, to the buffer. -/
def readSectors (m₀ : Machine Host) (k c s : Nat) (h : Host) : Host :=
  { h with
    memory := fill h.memory (buffer m₀ + 512 * k) (512 * c) fun i => h.image (s * 512 + i) }

/-- The bus after `c` sectors are copied from the buffer to the window, at sector `s`. -/
def writeSectors (m₀ : Machine Host) (k c s : Nat) (h : Host) : Host :=
  { h with
    image := fill h.image (s * 512) (512 * c) fun i => m₀.bus.memory (buffer m₀ + 512 * k + i) }

/-- Copying to the buffer is a block write of what the window shows. -/
theorem writeBytes_readSectors (req : TransferRequest t m₀) (hs : ShowsSector s h)
    (hlt : s < 4294967296) (hfit : s % 8 + c ≤ 8) (hkc : k + c ≤ sectorCount m₀) :
    writeBytes h (buffer m₀ + 512 * k) (512 * c)
      (fun i => Bus.read h (0xC9000 + 512 * (s % 8) + i)) = readSectors m₀ k c s h := by
  have hbytes : ∀ i < 512 * c, Bus.read h (0xC9000 + 512 * (s % 8) + i) = h.image (s * 512 + i) := by
    intro i hi
    have hin : InDiskWindow (0xC9000 + 512 * (s % 8) + i) := by
      unfold InDiskWindow
      omega
    rw [Host.read_eq, if_pos hin, hs.imageOffset hlt]
  rw [writeBytes_congr hbytes, Host.writeBytes_outside, readSectors]
  intro i hi hin
  have hdisjoint := req.buffer_disjoint
  unfold InDiskWindow at hin
  omega

/-- Copying to the window is a block write to the image. -/
theorem writeBytes_writeSectors (req : TransferRequest .handleAH03 m₀) (hs : ShowsSector s h)
    (ht : Transferred .handleAH03 m₀ k h) (hlt : s < 4294967296) (hfit : s % 8 + c ≤ 8)
    (hkc : k + c ≤ sectorCount m₀) :
    writeBytes h (0xC9000 + 512 * (s % 8)) (512 * c)
      (fun i => Bus.read h (buffer m₀ + 512 * k + i)) = writeSectors m₀ k c s h := by
  have hdisjoint := req.buffer_disjoint
  have hbytes : ∀ i < 512 * c, Bus.read h (buffer m₀ + 512 * k + i) =
      m₀.bus.memory (buffer m₀ + 512 * k + i) := by
    intro i hi
    have hout : ¬ InDiskWindow (buffer m₀ + 512 * k + i) := by
      unfold InDiskWindow
      omega
    have hframe : ¬ InFrame m₀ (buffer m₀ + 512 * k + i) :=
      fun hin => req.frame_disjoint hin hkc ⟨by omega, by omega⟩
    rw [Host.read_eq, if_neg hout, ht.1 _ hframe]
  have hoffset := hs.imageOffset hlt 0
  rw [Nat.add_zero, Nat.add_zero] at hoffset
  rw [writeBytes_congr hbytes, Host.writeBytes_inside _ _ (by omega) (by omega), hoffset,
    writeSectors]

/-- The sectors done after a copy to the buffer. -/
theorem Transferred.readSectors (ht : Transferred .handleAH02 m₀ k h)
    (hfit : wrapSector (firstSector m₀) k % 8 + c ≤ 8) :
    Transferred .handleAH02 m₀ (k + c)
      (readSectors m₀ k c (wrapSector (firstSector m₀) k) h) := by
  refine ⟨ht.1, fun a ha => ?_⟩
  simp only [Ts3100.readSectors]
  by_cases hnew : buffer m₀ + 512 * k ≤ a ∧ a < buffer m₀ + 512 * k + 512 * c
  · obtain ⟨i, hi, rfl⟩ : ∃ i, i < 512 * c ∧ a = buffer m₀ + (512 * k + i) :=
      ⟨a - (buffer m₀ + 512 * k), by omega, by omega⟩
    rw [fill_add (by omega), sectorByte_add hfit hi, ← Nat.add_assoc, fill_add hi, ht.1]
  · rw [fill_of_notMem hnew, ht.2 a ha]
    by_cases hold : buffer m₀ ≤ a ∧ a < buffer m₀ + 512 * k
    · rw [fill_of_mem hold.1 hold.2, fill_of_mem hold.1 (by omega)]
    · rw [fill_of_notMem hold, fill_of_notMem (by omega)]

/-- The sectors done after a copy to the window. -/
theorem Transferred.writeSectors (req : TransferRequest .handleAH03 m₀)
    (ht : Transferred .handleAH03 m₀ k h)
    (hfit : wrapSector (firstSector m₀) k % 8 + c ≤ 8) (hkc : k + c ≤ sectorCount m₀) :
    Transferred .handleAH03 m₀ (k + c)
      (writeSectors m₀ k c (wrapSector (firstSector m₀) k) h) := by
  have hcount := req.count
  have hnew {i : Nat} (hi : i < 512 * c) : sectorByte (firstSector m₀) (512 * k + i) =
      wrapSector (firstSector m₀) k * 512 + i := sectorByte_add hfit hi
  refine ⟨ht.1, fun j hj => ?_, fun x hx => ?_⟩
  · simp only [Ts3100.writeSectors]
    by_cases hjk : j < 512 * k
    · rw [fill_of_notMem, ht.2.1 j hjk]
      rintro ⟨hlow, hhigh⟩
      -- a byte written before is none of the new ones
      have heq := hnew (i := sectorByte (firstSector m₀) j - wrapSector (firstSector m₀) k * 512)
        (by omega)
      have := sectorByte_inj (by omega) (by omega) (heq.trans (Nat.add_sub_cancel' hlow))
      omega
    · obtain ⟨i, rfl⟩ : ∃ i, j = 512 * k + i := ⟨j - 512 * k, by omega⟩
      rw [hnew (by omega), fill_add (by omega), Nat.add_assoc]
  · simp only [Ts3100.writeSectors]
    rw [fill_of_notMem, ht.2.2 x fun j hj => hx j (by omega)]
    rintro ⟨hlow, hhigh⟩
    refine hx (512 * k + (x - wrapSector (firstSector m₀) k * 512)) (by omega) ?_
    rw [hnew (by omega)]
    omega

/-- The buffer pointer has not wrapped while a sector is left. -/
theorem Copying.toNat_pointer (req : TransferRequest t m₀) (hm : Copying t m₀ k m)
    (hk : k < sectorCount m₀) : (m.get t.buffer).toNat = m₀.bx.toNat + 512 * k := by
  have hend := req.bufferEnd
  rw [hm.pointer, BitVec.toNat_add, BitVec.toNat_ofNat]
  omega

/-- The buffer pointer after `c` more sectors. -/
theorem pointer_add (w : Word) (k c : Nat) :
    w + BitVec.ofNat 16 (512 * k) + BitVec.ofNat 16 (2 * (256 * c)) =
      w + BitVec.ofNat 16 (512 * (k + c)) := by
  rw [BitVec.add_assoc, ← BitVec.ofNat_add]
  congr 2
  omega

/-- A sector number fits the LBA register. -/
theorem wrapSector_lt (req : TransferRequest t m₀) (k : Nat) :
    wrapSector (firstSector m₀) k < 4294967296 := by
  have hlt := firstSector_lt req
  unfold wrapSector
  omega

/-- **A copy inside one window** transfers its sectors and keeps the window and `bx`. -/
theorem Copying.repMovsw (req : TransferRequest t m₀) (hm : Copying t m₀ k m)
    (hcx : m.cx.toNat = 256 * c)
    (hwindow : (m.get t.window).toNat = 0x1000 + 512 * (wrapSector (firstSector m₀) k % 8))
    (hshows : ShowsSector (wrapSector (firstSector m₀) k) m.bus) (hpos : 1 ≤ c)
    (hfit : wrapSector (firstSector m₀) k % 8 + c ≤ 8) (hkc : k + c ≤ sectorCount m₀) :
    Copying t m₀ (k + c) m.repMovsw ∧
      ShowsSector (wrapSector (firstSector m₀) k) m.repMovsw.bus ∧ m.repMovsw.bx = m.bx := by
  have hpointer := hm.toNat_pointer req (by omega)
  have hadd := pointer_add m₀.bx k c
  have hend := req.bufferEnd
  have hdisjoint := req.buffer_disjoint
  have hlt := wrapSector_lt req k
  have hptr := hm.pointer
  cases t with
  | handleAH02 =>
    -- from the window to the buffer: the sectors shown become the bytes transferred
    obtain ⟨hds, hes⟩ := Prod.mk.inj hm.segments
    simp only [Transfer.buffer, Transfer.window, Machine.get] at hpointer hwindow hptr
    have hsource : linear m.ds m.si = 0xC9000 + 512 * (wrapSector (firstSector m₀) k % 8) := by
      rw [linear, hds, hwindow]
      simp only [BitVec.toNat_ofNat]
      omega
    have hbuffer : linear m.es m.di = buffer m₀ + 512 * k := by
      rw [linear, hes, hpointer, buffer, linear]
      omega
    have hlength : 2 * (256 * c) = 512 * c := by omega
    have hbus := writeBytes_readSectors req hshows hlt hfit hkc
    rw [Machine.repMovsw_eq hcx hm.direction (by omega) (by omega) (by omega), hsource, hbuffer,
      hlength, hbus]
    refine ⟨⟨hm.cs, hm.ss, hm.bp, hm.sp, hm.segments, hm.direction, ?_, ?_, ?_⟩, ?_, rfl⟩
    · simp only [Transfer.buffer, Machine.get, hptr, ← hlength, hadd]
    · refine req.frame.savedFrame_of_memory hm.saved fun a ha => ?_
      simp only [Ts3100.readSectors]
      exact fill_of_notMem (req.frame_disjoint ha hkc)
    · exact hm.transferred.readSectors hfit
    · exact hshows.of_eq rfl rfl
  | handleAH03 =>
    -- from the buffer to the window: the disk takes the bytes, and memory keeps its own
    obtain ⟨hds, hes⟩ := Prod.mk.inj hm.segments
    simp only [Transfer.buffer, Transfer.window, Machine.get] at hpointer hwindow hptr
    have hsource : linear m.ds m.si = buffer m₀ + 512 * k := by
      rw [linear, hds, hpointer, buffer, linear]
      omega
    have hdest : linear m.es m.di = 0xC9000 + 512 * (wrapSector (firstSector m₀) k % 8) := by
      rw [linear, hes, hwindow]
      simp only [BitVec.toNat_ofNat]
      omega
    have hlength : 2 * (256 * c) = 512 * c := by omega
    have hbus := writeBytes_writeSectors req hshows hm.transferred hlt hfit hkc
    rw [Machine.repMovsw_eq hcx hm.direction (by omega) (by omega) (by omega), hsource, hdest,
      hlength, hbus]
    refine ⟨⟨hm.cs, hm.ss, hm.bp, hm.sp, hm.segments, hm.direction, ?_, ?_, ?_⟩, ?_, rfl⟩
    · simp only [Transfer.buffer, Machine.get, hptr, ← hlength, hadd]
    · exact req.frame.savedFrame_of_memory hm.saved fun a ha => rfl
    · exact hm.transferred.writeSectors req hfit hkc
    · exact hshows.of_eq rfl rfl

end copying

/-! ## The next window -/

/-- A word below the saved registers can be written. -/
theorem SavedFrame.writeWord_below {i w : Word} (hsaved : SavedFrame m₀ h) (hi : 16 ≤ i.toNat) :
    SavedFrame m₀ (writeWord h m₀.ss (m₀.sp - i) w) := by
  have hread {j : Word} (hlow : 2 ≤ j.toNat) (hhigh : j.toNat ≤ 14) :
      readWord (writeWord h m₀.ss (m₀.sp - i) w) m₀.ss (m₀.sp - j) = readWord h m₀.ss (m₀.sp - j) :=
    readWord_writeWord_sub (by bv_omega) (by bv_omega) (by bv_omega)
  exact ⟨(hread (by decide) (by decide)).trans hsaved.bp,
    (hread (by decide) (by decide)).trans hsaved.ax,
    (hread (by decide) (by decide)).trans hsaved.ds,
    (hread (by decide) (by decide)).trans hsaved.cx,
    (hread (by decide) (by decide)).trans hsaved.di,
    (hread (by decide) (by decide)).trans hsaved.dx,
    (hread (by decide) (by decide)).trans hsaved.si⟩

/-- A push inside a transfer function writes to the frame. -/
theorem FrameOutside.sameOutsideFrame_push (hframe : FrameOutside m₀) (hss : m.ss = m₀.ss)
    (hsp : m.sp = m₀.sp - 14#16) (w : Word) : SameOutsideFrame m₀ m.bus (m.push w).bus := by
  have hbus : (m.push w).bus = writeWord m.bus m₀.ss (m₀.sp - 16#16) w := by
    simp only [Machine.push, hss, hsp, BitVec.sub_sub, BitVec.reduceAdd]
  rw [hbus]
  exact hframe.sameOutsideFrame_writeWord (i := 16) (by omega) (by omega) _ _

/-- A call of `IncrementLBA` inside a transfer function: it writes to the frame, below the saved
registers, and selects the next window. -/
theorem FrameOutside.step_push_incrementLBA (hframe : FrameOutside m₀) (hss : m.ss = m₀.ss)
    (hsp : m.sp = m₀.sp - 14#16) {high low : Word}
    (hr : m.bus.registers = ⟨lbaOfWords high low, false⟩) (hlow : low.toNat % 8 = 0) {l : Label}
    (hret : optionRom.labelAt l.offset = some l) :
    ∃ f b, optionRom.step .incrementLBA (m.push l.offset) =
        .goto l { m with flags := f, bus := selectWords b high (low + 8#16) } ∧
      SameOutsideFrame m₀ m.bus b ∧
      (SavedFrame m₀ m.bus → SavedFrame m₀ (selectWords b high (low + 8#16))) := by
  have hsp' : (m.push l.offset).sp = m₀.sp - 16#16 := by
    rw [Machine.push, hsp]
    bv_omega
  have hbus : (m.push l.offset).bus = writeWord m.bus m₀.ss (m₀.sp - 16#16) l.offset := by
    simp only [Machine.push, hss, hsp, BitVec.sub_sub, BitVec.reduceAdd]
  -- three words are pushed below the saved registers: the return address, `dx` and `ax`
  have hpushed : pushedBus (m.push l.offset) =
      writeWord (writeWord (writeWord m.bus m₀.ss (m₀.sp - 16#16) l.offset)
        m₀.ss (m₀.sp - 18#16) m.dx) m₀.ss (m₀.sp - 20#16) m.ax := by
    rw [pushedBus, hsp', hbus]
    simp only [Machine.push, hss, BitVec.sub_sub, BitVec.reduceAdd]
  have hsame : SameOutsideFrame m₀ m.bus (pushedBus (m.push l.offset)) := by
    rw [hpushed]
    exact ((hframe.sameOutsideFrame_writeWord (i := 16) (by omega) (by omega) _ _).trans
      (hframe.sameOutsideFrame_writeWord (i := 18) (by omega) (by omega) _ _)).trans
      (hframe.sameOutsideFrame_writeWord (i := 20) (by omega) (by omega) _ _)
  have hsaved' (hsaved : SavedFrame m₀ m.bus) : SavedFrame m₀ (pushedBus (m.push l.offset)) := by
    rw [hpushed]
    exact ((hsaved.writeWord_below (by decide)).writeWord_below (by decide)).writeWord_below (by decide)
  have htop : (m.push l.offset).top = l.offset := by
    simp [Machine.push, Machine.top]
  have hout (i : Nat) (hlow : 2 ≤ i) (hhigh : i ≤ 20) := hframe.wordOutside hlow hhigh
  have hstep := step_incrementLBA (m := m.push l.offset) (l := l) (hsame.registers.trans hr) hlow
    (by rw [hsp']; exact hss ▸ hout 16 (by omega) (by omega))
    (by rw [hsp', BitVec.sub_sub]; exact hss ▸ hout 18 (by omega) (by omega))
    (by rw [hsp', BitVec.sub_sub]; exact hss ▸ hout 20 (by omega) (by omega))
    (by rw [htop]; exact hret)
  have hback : (m.push l.offset).sp + 2#16 = m.sp := by
    rw [hsp', hsp]
    bv_omega
  rw [hback] at hstep
  exact ⟨_, _, hstep, hsame, fun hsaved =>
    hframe.savedFrame_of_memory (hsaved' hsaved) fun _ _ => rfl⟩

/-- A call of `IncrementLBA` inside a transfer, for a window that begins at low word `low`: the low
word advances by 8 and wraps, the high word stays. -/
theorem Copying.incrementLBA (req : TransferRequest t m₀) (hm : Copying t m₀ k m) {s s' : Nat}
    (hshows : ShowsSector s m.bus) (hhigh : s' / 65536 = s / 65536)
    (hlow : s' % 65536 / 8 * 8 = (s % 65536 / 8 * 8 + 8) % 65536) {l : Label}
    (hret : optionRom.labelAt l.offset = some l) :
    ∃ m', optionRom.step .incrementLBA (m.push l.offset) = .goto l m' ∧ Copying t m₀ k m' ∧
      ShowsSector s' m'.bus ∧ m'.bx = m.bx := by
  obtain ⟨f, b, hstep, hsame, hsaved⟩ := req.frame.step_push_incrementLBA hm.ss hm.sp
    hshows.registers (by rw [BitVec.toNat_ofNat]; omega) hret
  refine ⟨_, hstep, ⟨hm.cs, hm.ss, hm.bp, hm.sp, hm.segments, hm.direction, ?_, hsaved hm.saved, ?_⟩, ?_,
    rfl⟩
  · have hpointer := hm.pointer
    cases t <;> exact hpointer
  · have ht := hm.transferred.sameOutsideFrame hsame
    cases t <;> exact ht
  · have hword : BitVec.ofNat 16 (s % 65536 / 8 * 8) + 8#16 =
        BitVec.ofNat 16 (s' % 65536 / 8 * 8) := by
      apply BitVec.eq_of_toNat_eq
      rw [BitVec.toNat_add, BitVec.toNat_ofNat, BitVec.toNat_ofNat, BitVec.toNat_ofNat, hlow]
      omega
    rw [hword, ← hhigh]
    exact ⟨rfl, rfl⟩

end Ts3100
