import Ts3100.Disk.Int13h

/-! # The registers of a transfer function

What holds of the handler's registers while it serves function 02h or 03h, whatever the CHS address and
wherever the caller's buffer is: `Copying` without what has been transferred.

* `Serving` — the registers with `k` sectors copied, and the LBA register at the first sector of a
  window.
* `Serving.repMovsw`, `Serving.incrementLBA` — a copy and a call keep them.
* `FrameOutside.ensuresIn_transfer` — a transfer, with a property of the bus that the copies and the
  calls keep, arrives at `.HandleAH0x_FinishCopy`. -/

namespace Ts3100

open RealMode

variable {t : Transfer} {m₀ m : Machine Host} {k : Nat} {h h' : Host}

/-- The offset in its window of the first sector of a CHS address. -/
def startOffset (m : Machine Host) : Nat :=
  (((hi m.cx).toNat * 255 + (hi m.dx).toNat) * 63 + (lo m.cx).toNat + 255) % 8

/-- The registers of a handler entered with `m₀`, inside the transfer function `t` with `k` sectors
copied, and the LBA register at the first sector of a window. -/
structure Serving (t : Transfer) (m₀ : Machine Host) (k : Nat) (m : Machine Host) : Prop where
  ss : m.ss = m₀.ss
  bp : m.bp = m₀.sp - 2#16
  sp : m.sp = m₀.sp - 14#16
  segments : (m.ds, m.es) = match t with
    | .handleAH02 => (0xC800#16, m₀.es)
    | .handleAH03 => (m₀.es, 0xC800#16)
  direction : m.direction = false
  pointer : m.get t.buffer = m₀.bx + BitVec.ofNat 16 (512 * k)
  aligned : ∃ high low, m.bus.registers = ⟨lbaOfWords high low, false⟩ ∧ low.toNat % 8 = 0

/-- The data registers, the window pointer and the flags are not part of the invariant. -/
theorem Serving.update (hm : Serving t m₀ k m) (ax bx cx dx w : Word) (f : Flags) :
    Serving t m₀ k { m.set t.window w with ax := ax, bx := bx, cx := cx, dx := dx, flags := f } := by
  have hpointer := hm.pointer
  cases t <;> exact ⟨hm.ss, hm.bp, hm.sp, hm.segments, hm.direction, hpointer, hm.aligned⟩

/-- A copy keeps the invariant and `bx`. -/
theorem Serving.repMovsw (hm : Serving t m₀ k m) {c : Nat} (hcx : m.cx.toNat = 256 * c) :
    Serving t m₀ (k + c) m.repMovsw ∧ m.repMovsw.bx = m.bx ∧
      m.repMovsw.bus = (Machine.movswTimes (256 * c) m).bus := by
  have hregisters := Machine.repMovsw_registers hm.direction
  rw [hcx] at hregisters
  obtain ⟨high, low, hr, hlow⟩ := hm.aligned
  have haligned : (Machine.movswTimes (256 * c) m).bus.registers = ⟨lbaOfWords high low, false⟩ :=
    Machine.movswTimes_bus_induction (P := fun b => b.registers = ⟨lbaOfWords high low, false⟩)
      (fun b a v hb => (Host.write_keeps b a v).1.trans hb) hr
  have hadd := pointer_add m₀.bx k c
  rw [hregisters]
  refine ⟨⟨hm.ss, hm.bp, hm.sp, hm.segments, hm.direction, ?_, high, low, haligned, hlow⟩, rfl, rfl⟩
  have hpointer := hm.pointer
  cases t with
  | handleAH02 =>
    have hdi : m.di = m₀.bx + BitVec.ofNat 16 (512 * k) := hpointer
    show m.di + BitVec.ofNat 16 (2 * (256 * c)) = _
    rw [hdi, hadd]
  | handleAH03 =>
    have hsi : m.si = m₀.bx + BitVec.ofNat 16 (512 * k) := hpointer
    show m.si + BitVec.ofNat 16 (2 * (256 * c)) = _
    rw [hsi, hadd]

/-- A copy inside one window writes to the caller's buffer, or to the window. -/
theorem Serving.linear_dest (hm : Serving t m₀ k m) {off c i : Nat}
    (hwindow : (m.get t.window).toNat = 0x1000 + 512 * off) (hfit : off + c ≤ 8)
    (hi : i < 2 * (256 * c)) :
    match t with
    | .handleAH02 => linear m.es (m.di + BitVec.ofNat 16 i) = bufferByte m₀ (512 * k + i)
    | .handleAH03 => InDiskWindow (linear m.es (m.di + BitVec.ofNat 16 i)) := by
  have hpointer := hm.pointer
  obtain ⟨-, hes⟩ := Prod.mk.inj hm.segments
  cases t with
  | handleAH02 =>
    have hdi : m.di = m₀.bx + BitVec.ofNat 16 (512 * k) := hpointer
    show linear m.es (m.di + BitVec.ofNat 16 i) = bufferByte m₀ (512 * k + i)
    rw [hes, hdi, bufferByte, BitVec.add_assoc, ← BitVec.ofNat_add]
  | handleAH03 =>
    have hdi : m.di.toNat = 0x1000 + 512 * off := hwindow
    have hes' : m.es.toNat = 0xC800 := by
      rw [hes]
      rfl
    show InDiskWindow (linear m.es (m.di + BitVec.ofNat 16 i))
    rw [linear_add (by omega), linear, hdi, hes']
    unfold InDiskWindow
    omega

/-- A call of `IncrementLBA` keeps the invariant and `bx`, the memory outside the frame, and what the
frame saves. -/
theorem Serving.incrementLBA (hframe : FrameOutside m₀) (hm : Serving t m₀ k m) {l : Label}
    (hret : optionRom.labelAt l.offset = some l) :
    ∃ m', optionRom.step .incrementLBA (m.push l.offset) = .goto l m' ∧ Serving t m₀ k m' ∧
      m'.bx = m.bx ∧ (∀ a, ¬ InFrame m₀ a → m'.bus.memory a = m.bus.memory a) ∧
      (SavedFrame m₀ m.bus → SavedFrame m₀ m'.bus) := by
  obtain ⟨high, low, hr, hlow⟩ := hm.aligned
  obtain ⟨f, b, hstep, hsame, hsaved⟩ := hframe.step_push_incrementLBA hm.ss hm.sp hr hlow hret
  have hpointer := hm.pointer
  refine ⟨_, hstep, ⟨hm.ss, hm.bp, hm.sp, hm.segments, hm.direction, ?_, high, low + 8#16, rfl,
    by bv_omega⟩, rfl, hsame.memory, hsaved⟩
  cases t <;> exact hpointer

/-- The low word of the LBA, in its window. -/
theorem toNat_chsLow_mod (m : Machine Host) : (chsLow m).toNat % 8 = startOffset m := by
  have hproduct := toNat_chsProduct m
  have hlow : ((chsProduct m).extractLsb' 0 16).toNat = (chsProduct m).toNat % 65536 := by simp
  have hsector : (word 0#8 (lo m.cx - 1#8)).toNat = ((lo m.cx).toNat + 255) % 256 := by
    rw [toNat_word]
    bv_omega
  unfold startOffset
  rw [chsLow, BitVec.toNat_add, hlow, hproduct, hsector]
  omega

/-- The handler at `.HandleAH0x_SkipLBA`, once the segments are set up for the copy. -/
theorem serving_start (hcs : m₀.cs = 0xC800#16) {b : Host} (ax dx cx : Word) (f f' : Flags)
    (hr : b.registers = ⟨lbaOfWords (chsHigh m₀) (chsLow m₀ &&& 0xFFF8#16), false⟩) :
    Serving t m₀ 0 { offsetMachine t { chsMachine t (dispatched t m₀) with
      ax := ax, dx := dx, flags := f, bus := b } with cx := cx, flags := f' } := by
  have haligned : ∃ high low, b.registers = ⟨lbaOfWords high low, false⟩ ∧ low.toNat % 8 = 0 :=
    ⟨_, _, hr, chsLow_aligned m₀⟩
  have hsp : m₀.sp - 14#16 - 2#16 + 2#16 = m₀.sp - 14#16 := by bv_omega
  have hpointer : m₀.bx = m₀.bx + BitVec.ofNat 16 (512 * 0) := by
    rw [Nat.mul_zero, BitVec.add_zero]
  cases t with
  | handleAH02 => exact ⟨rfl, rfl, hsp, Prod.ext hcs rfl, rfl, hpointer, haligned⟩
  | handleAH03 => exact ⟨rfl, rfl, hsp, Prod.ext rfl hcs, rfl, hpointer, haligned⟩

/-- **A transfer** of at most 127 sectors arrives at `.HandleAH0x_FinishCopy` with its registers, a
property `S` of the bus that its copies and calls keep, and a property `K` of the bus at every label
on the way. -/
theorem FrameOutside.ensuresIn_transfer (hframe : FrameOutside m₀) (hcs : m₀.cs = 0xC800#16)
    (hfunction : hi m₀.ax = t.function) (hdrive : lo m₀.dx = m₀.bus.memory 0xC84CD)
    (hcount : 1 ≤ sectorCount m₀ ∧ sectorCount m₀ ≤ 127)
    (hsettled : m₀.bus.registers.updateDiskMapping = false) {K S : Host → Prop}
    {Q : Word → Machine Host → Prop}
    (hK : ∀ b : Host, (∀ a, ¬ InFrame m₀ a → b.memory a = m₀.bus.memory a) → K b)
    (hS : ∀ b : Host, b.memory = (chsMachine t (dispatched t m₀)).bus.memory → S b)
    (rules : TransferRules t (startOffset m₀) (sectorCount m₀) K
      (fun k m => Serving t m₀ k m ∧ S m.bus) (fun k m => Serving t m₀ k m ∧ S m.bus))
    (hfinish : ∀ m, Serving t m₀ (sectorCount m₀) m → S m.bus →
      m.bx = word (hi m₀.ax) (BitVec.ofNat 8 (leftover (startOffset m₀) (sectorCount m₀))) →
      optionRom.EnsuresIn K Q (.transfer t .finishCopy) m) :
    optionRom.EnsuresIn K Q .int13hHandler m₀ := by
  refine hframe.ensuresIn_skipLBA hcs hfunction hdrive (registers_eq_of_settled hsettled) hK
    fun ax dx f b hmemory _ hr _ => ?_
  obtain ⟨hsaved, htop⟩ := hframe.chsMachine_frame hmemory
  have hax : readWord b m₀.ss (m₀.sp - 2#16 - 2#16) = m₀.ax := by
    rw [BitVec.sub_sub]
    exact hsaved.ax
  -- on the stack is the low word of the first sector's number, whose low bits are its place in the
  -- window
  have hcode : (readWord b m₀.ss (m₀.sp - 14#16 - 2#16) &&& 0x0007#16).toNat = startOffset m₀ := by
    have htop' : readWord b m₀.ss (m₀.sp - 14#16 - 2#16) = chsLow m₀ := by
      rw [BitVec.sub_sub]
      exact htop
    rw [toNat_and_7, htop', toNat_chsLow_mod]
  refine rules.ensures_skipLBA (fun cx f' => ⟨serving_start hcs ax dx cx f f' hr, ?_⟩) ?_ ?_ hcount.1
    (Or.inl hcount.2) fun m hm hbx => hfinish m hm.1 hm.2 ?_
  · cases t <;> exact hS b hmemory
  · cases t <;> exact hcode
  · have hlo : (lo (readWord b m₀.ss (m₀.sp - 2#16 - 2#16))).toNat = sectorCount m₀ := by
      rw [hax, sectorCount]
    cases t <;> exact hlo
  · rw [← hax]
    cases t <;> exact hbx

end Ts3100
