import Ts3100.Disk.Serving

/-! # The handler's code in memory

The option ROM runs from its page at `C8000`, which the guest can write. The handler is the routine
`optionRom` as long as the bytes of its code are those that were loaded.

* `InRomCode`, `HoldsRom` — where the code is, and that it is there.
* `FetchesRom` — a processor that fetches `optionRom` wherever the code is in memory.
* `SparesCode` — what is asked of a call's buffer and stack.
* `ensuresIn_holdsRom` — such a call returns, and at every label on the way the code is in memory. -/

namespace Ts3100

open RealMode

variable {t : Transfer} {m₀ m : Machine Host} {k : Nat} {b b' : Host} {rom : Nat → Byte}

/-! ## The code -/

/-- The code of the option ROM: its page up to the first variable. -/
def InRomCode (a : Nat) : Prop := 0xC8000 ≤ a ∧ a < 0xC84C5

instance (a : Nat) : Decidable (InRomCode a) := inferInstanceAs (Decidable (_ ∧ _))

/-- The bytes of `rom` are in memory where the code is. -/
def HoldsRom (rom : Nat → Byte) (b : Host) : Prop := ∀ a, InRomCode a → b.memory a = rom a

/-- A processor that fetches the handler wherever the code `rom` is in memory. What it fetches
elsewhere is left open. -/
def FetchesRom (rom : Nat → Byte) (s : StoredProgram Label Host) : Prop :=
  ∀ b, HoldsRom rom b → s.fetched b = optionRom

/-- The code is in the option ROM, and not in its window. -/
theorem InRomCode.inOptionRom {a : Nat} (ha : InRomCode a) : InOptionRom a := by
  unfold InRomCode at ha
  unfold InOptionRom
  omega

/-- The code is not in the window. -/
theorem InRomCode.not_inDiskWindow {a : Nat} (ha : InRomCode a) : ¬ InDiskWindow a := by
  unfold InRomCode at ha
  unfold InDiskWindow
  omega

/-- The code on the bus. -/
theorem holdsRom_iff_read : HoldsRom rom b ↔ ∀ a, InRomCode a → Bus.read b a = rom a := by
  refine forall₂_congr fun a ha => ?_
  rw [Host.read_eq, if_neg ha.not_inDiskWindow]

/-- What is written to the stack frame leaves the code. -/
theorem FrameOutside.holdsRom (hframe : FrameOutside m₀) (hrom : HoldsRom rom b)
    (hmemory : ∀ a, ¬ InFrame m₀ a → b'.memory a = b.memory a) : HoldsRom rom b' :=
  fun a ha => (hmemory a fun hin => hframe a hin ha.inOptionRom).trans (hrom a ha)

/-! ## Calls -/

/-- A call of function 02h or 03h for the virtual disk, with a valid CHS address and a count from 1
to 127. -/
structure ValidCall (t : Transfer) (m : Machine Host) : Prop where
  cs : m.cs = 0xC800#16
  function : hi m.ax = t.function
  drive : lo m.dx = m.bus.memory 0xC84CD
  count : 1 ≤ sectorCount m ∧ sectorCount m ≤ 127
  cylinder : (hi m.cx).toNat ≤ 7
  head : (hi m.dx).toNat ≤ 254
  sector : 1 ≤ (lo m.cx).toNat ∧ (lo m.cx).toNat ≤ 63

/-- The call's stack frame is in low RAM, and the buffer of a read is apart from the ROM's code. -/
structure SparesCode (t : Transfer) (m : Machine Host) : Prop where
  frameInRam : ∀ a, InFrame m a → a < lowMemorySize
  buffer : t = .handleAH02 → ∀ i < 512 * sectorCount m, ¬ InRomCode (bufferByte m i)

/-- The frame is outside the option ROM. -/
theorem SparesCode.frame (hspares : SparesCode t m) : FrameOutside m :=
  fun a ha => not_inOptionRom_of_lt (hspares.frameInRam a ha)

/-! ## The code at every label -/

/-- A copy inside one window leaves the code. -/
theorem Serving.holdsRom_repMovsw (hspares : SparesCode t m₀) (hm : Serving t m₀ k m)
    (hrom : HoldsRom rom m.bus) {off c : Nat} (hcx : m.cx.toNat = 256 * c)
    (hwindow : (m.get t.window).toNat = 0x1000 + 512 * off) (hfit : off + c ≤ 8)
    (hkc : k + c ≤ sectorCount m₀) : HoldsRom rom m.repMovsw.bus := by
  obtain ⟨-, -, hbus⟩ := hm.repMovsw hcx
  rw [hbus, holdsRom_iff_read]
  intro a ha
  rw [Machine.read_movswTimes_of_ne hm.direction, holdsRom_iff_read.mp hrom a ha]
  intro i hi heq
  have hdest := hm.linear_dest hwindow hfit hi
  rw [heq] at hdest
  cases t with
  | handleAH02 =>
    have hbyte : a = bufferByte m₀ (512 * k + i) := hdest
    exact hspares.buffer rfl (512 * k + i) (by omega) (hbyte ▸ ha)
  | handleAH03 => exact ha.not_inDiskWindow hdest

/-- The copies and calls of a transfer leave the code. -/
theorem holdsRomRules (hspares : SparesCode t m₀) (rom : Nat → Byte) :
    TransferRules t (startOffset m₀) (sectorCount m₀) (HoldsRom rom)
      (fun k m => Serving t m₀ k m ∧ HoldsRom rom m.bus)
      (fun k m => Serving t m₀ k m ∧ HoldsRom rom m.bus) where
  bus hm := hm.2
  push hm w := hspares.frame.holdsRom hm.2
    (hspares.frame.sameOutsideFrame_push hm.1.ss hm.1.sp w).memory
  update hm ax bx cx dx w f := by
    refine ⟨hm.1.update ax bx cx dx w f, ?_⟩
    cases t <;> exact hm.2
  updateDone hm bx f := by
    refine ⟨?_, hm.2⟩
    cases t <;> exact hm.1.update _ bx _ _ _ f
  copy := by
    rintro k c m ⟨hm, hrom⟩ hcx hwindow - hfit hkc
    obtain ⟨hnext, hbx, -⟩ := hm.repMovsw hcx
    exact ⟨⟨hnext, hm.holdsRom_repMovsw hspares hrom hcx hwindow hfit hkc⟩, hbx⟩
  increment := by
    rintro k m l ⟨hm, hrom⟩ - hret
    obtain ⟨m', hstep, hnext, hbx, hmemory, -⟩ := hm.incrementLBA hspares.frame hret
    exact ⟨m', hstep, ⟨hnext, hspares.frame.holdsRom hrom hmemory⟩, hbx⟩

/-- **The code stays in memory**: a valid call that spares the ROM returns, with the handler's code in
memory at every label on the way and when it has returned. -/
theorem ensuresIn_holdsRom (hcall : ValidCall t m₀) (hspares : SparesCode t m₀)
    (hsettled : m₀.bus.registers.updateDiskMapping = false) (hrom : HoldsRom rom m₀.bus) :
    optionRom.EnsuresIn (HoldsRom rom) (fun _ m => HoldsRom rom m.bus) .int13hHandler m₀ := by
  have hframe := hspares.frame
  refine hframe.ensuresIn_transfer hcall.cs hcall.function hcall.drive hcall.count hsettled
    (fun b hmemory => hframe.holdsRom hrom hmemory) (fun b hmemory => ?_) (holdsRomRules hspares rom)
    fun m hm hromNow _ => ?_
  · exact hframe.holdsRom hrom fun a ha =>
      (congrFun hmemory a).trans ((hframe.sameOutsideFrame_chsMachine t).memory a ha)
  · -- the result is stored over the saved `ax`
    have hsame := hframe.sameOutsideFrame_writeWord (i := 4) (by omega) (by omega) m.bus
      (word 0#8 (lo (readWord m.bus m.ss (m.bp - 2#16))))
    have hax : m.bp - 2#16 = m₀.sp - BitVec.ofNat 16 4 := by
      rw [hm.bp]
      bv_omega
    rw [← hm.ss, ← hax] at hsame
    have hstored := hframe.holdsRom hromNow hsame.memory
    exact .goto hromNow step_finishCopy (.returned hstored step_finishInt13hHandler hstored)

end Ts3100
