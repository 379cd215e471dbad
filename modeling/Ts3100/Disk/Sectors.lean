import Ts3100.Disk.Blocks
import Ts3100.Kvm.MemorySlots

/-! # Which sectors a transfer reaches

The arithmetic of a transfer request, and what it means for its first `k` sectors to be
transferred.

* `firstSector`, `sectorCount`, `buffer` — the request in the entry registers.
* `wrapSector L k` — the sector the handler reaches for the `k`-th sector from `L` on:
  `IncrementLBA` loses the carry into the high word, so the low word wraps alone.
* `TransferRequest` — the assumptions on the entry state.
* `Transferred` — the state of memory and image once `k` sectors are done, and how the handler's own
  stack writes leave it. -/

namespace Ts3100

open RealMode

/-! ## The request -/

section request

variable (m : Machine Host)

/-- The count in `al`. -/
def sectorCount : Nat := (lo m.ax).toNat

/-- The LBA of the CHS address in `ch`, `dh` and `cl`. -/
def firstSector : Nat :=
  ((hi m.cx).toNat * 255 + (hi m.dx).toNat) * 63 + ((lo m.cx).toNat - 1)

/-- The linear address of `es:bx`. -/
def buffer : Nat := linear m.es m.bx

/-- The option ROM's 8 KiB: its code and variables, and the disk window. -/
def InOptionRom (a : Nat) : Prop := 0xC8000 ≤ a ∧ a < 0xCA000

/-- The handler's stack frame: the 20 bytes below the entry `ss:sp`. -/
def InFrame (a : Nat) : Prop := ∃ i, 1 ≤ i ∧ i ≤ 20 ∧ a = linear m.ss (m.sp - BitVec.ofNat 16 i)

/-- The frame is outside the option ROM. -/
def FrameOutside : Prop := ∀ a, InFrame m a → ¬ InOptionRom a

/-- The caller's buffer. -/
def InBuffer (a : Nat) : Prop := buffer m ≤ a ∧ a < buffer m + 512 * sectorCount m

/-- The address of byte `i` of the caller's buffer; the offset wraps in the segment. -/
def bufferByte (i : Nat) : Nat := linear m.es (m.bx + BitVec.ofNat 16 i)

end request

/-- The low RAM ends below the option ROM. -/
theorem not_inOptionRom_of_lt {a : Nat} (ha : a < lowMemorySize) : ¬ InOptionRom a := by
  unfold lowMemorySize at ha
  unfold InOptionRom
  omega

/-- A transfer request for the virtual disk: a valid CHS address and count, any state of the LBA
register with its window mapped, a buffer that stays in its segment, and a stack frame apart from it.
Both are in the emulator's low RAM, `0..6FFFF`: above it there is no other memory to transfer to. -/
structure TransferRequest (t : Transfer) (m : Machine Host) : Prop where
  cs : m.cs = 0xC800#16
  function : hi m.ax = t.function
  drive : lo m.dx = m.bus.memory 0xC84CD
  count : 1 ≤ sectorCount m ∧ sectorCount m ≤ 128
  cylinder : (hi m.cx).toNat ≤ 7
  head : (hi m.dx).toNat ≤ 254
  sector : 1 ≤ (lo m.cx).toNat ∧ (lo m.cx).toNat ≤ 63
  selects : ∃ high low, m.bus.Selects high low
  bufferEnd : m.bx.toNat + 512 * sectorCount m ≤ 65536
  bufferInRam : ∀ a, InBuffer m a → a < lowMemorySize
  frameInRam : ∀ a, InFrame m a → a < lowMemorySize
  frameApart : ∀ a, InFrame m a → ¬ InBuffer m a

section outside

variable {t : Transfer} {m : Machine Host}

/-- The buffer is outside the option ROM. -/
theorem TransferRequest.bufferOutside (req : TransferRequest t m) (a : Nat) (ha : InBuffer m a) :
    ¬ InOptionRom a :=
  not_inOptionRom_of_lt (req.bufferInRam a ha)

/-- The frame is outside the option ROM and the buffer. -/
theorem TransferRequest.frameOutside (req : TransferRequest t m) (a : Nat) (ha : InFrame m a) :
    ¬ InOptionRom a ∧ ¬ InBuffer m a :=
  ⟨not_inOptionRom_of_lt (req.frameInRam a ha), req.frameApart a ha⟩

/-- The frame is outside the option ROM. -/
theorem TransferRequest.frame (req : TransferRequest t m) : FrameOutside m :=
  fun a ha => (req.frameOutside a ha).1

end outside

/-! ## The address of the first sector -/

section chs

variable {t : Transfer} {m : Machine Host}

/-- The track number fits 16 bits. -/
theorem toNat_chsTrack (m : Machine Host) :
    (chsTrack m).toNat = (hi m.cx).toNat * 255 + (hi m.dx).toNat := by
  have hc := (hi m.cx).isLt
  have hh := (hi m.dx).isLt
  simp only [chsTrack, BitVec.toNat_add, BitVec.toNat_mul, BitVec.toNat_setWidth, toNat_word,
    BitVec.toNat_ofNat, Nat.reducePow]
  omega

/-- The first sector of the track fits 32 bits. -/
theorem toNat_chsProduct (m : Machine Host) :
    (chsProduct m).toNat = ((hi m.cx).toNat * 255 + (hi m.dx).toNat) * 63 := by
  have hc := (hi m.cx).isLt
  have hh := (hi m.dx).isLt
  rw [chsProduct, BitVec.toNat_mul, BitVec.toNat_setWidth, toNat_chsTrack m]
  simp only [BitVec.toNat_ofNat, Nat.reducePow]
  omega

/-- `dx:ax` holds the LBA of a CHS address, with no carry lost. -/
theorem chs_eq_of_valid (hc : (hi m.cx).toNat ≤ 7) (hh : (hi m.dx).toNat ≤ 254)
    (hs : 1 ≤ (lo m.cx).toNat ∧ (lo m.cx).toNat ≤ 63) :
    chsLow m = BitVec.ofNat 16 (firstSector m) ∧
      chsHigh m = BitVec.ofNat 16 (firstSector m / 65536) := by
  have hproduct := toNat_chsProduct m
  have hlow : ((chsProduct m).extractLsb' 0 16).toNat = (chsProduct m).toNat % 65536 := by simp
  have hhigh : ((chsProduct m).extractLsb' 16 16).toNat = (chsProduct m).toNat / 65536 % 65536 := by
    simp [Nat.shiftRight_eq_div_pow]
  have hsector : (word 0#8 (lo m.cx - 1#8)).toNat = (lo m.cx).toNat - 1 := by
    rw [toNat_word]
    bv_omega
  -- the product is below 2 ^ 17, so its high word has room for the carry
  have htrack : ((hi m.cx).toNat * 255 + (hi m.dx).toNat) * 63 ≤ 128457 := by
    omega
  have hs : (lo m.cx).toNat - 1 ≤ 62 := by
    omega
  unfold firstSector
  generalize ((hi m.cx).toNat * 255 + (hi m.dx).toNat) * 63 = track at *
  generalize (lo m.cx).toNat - 1 = sector at *
  constructor
  · apply BitVec.eq_of_toNat_eq
    rw [chsLow, BitVec.toNat_add, hlow, hsector, hproduct, BitVec.toNat_ofNat]
    omega
  · apply BitVec.eq_of_toNat_eq
    -- `adc dx, 0` adds what `add ax, cx` carried
    have hcarry : (decide (2 ^ 16 ≤ track % 65536 + sector + false.toNat)).toNat =
        (track % 65536 + sector) / 65536 := by
      rw [Bool.toNat_false, Nat.add_zero]
      by_cases h : 2 ^ 16 ≤ track % 65536 + sector
      · rw [decide_eq_true h, Bool.toNat_true]
        omega
      · rw [decide_eq_false h, Bool.toNat_false]
        omega
    rw [chsHigh, toNat_addc, addc_carry, hlow, hsector, hhigh, hproduct, hcarry]
    simp only [BitVec.toNat_ofNat]
    omega

/-- The two words that the handler computes are those of the first sector. -/
theorem chs_eq (req : TransferRequest t m) :
    chsLow m = BitVec.ofNat 16 (firstSector m) ∧
      chsHigh m = BitVec.ofNat 16 (firstSector m / 65536) :=
  chs_eq_of_valid req.cylinder req.head req.sector

/-- The first sector of a valid address. -/
theorem firstSector_lt (req : TransferRequest t m) : firstSector m < 128520 := by
  have hc := req.cylinder
  have hh := req.head
  have hs := req.sector
  unfold firstSector
  omega

end chs

/-! ## The sectors reached -/

/-- The sector the handler reaches for the `k`-th sector from `L` on: the low word of the LBA wraps
without a carry into the high word. -/
def wrapSector (L k : Nat) : Nat := L / 65536 * 65536 + (L + k) % 65536

/-- The offset in the image of byte `j` of a transfer from sector `L` on. -/
def sectorByte (L j : Nat) : Nat := wrapSector L (j / 512) * 512 + j % 512

section wrapSector

variable {L k i j c : Nat}

/-- No sector in, it is the first one. -/
@[simp] theorem wrapSector_zero : wrapSector L 0 = L := by
  unfold wrapSector
  omega

/-- Inside a window the sectors are consecutive. -/
theorem wrapSector_add (h : wrapSector L k % 8 + i < 8) :
    wrapSector L (k + i) = wrapSector L k + i := by
  unfold wrapSector at *
  omega

/-- Up to sector 65536, and beyond it, no carry is lost. -/
theorem wrapSector_eq (hL : L + k < 131072) (h : ¬ (L < 65536 ∧ 65536 ≤ L + k)) :
    wrapSector L k = L + k := by
  unfold wrapSector
  omega

/-- The bytes of sectors in one window are consecutive. -/
theorem sectorByte_add (hc : wrapSector L k % 8 + c ≤ 8) (hi : i < 512 * c) :
    sectorByte L (512 * k + i) = wrapSector L k * 512 + i := by
  have hdiv : (512 * k + i) / 512 = k + i / 512 := by omega
  have hmod : (512 * k + i) % 512 = i % 512 := by omega
  rw [sectorByte, hdiv, hmod, wrapSector_add (by omega)]
  omega

/-- Distinct bytes of a transfer of at most 128 sectors are distinct bytes of the image. -/
theorem sectorByte_inj (hi : i < 65536) (hj : j < 65536) (h : sectorByte L i = sectorByte L j) :
    i = j := by
  unfold sectorByte wrapSector at h
  omega

end wrapSector

end Ts3100
