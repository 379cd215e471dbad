import Ts3100.Library.RealMode.Safety
import Ts3100.Disk.Preservation

/-! # The geometry and its addresses

Function 08h states a geometry, and the transfer functions compute the LBA of a CHS address with the
heads and sectors of a geometry in their code.

* `Geometry.lba`, `Geometry.chs` — the sector number of an address and its inverse, for any geometry
  (`bijOn_lba`).
* `Geometry.Served` — the code computes the addresses of a geometry, inside the disk image.
* `ensures_served_geometry` — it does so for the one that function 08h returns. -/

namespace Ts3100

open RealMode

/-! ## Addresses of a geometry -/

/-- A cylinder, head and sector; sectors are counted from 1. -/
structure Chs where
  cylinder : Nat
  head : Nat
  sector : Nat
  deriving DecidableEq, Repr

/-- The numbers of cylinders, of heads and of sectors a track. -/
structure Geometry where
  cylinders : Nat
  heads : Nat
  sectors : Nat
  deriving DecidableEq, Repr

/-- The address in `cx` and `dx`: the low bits of the cylinder in `ch`, its high bits above the
sector in `cl`, the head in `dh`. -/
def Chs.ofRegisters (cx dx : Word) : Chs where
  cylinder := (hi cx).toNat + 256 * ((lo cx).toNat / 64)
  head := (hi dx).toNat
  sector := (lo cx).toNat % 64

/-- The geometry whose last address is in `cx` and `dx`. -/
def Geometry.ofRegisters (cx dx : Word) : Geometry where
  cylinders := (Chs.ofRegisters cx dx).cylinder + 1
  heads := (Chs.ofRegisters cx dx).head + 1
  sectors := (Chs.ofRegisters cx dx).sector

namespace Geometry

variable {g : Geometry} {a : Chs} {n : Nat}

/-- An address of the geometry. -/
structure Allows (g : Geometry) (a : Chs) : Prop where
  cylinder : a.cylinder < g.cylinders
  head : a.head < g.heads
  sector : 1 ≤ a.sector ∧ a.sector ≤ g.sectors

/-- The number of sectors. -/
def size (g : Geometry) : Nat := g.cylinders * g.heads * g.sectors

/-- The sector number of an address. -/
def lba (g : Geometry) (a : Chs) : Nat :=
  (a.cylinder * g.heads + a.head) * g.sectors + (a.sector - 1)

/-- The address of a sector number. -/
def chs (g : Geometry) (n : Nat) : Chs where
  cylinder := n / g.sectors / g.heads
  head := n / g.sectors % g.heads
  sector := n % g.sectors + 1

/-- The track and the sector of an address, from its sector number. -/
theorem lba_div_mod (ha : g.Allows a) :
    g.lba a / g.sectors = a.cylinder * g.heads + a.head ∧ g.lba a % g.sectors = a.sector - 1 := by
  have hsector := ha.sector
  have hpos : 0 < g.sectors := by omega
  have hlt : a.sector - 1 < g.sectors := by omega
  constructor
  · rw [lba, Nat.mul_comm, Nat.mul_add_div hpos, Nat.div_eq_of_lt hlt, Nat.add_zero]
  · rw [lba, Nat.mul_comm, Nat.mul_add_mod, Nat.mod_eq_of_lt hlt]

/-- The sector number of an address gives the address back. -/
theorem chs_lba (ha : g.Allows a) : g.chs (g.lba a) = a := by
  obtain ⟨htrack, hsector⟩ := lba_div_mod ha
  have hpos : 0 < g.heads := lt_of_le_of_lt (Nat.zero_le _) ha.head
  have hone := ha.sector.1
  unfold chs
  rw [htrack, hsector, Nat.mul_comm, Nat.mul_add_div hpos, Nat.mul_add_mod, Nat.div_eq_of_lt ha.head,
    Nat.mod_eq_of_lt ha.head, Nat.add_zero, Nat.sub_add_cancel hone]

/-- The address of a sector number has that number. -/
theorem lba_chs (g : Geometry) (n : Nat) : g.lba (g.chs n) = n := by
  unfold lba chs
  dsimp only
  rw [Nat.mul_comm (n / g.sectors / g.heads), Nat.div_add_mod, Nat.add_sub_cancel,
    Nat.mul_comm, Nat.div_add_mod]

/-- The addresses have numbers below the number of sectors. -/
theorem lba_lt_size (ha : g.Allows a) : g.lba a < g.size := by
  have htrack : a.cylinder * g.heads + a.head < g.cylinders * g.heads := by
    calc a.cylinder * g.heads + a.head
        < a.cylinder * g.heads + g.heads := Nat.add_lt_add_left ha.head _
      _ = (a.cylinder + 1) * g.heads := (Nat.succ_mul _ _).symm
      _ ≤ g.cylinders * g.heads := Nat.mul_le_mul_right _ ha.cylinder
  have hsector := ha.sector
  calc g.lba a
      < (a.cylinder * g.heads + a.head) * g.sectors + g.sectors := by
        unfold lba
        omega
    _ = (a.cylinder * g.heads + a.head + 1) * g.sectors := (Nat.succ_mul _ _).symm
    _ ≤ g.cylinders * g.heads * g.sectors := Nat.mul_le_mul_right _ htrack

/-- Every number below that is the number of an address. -/
theorem allows_chs (hn : n < g.size) : g.Allows (g.chs n) := by
  have hpos : 0 < g.cylinders * g.heads * g.sectors := lt_of_le_of_lt (Nat.zero_le _) hn
  have hsectors : 0 < g.sectors := Nat.pos_of_mul_pos_left hpos
  have hheads : 0 < g.heads := Nat.pos_of_mul_pos_left (Nat.pos_of_mul_pos_right hpos)
  refine ⟨?_, Nat.mod_lt _ hheads, Nat.succ_pos _, Nat.mod_lt _ hsectors⟩
  show n / g.sectors / g.heads < g.cylinders
  rw [Nat.div_lt_iff_lt_mul hheads, Nat.div_lt_iff_lt_mul hsectors]
  exact hn

/-- **The numbering is a bijection** between the addresses of a geometry and the numbers below its
size. -/
theorem bijOn_lba (g : Geometry) : Set.BijOn g.lba {a | g.Allows a} (Set.Iio g.size) := by
  have hinverse : Set.InvOn g.chs g.lba {a | g.Allows a} (Set.Iio g.size) := by
    constructor
    · intro a ha
      exact chs_lba ha
    · intro n _
      exact g.lba_chs n
  apply hinverse.bijOn
  · intro a ha
    exact lba_lt_size ha
  · intro n hn
    exact allows_chs hn

end Geometry

/-! ## The code of the transfer functions -/

/-- The instructions of a transfer function that convert the address to `dx:ax`: up to the `adc`. -/
def chsCode (t : Transfer) : List (Instr Label) := (optionRom.code (.transfer t .entry)).take 13

/-- The number in `dx:ax`. -/
def wideNumber (m : Machine Host) : Nat := m.dx.toNat * 65536 + m.ax.toNat

/-- The sectors of the disk image, which is created with 67108864 bytes. -/
def imageSectors : Nat := 67108864 / 512

variable {t : Transfer} {m₀ m : Machine Host}

/-- The code ends with the low word in `ax` and the high word in `dx`. -/
theorem execAll_chsCode (t : Transfer) (m : Machine Host) :
    ∃ m', optionRom.execAll (chsCode t) m = some m' ∧ m'.ax = chsLow m ∧ m'.dx = chsHigh m := by
  cases t <;>
    simp [chsCode, optionRom, handleAH02, handleAH03, transferCode, chsLow, chsHigh, chsProduct,
      chsTrack]

/-- Both transfer functions number the addresses of the geometry, with no carry lost, by a bijection
with the numbers below its size, all inside the disk image. -/
structure Geometry.Served (g : Geometry) : Prop where
  computes : ∀ (t : Transfer) (m : Machine Host), g.Allows (Chs.ofRegisters m.cx m.dx) →
    ∃ m', optionRom.execAll (chsCode t) m = some m' ∧
      wideNumber m' = g.lba (Chs.ofRegisters m.cx m.dx)
  bijective : Set.BijOn g.lba {a | g.Allows a} (Set.Iio (g.cylinders * g.heads * g.sectors))
  inImage : ∀ a, g.Allows a → g.lba a < imageSectors

/-- The geometry that function 08h states. -/
def diskGeometry : Geometry := { cylinders := 8, heads := 255, sectors := 63 }

/-- An address of this geometry has no cylinder bits in `cl`. -/
theorem diskGeometry_registers (ha : diskGeometry.Allows (Chs.ofRegisters m.cx m.dx)) :
    (hi m.cx).toNat ≤ 7 ∧ (hi m.dx).toNat ≤ 254 ∧ 1 ≤ (lo m.cx).toNat ∧ (lo m.cx).toNat ≤ 63 := by
  obtain ⟨hcylinder, hhead, hsector⟩ := ha
  simp only [Chs.ofRegisters, diskGeometry] at hcylinder hhead hsector
  omega

/-- The sector that the handler computes is that of the geometry. -/
theorem lba_diskGeometry (ha : diskGeometry.Allows (Chs.ofRegisters m.cx m.dx)) :
    diskGeometry.lba (Chs.ofRegisters m.cx m.dx) = firstSector m := by
  obtain ⟨hcylinder, hhead, hlow, hhigh⟩ := diskGeometry_registers ha
  have hdiv : (lo m.cx).toNat / 64 = 0 := by omega
  have hmod : (lo m.cx).toNat % 64 = (lo m.cx).toNat := by omega
  simp only [Geometry.lba, Chs.ofRegisters, diskGeometry, firstSector, hdiv, hmod, Nat.mul_zero,
    Nat.add_zero]

/-- The code computes the addresses of this geometry. -/
theorem served_diskGeometry : diskGeometry.Served where
  computes t m ha := by
    obtain ⟨hcylinder, hhead, hsector⟩ := diskGeometry_registers ha
    obtain ⟨m', hexec, hax, hdx⟩ := execAll_chsCode t m
    obtain ⟨hlow, hhigh⟩ := chs_eq_of_valid hcylinder hhead hsector
    refine ⟨m', hexec, ?_⟩
    have hlt : firstSector m < 128520 := by
      unfold firstSector
      omega
    rw [lba_diskGeometry ha, wideNumber, hax, hdx, hlow, hhigh, BitVec.toNat_ofNat,
      BitVec.toNat_ofNat]
    omega
  bijective := diskGeometry.bijOn_lba
  inImage a ha := lt_of_lt_of_le (Geometry.lba_lt_size ha) (by decide)

/-- **The geometry and the translation agree**: function 08h returns a geometry whose addresses both
transfer functions number as it says. -/
theorem ensures_served_geometry (req : ServedRequest m₀) (hah : hi m₀.ax = 0x08#8) :
    optionRom.Ensures .int13hHandler m₀ fun _ m => (Geometry.ofRegisters m.cx m.dx).Served := by
  refine (ensures_geometry req hah).mono ?_
  rintro _ m ⟨hreturned, -⟩
  have hgeometry : Geometry.ofRegisters m.cx m.dx = diskGeometry := by
    rw [hreturned.cx, hreturned.dx]
    decide
  rw [hgeometry]
  exact served_diskGeometry

/-- The geometry asked for from a machine with its stack below `0000:7C00`. -/
theorem ensures_served_geometry_request :
    optionRom.Ensures .int13hHandler geometryRequest fun _ m =>
      (Geometry.ofRegisters m.cx m.dx).Served :=
  ensures_served_geometry servedRequest_geometry (by decide)

end Ts3100
