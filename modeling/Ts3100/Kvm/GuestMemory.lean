import Ts3100.Kvm.PortExits
import Ts3100.Library.AddressSpace

/-! # The guest's memory map

KVM looks a guest-physical address up in the slot table. In a slot it finds a host address, which
lies in one of the emulator's mappings: its RAM and option ROM, the flash file, or the page of the
disk image. Stores to a read-only slot and all accesses outside the slots are trapped.

* `slotSpace` — the guest's address space as the slot table and the host's mappings make it.
* `guestMap` — the address space that the slots are there to make: which byte of RAM, option ROM,
  flash or disk image is at each address, given the A20 line and the page of the disk image.
* `slotSpace_eq_guestMap` — they are the same, for buffers that do not overlap. -/

namespace Ts3100

open AddressSpace PortMachine

/-! ## Through the slots -/

/-- The region contains a guest-physical address. -/
def MemoryRegion.Contains (r : MemoryRegion) (a : Nat) : Prop :=
  r.guestPhysAddr ≤ a ∧ a < r.guestPhysAddr + r.memorySize

instance (r : MemoryRegion) (a : Nat) : Decidable (r.Contains a) :=
  inferInstanceAs (Decidable (_ ∧ _))

/-- The host address behind a guest-physical address of the region. -/
def MemoryRegion.hostAddress (r : MemoryRegion) (a : Nat) : Nat :=
  r.userspaceAddr + (a - r.guestPhysAddr)

/-- The enabled slot that contains an address. -/
def MemorySlots.slotAt (slots : MemorySlots) (a : Nat) : Option MemoryRegion :=
  (List.finRange 8).findSome? fun n => (slots n).filter fun r => decide (r.Contains a)

/-- A byte behind a host address: of the emulator's anonymous memory, of the flash file, or of the
disk image. -/
inductive HostCell where
  | memory (x : Nat)
  | flash (i : Nat)
  | image (y : Nat)
  deriving DecidableEq, Repr

/-- The byte behind a host address, where the page at `diskData` shows the disk image from
`diskOffset` on; `diskData` is `0` before there is one. -/
def cellAt (host : HostPointers) (diskData diskOffset x : Nat) : HostCell :=
  if host.flashMemory ≤ x ∧ x < host.flashMemory + 0x80000 then .flash (x - host.flashMemory)
  else if diskData ≠ 0 ∧ diskData ≤ x ∧ x < diskData + pageSize then
    .image (diskOffset + (x - diskData))
  else .memory x

/-- The guest's address space: what KVM accesses directly, through the slots. -/
def slotSpace (host : HostPointers) (slots : MemorySlots) (diskData diskOffset : Nat) :
    Space Nat HostCell := fun a =>
  (slots.slotAt a).map fun r => ⟨cellAt host diskData diskOffset (r.hostAddress a), !r.readonly⟩

/-! ## What the slots are there to make -/

/-- A byte of the emulated machine. -/
inductive GuestByte where
  | ram (i : Fin lowMemorySize)
  | optionRom (i : Fin 0x2000)
  | flash (i : Fin 0x80000)
  | image (y : Nat)
  deriving DecidableEq

/-- Where the emulator keeps a byte of the machine. -/
def GuestByte.cell (host : HostPointers) : GuestByte → HostCell
  | .ram i => .memory (host.ram + i)
  | .optionRom i => .memory (host.optionRom + i)
  | .flash i => .flash i
  | .image y => .image y

/-! The offsets behind the addresses of the map are in their buffers. -/

section offsets

variable {a : Nat}

/-- The first page of the option ROM. -/
theorem optionRom_offset_lt (h : 0xC8000 ≤ a ∧ a < 0xC9000) : a - 0xC8000 < 0x2000 := by omega

/-- Its second page. -/
theorem optionRomBoot_offset_lt (h : 0xC9000 ≤ a ∧ a < 0xCA000) : a - 0xC8000 < 0x2000 := by omega

/-- The flash in the first MiB. -/
theorem bios_offset_lt (h : 0xE0000 ≤ a ∧ a < 0x100000) : a - 0x80000 < 0x80000 := by omega

/-- The 64 KiB above 1 MiB. -/
theorem ramWrap_offset_lt {a20 : Bool} (h : 0x100000 ≤ a ∧ a < 0x110000 ∧ a20 = false) :
    a - 0x100000 < lowMemorySize := by
  unfold lowMemorySize
  omega

/-- The flash in its window and its alias. -/
theorem flash_offset_lt (a : Nat) : (a - 0x3400000) % 0x80000 < 0x80000 :=
  Nat.mod_lt _ (by decide)

end offsets

/-- **The memory map**, with the A20 line on or off and the page of the disk image from an offset on,
if there is one. -/
def guestMap (a20 : Bool) (disk : Option Nat) : Space Nat GuestByte := fun a =>
  if h : a < lowMemorySize then some ⟨.ram ⟨a, h⟩, true⟩
  else if h : 0xC8000 ≤ a ∧ a < 0xC9000 then
    some ⟨.optionRom ⟨a - 0xC8000, optionRom_offset_lt h⟩, true⟩
  else if h : 0xC9000 ≤ a ∧ a < 0xCA000 then
    match disk with
    | some offset => some ⟨.image (offset + (a - 0xC9000)), true⟩
    | none => some ⟨.optionRom ⟨a - 0xC8000, optionRomBoot_offset_lt h⟩, false⟩
  else if h : 0xE0000 ≤ a ∧ a < 0x100000 then
    some ⟨.flash ⟨a - 0x80000, bios_offset_lt h⟩, false⟩
  else if h : 0x100000 ≤ a ∧ a < 0x110000 ∧ a20 = false then
    some ⟨.ram ⟨a - 0x100000, ramWrap_offset_lt h⟩, true⟩
  else if 0x3400000 ≤ a ∧ a < 0x3500000 then
    some ⟨.flash ⟨(a - 0x3400000) % 0x80000, flash_offset_lt a⟩, false⟩
  else none

section guestMap

variable {a20 : Bool} {disk : Option Nat} {a : Nat}

/-- RAM is at its own addresses. -/
theorem guestMap_ram (ha : a < lowMemorySize) :
    guestMap a20 disk a = some ⟨.ram ⟨a, ha⟩, true⟩ := dif_pos ha

/-- The first page of the option ROM is its own. -/
theorem guestMap_optionRom (i : Fin 0x2000) (hi : i.val < 0x1000) :
    guestMap a20 disk (0xC8000 + i) = some ⟨.optionRom i, true⟩ := by
  have hram : ¬ 0xC8000 + i.val < lowMemorySize := by
    unfold lowMemorySize
    omega
  rw [guestMap, dif_neg hram, dif_pos (by omega)]
  exact congrArg (fun i => some (Backing.mk (GuestByte.optionRom i) true))
    (Fin.ext (Nat.add_sub_cancel_left ..))

/-- The second is the mapped page of the disk. -/
theorem guestMap_image {offset i : Nat} (hi : i < 0x1000) :
    guestMap a20 (some offset) (0xC9000 + i) = some ⟨.image (offset + i), true⟩ := by
  have hram : ¬ 0xC9000 + i < lowMemorySize := by
    unfold lowMemorySize
    omega
  rw [guestMap, dif_neg hram, dif_neg (by omega), dif_pos (by omega)]
  exact congrArg (fun i => some (Backing.mk (GuestByte.image (offset + i)) true))
    (Nat.add_sub_cancel_left ..)

/-- The flash in the first MiB. -/
theorem guestMap_bios (i : Fin 0x80000) (hi : 0x60000 ≤ i.val) :
    guestMap a20 disk (0x80000 + i) = some ⟨.flash i, false⟩ := by
  have hlt := i.isLt
  have hram : ¬ 0x80000 + i.val < lowMemorySize := by
    unfold lowMemorySize
    omega
  rw [guestMap, dif_neg hram, dif_neg (by omega), dif_neg (by omega), dif_pos (by omega)]
  exact congrArg (fun i => some (Backing.mk (GuestByte.flash i) false))
    (Fin.ext (Nat.add_sub_cancel_left ..))

/-- The flash in its window and its alias. -/
theorem guestMap_window (i : Fin 0x80000) (hlow : 0x3400000 ≤ a) (hhigh : a < 0x3500000)
    (hi : (a - 0x3400000) % 0x80000 = i) : guestMap a20 disk a = some ⟨.flash i, false⟩ := by
  have hram : ¬ a < lowMemorySize := by
    unfold lowMemorySize
    omega
  rw [guestMap, dif_neg hram, dif_neg (by omega), dif_neg (by omega), dif_neg (by omega),
    dif_neg (by omega), if_pos ⟨hlow, hhigh⟩]
  exact congrArg (fun i => some (Backing.mk (GuestByte.flash i) false)) (Fin.ext hi)

/-- The 64 KiB above 1 MiB are the first 64 KiB where the A20 line is off, and nothing where it is
on. -/
theorem guestMap_wrap (hlow : 0x100000 ≤ a) (hhigh : a < 0x110000) :
    guestMap a20 disk a = if a20 then none else guestMap a20 disk (a - 0x100000) := by
  have hram : ¬ a < lowMemorySize := by
    unfold lowMemorySize
    omega
  have hwrapped : a - 0x100000 < lowMemorySize := by
    unfold lowMemorySize
    omega
  rw [guestMap_ram hwrapped, guestMap, dif_neg hram, dif_neg (by omega), dif_neg (by omega),
    dif_neg (by omega)]
  cases a20 with
  | false => exact dif_pos ⟨hlow, hhigh, rfl⟩
  | true =>
      rw [dif_neg (by simp), if_neg (by omega)]
      rfl

/-- What may be written: RAM, the first page of the option ROM, and the disk image. -/
theorem guestMap_writable {g : GuestByte} (h : guestMap a20 disk a = some ⟨g, true⟩) :
    (∃ i, g = .ram i) ∨ (∃ i, g = .optionRom i ∧ 0xC8000 ≤ a ∧ a < 0xC9000) ∨
      ∃ y, g = .image y := by
  have hcell {g' : GuestByte} {writable : Bool}
      (h : some (Backing.mk g' writable) = some ⟨g, true⟩) : g = g' ∧ writable = true := by
    obtain ⟨hg, hwritable⟩ := Backing.mk.inj (Option.some.inj h)
    exact ⟨hg.symm, hwritable⟩
  unfold guestMap at h
  split at h
  · exact .inl ⟨_, (hcell h).1⟩
  split at h
  · rename_i hpage
    exact .inr (.inl ⟨_, (hcell h).1, hpage⟩)
  split at h
  · cases disk with
    | some offset => exact .inr (.inr ⟨_, (hcell h).1⟩)
    -- the ROM's second page is shown read-only
    | none => exact absurd (hcell h).2 (by decide)
  split at h
  · exact absurd (hcell h).2 (by decide)
  split at h
  · exact .inl ⟨_, (hcell h).1⟩
  split at h
  · exact absurd (hcell h).2 (by decide)
  · cases h

end guestMap

/-! ## The buffers -/

/-- A host address in one of the emulator's buffers. -/
def InBuffers (host : HostPointers) (x : Nat) : Prop :=
  (host.ram ≤ x ∧ x < host.ram + lowMemorySize) ∨
  (host.optionRom ≤ x ∧ x < host.optionRom + 0x2000) ∨
  (host.flashMemory ≤ x ∧ x < host.flashMemory + 0x80000)

/-- The buffers are what `mmap` returns: whole pages that do not overlap. -/
structure HostLayout (host : HostPointers) : Prop where
  ramAligned : host.ram % pageSize = 0
  optionRomAligned : host.optionRom % pageSize = 0
  flashAligned : host.flashMemory % pageSize = 0
  ramFlash : host.ram + lowMemorySize ≤ host.flashMemory ∨ host.flashMemory + 0x80000 ≤ host.ram
  ramOptionRom : host.ram + lowMemorySize ≤ host.optionRom ∨ host.optionRom + 0x2000 ≤ host.ram
  optionRomFlash : host.optionRom + 0x2000 ≤ host.flashMemory ∨
    host.flashMemory + 0x80000 ≤ host.optionRom

section layout

variable {host : HostPointers} {page x : Nat}

/-- A page that does not start in a buffer shares no byte with one. -/
theorem HostLayout.not_inBuffers (h : HostLayout host) (haligned : page % pageSize = 0)
    (hpage : ¬ InBuffers host page) (hlow : page ≤ x) (hhigh : x < page + pageSize) :
    ¬ InBuffers host x := by
  have hram := h.ramAligned
  have hrom := h.optionRomAligned
  have hflash := h.flashAligned
  unfold InBuffers lowMemorySize at *
  unfold pageSize at *
  omega

/-- Distinct bytes of the machine are kept in distinct places. -/
theorem HostLayout.cell_injective (h : HostLayout host) :
    Function.Injective (GuestByte.cell host) := by
  have happart := h.ramOptionRom
  intro g g' heq
  cases g <;> cases g' <;> simp only [GuestByte.cell, HostCell.memory.injEq, HostCell.flash.injEq,
    HostCell.image.injEq, reduceCtorEq] at heq
  case ram.ram i j =>
    congr 1
    exact Fin.ext (by omega)
  case ram.optionRom i j =>
    have hi := i.isLt
    have hj := j.isLt
    omega
  case optionRom.ram i j =>
    have hi := i.isLt
    have hj := j.isLt
    omega
  case optionRom.optionRom i j =>
    congr 1
    exact Fin.ext (by omega)
  case flash.flash i j =>
    congr 1
    exact Fin.ext heq
  case image.image y y' => rw [heq]

end layout

/-! ## Lookups in a table without overlaps -/

section lookup

variable {slots : MemorySlots} {n : Fin 8} {r : MemoryRegion} {a : Nat}

/-- Regions that contain one address overlap. -/
theorem MemoryRegion.Contains.overlaps {r r' : MemoryRegion} (h : r.Contains a) (h' : r'.Contains a) :
    r.Overlaps r' := by
  unfold MemoryRegion.Contains at h h'
  unfold MemoryRegion.Overlaps
  omega

/-- Where no slots overlap, the slot that contains an address is found. -/
theorem slotAt_eq_some
    (hdisjoint : ∀ m n r r', m ≠ n → slots m = some r → slots n = some r' → ¬ r.Overlaps r')
    (hn : slots n = some r) (ha : r.Contains a) : slots.slotAt a = some r := by
  cases hfind : slots.slotAt a with
  | none =>
      have hnone := List.findSome?_eq_none_iff.mp hfind n (List.mem_finRange n)
      rw [hn, Option.filter_some_eq_none] at hnone
      exact absurd (decide_eq_true ha) hnone
  | some r' =>
      obtain ⟨m, -, hm⟩ := List.exists_of_findSome?_eq_some hfind
      obtain ⟨hslot, hcontains⟩ := Option.filter_eq_some_iff.mp hm
      by_cases hmn : m = n
      · rw [← hslot, hmn, hn]
      · exact absurd ((of_decide_eq_true hcontains).overlaps ha) (hdisjoint m n r' r hmn hslot hn)

/-- An address in no slot is not found. -/
theorem slotAt_eq_none (hno : ∀ n r, slots n = some r → ¬ r.Contains a) : slots.slotAt a = none := by
  refine List.findSome?_eq_none_iff.mpr fun n _ => Option.filter_eq_none_iff.mpr fun r hr => ?_
  exact fun hcontains => hno n r hr (of_decide_eq_true hcontains)

end lookup

/-! ## The slots make the memory map -/

/-- The page of the disk image, if there is one, is a page of its own. -/
structure PageApart (host : HostPointers) (diskData : Nat) : Prop where
  aligned : diskData % pageSize = 0
  apart : diskData ≠ 0 → ¬ InBuffers host diskData

section cells

variable {host : HostPointers} {diskData diskOffset x : Nat}

/-- Where the emulator keeps its anonymous memory, there is no file. -/
theorem cellAt_memory (h : HostLayout host) (hpage : PageApart host diskData)
    (hx : InBuffers host x) (hflash : ¬ (host.flashMemory ≤ x ∧ x < host.flashMemory + 0x80000)) :
    cellAt host diskData diskOffset x = .memory x := by
  rw [cellAt, if_neg hflash, if_neg]
  rintro ⟨hzero, hlow, hhigh⟩
  exact h.not_inBuffers hpage.aligned (hpage.apart hzero) hlow hhigh hx

/-- The flash's buffer is the chip. -/
theorem cellAt_flash {i : Nat} (hi : i < 0x80000) :
    cellAt host diskData diskOffset (host.flashMemory + i) = .flash i := by
  rw [cellAt, if_pos (by omega), Nat.add_sub_cancel_left]

/-- The mapped page is the image from its offset on. -/
theorem cellAt_image (h : HostLayout host) (hpage : PageApart host diskData) (hzero : diskData ≠ 0)
    {i : Nat} (hi : i < pageSize) :
    cellAt host diskData diskOffset (diskData + i) = .image (diskOffset + i) := by
  have hflash : ¬ (host.flashMemory ≤ diskData + i ∧ diskData + i < host.flashMemory + 0x80000) :=
    fun hin => h.not_inBuffers hpage.aligned (hpage.apart hzero) (by omega) (by omega)
      (Or.inr (Or.inr hin))
  rw [cellAt, if_neg hflash, if_pos ⟨hzero, by omega, by omega⟩, Nat.add_sub_cancel_left]

/-- RAM's buffer is memory. -/
theorem cellAt_ram (h : HostLayout host) (hpage : PageApart host diskData) (i : Fin lowMemorySize) :
    cellAt host diskData diskOffset (host.ram + i) = GuestByte.cell host (.ram i) := by
  have hi := i.isLt
  have happart := h.ramFlash
  exact cellAt_memory h hpage (Or.inl (by omega)) (by omega)

/-- The option ROM's buffer is memory. -/
theorem cellAt_optionRom (h : HostLayout host) (hpage : PageApart host diskData) (i : Fin 0x2000) :
    cellAt host diskData diskOffset (host.optionRom + i) = GuestByte.cell host (.optionRom i) := by
  have hi := i.isLt
  have happart := h.optionRomFlash
  exact cellAt_memory h hpage (Or.inr (Or.inl (by omega))) (by omega)

end cells

section slots

variable {host : HostPointers} {s : PortMachine} {a : Nat} {diskOffset : Nat}

/-- What the slots make of an address that a region of the table contains. -/
theorem slotSpace_eq_some (hfollow : s.SlotsFollow host) {n : Fin 8} {r : MemoryRegion}
    (hn : s.slots n = some r) (ha : r.Contains a) :
    slotSpace host s.slots s.diskData diskOffset a =
      some ⟨cellAt host s.diskData diskOffset (r.hostAddress a), !r.readonly⟩ := by
  rw [slotSpace, slotAt_eq_some (fun _ _ _ _ => hfollow.disjoint) hn ha]
  rfl

/-- What the flash slots make of an address: `base` is the region's address in the flash. -/
theorem slotSpace_flash (hfollow : s.SlotsFollow host) {n : Fin 8} {r : MemoryRegion}
    (hn : s.slots n = some r) (ha : r.Contains a) (base : Nat)
    (hbase : r.userspaceAddr = host.flashMemory + base) (hreadonly : r.readonly = true)
    {i : Fin 0x80000} (hi : base + (a - r.guestPhysAddr) = i) :
    slotSpace host s.slots s.diskData diskOffset a =
      some ⟨GuestByte.cell host (.flash i), false⟩ := by
  have haddress : r.hostAddress a = host.flashMemory + i := by
    unfold MemoryRegion.hostAddress
    omega
  rw [slotSpace_eq_some hfollow hn ha, haddress, cellAt_flash i.isLt, hreadonly]
  rfl

/-- **The slots make the memory map.** -/
theorem slotSpace_eq_guestMap (h : HostLayout host) (hfollow : s.SlotsFollow host)
    (hpage : PageApart host s.diskData) :
    slotSpace host s.slots s.diskData diskOffset =
      (guestMap (a20Enabled s.pio.a20register)
        (if s.diskData = 0 then none else some diskOffset)).rename (GuestByte.cell host) := by
  funext a
  have hslots := hfollow.slots
  -- range by range, in the order of the map; where a range has two slots, slot by slot
  rw [Space.rename, guestMap]
  split
  · rename_i ha
    have hn : s.slots 0 = some (regionRam host) := by rw [hslots]; rfl
    rw [slotSpace_eq_some hfollow hn ⟨Nat.zero_le a, by simpa [regionRam] using ha⟩]
    exact congrArg (fun c => some (Backing.mk c true)) (cellAt_ram h hpage ⟨a, ha⟩)
  split
  · rename_i ha
    have hn : s.slots 6 = some (regionOptionRom host) := by rw [hslots]; rfl
    rw [slotSpace_eq_some hfollow hn ha]
    exact congrArg (fun c => some (Backing.mk c true)) (cellAt_optionRom h hpage ⟨a - 0xC8000, _⟩)
  split
  · rename_i ha
    have hn : s.slots 7 = some (s.diskRegion host) := by rw [hslots]; rfl
    by_cases hzero : s.diskData = 0
    · have hregion : s.diskRegion host = regionOptionRomBoot host := by rw [diskRegion, if_pos hzero]
      rw [hregion] at hn
      have haddress : (regionOptionRomBoot host).hostAddress a = host.optionRom + (a - 0xC8000) := by
        simp only [MemoryRegion.hostAddress, regionOptionRomBoot]
        omega
      rw [slotSpace_eq_some hfollow hn ha, haddress, if_pos hzero]
      exact congrArg (fun c => some (Backing.mk c false))
        (cellAt_optionRom h hpage ⟨a - 0xC8000, _⟩)
    · have hregion : s.diskRegion host = regionOptionRomDisk s.diskData := by
        rw [diskRegion, if_neg hzero]
      rw [hregion] at hn
      have hin : a - 0xC9000 < pageSize := by
        unfold pageSize
        omega
      rw [slotSpace_eq_some hfollow hn ha, if_neg hzero]
      exact congrArg (fun c => some (Backing.mk c true)) (cellAt_image h hpage hzero hin)
  split
  · rename_i ha
    by_cases hbios : a < 0xF0000
    · have hn : s.slots 1 = some (regionRomDos host) := by rw [hslots]; rfl
      have hin : (regionRomDos host).Contains a := by
        simp only [MemoryRegion.Contains, regionRomDos]
        omega
      refine slotSpace_flash hfollow hn hin 0x60000 rfl rfl ?_
      simp only [regionRomDos]
      omega
    · have hn : s.slots 2 = some (regionBios host) := by rw [hslots]; rfl
      have hin : (regionBios host).Contains a := by
        simp only [MemoryRegion.Contains, regionBios]
        omega
      refine slotSpace_flash hfollow hn hin 0x70000 rfl rfl ?_
      simp only [regionBios]
      omega
  split
  · rename_i ha
    have hn : s.slots 3 = some (regionRamWrap host) := by
      rw [hslots, ha.2.2]
      rfl
    have hin : (regionRamWrap host).Contains a := by
      simp only [MemoryRegion.Contains, regionRamWrap]
      omega
    rw [slotSpace_eq_some hfollow hn hin]
    exact congrArg (fun c => some (Backing.mk c true)) (cellAt_ram h hpage ⟨a - 0x100000, _⟩)
  split
  · rename_i ha
    by_cases halias : a < 0x3480000
    · have hn : s.slots 4 = some (regionFlash host) := by rw [hslots]; rfl
      have hin : (regionFlash host).Contains a := by
        simp only [MemoryRegion.Contains, regionFlash]
        omega
      refine slotSpace_flash hfollow hn hin 0 rfl rfl ?_
      simp only [regionFlash]
      omega
    · have hn : s.slots 5 = some (regionFlashAlias host) := by rw [hslots]; rfl
      have hin : (regionFlashAlias host).Contains a := by
        simp only [MemoryRegion.Contains, regionFlashAlias]
        omega
      refine slotSpace_flash hfollow hn hin 0 rfl rfl ?_
      simp only [regionFlashAlias]
      omega
  -- no slot is left to contain the address
  · rename_i hram hrom hdisk hflash hwrap hwindow
    rw [slotSpace, slotAt_eq_none]
    · rfl
    · intro n r hr hcontains
      rw [hslots] at hr
      have hdiskRegion : IsDiskRegion (s.diskRegion host) := isDiskRegion_diskRegion
      fin_cases n
      case «3» =>
        cases hline : a20Enabled s.pio.a20register with
        | true =>
            rw [hline] at hr
            cases hr
        | false =>
            rw [hline] at hr
            obtain rfl := Option.some.inj hr
            simp only [MemoryRegion.Contains, regionRamWrap] at hcontains
            exact hwrap ⟨hcontains.1, by omega, hline⟩
      case «7» =>
        obtain rfl := Option.some.inj hr
        rw [MemoryRegion.Contains, hdiskRegion.2.1, hdiskRegion.2.2] at hcontains
        omega
      all_goals
        obtain rfl := Option.some.inj hr
        simp only [MemoryRegion.Contains, regionRam, regionRomDos, regionBios, regionFlash,
          regionFlashAlias, regionOptionRom] at hcontains
        omega

end slots

end Ts3100
