import Ts3100.Library.LabelledRuns

/-! # The emulator's KVM memory slots

The guest-physical address space is a table of memory slots, edited one slot at a time with
`ioctl(vmFd, KVM_SET_USER_MEMORY_REGION, &region)`. This file models

* `MemoryRegion` — the fields of `struct kvm_userspace_memory_region` the emulator sets;
* `setUserMemoryRegion` — the documented behaviour of the ioctl: a region of size `0` deletes an
  existing slot, an existing slot cannot change its host memory or size, and enabled slots never
  overlap in guest-physical space;
* the regions `main` declares, and the table after its start-up calls (`bootSlots`). -/

namespace Ts3100

open LabelledRuns

/-- There are slots. -/
instance instNeZeroSlots : NeZero 8 := ⟨by decide⟩

/-- `struct kvm_userspace_memory_region`: the emulator uses slots `0..7`, and `KVM_MEM_READONLY` is
the only flag it sets. -/
structure MemoryRegion where
  slot : Fin 8
  readonly : Bool := false
  guestPhysAddr : Nat := 0
  memorySize : Nat
  userspaceAddr : Nat := 0
  deriving DecidableEq, Repr

/-- Two regions share a guest-physical address. -/
def MemoryRegion.Overlaps (r s : MemoryRegion) : Prop :=
  r.guestPhysAddr < s.guestPhysAddr + s.memorySize ∧
    s.guestPhysAddr < r.guestPhysAddr + r.memorySize

instance (r s : MemoryRegion) : Decidable (r.Overlaps s) :=
  inferInstanceAs (Decidable (_ ∧ _))

/-- The slot table of the virtual machine: the enabled region of each slot. -/
abbrev MemorySlots : Type := Fin 8 → Option MemoryRegion

/-- The table right after `KVM_CREATE_VM`. -/
def MemorySlots.empty : MemorySlots := fun _ => none

/-- Some enabled slot other than the region's own overlaps the region. -/
def MemorySlots.Collides (slots : MemorySlots) (r : MemoryRegion) : Prop :=
  ∃ n : Fin 8, n ≠ r.slot ∧ ∃ s ∈ slots n, r.Overlaps s

instance (slots : MemorySlots) (r : MemoryRegion) : Decidable (slots.Collides r) :=
  inferInstanceAs (Decidable (∃ n : Fin 8, n ≠ r.slot ∧ ∃ s ∈ slots n, r.Overlaps s))

/-- `KVM_SET_USER_MEMORY_REGION`; `none` is the result `-1`. -/
def setUserMemoryRegion (slots : MemorySlots) (r : MemoryRegion) : Option MemorySlots :=
  match slots r.slot with
  | none =>
      -- deleting a slot that does not exist is `EINVAL`, an overlap is `EEXIST`
      if r.memorySize = 0 ∨ slots.Collides r then none
      else some (Function.update slots r.slot (some r))
  | some old =>
      if r.memorySize = 0 then some (Function.update slots r.slot none)
      else if r.userspaceAddr ≠ old.userspaceAddr ∨ r.memorySize ≠ old.memorySize ∨
          r.readonly ≠ old.readonly then none
      else if r.guestPhysAddr ≠ old.guestPhysAddr ∧ slots.Collides r then none
      else some (Function.update slots r.slot (some r))

section setUserMemoryRegion

variable {slots : MemorySlots} {r : MemoryRegion}

/-- Deleting an enabled slot clears it. -/
theorem setUserMemoryRegion_delete {old : MemoryRegion} (hslot : slots r.slot = some old)
    (hsize : r.memorySize = 0) :
    setUserMemoryRegion slots r = some (Function.update slots r.slot none) := by
  simp [setUserMemoryRegion, hslot, hsize]

/-- Enabling a free slot succeeds where the region collides with no other. -/
theorem setUserMemoryRegion_create (hslot : slots r.slot = none) (hsize : r.memorySize ≠ 0)
    (hfree : ¬ slots.Collides r) :
    setUserMemoryRegion slots r = some (Function.update slots r.slot (some r)) := by
  simp [setUserMemoryRegion, hslot, hsize, hfree]

end setUserMemoryRegion

/-! ## Legal tables -/

/-- A table in which every region sits in its own slot and no two enabled slots overlap. -/
def MemorySlots.Legal (slots : MemorySlots) : Prop :=
  ∀ n r, slots n = some r → r.slot = n ∧ ¬ slots.Collides r

/-- No slots are legal. -/
theorem MemorySlots.legal_empty : MemorySlots.empty.Legal := by
  intro n r hr
  cases hr

/-- Overlapping is symmetric. -/
theorem MemoryRegion.Overlaps.symm {r s : MemoryRegion} (h : r.Overlaps s) : s.Overlaps r :=
  ⟨h.2, h.1⟩

/-- Clearing a slot keeps the table legal. -/
theorem MemorySlots.Legal.clear {slots : MemorySlots} (h : slots.Legal) (m : Fin 8) :
    MemorySlots.Legal (Function.update slots m none) := by
  intro n r hr
  have hold : ∀ k s, Function.update slots m none k = some s → slots k = some s := by
    intro k s hs
    by_cases hk : k = m
    · rw [hk, Function.update_self] at hs
      cases hs
    · rwa [Function.update_of_ne hk] at hs
  refine ⟨(h n r (hold n r hr)).1, ?_⟩
  rintro ⟨k, hk, s, hs, hoverlap⟩
  exact (h n r (hold n r hr)).2 ⟨k, hk, s, hold k s hs, hoverlap⟩

/-- Setting a slot to a region that collides with no other slot keeps the table legal. -/
theorem MemorySlots.Legal.set {slots : MemorySlots} (h : slots.Legal) {r : MemoryRegion}
    (hfree : ¬ slots.Collides r) : MemorySlots.Legal (Function.update slots r.slot (some r)) := by
  intro n s hs
  by_cases hn : n = r.slot
  · subst hn
    rw [Function.update_self, Option.some.injEq] at hs
    subst hs
    refine ⟨rfl, ?_⟩
    rintro ⟨k, hk, t, ht, hoverlap⟩
    rw [Function.update_of_ne hk] at ht
    exact hfree ⟨k, hk, t, ht, hoverlap⟩
  · rw [Function.update_of_ne hn] at hs
    obtain ⟨hslot, hs'⟩ := h n s hs
    refine ⟨hslot, ?_⟩
    rintro ⟨k, hk, t, ht, hoverlap⟩
    by_cases hkr : k = r.slot
    · rw [hkr, Function.update_self] at ht
      cases ht
      exact hfree ⟨n, hn, s, hs, hoverlap.symm⟩
    · rw [Function.update_of_ne hkr] at ht
      exact hs' ⟨k, hk, t, ht, hoverlap⟩

/-- **The ioctl keeps the table legal**, whatever region it is given. -/
theorem MemorySlots.Legal.setUserMemoryRegion {slots slots' : MemorySlots} (h : slots.Legal)
    {r : MemoryRegion} (hset : setUserMemoryRegion slots r = some slots') : slots'.Legal := by
  unfold Ts3100.setUserMemoryRegion at hset
  cases hslot : slots r.slot with
  | none =>
      simp only [hslot, Option.ite_none_left_eq_some, not_or, Option.some.injEq] at hset
      obtain ⟨⟨-, hfree⟩, rfl⟩ := hset
      exact h.set hfree
  | some old =>
      simp only [hslot] at hset
      by_cases hsize : r.memorySize = 0
      · rw [if_pos hsize, Option.some.injEq] at hset
        exact hset ▸ h.clear r.slot
      · simp only [if_neg hsize, Option.ite_none_left_eq_some, Option.some.injEq] at hset
        obtain ⟨hsame, hmove, rfl⟩ := hset
        refine h.set fun hcollides => hmove ⟨?_, hcollides⟩
        -- a region that stays where the old one was cannot collide
        intro haddr
        obtain ⟨k, hk, t, ht, hoverlap⟩ := hcollides
        obtain ⟨hold, hfree⟩ := h r.slot old hslot
        refine hfree ⟨k, by rwa [hold], t, ht, ?_⟩
        simp only [not_or, not_not] at hsame
        rwa [MemoryRegion.Overlaps, haddr, hsame.2.1] at hoverlap

/-- Regions of distinct free slots that overlap neither one another nor the table are all set. -/
theorem run_setUserMemoryRegion {regions : List MemoryRegion} {slots : MemorySlots}
    (hfree : ∀ r ∈ regions, slots r.slot = none ∧ r.memorySize ≠ 0 ∧ ¬ slots.Collides r)
    (hpair : regions.Pairwise fun r s => r.slot ≠ s.slot ∧ ¬ s.Overlaps r) :
    ∃ slots', run setUserMemoryRegion slots regions = some slots' ∧
      (∀ r ∈ regions, slots' r.slot = some r) ∧
      ∀ n, (∀ r ∈ regions, r.slot ≠ n) → slots' n = slots n := by
  induction regions generalizing slots with
  | nil => exact ⟨slots, rfl, by simp, fun n _ => rfl⟩
  | cons r regions ih =>
      rw [List.pairwise_cons] at hpair
      obtain ⟨hr, hpair⟩ := hpair
      obtain ⟨hnone, hsize, hcollides⟩ := hfree r (List.mem_cons_self ..)
      have hset := setUserMemoryRegion_create hnone hsize hcollides
      -- the slot that is set now is another one, and its region is apart from those to come
      have hfree' : ∀ s ∈ regions, Function.update slots r.slot (some r) s.slot = none ∧
          s.memorySize ≠ 0 ∧ ¬ MemorySlots.Collides (Function.update slots r.slot (some r)) s := by
        intro s hs
        obtain ⟨hslot, hoverlap⟩ := hr s hs
        obtain ⟨hnone, hsize, hcollides⟩ := hfree s (List.mem_cons_of_mem _ hs)
        refine ⟨by rw [Function.update_of_ne hslot.symm]; exact hnone, hsize, ?_⟩
        rintro ⟨k, hk, t, ht, hst⟩
        by_cases hkr : k = r.slot
        · rw [hkr, Function.update_self] at ht
          cases ht
          exact hoverlap hst
        · rw [Function.update_of_ne hkr] at ht
          exact hcollides ⟨k, hk, t, ht, hst⟩
      obtain ⟨slots', hrun, hmem, hother⟩ := ih hfree' hpair
      refine ⟨slots', by rw [run_cons, hset]; exact hrun, ?_, ?_⟩
      · intro s hs
        rcases List.mem_cons.mp hs with rfl | hs
        · rw [hother s.slot fun t ht => (hr t ht).1.symm, Function.update_self]
        · exact hmem s hs
      · intro n hn
        rw [hother n fun t ht => hn t (List.mem_cons_of_mem _ ht),
          Function.update_of_ne (hn r (List.mem_cons_self ..)).symm]

/-! ## The regions `main` declares -/

/-- The host addresses `mmap` returned for the emulator's long-lived buffers. -/
structure HostPointers where
  flashMemory : Nat
  optionRom : Nat
  ram : Nat
  deriving Repr

section Regions

variable (host : HostPointers)

/-- `LOW_MEMORY_SIZE`. -/
def lowMemorySize : Nat := 0x70000

/-- `regionRam`: slot `0`, the guest's low memory. -/
def regionRam : MemoryRegion :=
  { slot := 0, guestPhysAddr := 0, memorySize := lowMemorySize, userspaceAddr := host.ram }

/-- `regionRomDos`: slot `1`. -/
def regionRomDos : MemoryRegion :=
  { slot := 1, readonly := true, guestPhysAddr := 0xE0000, memorySize := 0x10000,
    userspaceAddr := host.flashMemory + 0x60000 }

/-- `regionBios`: slot `2`. -/
def regionBios : MemoryRegion :=
  { slot := 2, readonly := true, guestPhysAddr := 0xF0000, memorySize := 0x10000,
    userspaceAddr := host.flashMemory + 0x70000 }

/-- `regionFlash`: slot `4`, the flash window. -/
def regionFlash : MemoryRegion :=
  { slot := 4, readonly := true, guestPhysAddr := 0x03400000, memorySize := 0x80000,
    userspaceAddr := host.flashMemory }

/-- `regionFlashAlias`: slot `5`, the same flash memory a second time. -/
def regionFlashAlias : MemoryRegion :=
  { slot := 5, readonly := true, guestPhysAddr := 0x03480000, memorySize := 0x80000,
    userspaceAddr := host.flashMemory }

/-- `regionFlash_Unmap`. -/
def regionFlashUnmap : MemoryRegion := { slot := 4, memorySize := 0 }

/-- `regionFlashAlias_Unmap`. -/
def regionFlashAliasUnmap : MemoryRegion := { slot := 5, memorySize := 0 }

/-- `regionOptionRom`: slot `6`, the code and variables of the virtual disk option ROM. -/
def regionOptionRom : MemoryRegion :=
  { slot := 6, guestPhysAddr := 0xC8000, memorySize := 0x1000, userspaceAddr := host.optionRom }

/-- `regionOptionRom_Boot`: slot `7` before the first disk mapping update. -/
def regionOptionRomBoot : MemoryRegion :=
  { slot := 7, readonly := true, guestPhysAddr := 0xC9000, memorySize := 0x1000,
    userspaceAddr := host.optionRom + 0x1000 }

/-- The regions `main` sets before the first `KVM_RUN`, in order (`VIRTUAL_DISK` build,
`HIGH_MEMORY_SIZE` zero). -/
def bootRegions : List MemoryRegion :=
  [regionRam host, regionRomDos host, regionBios host, regionFlash host, regionFlashAlias host,
    regionOptionRom host, regionOptionRomBoot host]

/-- The slot table after the start-up calls. -/
def bootSlots : Option MemorySlots :=
  run setUserMemoryRegion MemorySlots.empty (bootRegions host)

/-- The boot regions sit in distinct slots and are pairwise disjoint. -/
theorem bootRegions_pairwise :
    (bootRegions host).Pairwise fun r s => r.slot ≠ s.slot ∧ ¬ s.Overlaps r := by
  simp only [bootRegions, List.pairwise_cons, List.mem_cons, List.not_mem_nil, or_false,
    forall_eq_or_imp, forall_eq, MemoryRegion.Overlaps, regionRam, regionRomDos, regionBios,
    regionFlash, regionFlashAlias, regionOptionRom, regionOptionRomBoot, lowMemorySize,
    List.Pairwise.nil, IsEmpty.forall_iff, implies_true, and_true]
  refine ⟨⟨?_, ?_, ?_, ?_, ?_, ?_⟩, ⟨?_, ?_, ?_, ?_, ?_⟩, ⟨?_, ?_, ?_, ?_⟩, ⟨?_, ?_, ?_⟩,
    ⟨?_, ?_⟩, ?_⟩ <;> exact ⟨by decide, by omega⟩

/-- **Start-up succeeds** and leaves a legal table with every boot region in its slot and slot `3`
free, wherever the host buffers are. -/
theorem bootSlots_eq_some : ∃ slots, bootSlots host = some slots ∧ slots.Legal ∧
    (∀ r ∈ bootRegions host, slots r.slot = some r) ∧ slots 3 = none := by
  have hfree : ∀ r ∈ bootRegions host, MemorySlots.empty r.slot = none ∧ r.memorySize ≠ 0 ∧
      ¬ MemorySlots.empty.Collides r := by
    intro r hr
    refine ⟨rfl, ?_, by rintro ⟨n, -, s, hs, -⟩; cases hs⟩
    simp only [bootRegions, List.mem_cons, List.not_mem_nil, or_false] at hr
    rcases hr with rfl | rfl | rfl | rfl | rfl | rfl | rfl <;> exact Nat.succ_ne_zero _
  obtain ⟨slots, hslots, hmem, hother⟩ := run_setUserMemoryRegion hfree (bootRegions_pairwise host)
  have hlegal : StatesMeet setUserMemoryRegion MemorySlots.Legal MemorySlots.empty
      (bootRegions host) :=
    statesMeet_of_invariant (fun _ _ _ hs hset => hs.setUserMemoryRegion hset)
      MemorySlots.legal_empty _
  refine ⟨slots, hslots, hlegal.last hslots, hmem, hother 3 ?_⟩
  simp only [bootRegions, List.mem_cons, List.not_mem_nil, or_false, forall_eq_or_imp, forall_eq,
    regionRam, regionRomDos, regionBios, regionFlash, regionFlashAlias, regionOptionRom,
    regionOptionRomBoot]
  decide

end Regions

end Ts3100
