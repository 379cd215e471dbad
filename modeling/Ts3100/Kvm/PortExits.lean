import Ts3100.Kvm.MemorySlots
import Ts3100.Pio.Dispatch

/-! # Memory slots over port exits

After each `KVM_EXIT_IO` the main loop compares the A20 register with its copy and sets or deletes
slot `3`, and serves a request to remap the disk: it deletes slot `7`, unmaps the old page, maps the
new one and sets the slot to it (`HIGH_MEMORY_SIZE` zero, `VIRTUAL_DISK` build).

* `PortMachine` — the main loop's state: the port devices, the slots, and the host's mappings.
* `SlotsFollow` — what the slots hold, as a function of the A20 register and `diskData`.
* `slotsFollow_portStep` — one exit keeps it, and no call of the main loop fails.
* `slots_legal_of_run` — what holds after every run. -/

namespace Ts3100

open LabelledRuns

/-! ## Regions -/

section Regions

variable (host : HostPointers)

/-- `regionRamWrap`: slot `3`, the start of RAM at the first address above 1 MiB. -/
def regionRamWrap : MemoryRegion :=
  { slot := 3, guestPhysAddr := 0x100000, memorySize := 0x10000, userspaceAddr := host.ram }

/-- `regionRamWrapDisabled`. -/
def regionRamWrapDisabled : MemoryRegion := { slot := 3, memorySize := 0 }

/-- `regionOptionRom_Disk`, once its `userspace_addr` is set. -/
def regionOptionRomDisk (diskData : Nat) : MemoryRegion :=
  { slot := 7, guestPhysAddr := 0xC9000, memorySize := 0x1000, userspaceAddr := diskData }

/-- `regionOptionRom_Unmap`. -/
def regionOptionRomUnmap : MemoryRegion := { slot := 7, memorySize := 0 }

end Regions

/-! ## The main loop between two exits -/

/-- `PAGE_SIZE`. -/
def pageSize : Nat := 4096

/-- The main loop's variables, the port devices, the slots, and the host pages that are mapped. -/
structure PortMachine where
  pio : PioSystem
  slots : MemorySlots
  /-- the addresses of the mapped host pages -/
  pages : Finset Nat
  lastA20Register : Byte := 2#8
  /-- the host address of the mapped page of the disk image; 0 is `nullptr` -/
  diskData : Nat := 0

namespace PortMachine

/-- The A20 line is on. -/
def a20Enabled (a20register : Byte) : Bool := a20register &&& 2#8 ≠ 0#8

/-- The update of slot `3` when the A20 register has changed. -/
def updateA20 (host : HostPointers) (s : PortMachine) : Option PortMachine :=
  if s.lastA20Register &&& 2#8 ≠ s.pio.a20register &&& 2#8 then do
    let slots ← setUserMemoryRegion s.slots
      (if a20Enabled s.pio.a20register then regionRamWrapDisabled else regionRamWrap host)
    return { s with slots, lastA20Register := s.pio.a20register }
  else
    some s

/-- `munmap(address, PAGE_SIZE)`, which is no error where nothing is mapped. -/
def munmap (s : PortMachine) (address : Nat) : Option PortMachine :=
  if address % pageSize = 0 then some { s with pages := s.pages.erase address } else none

/-- A page that the kernel may give to a new mapping, where `pages` are mapped. -/
def FreePage (pages : Finset Nat) (page : Nat) : Prop :=
  page ≠ 0 ∧ page % pageSize = 0 ∧ page ∉ pages

instance (pages : Finset Nat) (page : Nat) : Decidable (FreePage pages page) :=
  inferInstanceAs (Decidable (_ ∧ _ ∧ _))

/-- `mmap(nullptr, PAGE_SIZE, .., diskFd, offset)`, which gives `page`. -/
def mmap (s : PortMachine) (offset page : Nat) : Option PortMachine :=
  if offset % pageSize = 0 ∧ FreePage s.pages page then
    some { s with pages := insert page s.pages, diskData := page }
  else
    none

/-- The remapping of the disk when it is requested; `page` is what `mmap` gives. -/
def updateDisk (s : PortMachine) (page : Nat) : Option PortMachine :=
  if s.pio.disk.updateDiskMapping then do
    let slots ← setUserMemoryRegion s.slots regionOptionRomUnmap
    let s ← { s with slots }.munmap s.diskData
    let s ← s.mmap (s.pio.disk.selectedDiskLBA.toNat * 512) page
    let slots ← setUserMemoryRegion s.slots (regionOptionRomDisk s.diskData)
    return { s with
      slots
      pio := { s.pio with disk := { s.pio.disk with updateDiskMapping := false } } }
  else
    some s

end PortMachine

/-- What happens to the main loop: an exit, with the time and the page the kernel would map, or
changes of the serial ports by the event loop's thread. -/
inductive PortEvent where
  | exit (exit : IoExit) (tm : CalendarTime) (page : Nat)
  | background (com : Fin 4 → Serial16450)

namespace PortMachine

/-- The updates after an exit. -/
def update (host : HostPointers) (s : PortMachine) (page : Nat) : Option PortMachine :=
  (s.updateA20 host).bind (·.updateDisk page)

/-- One event; `none` once the emulator has stopped. -/
def portStep (host : HostPointers) (s : PortMachine) : PortEvent → Option PortMachine
  | .exit exit tm page =>
      match exit.dispatch tm s.pio with
      | .ok (pio, _) => { s with pio }.update host page
      | .error _ => none
  | .background com => some { s with pio := { s.pio with com } }

end PortMachine

/-! ## The slot table -/

/-- The slots with the wrap of RAM on or off and a region for the disk. -/
def slotTable (host : HostPointers) (wrap : Bool) (disk : Option MemoryRegion) : MemorySlots
  | 0 => some (regionRam host)
  | 1 => some (regionRomDos host)
  | 2 => some (regionBios host)
  | 3 => if wrap then some (regionRamWrap host) else none
  | 4 => some (regionFlash host)
  | 5 => some (regionFlashAlias host)
  | 6 => some (regionOptionRom host)
  | 7 => disk

section slotTable

variable {host : HostPointers} {wrap : Bool} {disk : Option MemoryRegion}

/-- The table after start-up. -/
theorem bootSlots_eq_slotTable :
    bootSlots host = some (slotTable host false (some (regionOptionRomBoot host))) := by
  obtain ⟨slots, hslots, -, hmem, hthree⟩ := bootSlots_eq_some host
  rw [hslots, Option.some.injEq]
  funext n
  have hboot : ∀ r ∈ bootRegions host, slots r.slot = some r := hmem
  simp only [bootRegions, List.forall_mem_cons] at hboot
  obtain ⟨h0, h1, h2, h4, h5, h6, h7, -⟩ := hboot
  fin_cases n
  · exact h0
  · exact h1
  · exact h2
  · exact hthree
  · exact h4
  · exact h5
  · exact h6
  · exact h7

/-- A region for the disk, at its place in the guest's memory. -/
def IsDiskRegion (r : MemoryRegion) : Prop :=
  r.slot = 7 ∧ r.guestPhysAddr = 0xC9000 ∧ r.memorySize = 0x1000

/-- Deleting the wrap. -/
theorem slotTable_unwrap :
    setUserMemoryRegion (slotTable host true disk) regionRamWrapDisabled =
      some (slotTable host false disk) := by
  have hslot : slotTable host true disk regionRamWrapDisabled.slot = some (regionRamWrap host) := rfl
  rw [setUserMemoryRegion_delete hslot rfl, Option.some.injEq]
  funext n
  fin_cases n <;> rfl

/-- Setting the wrap. -/
theorem slotTable_wrap (hdisk : ∀ r, disk = some r → IsDiskRegion r) :
    setUserMemoryRegion (slotTable host false disk) (regionRamWrap host) =
      some (slotTable host true disk) := by
  have hfree : ¬ (slotTable host false disk).Collides (regionRamWrap host) := by
    rintro ⟨n, hn, r, hr, hoverlap⟩
    fin_cases n
    case «3» => exact hn rfl
    case «7» =>
      obtain ⟨-, haddr, hsize⟩ := hdisk r hr
      simp only [MemoryRegion.Overlaps, regionRamWrap, haddr, hsize] at hoverlap
      omega
    all_goals
      obtain rfl := Option.some.inj hr
      simp only [MemoryRegion.Overlaps, regionRamWrap, regionRam, regionRomDos, regionBios,
        regionFlash, regionFlashAlias, regionOptionRom, lowMemorySize] at hoverlap
      omega
  rw [setUserMemoryRegion_create (r := regionRamWrap host) rfl (Nat.succ_ne_zero _) hfree,
    Option.some.injEq]
  funext n
  fin_cases n <;> rfl

/-- Deleting the disk's slot. -/
theorem slotTable_unmapDisk {r : MemoryRegion} :
    setUserMemoryRegion (slotTable host wrap (some r)) regionOptionRomUnmap =
      some (slotTable host wrap none) := by
  have hslot : slotTable host wrap (some r) regionOptionRomUnmap.slot = some r := rfl
  rw [setUserMemoryRegion_delete hslot rfl, Option.some.injEq]
  funext n
  fin_cases n <;> rfl

/-- Setting the disk's slot. -/
theorem slotTable_mapDisk {diskData : Nat} :
    setUserMemoryRegion (slotTable host wrap none) (regionOptionRomDisk diskData) =
      some (slotTable host wrap (some (regionOptionRomDisk diskData))) := by
  have hfree : ¬ (slotTable host wrap none).Collides (regionOptionRomDisk diskData) := by
    rintro ⟨n, hn, r, hr, hoverlap⟩
    fin_cases n
    case «3» =>
      cases wrap with
      | false => cases hr
      | true =>
          obtain rfl := Option.some.inj hr
          simp only [MemoryRegion.Overlaps, regionOptionRomDisk, regionRamWrap] at hoverlap
          omega
    case «7» => exact hn rfl
    all_goals
      obtain rfl := Option.some.inj hr
      simp only [MemoryRegion.Overlaps, regionOptionRomDisk, regionRam, regionRomDos, regionBios,
        regionFlash, regionFlashAlias, regionOptionRom, lowMemorySize] at hoverlap
      omega
  rw [setUserMemoryRegion_create (r := regionOptionRomDisk diskData) rfl (Nat.succ_ne_zero _)
    hfree,
    Option.some.injEq]
  funext n
  fin_cases n <;> rfl

end slotTable

/-! ## Every run -/

namespace PortMachine

variable {host : HostPointers} {s s' : PortMachine}

/-- The region in slot `7`: the option ROM's second page until the first update, then the page of
the disk image. -/
def diskRegion (host : HostPointers) (s : PortMachine) : MemoryRegion :=
  if s.diskData = 0 then regionOptionRomBoot host else regionOptionRomDisk s.diskData

/-- What holds between two exits. -/
structure SlotsFollow (host : HostPointers) (s : PortMachine) : Prop where
  /-- slot `3` wraps RAM iff the A20 line is off, and slot `7` holds the disk's region -/
  slots : s.slots =
    slotTable host (!a20Enabled s.pio.a20register) (some (s.diskRegion host))
  copy : s.lastA20Register &&& 2#8 = s.pio.a20register &&& 2#8
  noUpdate : s.pio.disk.updateDiskMapping = false
  aligned : s.diskData % pageSize = 0
  /-- the host page of slot `7` is mapped -/
  live : (s.diskRegion host).userspaceAddr ∈ s.pages
  /-- no page of the emulator is at address 0 -/
  noNull : 0 ∉ s.pages

/-- The disk's region is one of the two that slot `7` may hold. -/
theorem isDiskRegion_diskRegion : IsDiskRegion (s.diskRegion host) := by
  unfold diskRegion
  split <;> exact ⟨rfl, rfl, rfl⟩

/-- The machine when the main loop starts. -/
def boot (host : HostPointers) (ram : Fin 114 → Byte) (pages : Finset Nat) : PortMachine where
  pio := .init ram
  slots := slotTable host false (some (regionOptionRomBoot host))
  pages := pages

/-- The slots follow the registers when the loop starts. -/
theorem slotsFollow_boot (ram : Fin 114 → Byte) {pages : Finset Nat}
    (hlive : host.optionRom + 0x1000 ∈ pages) (hnull : 0 ∉ pages) :
    (boot host ram pages).SlotsFollow host where
  slots := by
    show slotTable host false _ = slotTable host (!a20Enabled 2#8) _
    rw [show a20Enabled 2#8 = true by decide]
    rfl
  copy := rfl
  noUpdate := rfl
  aligned := rfl
  live := hlive
  noNull := hnull

/-- A change of the A20 bit turns the line over. -/
theorem a20Enabled_of_ne {x y : Byte} (h : x &&& 2#8 ≠ y &&& 2#8) :
    a20Enabled y = !a20Enabled x := by
  have hbit : ∀ z : Byte, z &&& 2#8 = 0#8 ∨ z &&& 2#8 = 2#8 := by decide
  unfold a20Enabled
  rcases hbit x with hx | hx <;> rcases hbit y with hy | hy <;> rw [hx, hy] at h ⊢
  · exact absurd rfl h
  · decide
  · decide
  · exact absurd rfl h

/-- The update of slot `3` succeeds, and makes it follow the A20 register. -/
theorem updateA20_eq (h : s.SlotsFollow host) (pio : PioSystem) :
    ∃ lastA20Register, lastA20Register &&& 2#8 = pio.a20register &&& 2#8 ∧
      { s with pio }.updateA20 host = some
        { s with
          pio
          slots := slotTable host (!a20Enabled pio.a20register) (some (s.diskRegion host))
          lastA20Register } := by
  have hregion : ∀ r, some (s.diskRegion host) = some r → IsDiskRegion r := by
    rintro r hr
    exact Option.some.inj hr ▸ isDiskRegion_diskRegion
  have hcopy := h.copy
  by_cases hchange : s.lastA20Register &&& 2#8 = pio.a20register &&& 2#8
  · refine ⟨s.lastA20Register, hchange, ?_⟩
    have hsame : a20Enabled pio.a20register = a20Enabled s.pio.a20register := by
      unfold a20Enabled
      rw [← hchange, hcopy]
    rw [updateA20, if_neg (not_not.mpr hchange), hsame, ← h.slots]
  · refine ⟨pio.a20register, rfl, ?_⟩
    have hflip := a20Enabled_of_ne (hcopy ▸ hchange)
    have hset : setUserMemoryRegion s.slots
        (if a20Enabled pio.a20register then regionRamWrapDisabled else regionRamWrap host) =
          some (slotTable host (!a20Enabled pio.a20register) (some (s.diskRegion host))) := by
      rw [h.slots, hflip]
      cases a20Enabled s.pio.a20register with
      | false => exact slotTable_unwrap
      | true => exact slotTable_wrap hregion
    rw [updateA20, if_pos hchange]
    show (setUserMemoryRegion s.slots _).bind _ = _
    rw [hset]
    rfl

/-- The slots that the updates after an exit delete. -/
def deletedSlots (s : PortMachine) (pio : PioSystem) : List (Fin 8) :=
  (if s.lastA20Register &&& 2#8 ≠ pio.a20register &&& 2#8 ∧ a20Enabled pio.a20register then
    [3]
  else
    []) ++ if pio.disk.updateDiskMapping then [7] else []

/-- The updates after an exit delete enabled slots only. -/
theorem slots_of_mem_deletedSlots (h : s.SlotsFollow host) {pio : PioSystem} {n : Fin 8}
    (hn : n ∈ s.deletedSlots pio) : s.slots n ≠ none := by
  have hdisk : s.slots 7 ≠ none := by
    rw [h.slots]
    exact Option.some_ne_none _
  rcases List.mem_append.mp hn with hn | hn
  · split at hn
    · rename_i hchange
      obtain rfl : n = 3 := by simpa using hn
      have hflip := a20Enabled_of_ne (h.copy ▸ hchange.1)
      rw [hchange.2] at hflip
      rw [h.slots, ← hflip]
      exact Option.some_ne_none _
    · cases hn
  · split at hn
    · obtain rfl : n = 7 := by simpa using hn
      exact hdisk
    · cases hn

/-- The updates after an exit succeed where the selected LBA is a multiple of 8, and leave the slots
as they should be. -/
theorem slotsFollow_update (h : s.SlotsFollow host) (pio : PioSystem) {page : Nat}
    (hlba : pio.disk.updateDiskMapping = true → pio.disk.selectedDiskLBA.toNat % 8 = 0)
    (hpage : pio.disk.updateDiskMapping = true →
      FreePage (s.pages.erase s.diskData) page) :
    ∃ s', { s with pio }.update host page = some s' ∧ s'.SlotsFollow host := by
  obtain ⟨lastA20Register, hcopy, hupdate⟩ := updateA20_eq h pio
  rw [update, hupdate, Option.bind_some]
  cases hrequested : pio.disk.updateDiskMapping with
  | false =>
      -- no sector was selected, so slot 7 stays
      refine ⟨_, by rw [updateDisk, if_neg (by simp [hrequested])], ?_⟩
      exact ⟨rfl, hcopy, hrequested, h.aligned, h.live, h.noNull⟩
  | true =>
      obtain ⟨hzero, haligned, hfree⟩ := hpage hrequested
      -- 8 sectors are a host page, so `mmap` accepts the offset
      have hoffset : pio.disk.selectedDiskLBA.toNat * 512 % pageSize = 0 := by
        have := hlba hrequested
        unfold pageSize
        omega
      refine ⟨{ s with
        pio := { pio with disk := { pio.disk with updateDiskMapping := false } }
        slots := slotTable host (!a20Enabled pio.a20register) (some (regionOptionRomDisk page))
        lastA20Register
        pages := insert page (s.pages.erase s.diskData)
        diskData := page }, ?_, ?_⟩
      · simp only [updateDisk, if_pos hrequested, slotTable_unmapDisk, Option.bind_eq_bind,
          Option.bind_some, munmap, if_pos h.aligned, mmap, FreePage, hoffset, haligned,
          Option.pure_def]
        rw [if_pos ⟨trivial, hzero, trivial, hfree⟩]
        simp only [Option.bind_some, slotTable_mapDisk]
      · have hregion : ∀ t : PortMachine, t.diskData = page →
            t.diskRegion host = regionOptionRomDisk page := by
          intro t ht
          rw [diskRegion, ht, if_neg hzero]
        constructor
        case slots => exact congrArg (fun r => slotTable host _ (some r)) (hregion _ rfl).symm
        case copy => exact hcopy
        case noUpdate => rfl
        case aligned => exact haligned
        case live =>
          have hmem : (regionOptionRomDisk page).userspaceAddr ∈
              insert page (s.pages.erase s.diskData) := Finset.mem_insert_self _ _
          rw [hregion]
          · exact hmem
          · rfl
        case noNull =>
          show 0 ∉ insert page (s.pages.erase s.diskData)
          rw [Finset.mem_insert, not_or]
          exact ⟨Ne.symm hzero, fun hmem => h.noNull (Finset.mem_of_mem_erase hmem)⟩

/-- One event keeps the slots as they should be. -/
theorem slotsFollow_portStep (h : s.SlotsFollow host) {event : PortEvent}
    (hstep : portStep host s event = some s') : s'.SlotsFollow host := by
  cases event with
  | background com =>
      obtain rfl : { s with pio := { s.pio with com } } = s' := by simpa [portStep] using hstep
      exact ⟨h.slots, h.copy, h.noUpdate, h.aligned, h.live, h.noNull⟩
  | exit exit tm page =>
      rw [portStep] at hstep
      split at hstep
      · rename_i pio data hdispatch
        -- the emulator still runs, so the arguments were legal
        have hlegal : pio.disk.updateDiskMapping = true →
            pio.disk.selectedDiskLBA.toNat % 8 = 0 ∧
              FreePage (s.pages.erase s.diskData) page := by
          intro hrequested
          obtain ⟨lastA20Register, -, hupdate⟩ := updateA20_eq h pio
          rw [update, hupdate, Option.bind_some] at hstep
          simp only [updateDisk, if_pos hrequested, slotTable_unmapDisk, Option.bind_eq_bind,
            Option.bind_some, munmap, if_pos h.aligned, mmap] at hstep
          by_cases hmap : pio.disk.selectedDiskLBA.toNat * 512 % pageSize = 0 ∧
              FreePage (s.pages.erase s.diskData) page
          · refine ⟨?_, hmap.2⟩
            have hoffset := hmap.1
            unfold pageSize at hoffset
            omega
          · rw [if_neg hmap] at hstep
            cases hstep
        obtain ⟨next, hnext, hfollow⟩ := slotsFollow_update h pio (fun hrequested =>
          (hlegal hrequested).1) (fun hrequested => (hlegal hrequested).2)
        rw [hnext, Option.some.injEq] at hstep
        exact hstep ▸ hfollow
      · cases hstep

/-- The regions of the table do not overlap. -/
theorem SlotsFollow.disjoint (h : s.SlotsFollow host) {m n : Fin 8} {r r' : MemoryRegion}
    (hne : m ≠ n) (hr : s.slots m = some r) (hr' : s.slots n = some r') : ¬ r.Overlaps r' := by
  have hlegal : s.slots.Legal := by
    have hboot : (slotTable host false (some (regionOptionRomBoot host))).Legal := by
      obtain ⟨slots, hslots, hlegal, -⟩ := bootSlots_eq_some host
      rw [bootSlots_eq_slotTable, Option.some.injEq] at hslots
      exact hslots ▸ hlegal
    have hunmapped := hboot.setUserMemoryRegion slotTable_unmapDisk
    have hdisk : (slotTable host false (some (s.diskRegion host))).Legal := by
      unfold diskRegion
      split
      · exact hboot
      · exact hunmapped.setUserMemoryRegion slotTable_mapDisk
    rw [h.slots]
    cases !a20Enabled s.pio.a20register with
    | false => exact hdisk
    | true =>
        exact hdisk.setUserMemoryRegion (slotTable_wrap fun r hr =>
          Option.some.inj hr ▸ isDiskRegion_diskRegion)
  intro hoverlap
  obtain ⟨hslot, hfree⟩ := hlegal m r hr
  exact hfree ⟨n, by rw [hslot]; exact hne.symm, r', hr', hoverlap⟩

/-- **The memory slots stay legal.** In every state that a run of port exits reaches: no two enabled
slots overlap; slot `3` wraps RAM at 1 MiB iff bit 1 of the A20 register is clear, and is free
otherwise; slot `7` shows a mapped host page, that of `diskData` once the disk has been mapped; and
whatever exit comes next, the updates after it delete enabled slots only, and all succeed if an LBA
that is selected is a multiple of 8. -/
theorem slots_legal_of_run (host : HostPointers) (ram : Fin 114 → Byte) (pages : Finset Nat)
    (hlive : host.optionRom + 0x1000 ∈ pages) (hnull : 0 ∉ pages) (slots : MemorySlots)
    (hboot : bootSlots host = some slots) (events : List PortEvent) (s : PortMachine)
    (hrun : run (portStep host) { pio := .init ram, slots, pages } events = some s) :
    (∀ m n r r', m ≠ n → s.slots m = some r → s.slots n = some r' → ¬ r.Overlaps r') ∧
    s.slots 3 = (if s.pio.a20register &&& 2#8 = 0#8 then some (regionRamWrap host) else none) ∧
    (∃ r, s.slots 7 = some r ∧ r.userspaceAddr ∈ s.pages ∧
      (s.diskData ≠ 0 → r.userspaceAddr = s.diskData)) ∧
    ∀ (exit : IoExit) (tm : CalendarTime) (pio : PioSystem) (data : List Byte),
      exit.dispatch tm s.pio = .ok (pio, data) →
      (∀ n ∈ s.deletedSlots pio, s.slots n ≠ none) ∧
      ∀ page, (pio.disk.updateDiskMapping = true → pio.disk.selectedDiskLBA.toNat % 8 = 0 ∧
          FreePage (s.pages.erase s.diskData) page) →
        ∃ s', portStep host s (.exit exit tm page) = some s' := by
  obtain rfl : slotTable host false (some (regionOptionRomBoot host)) = slots := by
    rw [bootSlots_eq_slotTable, Option.some.injEq] at hboot
    exact hboot
  have hfollow : s.SlotsFollow host :=
    (statesMeet_of_invariant (fun _ _ _ hs hstep => slotsFollow_portStep hs hstep)
      (slotsFollow_boot ram hlive hnull) events).last hrun
  refine ⟨fun m n r r' hne hr hr' => hfollow.disjoint hne hr hr', ?_, ?_, ?_⟩
  · -- slot 3 is in the table where the A20 bit is clear
    rw [hfollow.slots]
    by_cases hbit : s.pio.a20register &&& 2#8 = 0#8
    · rw [if_pos hbit]
      simp [slotTable, a20Enabled, hbit]
    · rw [if_neg hbit]
      simp [slotTable, a20Enabled, hbit]
  · refine ⟨s.diskRegion host, by rw [hfollow.slots]; rfl, hfollow.live, fun hmapped => ?_⟩
    rw [diskRegion, if_neg hmapped]
    rfl
  · -- the next exit, from the state after the last step
    intro exit tm pio data hdispatch
    refine ⟨fun n hn => slots_of_mem_deletedSlots hfollow hn, fun page hlegal => ?_⟩
    obtain ⟨s', hs', -⟩ := slotsFollow_update hfollow pio
      (fun hrequested => (hlegal hrequested).1) (fun hrequested => (hlegal hrequested).2)
    refine ⟨s', ?_⟩
    rw [portStep, hdispatch]
    exact hs'

/-- A write that turns the A20 line off. -/
def disableA20 : IoExit := .byte true 0x92#16 0#8

/-- The A20 line is turned off, and sector 8 is mapped. -/
def mapSectorEight : List PortEvent :=
  [.exit disableA20 newYear 0, .exit (.byte true 0xD000#16 8#8) newYear 0,
    .exit (.byte true 0xD004#16 0#8) newYear 0x22000]

/-- RAM is seen again at 1 MiB, and slot `7` shows the page of that mapping. -/
theorem slots_legal_of_run_mapSectorEight :
    ∃ slots s, bootSlots ⟨0x100000, 0x20000, 0x200000⟩ = some slots ∧
      run (portStep ⟨0x100000, 0x20000, 0x200000⟩)
        { pio := .init fun _ => 0#8, slots, pages := {0x21000} } mapSectorEight = some s ∧
      s.slots 3 = some (regionRamWrap ⟨0x100000, 0x20000, 0x200000⟩) ∧
      ∃ r, s.slots 7 = some r ∧ r.userspaceAddr = 0x22000 := by
  obtain ⟨slots, hboot, -⟩ := bootSlots_eq_some ⟨0x100000, 0x20000, 0x200000⟩
  obtain ⟨s, hrun, ha20, hdata⟩ : ∃ s, run (portStep ⟨0x100000, 0x20000, 0x200000⟩)
        { pio := .init fun _ => 0#8, slots, pages := {0x21000} } mapSectorEight = some s ∧
        s.pio.a20register = 0#8 ∧ s.diskData = 0x22000 := by
    rw [bootSlots_eq_slotTable, Option.some.injEq] at hboot
    rw [← hboot]
    exact ⟨_, rfl, rfl, rfl⟩
  obtain ⟨-, hwrap, ⟨r, hr, -, hmapped⟩, -⟩ := slots_legal_of_run ⟨0x100000, 0x20000, 0x200000⟩
    (fun _ => 0#8) {0x21000} (by decide) (by decide) slots hboot mapSectorEight s hrun
  rw [ha20, if_pos (by decide)] at hwrap
  rw [hdata] at hmapped
  exact ⟨slots, s, hboot, hrun, hwrap, r, hr, hmapped (by decide)⟩

end PortMachine

end Ts3100
