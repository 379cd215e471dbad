import Ts3100.Flash.Decoder
import Ts3100.Kvm.MemorySlots

/-! # The flash window is mapped outside identification mode

After the decoder has handled an access, the `KVM_EXIT_MMIO` case unmaps or maps slots `4` and `5`
as the flags `unmapFlash` and `mapFlash` say. This file puts the decoder and the slot table
together and settles when the mapping follows the decoder state over whole runs
(`mappedExactly_iff`): the reset command is the one exit from identification mode that leaves the
window unmapped. -/

namespace Ts3100

open LabelledRuns

/-- An ioctl of the main loop: on failure the emulator prints the `perror` text and exits. -/
def setRegionOrExit (slots : MemorySlots) (r : MemoryRegion) (text : String) :
    Except EmulatorExit MemorySlots :=
  match setUserMemoryRegion slots r with
  | some slots' => .ok slots'
  | none => .error (.exitFailure text)

/-- The ioctls after an access, as `unmapFlash` and `mapFlash` ask for. -/
def remapFlash (host : HostPointers) (slots : MemorySlots) (remap : FlashRemap) :
    Except EmulatorExit MemorySlots :=
  if remap.unmapFlash then do
    let slots ← setRegionOrExit slots regionFlashUnmap
      "KVM_SET_USER_MEMORY_REGION (unmap flash)"
    setRegionOrExit slots regionFlashAliasUnmap
      "KVM_SET_USER_MEMORY_REGION (unmap flash alias)"
  else if remap.mapFlash then do
    let slots ← setRegionOrExit slots (regionFlash host)
      "KVM_SET_USER_MEMORY_REGION (map flash)"
    setRegionOrExit slots (regionFlashAlias host)
      "KVM_SET_USER_MEMORY_REGION (map flash alias)"
  else
    .ok slots

/-- The chip together with the slot table. -/
structure FlashSystem where
  chip : FlashChip
  slots : MemorySlots

/-- Both flash slots are enabled. -/
def FlashMapped (host : HostPointers) (slots : MemorySlots) : Prop :=
  slots 4 = some (regionFlash host) ∧ slots 5 = some (regionFlashAlias host)

/-- Both flash slots are free. -/
def FlashUnmapped (slots : MemorySlots) : Prop := slots 4 = none ∧ slots 5 = none

/-- No other enabled slot reaches into the flash windows. -/
def FlashClear (host : HostPointers) (slots : MemorySlots) : Prop :=
  ∀ n : Fin 8, n ≠ 4 → n ≠ 5 → ∀ r ∈ slots n,
    ¬ (regionFlash host).Overlaps r ∧ ¬ (regionFlashAlias host).Overlaps r

section Remap

variable {host : HostPointers} {slots : MemorySlots}

/-- In a legal table the enabled flash slots keep the other slots out of their windows. -/
theorem FlashMapped.clear (hmapped : FlashMapped host slots) (hlegal : slots.Legal) :
    FlashClear host slots := by
  intro n h4 h5 r hr
  constructor
  · intro hoverlap
    exact (hlegal 4 _ hmapped.1).2 ⟨n, h4, r, hr, hoverlap⟩
  · intro hoverlap
    exact (hlegal 5 _ hmapped.2).2 ⟨n, h5, r, hr, hoverlap⟩

/-- Changing the flash slots alone keeps the other slots out of the windows. -/
theorem FlashClear.update (hclear : FlashClear host slots) (r s : Option MemoryRegion) :
    FlashClear host (Function.update (Function.update slots 4 r) 5 s) := by
  intro n h4 h5
  rw [Function.update_of_ne h5, Function.update_of_ne h4]
  exact hclear n h4 h5

/-- Unmapping the enabled flash slots succeeds. -/
theorem remapFlash_unmap (hmapped : FlashMapped host slots) :
    remapFlash host slots { unmapFlash := true }
      = .ok (Function.update (Function.update slots 4 none) 5 none) := by
  have h4 : setUserMemoryRegion slots regionFlashUnmap = some (Function.update slots 4 none) :=
    setUserMemoryRegion_delete hmapped.1 rfl
  have h5 : setUserMemoryRegion (Function.update slots 4 none) regionFlashAliasUnmap
      = some (Function.update (Function.update slots 4 none) 5 none) :=
    setUserMemoryRegion_delete
      (by rw [Function.update_of_ne (by decide)]; exact hmapped.2) rfl
  simp [remapFlash, setRegionOrExit, h4, h5, bind, Except.bind]

/-- The two flash windows are adjacent. -/
theorem not_overlaps_regionFlash : ¬ (regionFlashAlias host).Overlaps (regionFlash host) := by
  rintro ⟨h, -⟩
  simp only [regionFlash, regionFlashAlias] at h
  omega

/-- Mapping the free flash slots succeeds where no other slot is in the way. -/
theorem remapFlash_map (hunmapped : FlashUnmapped slots) (hclear : FlashClear host slots) :
    remapFlash host slots { mapFlash := true }
      = .ok (Function.update (Function.update slots 4 (some (regionFlash host))) 5
          (some (regionFlashAlias host))) := by
  have hfree4 : ¬ slots.Collides (regionFlash host) := by
    rintro ⟨n, hn, r, hr, hoverlap⟩
    by_cases h5 : n = 5
    · rw [h5, hunmapped.2] at hr
      cases hr
    · exact (hclear n hn h5 r hr).1 hoverlap
  have h4 : setUserMemoryRegion slots (regionFlash host)
      = some (Function.update slots 4 (some (regionFlash host))) :=
    setUserMemoryRegion_create hunmapped.1 (by simp [regionFlash]) hfree4
  have hfree5 : ¬ MemorySlots.Collides (Function.update slots 4 (some (regionFlash host)))
      (regionFlashAlias host) := by
    rintro ⟨n, hn, r, hr, hoverlap⟩
    by_cases h4 : n = 4
    · rw [h4, Function.update_self] at hr
      cases hr
      exact not_overlaps_regionFlash hoverlap
    · rw [Function.update_of_ne h4] at hr
      exact (hclear n h4 hn r hr).2 hoverlap
  have h5 : setUserMemoryRegion (Function.update slots 4 (some (regionFlash host)))
      (regionFlashAlias host) = some (Function.update
        (Function.update slots 4 (some (regionFlash host))) 5 (some (regionFlashAlias host))) :=
    setUserMemoryRegion_create
      (by rw [Function.update_of_ne (by simp [regionFlashAlias])]; exact hunmapped.2)
      (by simp [regionFlashAlias]) hfree5
  simp [remapFlash, setRegionOrExit, h4, h5, bind, Except.bind]

end Remap

namespace FlashSystem

/-- One access: the decoder, then the ioctls. -/
def access (host : HostPointers) (s : FlashSystem) (a : FlashAccess) :
    Except EmulatorExit FlashSystem := do
  let (chip, remap) ← s.chip.decode a
  let slots ← remapFlash host s.slots remap
  return { chip, slots }

/-- The system after one access; `none` once the emulator exits. -/
def step (host : HostPointers) (s : FlashSystem) (a : FlashAccess) : Option FlashSystem :=
  (s.access host a).toOption

/-- The mapping the decoder state asks for: unmapped in identification mode, mapped otherwise. -/
def MappedExactly (host : HostPointers) (s : FlashSystem) : Prop :=
  if s.chip.flashState = .productIdentification then FlashUnmapped s.slots
  else FlashMapped host s.slots

/-- If the access asks for an unmap, both slots are enabled. -/
def UnmapsMapped (host : HostPointers) (s : FlashSystem) (a : FlashAccess) : Prop :=
  ∀ chip remap, s.chip.decode a = .ok (chip, remap) → remap.unmapFlash = true →
    FlashMapped host s.slots

/-- The access is not the reset command in identification mode. -/
def NoIdentificationReset (s : FlashSystem) (a : FlashAccess) : Prop :=
  ¬ (s.chip.flashState = .productIdentification ∧ ∃ offset, a = .write offset 0xF0#8)

/-- The mapping is right, and no other slot is in the way of restoring it. -/
def Mapping (host : HostPointers) (s : FlashSystem) : Prop :=
  s.MappedExactly host ∧ FlashClear host s.slots

section MappedExactly

variable {host : HostPointers} {s s' : FlashSystem} {a : FlashAccess}

/-- While the chip is identified, the flash's slots are to be free. -/
theorem mappedExactly_of_eq (hstate : s.chip.flashState = .productIdentification) :
    s.MappedExactly host ↔ FlashUnmapped s.slots := by
  rw [MappedExactly, if_pos hstate]

/-- In every other state they are to be mapped. -/
theorem mappedExactly_of_ne (hstate : s.chip.flashState ≠ .productIdentification) :
    s.MappedExactly host ↔ FlashMapped host s.slots := by
  rw [MappedExactly, if_neg hstate]

/-- A step is an accepted access followed by its ioctls. -/
theorem step_eq_some : s.step host a = some s' ↔
    ∃ remap, s.chip.decode a = .ok (s'.chip, remap) ∧
      remapFlash host s.slots remap = .ok s'.slots := by
  cases hdecode : s.chip.decode a with
  | error e => simp [step, access, hdecode, bind, Except.bind, Except.toOption]
  | ok result =>
      obtain ⟨chip, remap⟩ := result
      cases hremap : remapFlash host s.slots remap with
      | error e =>
          simp [step, access, hdecode, hremap, bind, Except.bind, Except.toOption]
      | ok slots =>
          simp only [step, access, hdecode, hremap, bind, Except.bind, Except.toOption, pure,
            Except.pure, Option.some.injEq, Except.ok.injEq, Prod.mk.injEq]
          constructor
          · rintro rfl
            exact ⟨remap, ⟨rfl, rfl⟩, hremap⟩
          · rintro ⟨remap', ⟨hchip, rfl⟩, hslots⟩
            rw [hremap] at hslots
            cases hslots
            rw [hchip]

/-- What an accepted access means for the mapping: it enters identification mode and unmaps, leaves
it by a read and maps, or asks for nothing and ends outside identification mode, which it can only
have left by the reset command. -/
theorem decode_remap {chip chip' : FlashChip} {remap : FlashRemap}
    (h : chip.decode a = .ok (chip', remap)) :
    (chip.flashState ≠ .productIdentification ∧ chip'.flashState = .productIdentification ∧
        remap = { unmapFlash := true }) ∨
      (chip.flashState = .productIdentification ∧ chip'.flashState = .read ∧
        (∃ offset, a = .read offset) ∧ remap = { mapFlash := true }) ∨
      (chip'.flashState ≠ .productIdentification ∧ remap = {} ∧
        (chip.flashState = .productIdentification → ∃ offset, a = .write offset 0xF0#8)) := by
  cases a with
  | read offset =>
      rw [FlashChip.decode, FlashChip.decodeRead] at h
      by_cases hid : chip.flashState = .productIdentification
      · rw [if_pos hid] at h
        cases h
        exact .inr (.inl ⟨hid, rfl, ⟨offset, rfl⟩, rfl⟩)
      · rw [if_neg hid] at h
        cases h
        exact .inr (.inr ⟨by simp, rfl, fun hs => absurd hs hid⟩)
  | write offset command =>
      cases FlashChip.decodeWrite_effect h with
      | store hstate => exact .inr (.inr ⟨by simp, rfl, by simp [hstate]⟩)
      | reset hstate hcommand =>
          exact .inr (.inr ⟨by simp, rfl, fun _ => ⟨offset, by rw [hcommand]⟩⟩)
      | @advance address value next hadvance hcommand =>
          -- no command cycle advances from identification mode
          have hid : chip.flashState ≠ .productIdentification := by
            intro hs
            rw [hs] at hadvance
            cases hadvance
          by_cases hnext : next = .productIdentification
          · subst hnext
            exact .inl ⟨hid, rfl, rfl⟩
          · exact .inr (.inr ⟨hnext, by simp [hnext], fun hs => absurd hs hid⟩)
      | sectorErase hstate hcommand => exact .inr (.inr ⟨by simp, rfl, by simp [hstate]⟩)
      | chipErase hstate hcommand => exact .inr (.inr ⟨by simp, rfl, by simp [hstate]⟩)

/-- **Step lemma.** An access other than the reset command in identification mode keeps the mapping
right, and unmaps the window only where it is mapped. -/
theorem mapping_step (h : s.Mapping host) (hreset : s.NoIdentificationReset a)
    (hstep : s.step host a = some s') : s'.Mapping host := by
  obtain ⟨hexact, hclear⟩ := h
  obtain ⟨remap, hdecode, hremap⟩ := step_eq_some.mp hstep
  rcases decode_remap hdecode with ⟨hid, hid', rfl⟩ | ⟨hid, hread, -, rfl⟩ | ⟨hid', rfl, hid⟩
  · rw [remapFlash_unmap ((mappedExactly_of_ne hid).mp hexact), Except.ok.injEq] at hremap
    rw [Mapping, mappedExactly_of_eq hid', ← hremap]
    exact ⟨⟨by simp, by simp⟩, hclear.update _ _⟩
  · rw [remapFlash_map ((mappedExactly_of_eq hid).mp hexact) hclear, Except.ok.injEq] at hremap
    rw [Mapping, mappedExactly_of_ne (by rw [hread]; decide), ← hremap]
    exact ⟨⟨by simp, by simp⟩, hclear.update _ _⟩
  · have hid : s.chip.flashState ≠ .productIdentification :=
      fun hs => hreset ⟨hs, hid hs⟩
    have hslots : s.slots = s'.slots := by simpa [remapFlash] using hremap
    rw [Mapping, mappedExactly_of_ne hid', ← hslots]
    exact ⟨(mappedExactly_of_ne hid).mp hexact, hclear⟩

/-- The reset command in identification mode is accepted and leaves the window unmapped outside
identification mode. -/
theorem identificationReset_step (h : s.Mapping host) (hreset : ¬ s.NoIdentificationReset a) :
    ∃ s', s.step host a = some s' ∧ ¬ s'.MappedExactly host := by
  obtain ⟨hid, offset, rfl⟩ := not_not.mp hreset
  have hdecode : s.chip.decode (.write offset 0xF0#8) = .ok (s.chip.withState .read, {}) := by
    rw [FlashChip.decode, FlashChip.decodeWrite, if_neg (by rw [hid]; decide), if_pos rfl]
  refine ⟨⟨s.chip.withState .read, s.slots⟩, step_eq_some.mpr ⟨{}, hdecode, rfl⟩, ?_⟩
  rw [mappedExactly_of_ne (by simp)]
  intro hmapped
  have hunmapped := (mappedExactly_of_eq hid).mp h.1
  rw [FlashMapped, hunmapped.1] at hmapped
  cases hmapped.1

/-- Where the mapping is right, an unmap is asked for only while the window is mapped. -/
theorem Mapping.unmapsMapped (h : s.Mapping host) (a : FlashAccess) : s.UnmapsMapped host a := by
  intro chip remap hdecode hunmap
  rcases decode_remap hdecode with ⟨hid, -, -⟩ | ⟨-, -, -, rfl⟩ | ⟨-, rfl, -⟩
  · exact (mappedExactly_of_ne hid).mp h.1
  · cases hunmap
  · cases hunmap

end MappedExactly

/-- **When the window is mapped exactly as the decoder state asks.** From `Read` with both slots
enabled in a legal table, the mapping follows the decoder state after every access and no unmap is
asked for an unmapped slot, over the whole run up to the emulator's exit, iff the run never issues
the reset command in identification mode. -/
theorem mappedExactly_iff (host : HostPointers) (s : FlashSystem)
    (hread : s.chip.flashState = .read) (hmapped : FlashMapped host s.slots)
    (hlegal : s.slots.Legal) (accesses : List FlashAccess) :
    (StatesMeet (step host) (MappedExactly host) s accesses ∧
        StepsMeet (step host) (UnmapsMapped host) s accesses) ↔
      StepsMeet (step host) NoIdentificationReset s accesses := by
  have hs : s.Mapping host := by
    rw [Mapping, mappedExactly_of_ne (by rw [hread]; decide)]
    exact ⟨hmapped, hmapped.clear hlegal⟩
  have hstates : StatesMeet (step host) (MappedExactly host) s accesses ↔
      StepsMeet (step host) NoIdentificationReset s accesses :=
    statesMeet_iff_stepsMeet (E := fun _ _ => True) (fun _ h => h.1)
      (fun _ _ _ h _ hreset hstep => mapping_step h hreset hstep)
      (fun _ _ h _ hreset => identificationReset_step h hreset) hs (fun _ _ _ _ _ => trivial)
  rw [hstates, and_iff_left_iff_imp]
  intro hresets
  have hmapping := statesMeet_of_stepsMeet
    (fun _ _ _ h hreset hstep => mapping_step h hreset hstep) hs hresets
  exact StepsMeet.of_statesMeet hmapping hresets fun _ a h _ => h.unmapsMapped a

/-- A run through identification mode and back by a read keeps the mapping exact from the table the
emulator boots with. -/
theorem mappedExactly_iff_identification :
    ∃ slots, bootSlots ⟨0x10000000, 0x20000000, 0x30000000⟩ = some slots ∧
      StatesMeet (step ⟨0x10000000, 0x20000000, 0x30000000⟩)
        (MappedExactly ⟨0x10000000, 0x20000000, 0x30000000⟩) ⟨⟨fun _ => 0xFF#8, .read⟩, slots⟩
        [.write 0x555#19 0xAA#8, .write 0x2AA#19 0x55#8, .write 0x555#19 0x90#8, .read 0#19] := by
  obtain ⟨slots, hslots, hlegal, hmem, -⟩ :=
    bootSlots_eq_some ⟨0x10000000, 0x20000000, 0x30000000⟩
  have hmapped : FlashMapped ⟨0x10000000, 0x20000000, 0x30000000⟩ slots :=
    ⟨hmem (regionFlash _) (by simp [bootRegions]),
      hmem (regionFlashAlias _) (by simp [bootRegions])⟩
  have hresets : StepsMeet (step ⟨0x10000000, 0x20000000, 0x30000000⟩) NoIdentificationReset
      ⟨⟨fun _ => 0xFF#8, .read⟩, slots⟩
      [.write 0x555#19 0xAA#8, .write 0x2AA#19 0x55#8, .write 0x555#19 0x90#8, .read 0#19] := by
    rintro pre a hpre s' - ⟨-, offset, rfl⟩
    have hmem := hpre.subset (List.mem_append_right pre (List.mem_singleton_self _))
    simp at hmem
  exact ⟨slots, hslots, ((mappedExactly_iff _ _ rfl hmapped hlegal _).mpr hresets).1⟩

/-- **The reset command leaves the window unmapped.** From a legal table with both slots enabled,
the identification command followed by `F0` ends in `Read` with both slots free. -/
theorem not_mappedExactly_identificationReset :
    ¬ ∀ (host : HostPointers) (s : FlashSystem), s.chip.flashState = .read →
      FlashMapped host s.slots → s.slots.Legal → ∀ accesses : List FlashAccess,
        StatesMeet (step host) (MappedExactly host) s accesses ∧
          StepsMeet (step host) (UnmapsMapped host) s accesses := by
  intro hclaim
  obtain ⟨slots, -, hlegal, hmem, -⟩ := bootSlots_eq_some ⟨0x10000000, 0x20000000, 0x30000000⟩
  have hmapped : FlashMapped ⟨0x10000000, 0x20000000, 0x30000000⟩ slots :=
    ⟨hmem (regionFlash _) (by simp [bootRegions]),
      hmem (regionFlashAlias _) (by simp [bootRegions])⟩
  have hstates := (hclaim _ ⟨⟨fun _ => 0xFF#8, .read⟩, slots⟩ rfl hmapped hlegal
    [.write 0x555#19 0xAA#8, .write 0x2AA#19 0x55#8, .write 0x555#19 0x90#8,
      .write 0#19 0xF0#8]).1
  have hunmap : (step ⟨0x10000000, 0x20000000, 0x30000000⟩
      ⟨⟨fun _ => 0xFF#8, .commandByte2⟩, slots⟩ (.write 0x555#19 0x90#8)) =
      some ⟨⟨fun _ => 0xFF#8, .productIdentification⟩,
        Function.update (Function.update slots 4 none) 5 none⟩ :=
    step_eq_some.mpr ⟨{ unmapFlash := true }, rfl, remapFlash_unmap hmapped⟩
  have hrun : run (step ⟨0x10000000, 0x20000000, 0x30000000⟩) ⟨⟨fun _ => 0xFF#8, .read⟩, slots⟩
      [.write 0x555#19 0xAA#8, .write 0x2AA#19 0x55#8, .write 0x555#19 0x90#8,
        .write 0#19 0xF0#8] =
      some ⟨⟨fun _ => 0xFF#8, .read⟩, Function.update (Function.update slots 4 none) 5 none⟩ := by
    show (step _ ⟨⟨fun _ => 0xFF#8, .commandByte2⟩, slots⟩ (.write 0x555#19 0x90#8)).bind _ = _
    rw [hunmap]
    rfl
  have hlast := (mappedExactly_of_ne (by simp)).mp (hstates.last hrun)
  have h5 : (none : Option MemoryRegion) = some _ := hlast.2
  cases h5

end FlashSystem

end Ts3100
