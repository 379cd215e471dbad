import Ts3100.Kvm.Contents

/-! # The option ROM as the BIOS finds it

`checksum.py` makes the ROM's file from the assembled code: 8 KiB, with a last byte that makes the sum
of all bytes 0. The BIOS looks for such ROMs when it starts. The emulator loads the file, and until
the guest asks for a page of the disk, shows all of it at `C8000`; afterwards the upper half is the
disk's.

* `buildRom`, `sum_buildRom` — the file and its sum.
* `RomAccepted` — what the BIOS asks of a ROM.
* `romAccepted_of_run` — the BIOS finds the ROM, in every run that leaves it alone. -/

namespace Ts3100

open AddressSpace LabelledRuns PortMachine WriteLog

/-! ## The file -/

/-- The sum of some bytes, modulo 256. -/
def byteSum (bytes : List Byte) : Nat := (bytes.map BitVec.toNat).sum % 256

/-- The checksum byte of `checksum.py`. -/
def checksumByte (contents : List Byte) : Byte :=
  let checksum := byteSum contents
  BitVec.ofNat 8 (if checksum ≠ 0 then 256 - checksum else checksum)

/-- `checksum.py`: the contents of `option.rom` for those of `option.rom.tmp`. `bytes` refuses a
negative length. -/
def buildRom (contents : List Byte) : Option (List Byte) :=
  if contents.length ≤ 8191 then
    some (contents ++ List.replicate (8191 - contents.length) 0#8 ++ [checksumByte contents])
  else none

section buildRom

variable {contents rom : List Byte}

/-- The byte sum of two lists. -/
theorem byteSum_append (xs ys : List Byte) :
    byteSum (xs ++ ys) = (byteSum xs + byteSum ys) % 256 := by
  simp only [byteSum, List.map_append, List.sum_append, Nat.add_mod, Nat.mod_mod]

/-- Zeros add nothing. -/
theorem byteSum_replicate_zero (n : Nat) : byteSum (List.replicate n 0#8) = 0 := by
  simp [byteSum]

/-- The checksum makes up for the contents. -/
theorem byteSum_checksumByte (contents : List Byte) :
    (byteSum contents + byteSum [checksumByte contents]) % 256 = 0 := by
  have hlt : byteSum contents < 256 := Nat.mod_lt _ (by decide)
  have hlast : byteSum [checksumByte contents] =
      (if byteSum contents ≠ 0 then 256 - byteSum contents else byteSum contents) % 256 := by
    simp [byteSum, checksumByte]
  rw [hlast]
  split <;> omega

/-- **The file** has 8 KiB, begins with the contents, and sums to 0. -/
theorem buildRom_spec (h : buildRom contents = some rom) :
    rom.length = 0x2000 ∧ contents <+: rom ∧ byteSum rom = 0 := by
  unfold buildRom at h
  split at h
  · rename_i hlength
    obtain rfl := Option.some.inj h
    refine ⟨?_, ?_, ?_⟩
    · simp only [List.length_append, List.length_replicate, List.length_singleton]
      omega
    · rw [List.append_assoc]
      exact List.prefix_append _ _
    · have hmod : byteSum contents % 256 = byteSum contents := Nat.mod_mod _ _
      rw [byteSum_append, byteSum_append, byteSum_replicate_zero, Nat.add_zero, hmod]
      exact byteSum_checksumByte contents
  · cases h

end buildRom

/-! ## The scan -/

/-- What the BIOS asks of a ROM at `a`: the signature, and that the number of 512-byte blocks after it
sums to 0. -/
structure RomAccepted (load : Nat → Byte) (a : Nat) : Prop where
  signature : load a = 0x55#8 ∧ load (a + 1) = 0xAA#8
  sum : byteSum ((List.range (512 * (load (a + 2)).toNat)).map fun i => load (a + i)) = 0

/-- A ROM that the BIOS accepts, from its file. -/
theorem romAccepted_of_build {contents rom : List Byte} {load : Nat → Byte} {a : Nat}
    (hheader : [0x55#8, 0xAA#8, 16#8] <+: contents) (hbuild : buildRom contents = some rom)
    (hload : ∀ i < 0x2000, load (a + i) = rom.getD i 0#8) : RomAccepted load a := by
  obtain ⟨hlength, hprefix, hsum⟩ := buildRom_spec hbuild
  obtain ⟨rest, rfl⟩ := hheader.trans hprefix
  have hblocks : (load (a + 2)).toNat = 16 := by
    rw [hload 2 (by omega)]
    rfl
  refine ⟨⟨hload 0 (by omega), hload 1 (by omega)⟩, ?_⟩
  have hbytes : (List.range (512 * (load (a + 2)).toNat)).map (fun i => load (a + i)) =
      [0x55#8, 0xAA#8, 16#8] ++ rest := by
    rw [hblocks]
    apply List.ext_getElem
    · rw [List.length_map, List.length_range]
      exact hlength.symm
    · intro i hi hi'
      rw [List.getElem_map, List.getElem_range, hload i (by rwa [← hlength]),
        List.getD_eq_getElem _ _ hi']
  rw [hbytes]
  exact hsum

/-! ## In the emulator -/

/-- The event leaves the ROM alone: it does not store to its first page, nor ask for a page of the disk
in place of the second. -/
def SparesRom : LoopEvent → Prop
  | .store a _ => ¬ (0xC8000 ≤ a ∧ a < 0xC9000)
  | .run _ _ (.io exit) =>
      ¬ (exit.isWrite = true ∧ 0xD004 ≤ exit.port.toNat ∧ exit.port.toNat < 0xD008)
  | _ => True

instance (event : LoopEvent) : Decidable (SparesRom event) := by
  unfold SparesRom
  split <;> infer_instance

namespace PioPart

/-- The disk's registers are at ports `D000` to `D007`. -/
theorem range_of_ofPort_diskRegisters {port : BitVec 16} (h : ofPort port = some .diskRegisters) :
    0xD000 ≤ port.toNat ∧ port.toNat < 0xD008 := by
  have hentry : ∀ entry ∈ ioHandlerTable, entry.2 = .diskRegisters →
      entry.1.start = 0xD000#64 ∧ entry.1.length = 8#64 := by decide
  obtain ⟨entry, hmem, hvalue, hlow, hhigh⟩ := exists_entry_of_ofPort .diskRegisters
    (by intro d; cases d <;> simp [ofDevice]) (by intro h; cases h <;> simp [ofHandler]) h
  obtain ⟨hstart, hlength⟩ := hentry entry hmem hvalue
  rw [hstart] at hlow
  rw [hstart, hlength] at hhigh
  exact ⟨hlow, hhigh⟩

/-- An access to the disk's registers that is no write of the update register asks for nothing. -/
theorem updateDiskMapping_diskAccess {disk disk' : DiskRegisters} {exit : IoExit}
    {data : List Byte} (haccess : diskAccess disk exit = .ok (disk', data))
    (hspares : ¬ (exit.isWrite = true ∧ 4 ≤ (exit.port &&& 0x07#16).toNat)) :
    disk'.updateDiskMapping = disk.updateDiskMapping := by
  cases hhandler : handlerDiskRegisters exit.isWrite exit.port exit.data exit.count disk with
  | error fault => cases fault <;> simp [diskAccess, hhandler] at haccess
  | ok result =>
      simp only [diskAccess, hhandler, Except.ok.injEq] at haccess
      subst haccess
      unfold handlerDiskRegisters at hhandler
      split at hhandler
      · cases hhandler
      · dsimp only at hhandler
        split at hhandler
        -- a write below the update register changes the LBA only
        · rename_i hwrite
          rw [if_pos (by_contra fun hport => hspares ⟨hwrite, Nat.le_of_not_lt hport⟩)] at hhandler
          split at hhandler
          · obtain ⟨rfl, -⟩ := Prod.mk.inj (Except.ok.inj hhandler)
            rfl
          · cases hhandler
        · split at hhandler
          · obtain ⟨rfl, -⟩ := Prod.mk.inj (Except.ok.inj hhandler)
            rfl
          · cases hhandler

/-- A dispatch of an exit that leaves the ROM alone asks for no page of the disk. -/
theorem updateDiskMapping_dispatch {tm : CalendarTime} {page : Nat} {s s' : PioSystem}
    {exit : IoExit} {data : List Byte} (hdispatch : exit.dispatch tm s = .ok (s', data))
    (hspares : SparesRom (.run tm page (.io exit))) :
    s'.disk.updateDiskMapping = s.disk.updateDiskMapping := by
  have hroutes := routes_of_dispatch hdispatch .diskRegisters
  unfold Routes at hroutes
  split at hroutes
  · rename_i hport
    obtain ⟨hlow, hhigh⟩ := range_of_ofPort_diskRegisters hport
    refine updateDiskMapping_diskAccess hroutes fun ⟨hwrite, hupdate⟩ => hspares ⟨hwrite, ?_, hhigh⟩
    -- the offset in the register file is what the low bits of the port say
    have hseven : (exit.port &&& 0x07#16).toNat = exit.port.toNat % 8 := by
      rw [BitVec.toNat_and]
      exact Nat.and_two_pow_sub_one_eq_mod _ 3
    omega
  · exact congrArg DiskRegisters.updateDiskMapping hroutes

end PioPart

namespace Emulator

variable {host : HostPointers} {ram : Fin 114 → Byte} {pages : Finset Nat}
  {flash memory image : Nat → Byte} {e e' : Emulator} {event : LoopEvent}

/-- The ROM is whole, and the disk has not been asked for. -/
structure RomShown (host : HostPointers) (rom : Fin 0x2000 → Byte) (e : Emulator) : Prop where
  sound : e.Sound host
  unmapped : e.port.diskData = 0
  bytes : ∀ i, e.bytes host (.optionRom i) = rom i

/-- Where the disk has not been asked for, the whole ROM is at `C8000`, its second page read-only. -/
theorem map_optionRom (hunmapped : e.port.diskData = 0) (i : Fin 0x2000) :
    ∃ writable, e.map (0xC8000 + i) = some ⟨.optionRom i, writable⟩ := by
  have hi := i.isLt
  rw [map, if_pos hunmapped]
  by_cases hpage : i.val < 0x1000
  · exact ⟨true, guestMap_optionRom i hpage⟩
  · refine ⟨false, ?_⟩
    have hram : ¬ 0xC8000 + i.val < lowMemorySize := by
      unfold lowMemorySize
      omega
    rw [guestMap, dif_neg hram, dif_neg (by omega), dif_pos (by omega)]
    exact congrArg (fun i => some (Backing.mk (GuestByte.optionRom i) false))
      (Fin.ext (Nat.add_sub_cancel_left ..))

/-- The ROM is written through its first page only. -/
theorem range_of_map_optionRom {a : Nat} {i : Fin 0x2000}
    (h : e.map a = some ⟨.optionRom i, true⟩) : 0xC8000 ≤ a ∧ a < 0xC9000 := by
  rcases guestMap_writable h with ⟨_, hg⟩ | ⟨_, -, hpage⟩ | ⟨_, hg⟩
  · cases hg
  · exact hpage
  · cases hg

/-- An event that leaves the ROM alone maps no page of the disk. -/
theorem diskData_answer (h : e.Sound host) {data : List Byte} (hspares : SparesRom event)
    (hanswer : e.answer host event = some (data, e')) :
    e'.port.diskData = e.port.diskData := by
  cases event with
  | store | background | sigint =>
      obtain ⟨-, rfl⟩ := Prod.mk.inj (Option.some.inj hanswer)
      rfl
  | run tm page run =>
      have hhandle := (answer_run hanswer).1
      cases run with
      | failed | unhandled => cases hhandle
      | interrupted | debug | hlt =>
          obtain ⟨-, rfl⟩ := Prod.mk.inj (Except.ok.inj hhandle)
          rfl
      | mmio exit =>
          rw [handleRun, handleFlash_eq] at hhandle
          obtain ⟨-, rfl⟩ := Prod.mk.inj (Except.ok.inj hhandle)
          rfl
      | io exit =>
          cases hdispatch : exit.dispatch tm e.port.pio with
          | error fault => simp [handleRun, handlePort, hdispatch] at hhandle
          | ok result =>
              obtain ⟨pio, data'⟩ := result
              have hidle : pio.disk.updateDiskMapping = false :=
                (PioPart.updateDiskMapping_dispatch hdispatch hspares).trans h.follow.noUpdate
              obtain ⟨port, hport, -, -, -, hdiskData⟩ := handlePort_idle h page hdispatch hidle
              rw [handleRun, hport] at hhandle
              obtain ⟨-, rfl⟩ := Prod.mk.inj (Except.ok.inj hhandle)
              exact hdiskData

/-- **Step.** An event that leaves the ROM alone keeps it as it is. -/
theorem RomShown.answer {rom : Fin 0x2000 → Byte} (h : e.RomShown host rom)
    (hlayout : HostLayout host) {data : List Byte} (hspares : SparesRom event)
    (hanswer : e.answer host event = some (data, e')) : e'.RomShown host rom where
  sound := (sound_answer h.sound hanswer).1
  unmapped := (diskData_answer h.sound hspares hanswer).trans h.unmapped
  bytes i := by
    rw [(h.sound.bytes_answer hlayout hanswer).1, ← h.bytes i]
    refine contents_of_notMem ?_ _
    cases event with
    | store a value =>
        show GuestByte.optionRom i ∉ (e.map.writes a value).map Prod.fst
        exact fun hmem => hspares (range_of_map_optionRom (Space.eq_of_mem_writes hmem))
    | _ => exact List.not_mem_nil

/-- **The BIOS finds the ROM.** Let the file that the emulator loads be made by `checksum.py` from code
with a header of 16 blocks. In every run in which the guest does not store to the ROM and does not ask
for a page of the disk, whatever else it does, the 8 KiB at `C8000` are the file, and the BIOS accepts
them. -/
theorem romAccepted_of_run (h : HostReady host pages) {contents rom : List Byte}
    (hheader : [0x55#8, 0xAA#8, 16#8] <+: contents) (hbuild : buildRom contents = some rom)
    (hrom : ∀ i < 0x2000, memory (host.optionRom + i) = rom.getD i 0#8) (events : List LoopEvent)
    (hspares : ∀ event ∈ events, SparesRom event)
    (hrun : run (step host) (boot host ram pages flash memory image) events = some e) :
    ∃ load : Nat → Byte, (∀ a, e.load host a = .ok (load a)) ∧ RomAccepted load 0xC8000 ∧
      ∀ i < 0x2000, load (0xC8000 + i) = rom.getD i 0#8 := by
  -- the file is in place when the loop starts, and every event keeps it
  have hboot : (boot host ram pages flash memory image).RomShown host fun i => rom.getD i 0#8 :=
    ⟨sound_boot h, rfl, fun i => hrom i i.isLt⟩
  have hinv : StatesMeet (step host) (RomShown host fun i => rom.getD i 0#8)
      (boot host ram pages flash memory image) events := by
    refine statesMeet_of_stepsMeet (P := fun _ event => SparesRom event) ?_ hboot ?_
    · intro e event e' hshown hevent hstep
      obtain ⟨⟨data, next⟩, hanswer, rfl⟩ := Option.map_eq_some_iff.mp hstep
      exact hshown.answer h.layout hevent hanswer
    · intro pre event hpre _ _
      exact hspares event (hpre.subset (List.mem_append_right pre List.mem_cons_self))
  have hshown := hinv.last hrun
  have hload : ∀ a, e.load host a = .ok ((e.map.load (e.bytes host) a).getD 0#8) :=
    fun a => hshown.sound.load_eq h.layout a
  have hfile : ∀ i < 0x2000, (e.map.load (e.bytes host) (0xC8000 + i)).getD 0#8 = rom.getD i 0#8 := by
    intro i hi
    obtain ⟨writable, hmap⟩ := map_optionRom hshown.unmapped ⟨i, hi⟩
    have hbyte : e.map.load (e.bytes host) (0xC8000 + i) = some (rom.getD i 0#8) := by
      rw [Space.load, hmap]
      exact congrArg some (hshown.bytes ⟨i, hi⟩)
    rw [hbyte]
    rfl
  exact ⟨_, hload, romAccepted_of_build hheader hbuild hfile, hfile⟩

/-- A ROM of a header only, after the guest has stored to its RAM. -/
theorem romAccepted_of_run_header :
    let rom := (buildRom [0x55#8, 0xAA#8, 16#8]).getD []
    let memory := fun x => rom.getD (x - sampleHost.optionRom) 0#8
    ∃ e, run (step sampleHost)
        (boot sampleHost (fun _ => 0#8) samplePages (fun _ => 0xFF#8) memory fun _ => 0#8)
        [.store 0x500 0x41#8] = some e ∧
      ∃ load : Nat → Byte, (∀ a, e.load sampleHost a = .ok (load a)) ∧ RomAccepted load 0xC8000 ∧
        ∀ i < 0x2000, load (0xC8000 + i) = rom.getD i 0#8 := by
  intro rom memory
  have hrom : ∀ i < 0x2000, memory (sampleHost.optionRom + i) = rom.getD i 0#8 := by
    intro i _
    show rom.getD (sampleHost.optionRom + i - sampleHost.optionRom) 0#8 = _
    rw [Nat.add_sub_cancel_left]
  exact ⟨_, rfl, romAccepted_of_run hostReady_sampleHost (List.prefix_refl _) rfl hrom
    [.store 0x500 0x41#8] (by decide) rfl⟩

end Emulator

end Ts3100
