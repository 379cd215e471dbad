import Ts3100.Pio.Routing

/-! # What the guest reads

KVM serves the guest's loads and stores through the slots, on the emulator's buffers and on the disk
image; the rest it hands to the main loop, which answers loads with zero. This file puts that in
terms of the emulated machine: a map of its address space and the bytes behind it.

* `Emulator.map`, `Emulator.bytes` — the memory map in a state, and the bytes of the machine.
* `memory_of_run` — what a run of the main loop does to the bytes.
* `flash_of_run` — the flash is what was loaded, at every address where it is seen.
* `a20_of_run` — the A20 line, as the guest has programmed it, wraps addresses at 1 MiB. -/

namespace Ts3100

open AddressSpace LabelledRuns PortMachine WriteLog

namespace Emulator

variable {host : HostPointers} {ram : Fin 114 → Byte} {pages : Finset Nat}
  {flash memory image : Nat → Byte} {e e' : Emulator} {event : LoopEvent}

/-! ## The emulated machine -/

/-- The memory map as the A20 register and the last update of the disk's mapping make it. -/
def map (e : Emulator) : Space Nat GuestByte :=
  guestMap (a20Enabled e.port.pio.a20register)
    (if e.port.diskData = 0 then none else some e.diskOffset)

/-- The bytes of the emulated machine. -/
def bytes (host : HostPointers) (e : Emulator) : GuestByte → Byte := e.cells ∘ GuestByte.cell host

/-- The writes that an event makes to the emulated machine. -/
def guestWrites (e : Emulator) : LoopEvent → List (GuestByte × Byte)
  | .store a value => e.map.writes a value
  | _ => []

/-- The slots make the memory map. -/
theorem Sound.space_eq (h : e.Sound host) (hlayout : HostLayout host) :
    e.space host = e.map.rename (GuestByte.cell host) :=
  slotSpace_eq_guestMap hlayout h.follow h.apart

/-- Flash is never written. -/
theorem guestMap_ne_flash {a20 : Bool} {disk : Option Nat} {a : Nat} {g : GuestByte}
    (h : guestMap a20 disk a = some ⟨g, true⟩) (i : Fin 0x80000) : g ≠ .flash i := by
  rcases guestMap_writable h with ⟨_, rfl⟩ | ⟨_, rfl, -⟩ | ⟨_, rfl⟩
  · exact GuestByte.noConfusion
  · exact GuestByte.noConfusion
  · exact GuestByte.noConfusion

/-- **One event**, in terms of the emulated machine: it changes the bytes by the stores it makes
through the memory map, and leaves the flash chip alone. -/
theorem Sound.bytes_answer (h : e.Sound host) (hlayout : HostLayout host) {data : List Byte}
    (hanswer : e.answer host event = some (data, e')) :
    e'.bytes host = contents (e.bytes host) (e.guestWrites event) ∧ e'.chip = e.chip := by
  have hcells := (sound_answer h hanswer).2
  have hspace := h.space_eq hlayout
  have hbytes : e'.bytes host = contents (e.bytes host) (e.guestWrites event) := by
    rw [bytes, hcells]
    cases event with
    | store a value =>
        show contents e.cells ((e.space host).writes a value) ∘ _ = _
        -- distinct bytes of the machine are in distinct cells of the emulator
        rw [hspace]
        exact Space.contents_rename hlayout.cell_injective _ _ _
    | _ => rfl
  refine ⟨hbytes, ?_⟩
  cases event with
  | store a value =>
      obtain ⟨-, rfl⟩ := Prod.mk.inj (Option.some.inj hanswer)
      -- the cell that is written, if there is one, is not one of the flash
      have hflash : ∀ i, contents e.cells ((e.space host).writes a value) (.flash i) =
          e.chip.flashMemory i := by
        intro i
        refine contents_of_notMem (fun hmem => ?_) e.cells
        have hcell := Space.eq_of_mem_writes hmem
        rw [hspace] at hcell
        obtain ⟨⟨g, writable⟩, hg, heq⟩ := Option.map_eq_some_iff.mp hcell
        obtain ⟨hflash, rfl⟩ := Backing.mk.inj heq
        cases g with
        | flash j => exact guestMap_ne_flash hg j rfl
        | ram | optionRom | image => cases hflash
      show FlashChip.mk (fun i => contents e.cells _ (.flash i)) e.chip.flashState = e.chip
      rw [funext hflash]
  | background | sigint =>
      obtain ⟨-, rfl⟩ := Prod.mk.inj (Option.some.inj hanswer)
      rfl
  | run tm page run =>
      exact (h.handleRun (answer_run hanswer).1).2.2

/-- A load, in terms of the emulated machine. -/
theorem Sound.load_eq (h : e.Sound host) (hlayout : HostLayout host) (a : Nat) :
    e.load host a = .ok ((e.map.load (e.bytes host) a).getD 0#8) := by
  rw [Emulator.load_eq, h.space_eq hlayout, Space.load_rename]
  rfl

/-- The flash chip stays as it is. -/
theorem chip_of_run (h : HostReady host pages) {events : List LoopEvent}
    (hrun : run (step host) (boot host ram pages flash memory image) events = some e) :
    e.chip = ⟨flash, .read⟩ := by
  have hinv : StatesMeet (step host) (fun e => e.Sound host ∧ e.chip = ⟨flash, .read⟩)
      (boot host ram pages flash memory image) events := by
    refine statesMeet_of_invariant ?_ ⟨sound_boot h, rfl⟩ events
    rintro e event e' ⟨hsound, hchip⟩ hstep
    obtain ⟨⟨data, next⟩, hanswer, rfl⟩ := Option.map_eq_some_iff.mp hstep
    exact ⟨(sound_answer hsound hanswer).1, (hsound.bytes_answer h.layout hanswer).2.trans hchip⟩
  exact (hinv.last hrun).2

/-- **The flash is what was loaded.** Whatever the guest does, commands to the flash included, byte
`i` of the flash is what it was at the start, and the guest reads it in the window and in its alias,
and where the last 128 KiB are mapped for real mode: the reset vector of the processor, in the window,
and the one at `F000:FFF0` are the same bytes. -/
theorem flash_of_run (h : HostReady host pages) (events : List LoopEvent)
    (hrun : run (step host) (boot host ram pages flash memory image) events = some e)
    (i : Fin 0x80000) :
    e.chip.flashMemory i = flash i ∧
      e.load host (0x3400000 + i) = .ok (flash i) ∧ e.load host (0x3480000 + i) = .ok (flash i) ∧
      (0x60000 ≤ i.val → e.load host (0x80000 + i) = .ok (flash i)) := by
  have hi := i.isLt
  have hchip : e.chip.flashMemory i = flash i := by rw [chip_of_run h hrun]
  have hload : ∀ a, e.map a = some ⟨.flash i, false⟩ → e.load host a = .ok (flash i) := by
    intro a ha
    rw [(sound_of_run h hrun).load_eq h.layout, Space.load, ha]
    exact congrArg Except.ok hchip
  refine ⟨hchip, hload _ ?_, hload _ ?_, fun hlow => hload _ ?_⟩
  · exact guestMap_window i (by omega) (by omega) (by omega)
  · exact guestMap_window i (by omega) (by omega) (by omega)
  · exact guestMap_bios i hlow

/-- A store to the reset vector is lost. -/
theorem flash_of_run_store :
    ∃ e, run (step sampleHost) sampleBoot [.store 0x347FFF0 0x00#8] = some e ∧
      e.load sampleHost 0x347FFF0 = .ok 0xFF#8 :=
  ⟨_, rfl, (flash_of_run hostReady_sampleHost [.store 0x347FFF0 0x00#8] rfl
    ⟨0x7FFF0, by decide⟩).2.1⟩

end Emulator

/-! ## The A20 register -/

namespace PioPart

variable {host : HostPointers} {ram : Fin 114 → Byte} {pages : Finset Nat}
  {flash memory image : Nat → Byte} {e e' : Emulator} {event : LoopEvent} {data : List Byte}

/-- The byte that an event writes to the A20 register. -/
def writtenA20 : LoopEvent → Option Byte
  | .run _ _ (.io exit) =>
      if exit.isWrite ∧ exit.port = 0x92#16 then some (exit.data.getD 0 0#8) else none
  | _ => none

/-- The byte last written to the A20 register; at first the line is on. -/
def lastA20 (events : List LoopEvent) : Byte :=
  events.foldl (fun register event => (writtenA20 event).getD register) 2#8

/-- The part of a handler is found at the ports of that handler's entry. -/
theorem exists_entry_of_ofPort {p : PioPart} (handler : IoHandler) {port : BitVec 16}
    (hdevice : ∀ d, ofDevice d ≠ some p) (hhandler : ∀ h, ofHandler h = some p → h = handler)
    (h : ofPort port = some p) :
    ∃ entry ∈ ioHandlerTable, entry.2 = handler ∧ entry.1.Contains port.toNat := by
  unfold ofPort at h
  cases htarget : PioTarget.ofPort port with
  | device d =>
      rw [htarget] at h
      exact absurd h (hdevice d)
  | handler found =>
      rw [htarget] at h
      have hfound := hhandler found h
      unfold PioTarget.ofPort at htarget
      split at htarget
      · cases htarget
      · have hget := PioTarget.handler.inj htarget
        cases hlookup : lookup ioHandlerTable port with
        | none =>
            -- the handler for other ports has no part
            rw [hlookup] at hget
            obtain rfl : IoHandler.unhandled = found := hget
            cases h
        | some handler' =>
            rw [hlookup, Option.getD_some] at hget
            obtain ⟨entry, hfind, hvalue⟩ := Option.map_eq_some_iff.mp hlookup
            refine ⟨entry, List.mem_of_find?_eq_some hfind, ?_, by simpa using List.find?_some hfind⟩
            rw [hvalue, hget, hfound]

/-- The A20 register is at port `92`. -/
theorem ofPort_eq_a20Gate {port : BitVec 16} : ofPort port = some .a20Gate ↔ port = 0x92#16 := by
  have hentry : ∀ entry ∈ ioHandlerTable, entry.2 = .a20Gate →
      entry.1.start = 0x92#64 ∧ entry.1.length = 1#64 := by decide
  constructor
  · intro h
    obtain ⟨entry, hmem, hvalue, hlow, hhigh⟩ := exists_entry_of_ofPort .a20Gate
      (by intro d; cases d <;> simp [ofDevice]) (by intro h; cases h <;> simp [ofHandler]) h
    obtain ⟨hstart, hlength⟩ := hentry entry hmem hvalue
    rw [hstart] at hlow
    rw [hstart, hlength] at hhigh
    exact BitVec.eq_of_toNat_eq (Nat.le_antisymm (Nat.le_of_lt_succ hhigh) hlow)
  · rintro rfl
    decide

/-- What an access leaves in a register of one byte. -/
theorem byteAccess_eq_some {value value' : Byte} {exit : IoExit} {data : List Byte}
    (h : ((byteAccess value exit).toOption.map fun r => (r.2, r.1)) = some (data, value')) :
    value' = if exit.isWrite then exit.data.getD 0 0#8 else value := by
  unfold byteAccess at h
  split at h
  · cases hwrite : exit.isWrite with
    | false =>
        rw [hwrite] at h
        exact (Prod.mk.inj (Option.some.inj h)).2.symm
    | true =>
        rw [hwrite] at h
        exact (Prod.mk.inj (Option.some.inj h)).2.symm
  · cases h

/-- One event writes the A20 register, or leaves it alone. -/
theorem a20register_answer (h : e.Sound host) (hanswer : e.answer host event = some (data, e')) :
    e'.port.pio.a20register = (writtenA20 event).getD e.port.pio.a20register := by
  cases htouches : a20Gate.touches event with
  | false =>
      have hview := view_of_not_touches .a20Gate h hanswer htouches
      have hnone : writtenA20 event = none := by
        cases event with
        | run tm page run =>
            cases run with
            | io exit =>
                refine if_neg fun hwrite => ?_
                simp [touches, ofPort_eq_a20Gate, hwrite.2] at htouches
            | _ => rfl
        | _ => rfl
      rw [hnone]
      exact hview
  | true =>
      -- the access is to this register alone, and is of one byte
      have hpart := partStep_of_touches .a20Gate h hanswer htouches
      cases event with
      | store | sigint => cases htouches
      | background => cases htouches
      | run tm page run =>
          cases run with
          | io exit =>
              have hport : exit.port = 0x92#16 := by
                simpa [touches, ofPort_eq_a20Gate] using htouches
              have hvalue : e'.port.pio.a20register =
                  if exit.isWrite then exit.data.getD 0 0#8 else e.port.pio.a20register :=
                byteAccess_eq_some hpart
              rw [hvalue, writtenA20]
              cases exit.isWrite with
              | false => rfl
              | true => rw [if_pos rfl, if_pos ⟨rfl, hport⟩, Option.getD_some]
          | _ => cases htouches

/-- **The A20 register** holds the byte last written to port `92`, in every run of the main loop. -/
theorem a20register_of_run (h : HostReady host pages) {events : List LoopEvent}
    (hrun : run (Emulator.step host) (.boot host ram pages flash memory image) events = some e) :
    e.port.pio.a20register = lastA20 events := by
  -- from any sound state; the induction is on the events
  have hfold : ∀ (events : List LoopEvent) (e e' : Emulator), e.Sound host →
      run (Emulator.step host) e events = some e' →
      e'.port.pio.a20register =
        events.foldl (fun register event => (writtenA20 event).getD register)
          e.port.pio.a20register := by
    intro events
    induction events with
    | nil =>
        intro e e' _ hrun
        obtain rfl := Option.some.inj hrun
        rfl
    | cons event events ih =>
        intro e e' hsound hrun
        rw [run_cons, Option.bind_eq_some_iff] at hrun
        obtain ⟨next, hstep, hrest⟩ := hrun
        obtain ⟨⟨data, _⟩, hanswer, rfl⟩ := Option.map_eq_some_iff.mp hstep
        rw [ih _ e' (Emulator.sound_answer hsound hanswer).1 hrest, List.foldl_cons,
          a20register_answer hsound hanswer]
  exact hfold events _ e (Emulator.sound_boot h) hrun

end PioPart

/-! ## The A20 line -/

namespace Emulator

open PioPart RealMode

variable {host : HostPointers} {ram : Fin 114 → Byte} {pages : Finset Nat}
  {flash memory image : Nat → Byte} {e : Emulator}

/-- Two addresses with the same byte behind them are the same to the guest. -/
theorem same_of_space_eq {a a' : Nat} (hspace : e.space host a = e.space host a') :
    e.load host a = e.load host a' ∧ ∀ value, e.store host a value = e.store host a' value := by
  constructor
  · rw [load_eq, load_eq, Space.load, hspace]
    rfl
  · intro value
    rw [store, Space.writes, hspace]
    rfl

/-- **The A20 line.** In every run of the main loop, where bit 1 of the byte last written to port `92`
is clear, every `segment:offset` is the same to the guest as the address modulo 1 MiB; where it is
set, as at the start, an address from 1 MiB on reads zero and a store to it is lost. -/
theorem a20_of_run (h : HostReady host pages) (events : List LoopEvent)
    (hrun : run (step host) (boot host ram pages flash memory image) events = some e)
    (s o : Word) :
    if a20Enabled (lastA20 events) then
      0x100000 ≤ linear s o →
        e.load host (linear s o) = .ok 0#8 ∧ ∀ value, e.store host (linear s o) value = e
    else
      e.load host (linear s o) = e.load host (linear s o % 0x100000) ∧
        ∀ value, e.store host (linear s o) value = e.store host (linear s o % 0x100000) value := by
  have hhigh : linear s o < 0x110000 := by
    have hs := s.isLt
    have ho := o.isLt
    unfold linear
    omega
  have hspace := (sound_of_run h hrun).space_eq h.layout
  have hline := a20register_of_run h hrun
  split
  -- with the line on there is no slot from 1 MiB to the end of what real mode reaches
  · rename_i hon
    intro hlow
    have hnone : e.space host (linear s o) = none := by
      rw [hspace, Space.rename, map, guestMap_wrap hlow hhigh, hline, if_pos hon]
      rfl
    constructor
    · rw [load_eq, Space.load, hnone]
      rfl
    · intro value
      rw [store, Space.writes, hnone]
      rfl
  -- with the line off the first 64 KiB are seen there again
  · rename_i hoff
    by_cases hlow : 0x100000 ≤ linear s o
    · have hmod : linear s o % 0x100000 = linear s o - 0x100000 := by omega
      refine same_of_space_eq ?_
      rw [hmod, hspace, Space.rename, Space.rename, map,
        guestMap_wrap hlow hhigh, hline, if_neg hoff]
    · have hmod : linear s o % 0x100000 = linear s o := by omega
      rw [hmod]
      exact ⟨rfl, fun _ => rfl⟩

/-- The line is turned off, and a byte stored at 0 is read at 1 MiB. -/
theorem a20_of_run_wrapped :
    ∃ e, run (step sampleHost) sampleBoot
        [.run newYear 0 (.io (.byte true 0x92#16 0#8)), .store 0x0 0x5A#8] = some e ∧
      e.load sampleHost (linear 0xFFFF#16 0x10#16) = .ok 0x5A#8 ∧
      ∀ value, e.store sampleHost (linear 0xFFFF#16 0x10#16) value = e.store sampleHost 0 value := by
  obtain ⟨e, hrun, hload⟩ : ∃ e, run (step sampleHost) sampleBoot
      [.run newYear 0 (.io (.byte true 0x92#16 0#8)), .store 0x0 0x5A#8] = some e ∧
      e.load sampleHost (linear 0xFFFF#16 0x10#16 % 0x100000) = .ok 0x5A#8 := ⟨_, rfl, rfl⟩
  have ha20 := a20_of_run hostReady_sampleHost _ hrun 0xFFFF#16 0x10#16
  rw [if_neg (by decide)] at ha20
  exact ⟨e, hrun, ha20.1.trans hload, ha20.2⟩

end Emulator

end Ts3100
