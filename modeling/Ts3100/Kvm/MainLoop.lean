import Ts3100.Flash.MmioExit
import Ts3100.Kvm.GuestMemory
import Ts3100.Library.Traces

/-! # The main loop

`main` calls `KVM_RUN` until `requestExit` is set. Between two of its returns the guest stores to
its memory through the slots, the event loop's thread changes the serial ports, and `SIGINT` may set
the flag; at each return the loop handles the exit reason (`VIRTUAL_DISK` build, `HIGH_MEMORY_SIZE`
zero).

* `Emulator`, `Emulator.loopStep` — the state of the emulator and one event of it.
* `Emulator.Sound` — what holds between two events; `sound_answer` says that an event keeps it, and
  that stores alone change bytes.
* `Emulator.ends_of_run` — when the loop ends, and how. -/

namespace Ts3100

open AddressSpace LabelledRuns PortMachine WriteLog

/-! ## The emulator -/

/-- Why `KVM_RUN` returns. -/
inductive KvmRun where
  /-- `-1`, with `EINTR` -/
  | interrupted
  /-- `-1`, with another error -/
  | failed
  | hlt
  | debug
  | io (exit : IoExit)
  | mmio (exit : MmioExit)
  | unhandled (exitReason : BitVec 32)

/-- How `main` ends. -/
inductive LoopEnd where
  | exitSuccess
  | exitFailure
  | fault (fault : PioFault)
  deriving DecidableEq, Repr

/-- The emulator: the main loop's variables and devices, the flash chip, and what is in the
emulator's anonymous memory and in the disk image. -/
structure Emulator where
  port : PortMachine
  chip : FlashChip
  memory : Nat → Byte
  image : Nat → Byte
  /-- the offset in the image of the page that is mapped at `diskData` -/
  diskOffset : Nat := 0
  requestExit : Bool := false

/-- What happens to the emulator. -/
inductive LoopEvent where
  /-- the guest stores a byte inside `KVM_RUN` -/
  | store (a : Nat) (value : Byte)
  /-- `KVM_RUN` returns; the clock's time and the page the kernel would map next are given -/
  | run (tm : CalendarTime) (page : Nat) (run : KvmRun)
  /-- the event loop's thread changes the serial ports -/
  | background (com : Fin 4 → Serial16450)
  | sigint

namespace Emulator

/-- The bytes of the emulator. -/
def cells (e : Emulator) : HostCell → Byte
  | .memory x => e.memory x
  | .flash i => e.chip.flashMemory i
  | .image y => e.image y

/-- The emulator with other bytes. -/
def setCells (e : Emulator) (cells : HostCell → Byte) : Emulator :=
  { e with
    memory := fun x => cells (.memory x)
    chip := { e.chip with flashMemory := fun i => cells (.flash i) }
    image := fun y => cells (.image y) }

/-- The bytes that are set are there. -/
@[simp] theorem cells_setCells (e : Emulator) (f : HostCell → Byte) : (e.setCells f).cells = f := by
  funext c
  cases c <;> rfl

/-- The guest's address space. -/
def space (host : HostPointers) (e : Emulator) : Space Nat HostCell :=
  slotSpace host e.port.slots e.port.diskData e.diskOffset

/-- A store inside `KVM_RUN`: through a slot that may be written, nothing elsewhere. -/
def store (host : HostPointers) (e : Emulator) (a : Nat) (value : Byte) : Emulator :=
  e.setCells (contents e.cells ((e.space host).writes a value))

/-- The `KVM_EXIT_IO` case: the data left in the exit's buffer and the emulator after it. -/
def handlePort (host : HostPointers) (tm : CalendarTime) (page : Nat) (e : Emulator)
    (exit : IoExit) : Except LoopEnd (List Byte × Emulator) :=
  match exit.dispatch tm e.port.pio with
  | .error fault => .error (.fault fault)
  | .ok (pio, data) =>
      match { e.port with pio }.update host page with
      | none => .error .exitFailure
      | some port =>
          .ok (data, { e with
            port
            diskOffset :=
              if pio.disk.updateDiskMapping then pio.disk.selectedDiskLBA.toNat * 512
              else e.diskOffset })

/-- The `KVM_EXIT_MMIO` case: what is left in `mmio.data` and the emulator after it. -/
def handleFlash (host : HostPointers) (e : Emulator) (exit : MmioExit) :
    Except LoopEnd (List Byte × Emulator) :=
  match handleMmio host ⟨e.chip, e.port.slots⟩ exit with
  | .error .assertionFailed => .error (.fault .assertionFailed)
  | .error (.exitFailure _) => .error .exitFailure
  | .ok (⟨chip, slots⟩, data) =>
      .ok (List.ofFn data, { e with chip, port := { e.port with slots } })

/-- A byte that the guest loads: KVM's own access through the slots, or where there is no slot what
the MMIO exit leaves. -/
def load (host : HostPointers) (e : Emulator) (a : Nat) : Except LoopEnd Byte :=
  match (e.space host).load e.cells a with
  | some value => .ok value
  | none =>
      (e.handleFlash host ⟨BitVec.ofNat 64 a, fun _ => 0#8, 1, false⟩).map fun r => r.1.getD 0 0#8

/-- The body of the loop, up to its end. -/
def handleRun (host : HostPointers) (tm : CalendarTime) (page : Nat) (e : Emulator) :
    KvmRun → Except LoopEnd (List Byte × Emulator)
  | .interrupted => .ok ([], e)
  -- `break`
  | .failed => .error .exitSuccess
  | .hlt => .ok ([], { e with requestExit := true })
  | .debug => .ok ([], e)
  | .io exit => e.handlePort host tm page exit
  | .mmio exit => e.handleFlash host exit
  | .unhandled _ => .error .exitFailure

/-- One event and what it leaves for the guest; the test of `requestExit` is made after the body. -/
def loopStep (host : HostPointers) (e : Emulator) : LoopEvent → Except LoopEnd (List Byte × Emulator)
  | .store a value => .ok ([], e.store host a value)
  | .background com => .ok ([], { e with port := { e.port with pio := { e.port.pio with com } } })
  | .sigint => .ok ([], { e with requestExit := true })
  | .run tm page run =>
      match e.handleRun host tm page run with
      | .error reason => .error reason
      | .ok (data, e) => if e.requestExit then .error .exitSuccess else .ok (data, e)

/-- One event; `none` once `main` has ended. -/
def answer (host : HostPointers) (e : Emulator) (event : LoopEvent) : Option (List Byte × Emulator) :=
  (e.loopStep host event).toOption

/-- One event without its answer. -/
abbrev step (host : HostPointers) : Emulator → LoopEvent → Option Emulator := next (answer host)

/-- The emulator when the loop starts: the slots as the start-up calls leave them, `pages` mapped. -/
def boot (host : HostPointers) (ram : Fin 114 → Byte) (pages : Finset Nat)
    (flash memory image : Nat → Byte) : Emulator where
  port := .boot host ram pages
  chip := ⟨flash, .read⟩
  memory := memory
  image := image

end Emulator

/-! ## One event -/

namespace PortMachine

variable {host : HostPointers} {s : PortMachine} {pio : PioSystem}

/-- What the updates after an exit do where nothing is to be remapped. -/
theorem update_idle (h : s.SlotsFollow host) (page : Nat) (hidle : pio.disk.updateDiskMapping = false) :
    ∃ s', { s with pio }.update host page = some s' ∧ s'.pio = pio ∧ s'.pages = s.pages ∧
      s'.diskData = s.diskData := by
  obtain ⟨lastA20Register, -, hupdate⟩ := updateA20_eq h pio
  refine ⟨{ s with
    pio
    slots := slotTable host (!a20Enabled pio.a20register) (some (s.diskRegion host))
    lastA20Register }, ?_, rfl, rfl, rfl⟩
  rw [update, hupdate, Option.bind_some, updateDisk, if_neg (by simp [hidle])]

/-- What they do where the disk is to be remapped: they succeed where the selected LBA is a multiple
of 8 and the kernel gives a free page. -/
theorem update_requested (h : s.SlotsFollow host) (page : Nat)
    (hrequested : pio.disk.updateDiskMapping = true) :
    if pio.disk.selectedDiskLBA.toNat % 8 = 0 ∧ FreePage (s.pages.erase s.diskData) page then
      ∃ s', { s with pio }.update host page = some s' ∧
        s'.pio = { pio with disk.updateDiskMapping := false } ∧
        s'.pages = insert page (s.pages.erase s.diskData) ∧ s'.diskData = page
    else
      { s with pio }.update host page = none := by
  obtain ⟨lastA20Register, -, hupdate⟩ := updateA20_eq h pio
  have hoffset : pio.disk.selectedDiskLBA.toNat * 512 % pageSize = 0 ↔
      pio.disk.selectedDiskLBA.toNat % 8 = 0 := by
    unfold pageSize
    omega
  rw [update, hupdate, Option.bind_some, updateDisk, if_pos hrequested]
  simp only [slotTable_unmapDisk, Option.bind_eq_bind, Option.bind_some, munmap,
    if_pos h.aligned, mmap, hoffset]
  split
  · simp only [Option.bind_some, slotTable_mapDisk]
    exact ⟨_, rfl, rfl, rfl, rfl⟩
  · rfl

end PortMachine

namespace Emulator

variable {host : HostPointers} {e e' : Emulator} {event : LoopEvent}

/-- An MMIO exit changes nothing: the range test of the flash passes for no address. -/
theorem handleFlash_eq (exit : MmioExit) :
    e.handleFlash host exit =
      .ok (List.ofFn (if exit.isWrite then exit.data else fun _ => 0#8), e) := by
  rw [handleFlash, handleMmio, if_neg (not_flashGuard _)]
  cases exit.isWrite <;> rfl

/-- A load where there is no slot is of zero. -/
theorem load_eq (a : Nat) :
    e.load host a = .ok (((e.space host).load e.cells a).getD 0#8) := by
  unfold load
  cases (e.space host).load e.cells a with
  | none =>
      rw [handleFlash_eq]
      rfl
  | some value => rfl

/-- What holds between two events. -/
structure Sound (host : HostPointers) (e : Emulator) : Prop where
  follow : e.port.SlotsFollow host
  apart : PageApart host e.port.diskData
  /-- the pages of the buffers are mapped -/
  buffers : ∀ x, InBuffers host x → x % pageSize = 0 → x ∈ e.port.pages

/-- The buffers' pages are not those that `mmap` gives. -/
theorem Sound.not_inBuffers (h : e.Sound host) {page : Nat}
    (hpage : FreePage (e.port.pages.erase e.port.diskData) page) : ¬ InBuffers host page := by
  -- a page of a buffer is mapped, and is not the one that `munmap` frees
  obtain ⟨hzero, haligned, hfree⟩ := hpage
  intro hin
  refine hfree (Finset.mem_erase.mpr ⟨?_, h.buffers page hin haligned⟩)
  intro hdisk
  exact h.apart.apart (hdisk ▸ hzero) (hdisk ▸ hin)

/-- The disk's page is none of the buffers'. -/
theorem Sound.ne_diskData (h : e.Sound host) {x : Nat} (hx : InBuffers host x)
    (haligned : x % pageSize = 0) : x ≠ e.port.diskData := by
  intro hdisk
  by_cases hzero : e.port.diskData = 0
  · exact h.follow.noNull ((hdisk.trans hzero) ▸ h.buffers x hx haligned)
  · exact h.apart.apart hzero (hdisk ▸ hx)

/-- A port exit that asks for no update of the disk's mapping. -/
theorem handlePort_idle (h : e.Sound host) {tm : CalendarTime} (page : Nat) {exit : IoExit}
    {pio : PioSystem} {data : List Byte} (hdispatch : exit.dispatch tm e.port.pio = .ok (pio, data))
    (hidle : pio.disk.updateDiskMapping = false) :
    ∃ port, e.handlePort host tm page exit = .ok (data, { e with port }) ∧
      port.SlotsFollow host ∧ port.pio = pio ∧ port.pages = e.port.pages ∧
      port.diskData = e.port.diskData := by
  obtain ⟨port, hport, hpio, hpages, hdata⟩ := update_idle h.follow page hidle
  have hfollow : ∃ port, { e.port with pio }.update host page = some port ∧
      port.SlotsFollow host :=
    slotsFollow_update h.follow pio (fun htrue => absurd (hidle.symm.trans htrue) (by decide))
      (fun htrue => absurd (hidle.symm.trans htrue) (by decide))
  obtain ⟨port', hport', hfollows⟩ := hfollow
  rw [hport, Option.some.injEq] at hport'
  refine ⟨port, ?_, hport' ▸ hfollows, hpio, hpages, hdata⟩
  simp only [handlePort, hdispatch, hport, hidle]
  rfl

/-- A port exit that asks for one. -/
theorem handlePort_requested (h : e.Sound host) {tm : CalendarTime} (page : Nat) {exit : IoExit}
    {pio : PioSystem} {data : List Byte} (hdispatch : exit.dispatch tm e.port.pio = .ok (pio, data))
    (hrequested : pio.disk.updateDiskMapping = true) :
    if pio.disk.selectedDiskLBA.toNat % 8 = 0 ∧
        FreePage (e.port.pages.erase e.port.diskData) page then
      ∃ port, e.handlePort host tm page exit = .ok
          (data, { e with port, diskOffset := pio.disk.selectedDiskLBA.toNat * 512 }) ∧
        port.SlotsFollow host ∧ port.pio = { pio with disk.updateDiskMapping := false } ∧
        port.pages = insert page (e.port.pages.erase e.port.diskData) ∧ port.diskData = page
    else
      e.handlePort host tm page exit = .error .exitFailure := by
  have hupdate := update_requested h.follow page hrequested
  split
  · rename_i hlegal
    rw [if_pos hlegal] at hupdate
    obtain ⟨port, hport, hpio, hpages, hdata⟩ := hupdate
    obtain ⟨port', hport', hfollows⟩ :=
      slotsFollow_update h.follow pio (fun _ => hlegal.1) (fun _ => hlegal.2)
    rw [hport, Option.some.injEq] at hport'
    refine ⟨port, ?_, hport' ▸ hfollows, hpio, hpages, hdata⟩
    simp only [handlePort, hdispatch, hport, hrequested, if_true]
  · rename_i hlegal
    rw [if_neg hlegal] at hupdate
    simp only [handlePort, hdispatch, hupdate]

/-- A port exit that is handled keeps the emulator sound. It touches the port devices and what is
mapped, and no byte. -/
theorem Sound.handlePort (h : e.Sound host) {tm : CalendarTime} {page : Nat} {exit : IoExit}
    {data : List Byte} (hhandle : e.handlePort host tm page exit = .ok (data, e')) :
    e'.Sound host ∧ e'.cells = e.cells ∧ e'.chip = e.chip := by
  cases hdispatch : exit.dispatch tm e.port.pio with
  | error fault => simp [Emulator.handlePort, hdispatch] at hhandle
  | ok result =>
      obtain ⟨pio, data'⟩ := result
      cases hrequested : pio.disk.updateDiskMapping with
      | false =>
          obtain ⟨port, hport, hfollow, -, hpages, hdata⟩ :=
            handlePort_idle h page hdispatch hrequested
          rw [hport] at hhandle
          obtain ⟨-, rfl⟩ := Prod.mk.inj (Except.ok.inj hhandle)
          refine ⟨⟨hfollow, ?_, ?_⟩, rfl, rfl⟩
          · exact hdata ▸ h.apart
          · exact hpages ▸ h.buffers
      | true =>
          have hcases := handlePort_requested h page hdispatch hrequested
          split at hcases
          · rename_i hlegal
            obtain ⟨port, hport, hfollow, -, hpages, hdata⟩ := hcases
            rw [hport] at hhandle
            obtain ⟨-, rfl⟩ := Prod.mk.inj (Except.ok.inj hhandle)
            refine ⟨⟨hfollow, ?_, ?_⟩, rfl, rfl⟩
            · exact hdata ▸ ⟨hlegal.2.2.1, fun _ => h.not_inBuffers hlegal.2⟩
            -- only the page of the disk is unmapped, and it is none of the buffers'
            · intro x hx haligned
              show x ∈ port.pages
              rw [hpages]
              exact Finset.mem_insert_of_mem
                (Finset.mem_erase.mpr ⟨h.ne_diskData hx haligned, h.buffers x hx haligned⟩)
          · rw [hcases] at hhandle
            cases hhandle

/-- An exit that is handled keeps the emulator sound, and touches no byte. -/
theorem Sound.handleRun (h : e.Sound host) {tm : CalendarTime} {page : Nat} {run : KvmRun}
    {data : List Byte} (hhandle : e.handleRun host tm page run = .ok (data, e')) :
    e'.Sound host ∧ e'.cells = e.cells ∧ e'.chip = e.chip := by
  cases run with
  | interrupted | debug =>
      obtain ⟨-, rfl⟩ := Prod.mk.inj (Except.ok.inj hhandle)
      exact ⟨h, rfl, rfl⟩
  | failed | unhandled => cases hhandle
  | hlt =>
      obtain ⟨-, rfl⟩ := Prod.mk.inj (Except.ok.inj hhandle)
      exact ⟨⟨h.follow, h.apart, h.buffers⟩, rfl, rfl⟩
  | mmio exit =>
      rw [Emulator.handleRun, handleFlash_eq] at hhandle
      obtain ⟨-, rfl⟩ := Prod.mk.inj (Except.ok.inj hhandle)
      exact ⟨h, rfl, rfl⟩
  | io exit => exact h.handlePort hhandle

/-- A return of `KVM_RUN` after which the loop goes on. -/
theorem answer_run {tm : CalendarTime} {page : Nat} {run : KvmRun} {data : List Byte}
    (hanswer : e.answer host (.run tm page run) = some (data, e')) :
    e.handleRun host tm page run = .ok (data, e') ∧ e'.requestExit = false := by
  cases hhandle : e.handleRun host tm page run with
  | error reason => simp [answer, loopStep, hhandle, Except.toOption] at hanswer
  | ok result =>
      obtain ⟨data', e''⟩ := result
      cases hexit : e''.requestExit with
      | true => simp [answer, loopStep, hhandle, hexit, Except.toOption] at hanswer
      | false =>
          obtain ⟨rfl, rfl⟩ : data' = data ∧ e'' = e' := by
            simpa [answer, loopStep, hhandle, hexit, Except.toOption] using hanswer
          exact ⟨rfl, hexit⟩

/-- The writes that an event makes. -/
def writes (host : HostPointers) (e : Emulator) : LoopEvent → List (HostCell × Byte)
  | .store a value => (e.space host).writes a value
  | _ => []

/-- **One event** keeps the emulator sound, and changes the bytes by the stores it makes. -/
theorem sound_answer (h : e.Sound host) {data : List Byte}
    (hanswer : e.answer host event = some (data, e')) :
    e'.Sound host ∧ e'.cells = contents e.cells (e.writes host event) := by
  cases event with
  | store a value =>
      obtain ⟨-, rfl⟩ := Prod.mk.inj (Option.some.inj hanswer)
      exact ⟨⟨h.follow, h.apart, h.buffers⟩, cells_setCells _ _⟩
  | background com =>
      obtain ⟨-, rfl⟩ := Prod.mk.inj (Option.some.inj hanswer)
      exact ⟨⟨⟨h.follow.slots, h.follow.copy, h.follow.noUpdate, h.follow.aligned, h.follow.live,
        h.follow.noNull⟩, h.apart, h.buffers⟩, rfl⟩
  | sigint =>
      obtain ⟨-, rfl⟩ := Prod.mk.inj (Option.some.inj hanswer)
      exact ⟨⟨h.follow, h.apart, h.buffers⟩, rfl⟩
  | run tm page run =>
      obtain ⟨hsound, hcells, -⟩ := h.handleRun (answer_run hanswer).1
      exact ⟨hsound, hcells⟩

end Emulator

/-! ## Every run -/

/-- What holds of the host's memory when the loop starts: the buffers do not overlap, and their pages
are mapped. -/
structure HostReady (host : HostPointers) (pages : Finset Nat) : Prop where
  layout : HostLayout host
  buffers : ∀ x, InBuffers host x → x % pageSize = 0 → x ∈ pages
  noNull : 0 ∉ pages

/-- Buffers that do not overlap. -/
def sampleHost : HostPointers := ⟨0x200000, 0x20000, 0x100000⟩

/-- The pages of the first megabytes, but for the first. -/
def samplePages : Finset Nat := (Finset.range 0x280).image fun n => (n + 1) * pageSize

/-- These are buffers that the loop can start with. -/
theorem hostReady_sampleHost : HostReady sampleHost samplePages where
  layout := ⟨rfl, rfl, rfl, by decide, by decide, by decide⟩
  buffers := by
    intro x hx haligned
    refine Finset.mem_image.mpr ⟨x / pageSize - 1, ?_, ?_⟩
    all_goals
      simp only [InBuffers, sampleHost, lowMemorySize, pageSize, Finset.mem_range] at hx haligned ⊢
      omega
  noNull := by
    intro hzero
    obtain ⟨n, -, hn⟩ := Finset.mem_image.mp hzero
    unfold pageSize at hn
    omega

namespace Emulator

variable {host : HostPointers} {ram : Fin 114 → Byte} {pages : Finset Nat}
  {flash memory image : Nat → Byte} {e e' : Emulator} {event : LoopEvent}

/-- The emulator on the buffers of `sampleHost`, with erased flash. -/
abbrev sampleBoot : Emulator :=
  boot sampleHost (fun _ => 0#8) samplePages (fun _ => 0xFF#8) (fun _ => 0#8) (fun _ => 0#8)

/-- The emulator is sound when the loop starts. -/
theorem sound_boot (h : HostReady host pages) :
    (boot host ram pages flash memory image).Sound host where
  follow := by
    refine slotsFollow_boot ram (h.buffers _ (Or.inr (Or.inl ⟨by omega, by omega⟩)) ?_) h.noNull
    have haligned := h.layout.optionRomAligned
    unfold pageSize at haligned ⊢
    omega
  apart := ⟨rfl, fun hzero => absurd rfl hzero⟩
  buffers := h.buffers

/-- It is sound in every state that it reaches. -/
theorem sound_of_run (h : HostReady host pages) {events : List LoopEvent}
    (hrun : run (step host) (boot host ram pages flash memory image) events = some e) :
    e.Sound host := by
  have hinv : StatesMeet (step host) (Sound host) (boot host ram pages flash memory image)
      events := by
    refine statesMeet_of_invariant ?_ (sound_boot h) events
    intro e event e' hsound hstep
    obtain ⟨⟨data, next⟩, hanswer, rfl⟩ := Option.map_eq_some_iff.mp hstep
    exact (sound_answer hsound hanswer).1
  exact hinv.last hrun

/-! ## How the loop ends -/

/-- Why `main` ends at an event, if it does. -/
def endOf (e : Emulator) : LoopEvent → Option LoopEnd
  | .run _ _ .hlt => some .exitSuccess
  | .run _ _ .failed => some .exitSuccess
  | .run _ _ (.unhandled _) => some .exitFailure
  | .run tm _ (.io exit) =>
      match exit.dispatch tm e.port.pio with
      | .error fault => some (.fault fault)
      | .ok (pio, _) =>
          if pio.disk.updateDiskMapping ∧ pio.disk.selectedDiskLBA.toNat % 8 ≠ 0 then
            some .exitFailure
          else if e.requestExit then some .exitSuccess else none
  | .run _ _ _ => if e.requestExit then some .exitSuccess else none
  | _ => none

/-- The page that the kernel would map next is a free one. -/
def FreePageAt (e : Emulator) : LoopEvent → Prop
  | .run _ page _ => FreePage (e.port.pages.erase e.port.diskData) page
  | _ => True

/-- An exit that is handled keeps a request to end. -/
theorem requestExit_handleRun {tm : CalendarTime} {page : Nat} {run : KvmRun} {data : List Byte}
    (hhandle : e.handleRun host tm page run = .ok (data, e')) (hexit : e.requestExit = true) :
    e'.requestExit = true := by
  cases run with
  | failed | unhandled => cases hhandle
  | interrupted | debug | hlt =>
      obtain ⟨-, rfl⟩ := Prod.mk.inj (Except.ok.inj hhandle)
      first | exact hexit | rfl
  | mmio exit =>
      rw [handleRun, handleFlash_eq] at hhandle
      obtain ⟨-, rfl⟩ := Prod.mk.inj (Except.ok.inj hhandle)
      exact hexit
  | io exit =>
      rw [handleRun, handlePort] at hhandle
      split at hhandle
      · cases hhandle
      · split at hhandle
        · cases hhandle
        · obtain ⟨-, rfl⟩ := Prod.mk.inj (Except.ok.inj hhandle)
          exact hexit

/-- **Where the loop ends.** It ends at an event for the reasons of `endOf` and for no others. -/
theorem loopStep_error_iff (h : e.Sound host) (hpage : e.FreePageAt event)
    (reason : LoopEnd) :
    e.loopStep host event = .error reason ↔ e.endOf event = some reason := by
  cases event with
  | store | background | sigint => constructor <;> intro hend <;> cases hend
  | run tm page run =>
      -- an exit that is handled, and leaves the flag as it was, ends the loop iff the flag is set
      have hgoesOn {data : List Byte} {next : Emulator}
          (hhandle : e.handleRun host tm page run = .ok (data, next))
          (hexit : next.requestExit = e.requestExit) :
          e.loopStep host (.run tm page run) = .error reason ↔
            (if e.requestExit then some LoopEnd.exitSuccess else none) = some reason := by
        rw [loopStep, hhandle]
        simp only [hexit]
        cases e.requestExit <;> simp
      cases run with
      | hlt => simp [loopStep, handleRun, endOf]
      | failed => simp [loopStep, handleRun, endOf]
      | unhandled => simp [loopStep, handleRun, endOf]
      | interrupted => exact hgoesOn rfl rfl
      | debug => exact hgoesOn rfl rfl
      | mmio exit => exact hgoesOn (handleFlash_eq exit) rfl
      | io exit =>
          cases hdispatch : exit.dispatch tm e.port.pio with
          | error fault => simp [loopStep, handleRun, handlePort, endOf, hdispatch]
          | ok result =>
              obtain ⟨pio, data⟩ := result
              cases hrequested : pio.disk.updateDiskMapping with
              | false =>
                  obtain ⟨port, hport, -⟩ := handlePort_idle h page hdispatch hrequested
                  rw [hgoesOn hport rfl, endOf, hdispatch]
                  simp [hrequested]
              | true =>
                  have hcases := handlePort_requested h page hdispatch hrequested
                  by_cases hlba : pio.disk.selectedDiskLBA.toNat % 8 = 0
                  · rw [if_pos ⟨hlba, hpage⟩] at hcases
                    obtain ⟨port, hport, -⟩ := hcases
                    rw [hgoesOn hport rfl, endOf, hdispatch]
                    simp [hlba]
                  · rw [if_neg fun hlegal => hlba hlegal.1] at hcases
                    simp [loopStep, handleRun, hcases, endOf, hdispatch, hrequested, hlba]

/-- `requestExit` is set iff `SIGINT` has come. -/
theorem requestExit_of_run {events : List LoopEvent} (hrun : run (step host) e events = some e') :
    e'.requestExit = true ↔ e.requestExit = true ∨ LoopEvent.sigint ∈ events := by
  induction events generalizing e with
  | nil =>
      obtain rfl := Option.some.inj hrun
      simp
  | cons event events ih =>
      rw [run_cons, Option.bind_eq_some_iff] at hrun
      obtain ⟨next, hstep, hrest⟩ := hrun
      obtain ⟨⟨data, _⟩, hanswer, rfl⟩ := Option.map_eq_some_iff.mp hstep
      rw [ih hrest, List.mem_cons]
      cases event with
      | store | background =>
          obtain ⟨-, rfl⟩ := Prod.mk.inj (Option.some.inj hanswer)
          simp [store, setCells]
      | sigint =>
          obtain ⟨-, rfl⟩ := Prod.mk.inj (Option.some.inj hanswer)
          simp
      | run tm page run =>
          obtain ⟨hhandle, hexit⟩ := answer_run hanswer
          -- the loop has gone on, so the flag was not set before
          have hsame : e.requestExit = false := by
            cases hbefore : e.requestExit with
            | false => rfl
            | true => exact absurd (requestExit_handleRun hhandle hbefore) (by simp [hexit])
          simp [hexit, hsame]

/-- One event leads on iff `endOf` gives no reason to end. -/
theorem step_eq_some_iff (h : e.Sound host) (hpage : e.FreePageAt event) :
    (∃ e', step host e event = some e') ↔ e.endOf event = none := by
  have hend := fun reason => loopStep_error_iff h hpage reason
  unfold step next answer
  cases hstep : e.loopStep host event with
  | error reason =>
      rw [(hend reason).mp hstep]
      simp [Except.toOption]
  | ok result =>
      have hnone : e.endOf event = none := by
        cases hreason : e.endOf event with
        | none => rfl
        | some reason => exact absurd ((hend reason).mpr hreason) (by simp [hstep])
      simp [Except.toOption, hnone]

/-- **How `main` ends.** Over every order of events in which the kernel has free pages to give, the
loop goes on exactly as long as no event gives a reason to end; what it ends for is that reason. So it
is never ended by an `ioctl`, a `munmap` or a flash access, and an exit after `SIGINT` ends it. -/
theorem ends_of_run (h : HostReady host pages) (events : List LoopEvent)
    (hfree : StepsMeet (step host) FreePageAt (boot host ram pages flash memory image) events) :
    ((∃ e, run (step host) (boot host ram pages flash memory image) events = some e) ↔
      StepsMeet (step host) (fun e event => e.endOf event = none)
        (boot host ram pages flash memory image) events) ∧
    ∀ e, run (step host) (boot host ram pages flash memory image) events = some e →
      (e.requestExit = true ↔ LoopEvent.sigint ∈ events) ∧
      ∀ event reason, e.FreePageAt event →
        (e.loopStep host event = .error reason ↔ e.endOf event = some reason) := by
  have hsound : StatesMeet (step host) (Sound host) (boot host ram pages flash memory image)
      events := fun pre _ s hs => sound_of_run h hs
  refine ⟨⟨?_, ?_⟩, fun e hrun => ⟨?_, fun event reason hpage => ?_⟩⟩
  · rintro ⟨e, hrun⟩ pre event hpre s hs
    have hpre' : pre <+: events := (List.prefix_append pre [event]).trans hpre
    exact (step_eq_some_iff (hsound pre hpre' s hs) (hfree pre event hpre s hs)).mp
      (stepsMeet_enabled hrun pre event hpre s hs)
  · intro hgoesOn
    refine exists_run_of_stepsMeet fun pre event hpre s hs => ?_
    have hpre' : pre <+: events := (List.prefix_append pre [event]).trans hpre
    exact (step_eq_some_iff (hsound pre hpre' s hs) (hfree pre event hpre s hs)).mpr
      (hgoesOn pre event hpre s hs)
  · rw [requestExit_of_run hrun]
    simp [boot]
  · exact loopStep_error_iff (sound_of_run h hrun) hpage reason

/-- A page above those that are mapped is free. -/
theorem freePage_samplePages {page : Nat} (hlow : 0x281000 ≤ page) (haligned : page % pageSize = 0)
    (d : Nat) : FreePage (samplePages.erase d) page := by
  refine ⟨by omega, haligned, fun hmem => ?_⟩
  obtain ⟨n, hn, rfl⟩ := Finset.mem_image.mp (Finset.mem_of_mem_erase hmem)
  have hlt := Finset.mem_range.mp hn
  unfold pageSize at hlow
  omega

/-- Exits that are handled: a port access, a flash command, a signal that interrupts `KVM_RUN`, and an
update of the disk's mapping. -/
def handledExits : List LoopEvent :=
  [.run newYear 0x300000 (.io (.byte true 0x70#16 0x0A#8)),
    .run newYear 0x300000 (.mmio ⟨0x3400000, fun _ => 0xFF#8, 1, true⟩),
    .run newYear 0x300000 .interrupted,
    .run newYear 0x300000 (.io (.byte true 0xD004#16 0#8))]

/-- The loop goes on over these exits; after `SIGINT` it ends at the next one. -/
theorem ends_of_run_handled :
    (∃ e, run (step sampleHost) sampleBoot handledExits = some e) ∧
    ∃ e, run (step sampleHost) sampleBoot [.sigint] = some e ∧ e.requestExit = true ∧
      e.loopStep sampleHost (.run newYear 0x300000 .debug) = .error .exitSuccess := by
  have hpage (d : Nat) : FreePage (samplePages.erase d) 0x300000 :=
    freePage_samplePages (by decide) (by decide) d
  constructor
  · refine (ends_of_run hostReady_sampleHost handledExits ?_).1.mpr ?_
    · refine stepsMeet_cons.mpr ⟨hpage _, fun e₁ h₁ => ?_⟩
      cases h₁
      refine stepsMeet_cons.mpr ⟨hpage _, fun e₁ h₁ => ?_⟩
      cases h₁
      refine stepsMeet_cons.mpr ⟨hpage _, fun e₁ h₁ => ?_⟩
      cases h₁
      exact stepsMeet_cons.mpr ⟨hpage _, fun _ _ => stepsMeet_nil⟩
    · refine stepsMeet_cons.mpr ⟨rfl, fun e₁ h₁ => ?_⟩
      cases h₁
      refine stepsMeet_cons.mpr ⟨rfl, fun e₁ h₁ => ?_⟩
      cases h₁
      refine stepsMeet_cons.mpr ⟨rfl, fun e₁ h₁ => ?_⟩
      cases h₁
      exact stepsMeet_cons.mpr ⟨rfl, fun _ _ => stepsMeet_nil⟩
  · have hfree : StepsMeet (step sampleHost) FreePageAt sampleBoot [.sigint] :=
      stepsMeet_cons.mpr ⟨trivial, fun _ _ => stepsMeet_nil⟩
    obtain ⟨e, hrun, hend⟩ : ∃ e, run (step sampleHost) sampleBoot [.sigint] = some e ∧
        e.FreePageAt (.run newYear 0x300000 .debug) ∧
        e.endOf (.run newYear 0x300000 .debug) = some .exitSuccess := ⟨_, rfl, hpage _, rfl⟩
    obtain ⟨hexit, hreason⟩ := (ends_of_run hostReady_sampleHost [.sigint] hfree).2 e hrun
    exact ⟨e, hrun, hexit.mpr (List.mem_singleton_self _), (hreason _ _ hend.1).mpr hend.2⟩

end Emulator

end Ts3100
