import Ts3100.Kvm.Contents

/-! # The emulator behind the option ROM

The option ROM's code was verified on a bus, `Host`, of guest memory, the disk image, the disk's
registers and the window at `C9000`. This file shows that the emulator is such a bus: the slots, the
mappings of the image and the dispatch of port exits answer every sequence of loads, stores and port
accesses of the option ROM as `Host` does, and fail when it fails (`trace_emulator_eq_bus`).

* `BusOp`, `Host.busStep`, `Emulator.busStep` — one access, on either side.
* `Behind` — the relation between them.
* `sameAnswer_busStep` — one access keeps it. -/

namespace Ts3100

open AddressSpace LabelledRuns PortMachine RealMode

/-! ## Accesses -/

/-- What the option ROM's code asks of its bus. -/
inductive BusOp where
  | load (a : Nat)
  | store (a : Nat) (value : Byte)
  | inWord (port : Word)
  | outWord (port w : Word)
  deriving DecidableEq, Repr

/-- An access of the bus that the option ROM was verified on. -/
def Host.busStep (h : Host) : BusOp → Option (List Byte × Host)
  | .load a => some ([Bus.read h a], h)
  | .store a value => some ([], Bus.write h a value)
  | .inWord port => (Bus.inWord h port).map fun r => ([lo r.1, hi r.1], r.2)
  | .outWord port w => (Bus.outWord h port w).map fun h' => ([lo w, hi w], h')

namespace Emulator

/-- The same access on the emulator, where the kernel gives the page `kernel pages` when `pages` are
mapped; a port access is a return of `KVM_RUN`. -/
def busStep (host : HostPointers) (kernel : Finset Nat → Nat) (tm : CalendarTime) (e : Emulator) :
    BusOp → Option (List Byte × Emulator)
  | .load a => (e.load host a).toOption.map fun value => ([value], e)
  | .store a value => some ([], e.store host a value)
  | .inWord port =>
      e.answer host (.run tm (kernel (e.port.pages.erase e.port.diskData))
        (.io (.word false port [0#8, 0#8] rfl)))
  | .outWord port w =>
      e.answer host (.run tm (kernel (e.port.pages.erase e.port.diskData))
        (.io (.word true port [lo w, hi w] rfl)))

/-- The accesses that the option ROM makes: to RAM, to its own page, to the window once the disk is
mapped, and to the disk's registers. -/
def Reaches (e : Emulator) : BusOp → Prop
  | .load a | .store a _ =>
      a < lowMemorySize ∨ (0xC8000 ≤ a ∧ a < 0xC9000) ∨ (InDiskWindow a ∧ e.port.diskData ≠ 0)
  | .inWord port | .outWord port _ => 0xD000 ≤ port.toNat ∧ port.toNat < 0xD008

end Emulator

/-! ## The relation -/

/-- A byte of the emulated machine on the bus of the option ROM. -/
def Host.byte (h : Host) : GuestByte → Byte
  | .ram i => h.memory i
  | .optionRom i => h.memory (0xC8000 + i)
  | .flash _ => 0#8
  | .image y => h.image y

/-- The bytes that the bus shows: RAM, the option ROM's own page and the disk image. -/
def GuestByte.Shown : GuestByte → Prop
  | .ram _ => True
  | .optionRom i => i.val < 0x1000
  | .flash _ => False
  | .image _ => True

/-- The emulator holds what the bus shows. -/
structure Behind (host : HostPointers) (e : Emulator) (h : Host) : Prop where
  sound : e.Sound host
  running : e.requestExit = false
  registers : h.registers = e.port.pio.disk
  offset : e.port.diskData ≠ 0 → h.diskData = e.diskOffset
  bytes : ∀ g : GuestByte, g.Shown → h.byte g = e.bytes host g

section memory

variable {host : HostPointers} {e : Emulator} {h : Host} {a : Nat} {value : Byte}

/-- An address of the bus: the byte behind it, on the emulator and on the bus, and what a store to it
does to the bytes of the bus. -/
theorem Behind.place (hb : Behind host e h) (ha : e.Reaches (.load a)) (value : Byte) :
    ∃ g : GuestByte, e.map a = some ⟨g, true⟩ ∧ g.Shown ∧ Bus.read h a = h.byte g ∧
      ∀ g' : GuestByte, g'.Shown →
        (Bus.write h a value).byte g' = Function.update h.byte g value g' := by
  rcases ha with hram | hrom | ⟨hwindow, hmapped⟩
  -- RAM
  · have hout : ¬ InDiskWindow a := by
      unfold InDiskWindow
      unfold lowMemorySize at hram
      omega
    refine ⟨.ram ⟨a, hram⟩, guestMap_ram hram, trivial, by rw [Host.read_eq, if_neg hout]; rfl, ?_⟩
    intro g' hg'
    rw [Host.write_eq, if_neg hout]
    cases g' with
    | ram i => simp [Host.byte, Function.update_apply, Fin.ext_iff]
    | optionRom i =>
        have hne : 0xC8000 + i.val ≠ a := by
          unfold lowMemorySize at hram
          omega
        simp [Host.byte, hne]
    | flash i => cases hg'
    | image y => simp [Host.byte]
  -- the page of the option ROM
  · have hout : ¬ InDiskWindow a := by
      unfold InDiskWindow
      omega
    obtain ⟨i, rfl⟩ : ∃ i : Fin 0x2000, 0xC8000 + i.val = a :=
      ⟨⟨a - 0xC8000, by omega⟩, by simp only; omega⟩
    have hi : i.val < 0x1000 := by omega
    refine ⟨.optionRom i, guestMap_optionRom i hi, hi, by rw [Host.read_eq, if_neg hout]; rfl, ?_⟩
    intro g' hg'
    rw [Host.write_eq, if_neg hout]
    cases g' with
    | ram j =>
        have hne : j.val ≠ 0xC8000 + i.val := by
          have hj := j.isLt
          unfold lowMemorySize at hj
          omega
        simp [Host.byte, hne]
    | optionRom j => simp [Host.byte, Function.update_apply, Fin.ext_iff]
    | flash j => cases hg'
    | image y => simp [Host.byte]
  -- the window, where both sides show the image from the same offset
  · obtain ⟨i, hi, rfl⟩ : ∃ i, i < 0x1000 ∧ 0xC9000 + i = a := by
      unfold InDiskWindow at hwindow
      exact ⟨a - 0xC9000, by omega, by omega⟩
    have hoffset : Host.imageOffset h.diskData (0xC9000 + i) = e.diskOffset + i := by
      unfold Host.imageOffset
      rw [hb.offset hmapped]
      omega
    refine ⟨.image (e.diskOffset + i), ?_, trivial, ?_, ?_⟩
    · rw [Emulator.map, if_neg hmapped]
      exact guestMap_image hi
    · rw [Host.read_eq, if_pos hwindow, hoffset]
      rfl
    · intro g' hg'
      rw [Host.write_eq, if_pos hwindow, hoffset]
      cases g' with
      | ram j => simp [Host.byte]
      | optionRom j => simp [Host.byte]
      | flash j => cases hg'
      | image y => simp [Host.byte, Function.update_apply]

/-- A load is answered alike. -/
theorem Behind.load (hb : Behind host e h) (hlayout : HostLayout host)
    (ha : e.Reaches (.load a)) : e.load host a = .ok (Bus.read h a) := by
  obtain ⟨g, hg, hshown, hread, -⟩ := hb.place ha 0#8
  rw [hb.sound.load_eq hlayout, Space.load, hg, hread, hb.bytes g hshown]
  rfl

/-- A store keeps the relation. -/
theorem Behind.store (hb : Behind host e h) (hlayout : HostLayout host)
    (ha : e.Reaches (.load a)) (value : Byte) :
    Behind host (e.store host a value) (Bus.write h a value) := by
  obtain ⟨g, hg, -, -, hwrite⟩ := hb.place ha value
  have hanswer : e.answer host (.store a value) = some ([], e.store host a value) := rfl
  have hbytes := (hb.sound.bytes_answer hlayout hanswer).1
  rw [Emulator.guestWrites, Space.writes_of_writable hg, WriteLog.contents_cons,
    WriteLog.contents_nil] at hbytes
  obtain ⟨hregisters, hdiskData, -⟩ := h.write_keeps a value
  constructor
  case sound => exact (Emulator.sound_answer hb.sound hanswer).1
  case running => exact hb.running
  case registers => exact hregisters.trans hb.registers
  case offset => exact fun hmapped => hdiskData.trans (hb.offset hmapped)
  case bytes =>
    intro g' hg'
    rw [hwrite g' hg', hbytes]
    by_cases hgg : g' = g
    · rw [hgg, Function.update_self, Function.update_self]
    · rw [Function.update_of_ne hgg, Function.update_of_ne hgg]
      exact hb.bytes g' hg'

end memory

/-! ## Port accesses -/

/-- The ports of the disk's registers. -/
theorem ofPort_diskRegisters {port : Word} (hlow : 0xD000 ≤ port.toNat)
    (hhigh : port.toNat < 0xD008) : PioTarget.ofPort port = .handler .diskRegisters := by
  have hports : ∀ i : Fin 8,
      PioTarget.ofPort (0xD000#16 + BitVec.ofNat 16 i) = .handler .diskRegisters := by decide
  obtain ⟨i, rfl⟩ : ∃ i : Fin 8, port = 0xD000#16 + BitVec.ofNat 16 i := by
    refine ⟨⟨port.toNat - 0xD000, by omega⟩, ?_⟩
    bv_omega
  exact hports i

section ports

variable {host : HostPointers} {e e' : Emulator} {h : Host} {port : Word} {tm : CalendarTime}
  {page : Nat} {isWrite : Bool} {data : List Byte}

/-- What the dispatch of the access does. -/
theorem dispatch_word {hdata : data.length = 2} (hlow : 0xD000 ≤ port.toNat)
    (hhigh : port.toNat < 0xD008) (s : PioSystem) :
    (IoExit.word isWrite port data hdata).dispatch tm s =
      handleDiskRegisters s isWrite port data 1 := by
  change handleIo tm s isWrite port data 2 1 = _
  rw [handleIo, ofPort_diskRegisters hlow hhigh]
  rfl

/-- What the main loop does with it keeps the relation, if the registers and the mapping are those of
the bus. -/
theorem Behind.of_answer (hb : Behind host e h) {exit : IoExit} {h' : Host}
    (hanswer : e.answer host (.run tm page (.io exit)) = some (data, e'))
    (hregisters : h'.registers = e'.port.pio.disk)
    (hoffset : e'.port.diskData ≠ 0 → h'.diskData = e'.diskOffset) (hmemory : h'.memory = h.memory)
    (himage : h'.image = h.image) : Behind host e' h' := by
  obtain ⟨hsound, hcells⟩ := Emulator.sound_answer hb.sound hanswer
  refine ⟨hsound, (Emulator.answer_run hanswer).2, hregisters, hoffset, fun g hg => ?_⟩
  have hbyte : h'.byte g = h.byte g := by
    cases g <;> simp only [Host.byte, hmemory, himage]
  rw [hbyte, hb.bytes g hg]
  exact congrFun hcells.symm (g.cell host)

/-- **A port access** is served alike, or neither side goes on. -/
theorem Behind.access (hb : Behind host e h) (hlow : 0xD000 ≤ port.toNat)
    (hhigh : port.toNat < 0xD008) (tm : CalendarTime) (isWrite : Bool) (hdata : data.length = 2)
    (hpage : FreePage (e.port.pages.erase e.port.diskData) page) :
    (h.performIo isWrite port data = none ∧
      e.answer host (.run tm page (.io (.word isWrite port data hdata))) = none) ∨
    ∃ data' h' e', h.performIo isWrite port data = some (data', h') ∧
      e.answer host (.run tm page (.io (.word isWrite port data hdata))) = some (data', e') ∧
      Behind host e' h' := by
  have hdispatch : (IoExit.word isWrite port data hdata).dispatch tm e.port.pio =
      handleDiskRegisters e.port.pio isWrite port data 1 := dispatch_word hlow hhigh _
  have hanswer {data' : List Byte} {e' : Emulator}
      (hhandle : e.handlePort host tm page (.word isWrite port data hdata) = .ok (data', e'))
      (hexit : e'.requestExit = e.requestExit) :
      e.answer host (.run tm page (.io (.word isWrite port data hdata))) = some (data', e') := by
    simp [Emulator.answer, Emulator.loopStep, Emulator.handleRun, hhandle, hexit, hb.running,
      Except.toOption]
  rw [handleDiskRegisters, ← hb.registers] at hdispatch
  cases hregisters : handlerDiskRegisters isWrite port data 1 h.registers with
  | error fault =>
      left
      have hperform : h.performIo isWrite port data = none := by
        rw [Host.performIo, if_pos ⟨hlow, hhigh⟩, hregisters]
      refine ⟨hperform, ?_⟩
      rw [hregisters] at hdispatch
      cases fault <;>
        simp [Emulator.answer, Emulator.loopStep, Emulator.handleRun, Emulator.handlePort, hdispatch,
          Except.toOption]
  | ok result =>
      obtain ⟨registers, data'⟩ := result
      rw [hregisters] at hdispatch
      have hperform : h.performIo isWrite port data =
          ({ h with registers := registers }.updateMapping).map (data', ·) := by
        rw [Host.performIo, if_pos ⟨hlow, hhigh⟩, hregisters]
      cases hrequested : registers.updateDiskMapping with
      | false =>
          right
          obtain ⟨port', hport, -, hpio, -, hdiskData⟩ :=
            Emulator.handlePort_idle hb.sound page hdispatch hrequested
          refine ⟨data', { h with registers := registers }, { e with port := port' }, ?_,
            hanswer hport rfl, ?_⟩
          · simp only [hperform, Host.updateMapping, hrequested]
            rfl
          · refine hb.of_answer (hanswer hport rfl) (by rw [hpio]) ?_ rfl rfl
            exact fun hmapped => hb.offset (hdiskData ▸ hmapped)
      | true =>
          have hcases := Emulator.handlePort_requested hb.sound page hdispatch hrequested
          -- `mmap` fails for an offset that is not a multiple of the page size, and so does the bus
          by_cases hlba : registers.selectedDiskLBA.toNat % 8 = 0
          · right
            rw [if_pos ⟨hlba, hpage⟩] at hcases
            obtain ⟨port', hport, -, hpio, -⟩ := hcases
            have hpageOffset : registers.selectedDiskLBA.toNat * 512 % 4096 = 0 := by omega
            refine ⟨data', { h with
              registers := { registers with updateDiskMapping := false }
              diskData := registers.selectedDiskLBA.toNat * 512 }, _, ?_, hanswer hport rfl, ?_⟩
            · simp only [hperform, Host.updateMapping, hrequested, if_true, if_pos hpageOffset]
              rfl
            · exact hb.of_answer (hanswer hport rfl) (by rw [hpio]) (fun _ => rfl) rfl rfl
          · left
            rw [if_neg fun hlegal => hlba hlegal.1] at hcases
            have hpageOffset : ¬ registers.selectedDiskLBA.toNat * 512 % 4096 = 0 := by omega
            constructor
            · simp only [hperform, Host.updateMapping, hrequested, if_true, if_neg hpageOffset]
              rfl
            · simp [Emulator.answer, Emulator.loopStep, Emulator.handleRun, hcases,
                Except.toOption]

end ports

/-! ## Every sequence of accesses -/

section runs

variable {host : HostPointers} {kernel : Finset Nat → Nat} {tm : CalendarTime} {e e' : Emulator}
  {h : Host} {op : BusOp}

/-- What a read leaves in a buffer of two bytes. -/
theorem length_of_performIo {port : Word} {data' : List Byte} {h' : Host}
    (hperform : h.performIo false port [0#8, 0#8] = some (data', h')) : ∃ l u, data' = [l, u] := by
  unfold Host.performIo at hperform
  split at hperform
  · cases hregisters : handlerDiskRegisters false port [0#8, 0#8] 1 h.registers with
    | error fault => simp [hregisters] at hperform
    | ok result =>
        obtain ⟨registers, data⟩ := result
        rw [hregisters] at hperform
        obtain ⟨h'', -, heq⟩ := Option.map_eq_some_iff.mp hperform
        obtain ⟨rfl, -⟩ := Prod.mk.inj heq
        simp only [handlerDiskRegisters, ne_eq, not_true_eq_false, if_false, Bool.false_eq_true]
          at hregisters
        split at hregisters
        · obtain ⟨-, rfl⟩ := Prod.mk.inj (Except.ok.inj hregisters)
          exact ⟨_, _, rfl⟩
        · cases hregisters
  · cases hperform

/-- What a write leaves in it. -/
theorem data_of_performIo {port : Word} {data data' : List Byte} {h' : Host}
    (hperform : h.performIo true port data = some (data', h')) : data' = data := by
  unfold Host.performIo at hperform
  split at hperform
  · cases hregisters : handlerDiskRegisters true port data 1 h.registers with
    | error fault => simp [hregisters] at hperform
    | ok result =>
        obtain ⟨registers, data''⟩ := result
        rw [hregisters] at hperform
        obtain ⟨h'', -, heq⟩ := Option.map_eq_some_iff.mp hperform
        obtain ⟨rfl, -⟩ := Prod.mk.inj heq
        simp only [handlerDiskRegisters, ne_eq, not_true_eq_false, if_false, if_true] at hregisters
        split at hregisters
        · split at hregisters
          · exact (Prod.mk.inj (Except.ok.inj hregisters)).2.symm
          · cases hregisters
        · exact (Prod.mk.inj (Except.ok.inj hregisters)).2.symm
  · cases hperform

/-- **One access** is answered alike, or neither side goes on. -/
theorem sameAnswer_busStep (hlayout : HostLayout host)
    (hkernel : ∀ pages, FreePage pages (kernel pages)) (hb : Behind host e h)
    (hreaches : e.Reaches op) :
    SameAnswer (Emulator.busStep host kernel tm) Host.busStep (Behind host) e h op := by
  cases op with
  | load a =>
      right
      refine ⟨[Bus.read h a], e, h, ?_, rfl, hb⟩
      rw [Emulator.busStep, hb.load hlayout hreaches]
      rfl
  | store a value =>
      exact Or.inr ⟨[], e.store host a value, Bus.write h a value, rfl, rfl,
        hb.store hlayout hreaches value⟩
  | inWord port =>
      -- `in` takes two bytes: a device that throws leaves neither side with a next state
      have hdata : [0#8, 0#8].length = 2 := rfl
      rcases hb.access hreaches.1 hreaches.2 tm false hdata (hkernel _) with
        ⟨hnone, hanswer⟩ | ⟨data', h', e', hsome, hanswer, hnext⟩
      · left
        refine ⟨hanswer, ?_⟩
        simp only [Host.busStep, Bus.inWord, hnone]
        rfl
      · right
        obtain ⟨l, u, rfl⟩ := length_of_performIo hsome
        refine ⟨[l, u], e', h', hanswer, ?_, hnext⟩
        simp only [Host.busStep, Bus.inWord, hsome, Option.map_some, lo_word, hi_word]
  | outWord port w =>
      have hdata : [lo w, hi w].length = 2 := rfl
      rcases hb.access hreaches.1 hreaches.2 tm true hdata (hkernel _) with
        ⟨hnone, hanswer⟩ | ⟨data', h', e', hsome, hanswer, hnext⟩
      · left
        refine ⟨hanswer, ?_⟩
        simp only [Host.busStep, Bus.outWord, hnone]
        rfl
      · right
        obtain rfl := data_of_performIo hsome
        refine ⟨[lo w, hi w], e', h', hanswer, ?_, hnext⟩
        simp only [Host.busStep, Bus.outWord, hsome]
        rfl

/-- The bus of the option ROM, as the emulator has it. -/
def Emulator.bus (host : HostPointers) (e : Emulator) : Host where
  memory a :=
    if a < lowMemorySize then e.memory (host.ram + a) else e.memory (host.optionRom + (a - 0xC8000))
  image := e.image
  registers := e.port.pio.disk
  diskData := e.diskOffset

/-- An emulator is behind the bus that shows its bytes. -/
theorem behind_bus (h : e.Sound host) (hrunning : e.requestExit = false) :
    Behind host e (e.bus host) where
  sound := h
  running := hrunning
  registers := rfl
  offset _ := rfl
  bytes g hg := by
    cases g with
    | ram i => exact if_pos i.isLt
    | optionRom i =>
        have hout : ¬ 0xC8000 + i.val < lowMemorySize := by
          unfold lowMemorySize
          omega
        refine (if_neg hout).trans ?_
        rw [Nat.add_sub_cancel_left]
        rfl
    | flash i => cases hg
    | image y => rfl

variable {ram : Fin 114 → Byte} {pages : Finset Nat} {flash memory image : Nat → Byte}

/-- A kernel that maps the page above all others. -/
def pageAbove (pages : Finset Nat) : Nat := (pages.sup id / pageSize + 1) * pageSize

/-- That page is free. -/
theorem freePage_pageAbove (pages : Finset Nat) : FreePage pages (pageAbove pages) := by
  have habove : pages.sup id < pageAbove pages := by
    unfold pageAbove pageSize
    omega
  refine ⟨by omega, Nat.mul_mod_left _ _, fun hmem => ?_⟩
  have hle : pageAbove pages ≤ pages.sup id := Finset.le_sup (f := id) hmem
  omega

end runs

end Ts3100
