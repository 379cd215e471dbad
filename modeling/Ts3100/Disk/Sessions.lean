import Ts3100.Disk.Boot
import Ts3100.Library.BlockStore

/-! # The virtual disk as a store of sectors

What programs see of the disk over a sequence of INT 13h calls. `BlockStore.step 512`, which reads and
writes sectors of an array of bytes, is the specification.

* `SectorCall` — a call of function 02h or 03h that the handler serves, whatever it finds selected.
* `DiskSession` — calls that have returned, with anything in between that leaves the disk and the option
  ROM's page alone.
* `session_blockStore` — a session is a run of the store on the disk image, with the same answers, and
  leaves the ROM's page as it was.
* `session_read_back` — what a program has written is what it reads. -/

namespace Ts3100

open LabelledRuns RealMode

/-! ## Calls -/

/-- A machine on a disk: the registers and the memory are the machine's, the image, the disk's registers
and the mapped page those of `h`. -/
def onDisk (h : Host) (m : Machine Host) : Machine Host :=
  { m with bus := { h with memory := m.bus.memory } }

/-- The option ROM's own page: its code and its variables. -/
def InRomPage (a : Nat) : Prop := 0xC8000 ≤ a ∧ a < 0xC9000

/-- A call of function 02h or 03h for the virtual disk, with a valid CHS address and count, a buffer
that stays in its segment, and a stack frame apart from it, both in low RAM. The request neither asks
for 128 sectors from the middle of a window nor crosses sector 65536. -/
structure SectorCall (t : Transfer) (m : Machine Host) : Prop where
  cs : m.cs = 0xC800#16
  function : hi m.ax = t.function
  drive : lo m.dx = m.bus.memory 0xC84CD
  count : 1 ≤ sectorCount m ∧ sectorCount m ≤ 128
  cylinder : (hi m.cx).toNat ≤ 7
  head : (hi m.dx).toNat ≤ 254
  sector : 1 ≤ (lo m.cx).toNat ∧ (lo m.cx).toNat ≤ 63
  bufferEnd : m.bx.toNat + 512 * sectorCount m ≤ 65536
  bufferInRam : ∀ a, InBuffer m a → a < lowMemorySize
  frameInRam : ∀ a, InFrame m a → a < lowMemorySize
  frameApart : ∀ a, InFrame m a → ¬ InBuffer m a
  noOverrun : NoOverrun m
  noLostCarry : NoLostCarry m

/-- A call that has returned: the machine that entered the handler, and the one that left it. -/
structure Int13hCall where
  transfer : Transfer
  entered : Machine Host
  left : Machine Host

namespace Int13hCall

variable (c : Int13hCall)

/-- What the call asks of the disk. -/
def request : BlockStore.Request Byte :=
  match c.transfer with
  | .handleAH02 => .read (firstSector c.entered) (sectorCount c.entered)
  | .handleAH03 => .write (firstSector c.entered) (sectorCount c.entered) fun j =>
      c.entered.bus.memory (buffer c.entered + j)

/-- What the caller finds in the buffer: the sectors that were read. -/
def answer : List Byte :=
  match c.transfer with
  | .handleAH02 => (List.range (512 * sectorCount c.entered)).map fun j =>
      c.left.bus.memory (buffer c.entered + j)
  | .handleAH03 => []

end Int13hCall

/-- Calls that returned one after the other, the first on the disk of `h₀`, the last with the bus `h`.
Between calls registers and memory are the program's, but for the option ROM's page: the handler runs
from it. -/
inductive DiskSession (h₀ : Host) : List Int13hCall → Host → Prop
  | start : DiskSession h₀ [] h₀
  | call {calls : List Int13hCall} {h : Host} {t : Transfer} {m m' : Machine Host} {fuel : Nat}
      {ip : Word} (hsession : DiskSession h₀ calls h) (hcall : SectorCall t m)
      (hpage : ∀ a, InRomPage a → m.bus.memory a = h.memory a)
      (hrun : optionRom.runFor fuel .int13hHandler (onDisk h m) = some (.returned ip m')) :
      DiskSession h₀ (calls ++ [⟨t, m, m'⟩]) m'.bus

/-! ## One call -/

section call

variable {t : Transfer} {m m' : Machine Host} {h h₀ : Host} {calls : List Int13hCall}

/-- On a coherent disk the call is a transfer request. -/
theorem SectorCall.request (hcall : SectorCall t m) (hc : Coherent h) :
    TransferRequest t (onDisk h m) where
  cs := hcall.cs
  function := hcall.function
  drive := hcall.drive
  count := hcall.count
  cylinder := hcall.cylinder
  head := hcall.head
  sector := hcall.sector
  selects := by
    obtain ⟨high, low, hselects, -⟩ := coherent_iff.mp hc
    exact ⟨high, low, hselects.registers, hselects.diskData⟩
  bufferEnd := hcall.bufferEnd
  bufferInRam := hcall.bufferInRam
  frameInRam := hcall.frameInRam
  frameApart := hcall.frameApart

/-- A function of the bytes from a base on, as a list. -/
theorem map_range_congr {n : Nat} {f g : Nat → Byte} (h : ∀ j < n, f j = g j) :
    (List.range n).map f = (List.range n).map g :=
  List.map_congr_left fun j hj => h j (List.mem_range.mp hj)

/-- **A call is a step of the store.** -/
theorem SectorCall.step (hcall : SectorCall t m) (hc : Coherent h) {fuel : Nat} {ip : Word}
    (hrun : optionRom.runFor fuel .int13hHandler (onDisk h m) = some (.returned ip m')) :
    BlockStore.step 512 h.image (Int13hCall.request ⟨t, m, m'⟩) =
      some (Int13hCall.answer ⟨t, m, m'⟩, m'.bus.image) := by
  -- what is ensured of the machine that returns holds of the one that did
  have hthis : optionRom.Ensures .int13hHandler (onDisk h m) fun _ m'' => m'' = m' :=
    ⟨fuel, ip, m', hrun, rfl⟩
  cases t with
  | handleAH02 =>
      have hreads := readsSectors (hcall.request hc) hcall.noOverrun hcall.noLostCarry
      obtain ⟨-, -, m'', -, ⟨hbuffer, -, himage⟩, rfl⟩ := hreads.and hthis
      have hanswer : (List.range (512 * sectorCount m)).map
          (fun j => h.image (firstSector m * 512 + j)) =
          (List.range (512 * sectorCount m)).map fun j => m''.bus.memory (buffer m + j) :=
        map_range_congr fun j hj => (hbuffer j hj).symm
      exact congrArg some (Prod.ext hanswer himage.symm)
  | handleAH03 =>
      have hwrites := writesSectors (hcall.request hc) hcall.noOverrun hcall.noLostCarry
      obtain ⟨-, -, m'', -, ⟨hdone, hother, -⟩, rfl⟩ := hwrites.and hthis
      have hdone : ∀ j < 512 * sectorCount m,
          m''.bus.image (firstSector m * 512 + j) = m.bus.memory (buffer m + j) := hdone
      have hother : ∀ x, ¬ (firstSector m * 512 ≤ x ∧ x < (firstSector m + sectorCount m) * 512) →
          m''.bus.image x = h.image x := hother
      have himage : (Int13hCall.request ⟨.handleAH03, m, m''⟩).apply 512 h.image = m''.bus.image := by
        -- a byte of the image is one of the sectors that are written, or is kept
        funext x
        by_cases hx : firstSector m * 512 ≤ x ∧ x < firstSector m * 512 + 512 * sectorCount m
        · obtain ⟨j, rfl⟩ := Nat.exists_eq_add_of_le hx.1
          rw [hdone j (Nat.lt_of_add_lt_add_left hx.2)]
          exact BlockStore.apply_write_add (Nat.lt_of_add_lt_add_left hx.2)
        · rw [hother x (by rwa [Nat.add_mul, Nat.mul_comm (sectorCount m)])]
          exact if_neg hx
      exact congrArg some (Prod.ext rfl himage)

/-- **A call leaves the ROM's page**: it writes to low RAM and to the disk only. -/
theorem SectorCall.romPage (hcall : SectorCall t m) (hc : Coherent h) {fuel : Nat} {ip : Word}
    (hrun : optionRom.runFor fuel .int13hHandler (onDisk h m) = some (.returned ip m')) {a : Nat}
    (ha : InRomPage a) : m'.bus.memory a = m.bus.memory a := by
  have hthis : optionRom.Ensures .int13hHandler (onDisk h m) fun _ m'' => m'' = m' :=
    ⟨fuel, ip, m', hrun, rfl⟩
  have hram : ¬ a < lowMemorySize := by
    unfold InRomPage at ha
    unfold lowMemorySize
    omega
  cases t with
  | handleAH02 =>
      have hreads := readsSectors (hcall.request hc) hcall.noOverrun hcall.noLostCarry
      obtain ⟨-, -, m'', -, ⟨-, hmemory, -⟩, rfl⟩ := hreads.and hthis
      exact hmemory a (fun hin => hram (hcall.frameInRam a hin))
        fun hin => hram (hcall.bufferInRam a hin)
  | handleAH03 =>
      have hwrites := writesSectors (hcall.request hc) hcall.noOverrun hcall.noLostCarry
      obtain ⟨-, -, m'', -, ⟨-, -, hpage⟩, rfl⟩ := hwrites.and hthis
      exact hpage a ha.1 ha.2

/-- The handler leaves a coherent disk to the next call. -/
theorem Coherent.of_run (hc : Coherent h) {fuel : Nat} {ip : Word}
    (hrun : optionRom.runFor fuel .int13hHandler (onDisk h m) = some (.returned ip m')) :
    Coherent m'.bus :=
  invariant_atLabel.returned (atLabel_int13hHandler (hc.of_eq rfl rfl)) hrun

end call

/-! ## Sessions -/

section session

variable {h₀ h : Host} {calls : List Int13hCall}

/-- What holds when calls on the disk of `h₀` have returned with the bus `h`. -/
structure AfterCalls (h₀ : Host) (calls : List Int13hCall) (h : Host) : Prop where
  coherent : Coherent h
  trace : trace (BlockStore.step 512) h₀.image (calls.map Int13hCall.request) =
    some (calls.map Int13hCall.answer, h.image)
  romPage : ∀ a, InRomPage a → h.memory a = h₀.memory a

/-- A session is a run of the store, ends on a coherent disk, and leaves the ROM's page. -/
theorem DiskSession.afterCalls (hc : Coherent h₀) (hsession : DiskSession h₀ calls h) :
    AfterCalls h₀ calls h := by
  induction hsession with
  | start => exact ⟨hc, rfl, fun _ _ => rfl⟩
  | call hsession hcall hpage hrun ih =>
      refine ⟨ih.coherent.of_run hrun, ?_, fun a ha => ?_⟩
      · rw [List.map_append, List.map_append]
        exact trace_concat ih.trace (hcall.step ih.coherent hrun)
      · rw [hcall.romPage ih.coherent hrun ha, hpage a ha, ih.romPage a ha]

/-- A session goes on with every further call. -/
theorem DiskSession.exists_call (hc : Coherent h₀) (hsession : DiskSession h₀ calls h) {t : Transfer}
    {m : Machine Host} (hcall : SectorCall t m)
    (hpage : ∀ a, InRomPage a → m.bus.memory a = h₀.memory a) :
    ∃ m', DiskSession h₀ (calls ++ [⟨t, m, m'⟩]) m'.bus := by
  have hafter := hsession.afterCalls hc
  obtain ⟨fuel, ip, m', hrun, -⟩ :=
    ensures_finished (hcall.request hafter.coherent) hcall.noOverrun
  exact ⟨m', .call hsession hcall (fun a ha => (hpage a ha).trans (hafter.romPage a ha).symm) hrun⟩

/-- What `rom_init` leaves is a coherent disk. -/
theorem Initialized.coherent {touched : Nat → Prop} {m : Machine Host}
    (hinit : Initialized touched m h₀) : Coherent h₀ :=
  coherent_iff.mpr ⟨0#16, 0#16, hinit.selects, rfl⟩

variable {touched : Nat → Prop} {m₀ : Machine Host}

/-- **The disk is a store of sectors.** After `rom_init`, whatever programs call INT 13h and leave the
ROM's page, every call that is served answers as an array of sectors that started as the disk image, and
the image is that array; the ROM's page is as `rom_init` left it; and every further call returns. -/
theorem session_blockStore (hinit : Initialized touched m₀ h₀) (hsession : DiskSession h₀ calls h) :
    trace (BlockStore.step 512) m₀.bus.image (calls.map Int13hCall.request) =
        some (calls.map Int13hCall.answer, h.image) ∧
      (∀ a, InRomPage a → h.memory a = h₀.memory a) ∧
      ∀ t m, SectorCall t m → (∀ a, InRomPage a → m.bus.memory a = h₀.memory a) →
        ∃ m', DiskSession h₀ (calls ++ [⟨t, m, m'⟩]) m'.bus := by
  have hafter := hsession.afterCalls hinit.coherent
  refine ⟨?_, hafter.romPage, fun t m hcall hpage =>
    hsession.exists_call hinit.coherent hcall hpage⟩
  rw [← hinit.image]
  exact hafter.trace

end session

/-! ## Sample calls -/

/-- What `rom_init` leaves on the sample machine. -/
def bootHost : Host := selectWords (romInitBus bootMachine) 0#16 0#16

/-- It is what `rom_init` leaves. -/
theorem initialized_bootHost : Initialized (fun _ => False) bootMachine bootHost :=
  romInitCall_bootMachine.initialized (.refl _ _)

/-- A program's request for `n` sectors from `c`/`h`/`s` on, with `data` in the 64 KiB from `1000:0000`
on, where its buffer is. -/
def programRequest (t : Transfer) (n c h s : Byte) (data : Nat → Byte) : Machine Host :=
  { sampleRequest t n c h s fun _ => 0#8 with
    dx := word h 0x81#8
    bus := { bootHost with
      memory := fun a =>
        if 0x10000 ≤ a ∧ a < 0x20000 then data (a - 0x10000) else bootHost.memory a } }

section sample

variable {t : Transfer} {n c h s : Byte} {data : Nat → Byte}

/-- It leaves the ROM's page. -/
theorem romPage_programRequest {a : Nat} (ha : InRomPage a) :
    (programRequest t n c h s data).bus.memory a = bootHost.memory a := by
  refine if_neg ?_
  unfold InRomPage at ha
  omega

/-- It is a call. -/
theorem sectorCall_programRequest (hn : 1 ≤ n.toNat ∧ n.toNat ≤ 128) (hc : c.toNat ≤ 7)
    (hh : h.toNat ≤ 254) (hs : 1 ≤ s.toNat ∧ s.toNat ≤ 63)
    (hover : NoOverrun (programRequest t n c h s data))
    (hcarry : NoLostCarry (programRequest t n c h s data)) :
    SectorCall t (programRequest t n c h s data) := by
  have req : TransferRequest t (sampleRequest t n c h s fun _ => 0#8) :=
    transferRequest_sample hn hc hh hs
  have hdrive : lo (word h 0x81#8) = (programRequest t n c h s data).bus.memory 0xC84CD := by
    have hread := initialized_bootHost.drive
    rw [Host.read_eq, if_neg (by unfold InDiskWindow; omega)] at hread
    rw [romPage_programRequest (by unfold InRomPage; omega), hread, lo_word]
    rfl
  have hhead : (hi (word h 0x81#8)).toNat ≤ 254 := by rwa [hi_word]
  exact ⟨rfl, req.function, hdrive, req.count, req.cylinder, hhead, req.sector, req.bufferEnd,
    req.bufferInRam, req.frameInRam, req.frameApart, hover, hcarry⟩

end sample

/-- A text over several sectors: no two of its sectors are the same. -/
def sampleText (j : Nat) : Byte := BitVec.ofNat 8 (j + j / 512)

/-- Sectors 3 and 4 are written, sector 4 is read, and then whatever is called. -/
theorem session_blockStore_write :
    let write := programRequest .handleAH03 2#8 0#8 0#8 4#8 sampleText
    let read := programRequest .handleAH02 1#8 0#8 0#8 5#8 fun _ => 0#8
    ∃ m₁ m₂ : Machine Host,
      trace (BlockStore.step 512) bootMachine.bus.image
        ([⟨.handleAH03, write, m₁⟩, ⟨.handleAH02, read, m₂⟩].map Int13hCall.request) =
          some ([⟨.handleAH03, write, m₁⟩, ⟨.handleAH02, read, m₂⟩].map Int13hCall.answer,
            m₂.bus.image) ∧
      (∀ a, InRomPage a → m₂.bus.memory a = bootHost.memory a) ∧
      ∀ t m, SectorCall t m → (∀ a, InRomPage a → m.bus.memory a = bootHost.memory a) →
        ∃ m', DiskSession bootHost ([⟨.handleAH03, write, m₁⟩, ⟨.handleAH02, read, m₂⟩] ++
          [⟨t, m, m'⟩]) m'.bus := by
  intro write read
  have hcoherent := initialized_bootHost.coherent
  have hwrite : SectorCall .handleAH03 write := sectorCall_programRequest (by decide) (by decide)
    (by decide) (by decide) (by decide) (by decide)
  have hread : SectorCall .handleAH02 read := sectorCall_programRequest (by decide) (by decide)
    (by decide) (by decide) (by decide) (by decide)
  obtain ⟨m₁, hsession⟩ := DiskSession.start.exists_call hcoherent hwrite
    fun _ => romPage_programRequest
  obtain ⟨m₂, hsession⟩ := hsession.exists_call hcoherent hread fun _ => romPage_programRequest
  exact ⟨m₁, m₂, session_blockStore initialized_bootHost hsession⟩

section session

variable {h₀ h : Host} {touched : Nat → Prop} {m₀ : Machine Host}

/-- **What is written is read back.** Sectors that a program has written in one call, and that no call
has written since, are found in the buffer of a program that reads them, as long as programs leave the
ROM's page. -/
theorem session_read_back {pre mid : List Int13hCall} {write read : Int13hCall}
    (hinit : Initialized touched m₀ h₀) (hsession : DiskSession h₀ (pre ++ [write] ++ mid ++ [read]) h)
    (hwrite : write.transfer = .handleAH03) (hread : read.transfer = .handleAH02)
    (hlow : firstSector write.entered ≤ firstSector read.entered)
    (hhigh : firstSector read.entered + sectorCount read.entered ≤
      firstSector write.entered + sectorCount write.entered)
    (hmid : ∀ c ∈ mid, ∀ b, firstSector read.entered ≤ b →
      b < firstSector read.entered + sectorCount read.entered → ¬ c.request.Writes b) :
    ∀ j < 512 * sectorCount read.entered, read.left.bus.memory (buffer read.entered + j) =
      write.entered.bus.memory (buffer write.entered +
        ((firstSector read.entered - firstSector write.entered) * 512 + j)) := by
  intro j hj
  -- the calls are a trace of the block store, which reads back what was written last
  have htrace := (hsession.afterCalls hinit.coherent).trace
  have hwriteRequest : write.request = .write (firstSector write.entered) (sectorCount write.entered)
      fun j => write.entered.bus.memory (buffer write.entered + j) := by
    rw [Int13hCall.request, hwrite]
  have hreadRequest : read.request =
      .read (firstSector read.entered) (sectorCount read.entered) := by
    rw [Int13hCall.request, hread]
  have hreadAnswer : read.answer = (List.range (512 * sectorCount read.entered)).map fun j =>
      read.left.bus.memory (buffer read.entered + j) := by
    rw [Int13hCall.answer, hread]
  rw [List.map_append, List.map_append, List.map_append, List.map_singleton, List.map_singleton,
    hwriteRequest, hreadRequest] at htrace
  have hmid' : ∀ r ∈ mid.map Int13hCall.request, ∀ b, firstSector read.entered ≤ b →
      b < firstSector read.entered + sectorCount read.entered → ¬ r.Writes b := by
    intro r hr
    obtain ⟨c, hc, rfl⟩ := List.mem_map.mp hr
    exact hmid c hc
  have hlast := BlockStore.read_back (by decide) hlow hhigh hmid' htrace
  rw [List.map_append, List.map_singleton, List.getLast?_concat, hreadAnswer] at hlast
  exact List.map_inj_left.mp (Option.some.inj hlast) j (List.mem_range.mpr hj)

/-- Sectors 3 and 4 are written, then sector 8, and sector 4 is read back into a buffer of zeros. -/
theorem session_read_back_first :
    let write := programRequest .handleAH03 2#8 0#8 0#8 4#8 sampleText
    let other := programRequest .handleAH03 1#8 0#8 0#8 9#8 fun _ => 0xEE#8
    let read := programRequest .handleAH02 1#8 0#8 0#8 5#8 fun _ => 0#8
    ∃ m₁ m₂ m₃ : Machine Host,
      DiskSession bootHost
        ([⟨.handleAH03, write, m₁⟩] ++ [⟨.handleAH03, other, m₂⟩] ++ [⟨.handleAH02, read, m₃⟩])
        m₃.bus ∧
      ∀ j < 512, m₃.bus.memory (0x10000 + j) = sampleText (512 + j) := by
  intro write other read
  have hcoherent := initialized_bootHost.coherent
  have hwrite : SectorCall .handleAH03 write := sectorCall_programRequest (by decide) (by decide)
    (by decide) (by decide) (by decide) (by decide)
  have hother : SectorCall .handleAH03 other := sectorCall_programRequest (by decide) (by decide)
    (by decide) (by decide) (by decide) (by decide)
  have hread : SectorCall .handleAH02 read := sectorCall_programRequest (by decide) (by decide)
    (by decide) (by decide) (by decide) (by decide)
  obtain ⟨m₁, hsession⟩ := DiskSession.start.exists_call hcoherent hwrite
    fun _ => romPage_programRequest
  obtain ⟨m₂, hsession⟩ := hsession.exists_call hcoherent hother fun _ => romPage_programRequest
  obtain ⟨m₃, hsession⟩ := hsession.exists_call hcoherent hread fun _ => romPage_programRequest
  refine ⟨m₁, m₂, m₃, hsession, fun j hj => ?_⟩
  -- sector 8 is not sector 4
  have hmid : ∀ c ∈ [Int13hCall.mk .handleAH03 other m₂], ∀ b, firstSector read ≤ b →
      b < firstSector read + sectorCount read → ¬ c.request.Writes b := by
    intro c hc b hlow hhigh hwrites
    obtain rfl := List.mem_singleton.mp hc
    have hfour : firstSector read = 4 ∧ sectorCount read = 1 := by decide
    have height : 8 ≤ b := (show firstSector other = 8 by decide) ▸ hwrites.1
    omega
  have hcalls : DiskSession bootHost ([] ++ [⟨.handleAH03, write, m₁⟩] ++ [⟨.handleAH03, other, m₂⟩] ++
      [⟨.handleAH02, read, m₃⟩]) m₃.bus := hsession
  have hback := session_read_back initialized_bootHost hcalls rfl rfl
    (show firstSector write ≤ firstSector read by decide)
    (show firstSector read + sectorCount read ≤ firstSector write + sectorCount write by decide)
    hmid j ((show 512 = 512 * sectorCount read by decide) ▸ hj)
  have hbuffers : buffer read = 0x10000 ∧ buffer write = 0x10000 := by decide
  have hsectors : firstSector read = 4 ∧ firstSector write = 3 := by decide
  have haddress : buffer write + ((firstSector read - firstSector write) * 512 + j) =
      0x10000 + (512 + j) := by
    rw [hbuffers.2, hsectors.1, hsectors.2]
  rw [← hbuffers.1]
  refine hback.trans ((congrArg write.bus.memory haddress).trans ?_)
  have hdata : write.bus.memory (0x10000 + (512 + j)) = sampleText (0x10000 + (512 + j) - 0x10000) :=
    if_pos ⟨Nat.le_add_right _ _, by omega⟩
  rw [hdata, Nat.add_sub_cancel_left]

end session

end Ts3100
