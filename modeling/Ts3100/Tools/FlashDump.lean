import Ts3100.Library.RealMode.Dos
import Ts3100.Library.RealMode.Output386

/-! # The flash dump

`flashdump.asm` reads the flash chip through its window at 52 MiB from real mode, and writes it to a
file. It enters protected mode for segments of 4 GiB, and comes back to real mode with them.

* `flashdump` — the program, label by label.
* `Loaded` — the program as DOS starts it.
* `ensures_start` — through protected mode and back, the segments are as they were, but of 4 GiB.
* `step_unreal` — the file is created, and the program is before the first block. -/

namespace Ts3100

namespace FlashDump

open Unreal
open I386 (Dword BytesAt byteOf read16 read32 setLow setByte0 setByte1)
open RealMode (Word fill)

/-! ## Data and code -/

/-- The labels of the code. -/
inductive Label
  | start
  | goProtected
  | goUnreal
  | unreal
  | nextBlock
  deriving DecidableEq, Repr

/-- The offset of `gdtinfo`. -/
def gdtinfo : Word := 0x194#16

/-- The offset of `gdt`. -/
def gdt : Word := 0x19A#16

/-- The offset of `filename`. -/
def filename : Word := 0x1AA#16

/-- `C:\FLASH.BIN`. -/
def filenameText : List (BitVec 8) :=
  "C:\\FLASH.BIN".toList.map fun c => BitVec.ofNat 8 c.toNat

/-- `flatdesc`. -/
def flatdesc : List (BitVec 8) := [0xFF#8, 0xFF#8, 0x00#8, 0x00#8, 0x00#8, 0x92#8, 0xCF#8, 0x00#8]

/-- What is loaded behind the code: `gdtinfo`, `gdt` and `filename`. -/
def data : List (BitVec 8) :=
  [ -- gdtinfo: dw gdt_end - gdt - 1; dd gdt
    0x0F#8, 0x00#8, 0x9A#8, 0x01#8, 0x00#8, 0x00#8,
    -- gdt
    0x00#8, 0x00#8, 0x00#8, 0x00#8, 0x00#8, 0x00#8, 0x00#8, 0x00#8 ] ++ flatdesc ++
  filenameText ++ [0x00#8]

/-- The code before `go_protected`. -/
def startCode : List (Instr Label) :=
  [ .cli,
    -- save the real mode segment registers
    .pushSeg .ds,
    .pushSeg .es,
    -- patch the gdtinfo field for the gdt address
    .alu .xor .eax (.reg .eax),
    .mov16 .eax (.seg .ds),
    .shl .eax 4,
    .addMem (gdtinfo + 2#16) .eax,
    .mov .eax (.mem (gdtinfo + 2#16)),
    -- load the global descriptor table
    .lgdt gdtinfo ]

/-- `go_protected`. -/
def goProtectedCode : List (Instr Label) :=
  [ .movFromCr0 .eax,
    .or8 .al 1#8,
    .movToCr0 .eax,
    .mov16 .ebx (.imm 0x8#16),
    .movSeg .ds .ebx,
    .movSeg .es .ebx ]

/-- `go_unreal`. -/
def goUnrealCode : List (Instr Label) :=
  [ .movFromCr0 .eax,
    .alu8 .and .al 0xFE#8,
    .movToCr0 .eax,
    -- restore real mode segment registers
    .popSeg .es,
    .popSeg .ds,
    .sti ]

/-- The creation of the dump file, in `unreal`. -/
def createCode : List (Instr Label) :=
  [ -- allocate stack space for 1 KiB buffer
    .push .ebp,
    .mov16 .ebp (.reg .esp),
    .alu16 .sub .esp (.imm 0x400#16),
    -- create dump file
    .mov16 .edx (.imm filename),
    .mov16 .ecx (.imm 0#16),
    .mov8 .ah 0x3C#8 ]

/-- The rest of `unreal`. -/
def seekCode : List (Instr Label) :=
  [ -- copy 512 KiB flash image at 52 MiB mark
    .cld,
    .mov .esi (.imm 0x3400000#32) ]

/-- The copy of a block to the buffer, in `next_block`. -/
def copyCode : List (Instr Label) :=
  [ -- setup block copy of 1 KiB (256 blocks of 4 bytes)
    .mov .ecx (.imm 0x100#32),
    .movzx16 .edi .ebp,
    .alu .sub .edi (.imm 0x400#32),
    -- movsd moves ds:esi -> es:edi
    .pushSeg .ds,
    .alu16 .xor .ebx (.reg .ebx),
    .movSeg .ds .ebx,
    .mov16 .ebx (.seg .ss),
    .movSeg .es .ebx ]

/-- The setup of the write, in `next_block`. -/
def writeCode : List (Instr Label) :=
  [ -- setup call to file write
    .mov16 .ebx (.seg .ss),
    .movSeg .ds .ebx,
    .mov16 .ebx (.reg .eax),
    .mov16 .ecx (.imm 0x400#16),
    .mov16 .edx (.reg .ebp),
    .alu16 .sub .edx (.imm 0x400#16),
    .mov8 .ah 0x40#8 ]

/-- The end of `next_block` that repeats it. -/
def repeatCode : List (Instr Label) :=
  [ .mov16 .eax (.reg .ebx),
    .popSeg .ds,
    .alu .cmp .esi (.imm 0x3480000#32) ]

/-- What follows the last block, up to what should close the file. -/
def closeCode : List (Instr Label) :=
  [ -- close file, BX must contain handle
    .mov8 .ah 0x3C#8 ]

/-- The exit. -/
def restoreCode : List (Instr Label) :=
  [ -- restore bp
    .mov16 .esp (.reg .ebp),
    .pop .ebp,
    -- exit to dos
    .mov8 .ah 0x4C#8 ]

/-- What follows the last block. -/
def exitCode : List (Instr Label) := closeCode ++ .int 0x21#8 :: (restoreCode ++ [.int 0x21#8])

/-- The program. -/
def flashdump : Program Label where
  code
    | .start => startCode
    | .goProtected => goProtectedCode
    | .goUnreal => goUnrealCode
    | .unreal => createCode ++ .int 0x21#8 :: seekCode
    | .nextBlock =>
        copyCode ++ .repMovsd ::
          (writeCode ++ .int 0x21#8 :: (repeatCode ++ .jne .nextBlock :: exitCode))
  next
    | .start => some .goProtected
    | .goProtected => some .goUnreal
    | .goUnreal => some .unreal
    | .unreal => some .nextBlock
    | .nextBlock => none

/-! ## The program as it is loaded -/

/-- The flash's window. -/
def Window (a : Nat) : Prop := 0x3400000 ≤ a ∧ a < 0x3480000

/-- DOS has loaded the program at offset 100 of the segment `s`, that all segment registers select, and
runs it in real mode with the stack pointer `sp`. The segment is below 1 MiB, and the stack above the
program. -/
structure Loaded (m : Machine) (s sp : Word) : Prop where
  real : m.protectedMode = false
  ds : m.ds = ⟨s, s.toNat * 16, 0xFFFF⟩
  es : m.es = ⟨s, s.toNat * 16, 0xFFFF⟩
  ss : m.ss = ⟨s, s.toNat * 16, 0xFFFF⟩
  esp : m.esp.setWidth 16 = sp
  segment : s.toNat * 16 + 0x10000 ≤ 0x100000
  stack : 0x5BB ≤ sp.toNat
  data : BytesAt m.memory (s.toNat * 16 + gdtinfo.toNat) data

variable {s sp : Word} {m : Machine} {flash : Nat → BitVec 8} {dos : Dos Window}
  {log : List DosRequest}

/-! ## To protected mode and back -/

/-- The address of `gdt`. -/
def gdtAddress (s : Word) : Dword := BitVec.ofNat 32 (s.toNat * 16 + gdt.toNat)

/-- The memory when `ds` and `es` are saved. -/
def pushedMemory (m : Machine) (s sp : Word) : Nat → BitVec 8 :=
  fill (fill m.memory (s.toNat * 16 + sp.toNat - 2) 2 (byteOf s))
    (s.toNat * 16 + sp.toNat - 4) 2 (byteOf s)

/-- The memory when the descriptor table is loaded: `gdtinfo` is patched as well. -/
def startMemory (m : Machine) (s sp : Word) : Nat → BitVec 8 :=
  fill (pushedMemory m s sp) (s.toNat * 16 + (gdtinfo + 2#16).toNat) 4 (byteOf (gdtAddress s))

/-- A selector shifted is its segment's base. -/
theorem shl_selector (s : Word) : setLow 0#32 s <<< 4 = BitVec.ofNat 32 (s.toNat * 16) := by
  have hs := s.isLt
  apply BitVec.eq_of_toNat_eq
  rw [BitVec.toNat_shiftLeft, I386.toNat_setLow, Nat.shiftLeft_eq, BitVec.toNat_ofNat]
  simp

/-- `lgdt` loads the whole address. -/
theorem toNat_gdtAddress (s : Word) :
    (gdtAddress s).toNat % 2 ^ 24 = s.toNat * 16 + gdt.toNat := by
  have hs := s.isLt
  have hgdt : gdt.toNat = 0x19A := rfl
  rw [gdtAddress, BitVec.toNat_ofNat]
  omega

/-- A byte of the data. -/
theorem getD_data (h : Loaded m s sp) {i : Nat} (hi : i < 35) :
    m.memory (s.toNat * 16 + (0x194 + i)) = data.getD i 0#8 := by
  have hlen : i < data.length := hi
  rw [← Nat.add_assoc, List.getD_eq_getElem _ _ hlen]
  exact h.data i hlen

/-- The pushes leave the program alone. -/
theorem pushedMemory_of_lt (h : Loaded m s sp) {x : Nat} (hx : x < s.toNat * 16 + 0x1B7) :
    pushedMemory m s sp x = m.memory x := by
  have hstack := h.stack
  exact (RealMode.fill_of_notMem (by omega)).trans (RealMode.fill_of_notMem (by omega))

/-- The offset of `gdt`, in `gdtinfo`. -/
theorem read32_pushedMemory (h : Loaded m s sp) :
    read32 (pushedMemory m s sp) (s.toNat * 16 + 0x196) = 0x19A#32 := by
  rw [I386.read32_congr fun i hi => pushedMemory_of_lt h (by omega)]
  simp only [read32, Nat.add_assoc, Nat.reduceAdd]
  rw [getD_data h (i := 2) (by decide), getD_data h (i := 3) (by decide),
    getD_data h (i := 4) (by decide), getD_data h (i := 5) (by decide)]
  rfl

/-- The limit of the descriptor table, in `gdtinfo`. -/
theorem read16_startMemory (h : Loaded m s sp) :
    read16 (startMemory m s sp) (s.toNat * 16 + 0x194) = 0x0F#16 := by
  have hinfo : (gdtinfo + 2#16).toNat = 0x196 := rfl
  have hkept (i : Nat) (hi : i < 2) : startMemory m s sp (s.toNat * 16 + 0x194 + i) =
      m.memory (s.toNat * 16 + 0x194 + i) :=
    (RealMode.fill_of_notMem (by rw [hinfo]; omega)).trans (pushedMemory_of_lt h (by omega))
  rw [I386.read16_congr hkept]
  simp only [read16, Nat.add_assoc, Nat.reduceAdd]
  rw [getD_data h (i := 0) (by decide), getD_data h (i := 1) (by decide)]
  rfl

/-- The descriptor table is loaded. -/
theorem execAll_start (dos : Dos Window) (log : List DosRequest) (h : Loaded m s sp) :
    ∃ f, execAll dos.services startCode m log =
    some ({ m with
      eax := gdtAddress s
      esp := setLow m.esp (sp - 4#16)
      interrupt := false
      flags := f
      gdtBase := s.toNat * 16 + gdt.toNat
      gdtLimit := 15
      memory := startMemory m s sp }, log) := by
  have hoffset := read32_pushedMemory h
  have hlimit := read16_startMemory h
  have htable : (gdtAddress s).toNat % 16777216 = s.toNat * 16 + gdt.toNat := toNat_gdtAddress s
  obtain ⟨hreal, hds, hes, hss, hesp, hsegment, hstack, -⟩ := h
  have hcr0 : m.cr0[0] = false := by simpa [Machine.protectedMode] using hreal
  have hsub : (sp - 2#16).toNat = sp.toNat - 2 := by bv_omega
  have hsub4 : sp - 2#16 - 2#16 = sp - 4#16 := by bv_omega
  have htop : s.toNat * 16 + (sp.toNat - 2) - 2 = s.toNat * 16 + sp.toNat - 4 := by omega
  have hinfo : gdtinfo.toNat = 0x194 := rfl
  have hinfo2 : (gdtinfo + 2#16).toNat = 0x196 := rfl
  have haddress : 0x19A#32 + BitVec.ofNat 32 (s.toNat * 16) = gdtAddress s := by
    rw [BitVec.add_comm]
    exact (BitVec.ofNat_add _ _).symm
  -- the memory after the pushes, and after the addition
  have hpushed : fill (fill m.memory (s.toNat * 16 + sp.toNat - 2) 2 (byteOf s))
      (s.toNat * 16 + sp.toNat - 4) 2 (byteOf s) = pushedMemory m s sp := rfl
  have hmemory : fill (pushedMemory m s sp) (s.toNat * 16 + 0x196) 4 (byteOf (gdtAddress s)) =
      startMemory m s sp := rfl
  have hpatched : read32 (startMemory m s sp) (s.toNat * 16 + 0x196) = gdtAddress s :=
    I386.read32_fill _
  simp [startCode, Machine.protectedMode, hcr0, hds, hes, hss, Machine.push_eq, hesp, hsub, hsub4, htop,
    show 2 ≤ sp.toNat by omega, show 2 ≤ sp.toNat - 2 by omega, hinfo, hinfo2,
    show s.toNat * 16 ≤ 4294901760 by omega, show s.toNat * 16 ≤ 4294966886 by omega, Machine.shl,
    shl_selector, Machine.addMem, Machine.load, Machine.lgdt, Segment.address, Nat.add_assoc, hpushed,
    hoffset, haddress, hmemory, hpatched, hlimit, htable, -BitVec.toNat_sub, -BitVec.toNat_add]

/-- The flat segment, as `flatdesc` describes it. -/
def flat (selector : Word) : Segment := ⟨selector, 0, 0xFFFFFFFF⟩

/-- The lowest bit after the lowest byte is set. -/
theorem getElem_setByte0 (v : Dword) (b : BitVec 8) : (setByte0 v b)[0] = b[0] := by
  rw [setByte0, BitVec.getElem_append]
  simp

/-- The data segments are loaded with the flat segment. -/
theorem execAll_goProtected (dos : Dos Window) (log : List DosRequest) (hreal : m.cr0[0] = false)
    (hinterrupt : m.interrupt = false) (hlimit : m.gdtLimit = 15)
    (hdesc : BytesAt m.memory (m.gdtBase + 8) flatdesc) :
    ∃ f, execAll dos.services goProtectedCode m log = some ({ m with
      eax := setByte0 m.cr0 (byteOf m.cr0 0 ||| 1#8)
      ebx := setLow m.ebx 8#16
      cr0 := setByte0 m.cr0 (byteOf m.cr0 0 ||| 1#8)
      ds := flat 8#16
      es := flat 8#16
      flags := f
      memory := Function.update m.memory (m.gdtBase + 13) 0x93#8 }, log) := by
  have hbyte (i : Nat) (hi : i < 8) : m.memory (m.gdtBase + (8 + i)) = flatdesc.getD i 0#8 := by
    rw [← Nat.add_assoc, List.getD_eq_getElem _ _ (by exact hi)]
    exact hdesc i hi
  -- the descriptor, byte for byte
  have h0 : m.memory (m.gdtBase + 8) = 0xFF#8 := hbyte 0 (by decide)
  have h1 : m.memory (m.gdtBase + 9) = 0xFF#8 := hbyte 1 (by decide)
  have h2 : m.memory (m.gdtBase + 10) = 0#8 := hbyte 2 (by decide)
  have h3 : m.memory (m.gdtBase + 11) = 0#8 := hbyte 3 (by decide)
  have h4 : m.memory (m.gdtBase + 12) = 0#8 := hbyte 4 (by decide)
  have h5 : m.memory (m.gdtBase + 13) = 0x92#8 := hbyte 5 (by decide)
  have h6 : m.memory (m.gdtBase + 14) = 0xCF#8 := hbyte 6 (by decide)
  have h7 : m.memory (m.gdtBase + 15) = 0#8 := hbyte 7 (by decide)
  simp [goProtectedCode, Machine.protectedMode, hreal, hinterrupt, getElem_setByte0, Machine.loadSeg,
    Machine.Selects, Machine.descriptor, WritableData, descriptorBase, descriptorLimit, flat, hlimit,
    Nat.add_assoc, h0, h1, h2, h3, h4, h5, h6, h7]

/-- A segment of 4 GiB in real mode. -/
def large (s : Word) : Segment := ⟨s, s.toNat * 16, 0xFFFFFFFF⟩

/-- The data segments are restored, and keep their limit. -/
theorem execAll_goUnreal (dos : Dos Window) (log : List DosRequest)
    (hinterrupt : m.interrupt = false) (hds : m.ds.limit = 0xFFFFFFFF)
    (hes : m.es.limit = 0xFFFFFFFF) (hss : m.ss = ⟨s, s.toNat * 16, 0xFFFF⟩)
    (hesp : m.esp.setWidth 16 = sp) (hsegment : s.toNat * 16 + 0x10000 ≤ 0x100000)
    (hsp : sp.toNat + 4 ≤ 0x10000) (hsavedEs : read16 m.memory (s.toNat * 16 + sp.toNat) = s)
    (hsavedDs : read16 m.memory (s.toNat * 16 + sp.toNat + 2) = s) :
    ∃ f, execAll dos.services goUnrealCode m log = some ({ m with
      eax := setByte0 m.cr0 (byteOf m.cr0 0 &&& 0xFE#8)
      cr0 := setByte0 m.cr0 (byteOf m.cr0 0 &&& 0xFE#8)
      esp := setLow m.esp (sp + 4#16)
      ds := large s
      es := large s
      flags := f
      interrupt := true }, log) := by
  have hadd : (sp + 2#16).toNat = sp.toNat + 2 := by bv_omega
  have hadd4 : sp + 2#16 + 2#16 = sp + 4#16 := by bv_omega
  rw [Nat.add_assoc] at hsavedDs
  simp [goUnrealCode, Machine.protectedMode, hinterrupt, getElem_setByte0, Machine.pop_eq, hss, hesp,
    show sp.toNat + 2 ≤ 65536 by omega, show sp.toNat ≤ 65532 by omega,
    show s.toNat * 16 ≤ 4294901760 by omega, hadd, hadd4, hsavedEs, hsavedDs, Machine.loadSeg, hds, hes,
    large, -BitVec.toNat_add]

/-! ## The creation of the file -/

/-- The program in unreal mode: its segments are as they were, but the data segments are of 4 GiB. -/
structure InUnrealMode (m : Machine) (s sp : Word) (flash : Nat → BitVec 8) : Prop where
  real : m.cr0[0] = false
  ds : m.ds = large s
  es : m.es = large s
  ss : m.ss = ⟨s, s.toNat * 16, 0xFFFF⟩
  esp : m.esp.setWidth 16 = sp
  segment : s.toNat * 16 + 0x10000 ≤ 0x100000
  stack : 0x5BB ≤ sp.toNat
  name : BytesAt m.memory (s.toNat * 16 + filename.toNat) (filenameText ++ [0#8])
  window : ∀ i < 0x80000, m.memory (0x3400000 + i) = flash i

/-- The program before block `k`, with the file open. -/
structure AtBlock (m : Machine) (s sp : Word) (flash : Nat → BitVec 8) (handle : Word) (k : Nat) :
    Prop where
  real : m.cr0[0] = false
  direction : m.direction = false
  ds : m.ds = large s
  es : m.es.limit = 0xFFFFFFFF
  ss : m.ss = ⟨s, s.toNat * 16, 0xFFFF⟩
  ebp : m.ebp.setWidth 16 = sp - 2#16
  esp : m.esp.setWidth 16 = sp - 0x402#16
  eax : m.eax.setWidth 16 = handle
  esi : m.esi = BitVec.ofNat 32 (0x3400000 + 0x400 * k)
  segment : s.toNat * 16 + 0x10000 ≤ 0x100000
  stack : 0x5BB ≤ sp.toNat
  window : ∀ i < 0x80000, m.memory (0x3400000 + i) = flash i

/-- What the memory holds after the descriptor table is loaded. -/
theorem startMemory_spec (h : Loaded m s sp) :
    (∀ a, 0x100000 ≤ a → startMemory m s sp a = m.memory a) ∧
      (∀ i < 21, startMemory m s sp (s.toNat * 16 + 0x1A2 + i) = data.getD (i + 14) 0#8) ∧
      read16 (startMemory m s sp) (s.toNat * 16 + sp.toNat - 4) = s ∧
      read16 (startMemory m s sp) (s.toNat * 16 + sp.toNat - 2) = s := by
  have hsp := sp.isLt
  have hsegment := h.segment
  have hstack := h.stack
  have hinfo : (gdtinfo + 2#16).toNat = 0x196 := rfl
  unfold startMemory
  rw [hinfo]
  refine ⟨fun a ha => ?_, fun i hi => ?_, ?_, ?_⟩
  · rw [RealMode.fill_of_notMem (by omega), pushedMemory, RealMode.fill_of_notMem (by omega),
      RealMode.fill_of_notMem (by omega)]
  · rw [RealMode.fill_of_notMem (by omega), pushedMemory_of_lt h (by omega), ← getD_data h (by omega)]
    refine congrArg m.memory ?_
    omega
  · rw [I386.read16_congr fun i hi => RealMode.fill_of_notMem (by omega)]
    exact I386.read16_fill s
  · rw [I386.read16_congr fun i hi => RealMode.fill_of_notMem (by omega), pushedMemory,
      I386.read16_congr fun i hi => RealMode.fill_of_notMem (by omega)]
    exact I386.read16_fill s

/-- **Unreal mode**: through protected mode and back, the program's segments are as they were, but of
4 GiB; nothing is executed in protected mode with interrupts enabled. -/
theorem ensures_start {Q : List DosRequest → Prop} (h : Loaded m s sp)
    (hflash : ∀ i < 0x80000, m.memory (0x3400000 + i) = flash i)
    (hthen : ∀ m', InUnrealMode m' s sp flash → flashdump.Ensures dos.services .unreal m' log Q) :
    flashdump.Ensures dos.services .start m log Q := by
  obtain ⟨habove, hdata, hes, hds⟩ := startMemory_spec h
  have hstack := h.stack
  have hsegment := h.segment
  have hsp := sp.isLt
  have hsub : (sp - 4#16).toNat = sp.toNat - 4 := by bv_omega
  have hgdt : gdt.toNat = 0x19A := rfl
  have hreal : m.cr0[0] = false := by simpa [Machine.protectedMode] using h.real
  obtain ⟨f₁, hstart⟩ := execAll_start dos log h
  refine .goto (Program.execBlock_eq_goto hstart rfl) ?_
  obtain ⟨f₂, hprotected⟩ := execAll_goProtected dos log (m := { m with
      eax := gdtAddress s
      esp := setLow m.esp (sp - 4#16)
      interrupt := false
      flags := f₁
      gdtBase := s.toNat * 16 + gdt.toNat
      gdtLimit := 15
      memory := startMemory m s sp }) hreal rfl rfl (by
    intro i hi
    change startMemory m s sp (s.toNat * 16 + gdt.toNat + 8 + i) = _
    have hlen : i < 8 := hi
    rw [hgdt, Nat.add_assoc _ 0x19A 8, hdata i (by omega), ← List.getD_eq_getElem _ 0#8]
    interval_cases i <;> rfl)
  refine .goto (Program.execBlock_eq_goto hprotected rfl) ?_
  -- marking the descriptor leaves the stack, the name and the window alone
  have hmarked (x : Nat) (hx : x ≠ s.toNat * 16 + 0x1A7) :
      Function.update (startMemory m s sp) (s.toNat * 16 + gdt.toNat + 13) 0x93#8 x =
        startMemory m s sp x := Function.update_of_ne (by rw [hgdt]; omega) _ _
  obtain ⟨f₃, hunreal⟩ := execAll_goUnreal dos log (s := s) (m := { m with
      eax := setByte0 m.cr0 (byteOf m.cr0 0 ||| 1#8)
      ebx := setLow m.ebx 8#16
      esp := setLow m.esp (sp - 4#16)
      cr0 := setByte0 m.cr0 (byteOf m.cr0 0 ||| 1#8)
      ds := flat 8#16
      es := flat 8#16
      gdtBase := s.toNat * 16 + gdt.toNat
      gdtLimit := 15
      flags := f₂
      interrupt := false
      memory := Function.update (startMemory m s sp) (s.toNat * 16 + gdt.toNat + 13) 0x93#8 })
    rfl rfl rfl h.ss (setWidth_setLow _ _) hsegment (by omega)
    (by
      rw [I386.read16_congr fun i hi => hmarked _ (by omega), hsub, ← Nat.add_sub_assoc (by omega)]
      exact hes)
    (by
      rw [I386.read16_congr fun i hi => hmarked _ (by omega), hsub,
        show s.toNat * 16 + (sp.toNat - 4) + 2 = s.toNat * 16 + sp.toNat - 2 by omega]
      exact hds)
  -- the selectors are those of real mode again, with the limit of the descriptor
  refine .goto (Program.execBlock_eq_goto hunreal rfl) (hthen _ ?_)
  constructor
  case real => simp [getElem_setByte0]
  case ds => rfl
  case es => rfl
  case ss => exact h.ss
  case esp =>
    rw [setWidth_setLow, BitVec.sub_add_cancel]
  case segment => exact hsegment
  case stack => exact hstack
  case name =>
    intro i hi
    have hlen : i < 13 := hi
    have hname : s.toNat * 16 + filename.toNat + i = s.toNat * 16 + 0x1A2 + (i + 8) := by
      change s.toNat * 16 + 0x1AA + i = _
      omega
    refine (hmarked _ (by rw [hname]; omega)).trans ?_
    rw [hname, hdata _ (by omega), ← List.getD_eq_getElem _ 0#8]
    interval_cases i <;> rfl
  case window =>
    intro i hi
    exact (hmarked _ (by omega)).trans ((habove _ (by omega)).trans (hflash i hi))

/-- The request that creates the dump file. -/
def createFile : DosRequest := .create filenameText 0#16

/-- The creation of the dump file is requested. -/
theorem execAll_create (dos : Dos Window) (log : List DosRequest) (h : InUnrealMode m s sp flash) :
    ∃ m', execAll dos.services createCode m log = some (m', log) ∧ m'.protectedMode = false ∧
      m'.ds = large s ∧ m'.es = large s ∧ m'.ss = ⟨s, s.toNat * 16, 0xFFFF⟩ ∧
      m'.ebp.setWidth 16 = sp - 2#16 ∧ m'.esp.setWidth 16 = sp - 0x402#16 ∧
      (∀ i < 0x80000, m'.memory (0x3400000 + i) = flash i) ∧ m'.dosRequest = some createFile := by
  obtain ⟨hreal, hds, hes, hss, hesp, hsegment, hstack, hname, hwindow⟩ := h
  have hsub : sp - 2#16 - 0x400#16 = sp - 0x402#16 := by bv_omega
  have hsp := sp.isLt
  have hfilename : filename.toNat = 0x1AA := rfl
  obtain ⟨f, hcreate⟩ : ∃ f, execAll dos.services createCode m log = some ({ m with
      eax := setByte1 m.eax 0x3C#8
      ecx := setLow m.ecx 0#16
      edx := setLow m.edx filename
      ebp := setLow m.ebp (sp - 2#16)
      esp := setLow m.esp (sp - 0x402#16)
      flags := f
      memory := fill m.memory (s.toNat * 16 + sp.toNat - 2) 2 (byteOf (m.ebp.setWidth 16)) }, log) := by
    simp [createCode, Machine.protectedMode, hreal, hss, hesp, Machine.push_eq, hsub,
      show 2 ≤ sp.toNat by omega, show s.toNat * 16 ≤ 4294901760 by omega]
  refine ⟨_, hcreate, ?_, hds, hes, hss, ?_, ?_, fun i hi => ?_, ?_⟩
  · simpa [Machine.protectedMode] using hreal
  · exact setWidth_setLow _ _
  · exact setWidth_setLow _ _
  · exact (RealMode.fill_of_notMem (by omega)).trans (hwindow i hi)
  -- the pushed `bp` is above the name
  · rw [dosRequest_create (by simp)]
    have htext : asciiz (fill m.memory (s.toNat * 16 + sp.toNat - 2) 2
        (byteOf (m.ebp.setWidth 16))) (0x10000 - filename.toNat)
          (s.toNat * 16 + filename.toNat) = filenameText := by
      have hkept (i : Nat) (hi : i < 13) : fill m.memory (s.toNat * 16 + sp.toNat - 2) 2
          (byteOf (m.ebp.setWidth 16)) (s.toNat * 16 + filename.toNat + i) =
            (filenameText ++ [0#8]).getD i 0#8 := by
        rw [RealMode.fill_of_notMem (by omega), List.getD_eq_getElem _ _ (by exact hi)]
        exact hname i hi
      refine asciiz_eq (by decide) (fun i hi => ?_) (hkept 12 (by decide)) (by decide)
      rw [hkept i (Nat.lt_succ_of_lt hi), List.getD_append _ _ _ _ hi, List.getD_eq_getElem _ _ hi]
    simp only [Machine.get16, Machine.get, setWidth_setLow, hds, large, htext]
    rfl

/-- In unreal mode, the file is created and the first block is next. -/
theorem step_unreal (dos : Dos Window) (log : List DosRequest) (h : InUnrealMode m s sp flash) :
    ∃ m', flashdump.step dos.services .unreal m log = .goto .nextBlock m' (log ++ [createFile]) ∧
      AtBlock m' s sp flash (dos.answer (log ++ [createFile])) 0 := by
  obtain ⟨m₁, hcreate, hreal, hds, hes, hss, hebp, hesp, hwindow, hrequest⟩ :=
    execAll_create dos log h
  have hcr0 : m₁.cr0[0] = false := by simpa [Machine.protectedMode] using hreal
  refine ⟨{ dos.back (log ++ [createFile]) m₁ with direction := false, esi := 0x3400000#32 }, ?_, ?_⟩
  · change flashdump.execBlock dos.services _ (createCode ++ .int 0x21#8 :: seekCode) m log = _
    rw [Dos.execBlock_request hcreate hreal hrequest rfl]
    simp [seekCode, flashdump, Machine.protectedMode, Dos.back, hcr0]
  · constructor
    case real => exact hcr0
    case direction => rfl
    case ds => exact hds
    case es => exact congrArg Segment.limit hes
    case ss => exact hss
    case ebp => exact hebp
    case esp => exact hesp
    case eax => exact setWidth_setLow _ _
    case esi => rfl
    case segment => exact h.segment
    case stack => exact h.stack
    case window =>
      intro i hi
      rw [← hwindow i hi]
      exact dos.keeps _ _ _ (.inl ⟨by omega, by omega⟩)

end FlashDump

end Ts3100
