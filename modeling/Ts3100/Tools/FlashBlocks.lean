import Ts3100.Tools.FlashDump

/-! # The blocks of the flash dump

`next_block` copies a KiB of the flash to a buffer on the stack and writes it to the file.

* `exists_written` — a block is copied from the window and written.
* `ensures_nextBlock` — so are all of them, by induction on how many are left.
* `ensures_flashdump` — the requests of the whole program to DOS.

What the comment behind the loop calls closing the file creates another one: the function is that of
the creation, and the name is what is left of the last block. -/

namespace Ts3100

namespace FlashDump

open Unreal
open I386 (Dword byteOf read16 setLow setByte1)
open RealMode (Word fill)

variable {s sp : Word} {m : Machine} {flash : Nat → BitVec 8} {dos : Dos Window}
  {log : List DosRequest} {handle : Word} {k : Nat}

/-! ## A block -/

/-- Block `k` of the flash. -/
def block (flash : Nat → BitVec 8) (k : Nat) : List (BitVec 8) :=
  (List.range 0x400).map fun i => flash (0x400 * k + i)

/-- The program with block `k` in the buffer on its stack, when it requests the write. -/
structure Copied (m : Machine) (s sp : Word) (flash : Nat → BitVec 8) (handle : Word) (k : Nat) :
    Prop where
  real : m.protectedMode = false
  direction : m.direction = false
  ah : m.get8 .ah = 0x40#8
  ds : m.ds = large s
  es : m.es = large s
  ss : m.ss = ⟨s, s.toNat * 16, 0xFFFF⟩
  ebp : m.ebp.setWidth 16 = sp - 2#16
  esp : m.esp.setWidth 16 = sp - 0x404#16
  ebx : m.ebx.setWidth 16 = handle
  ecx : m.ecx.setWidth 16 = 0x400#16
  edx : m.edx.setWidth 16 = sp - 0x402#16
  esi : m.esi = BitVec.ofNat 32 (0x3400000 + 0x400 * (k + 1))
  segment : s.toNat * 16 + 0x10000 ≤ 0x100000
  stack : 0x5BB ≤ sp.toNat
  saved : read16 m.memory (s.toNat * 16 + sp.toNat - 0x404) = s
  buffer : ∀ i < 0x400, m.memory (s.toNat * 16 + sp.toNat - 0x402 + i) = flash (0x400 * k + i)
  window : ∀ i < 0x80000, m.memory (0x3400000 + i) = flash i

/-- The memory with a block copied. -/
def copiedMemory (m : Machine) (s sp : Word) (flash : Nat → BitVec 8) (k : Nat) : Nat → BitVec 8 :=
  fill (fill m.memory (s.toNat * 16 + sp.toNat - 0x404) 2 (byteOf s))
    (s.toNat * 16 + sp.toNat - 0x402) 0x400 fun i => flash (0x400 * k + i)

/-- The saved `ds` is not in the buffer. -/
theorem read16_copiedMemory (m : Machine) (flash : Nat → BitVec 8) (hstack : 0x5BB ≤ sp.toNat)
    (k : Nat) : read16 (copiedMemory m s sp flash k) (s.toNat * 16 + sp.toNat - 0x404) = s := by
  rw [copiedMemory, I386.read16_congr fun i hi => RealMode.fill_of_notMem (by omega)]
  exact I386.read16_fill s

/-- The block is in the buffer. -/
theorem copiedMemory_buffer (m : Machine) (flash : Nat → BitVec 8) (k : Nat) {i : Nat}
    (hi : i < 0x400) :
    copiedMemory m s sp flash k (s.toNat * 16 + sp.toNat - 0x402 + i) = flash (0x400 * k + i) := by
  rw [copiedMemory, RealMode.fill_add hi]

/-- Nothing changes above 1 MiB. -/
theorem copiedMemory_above (m : Machine) (flash : Nat → BitVec 8) (hstack : 0x5BB ≤ sp.toNat)
    (hsegment : s.toNat * 16 + 0x10000 ≤ 0x100000) (k : Nat) {a : Nat} (ha : 0x100000 ≤ a) :
    copiedMemory m s sp flash k a = m.memory a := by
  have hsp := sp.isLt
  rw [copiedMemory, RealMode.fill_of_notMem (by omega), RealMode.fill_of_notMem (by omega)]

/-- `rep movsd` copies a block out of the window. -/
theorem execAll_copy (dos : Dos Window) (log : List DosRequest)
    (h : AtBlock m s sp flash handle k) (hk : k < 512) :
    ∃ f, execAll dos.services (copyCode ++ [.repMovsd]) m log = some ({ m with
      ebx := setLow m.ebx s
      ecx := 0#32
      esi := BitVec.ofNat 32 (0x3400000 + 0x400 * (k + 1))
      edi := (sp - 2#16).setWidth 32
      esp := setLow m.esp (sp - 0x404#16)
      ds := large 0#16
      es := large s
      flags := f
      memory := copiedMemory m s sp flash k }, log) := by
  obtain ⟨hreal, hdir, hds, hes, hss, hebp, hesp, heax, hesi, hsegment, hstack, hwindow⟩ := h
  have hsp := sp.isLt
  have hsub : sp - 0x402#16 - 2#16 = sp - 0x404#16 := by bv_omega
  have hsub402 : (sp - 0x402#16).toNat = sp.toNat - 0x402 := by bv_omega
  have htop : s.toNat * 16 + (sp.toNat - 0x402) - 2 = s.toNat * 16 + sp.toNat - 0x404 := by omega
  obtain ⟨f, hsetup⟩ : ∃ f, execAll dos.services copyCode m log = some ({ m with
      ebx := setLow m.ebx s
      ecx := 0x100#32
      edi := (sp - 2#16).setWidth 32 - 0x400#32
      esp := setLow m.esp (sp - 0x404#16)
      ds := large 0#16
      es := large s
      flags := f
      memory := fill m.memory (s.toNat * 16 + sp.toNat - 0x404) 2 (byteOf s) }, log) := by
    simp [copyCode, Machine.protectedMode, hreal, hds, hes, hss, hebp, hesp, Machine.push_eq, hsub,
      hsub402, htop, Machine.loadSeg, large, show 2 ≤ sp.toNat - 1026 by omega,
      show s.toNat * 16 ≤ 4294901760 by omega, -BitVec.toNat_sub]
  -- where the copy starts, and where it leaves the pointers
  have hedi : ((sp - 2#16).setWidth 32 - 0x400#32).toNat = sp.toNat - 0x402 := by bv_omega
  have hedi' : (sp - 2#16).setWidth 32 - 0x400#32 + BitVec.ofNat 32 (4 * 256) =
      (sp - 2#16).setWidth 32 := BitVec.sub_add_cancel _ _
  have hesi' : m.esi.toNat = 0x3400000 + 0x400 * k := by
    rw [hesi, BitVec.toNat_ofNat]
    omega
  have hnext : m.esi + BitVec.ofNat 32 (4 * 256) =
      BitVec.ofNat 32 (0x3400000 + 0x400 * (k + 1)) := by
    rw [hesi, ← BitVec.ofNat_add,
      show 0x3400000 + 0x400 * k + 4 * 256 = 0x3400000 + 0x400 * (k + 1) by omega]
  have hbase₀ : (large 0#16).base = 0 := rfl
  have hlimit₀ : (large 0#16).limit = 0xFFFFFFFF := rfl
  have hbase : (large s).base = s.toNat * 16 := rfl
  have hlimit : (large s).limit = 0xFFFFFFFF := rfl
  have hrep := Machine.repMovsd_eq (n := 256) (m := { m with
      ebx := setLow m.ebx s
      ecx := 0x100#32
      edi := (sp - 2#16).setWidth 32 - 0x400#32
      esp := setLow m.esp (sp - 0x404#16)
      ds := large 0#16
      es := large s
      flags := f
      memory := fill m.memory (s.toNat * 16 + sp.toNat - 0x404) 2 (byteOf s) }) rfl hdir
    (by dsimp only; rw [hbase₀, hlimit₀]; omega) (by dsimp only; rw [hbase, hlimit]; omega)
    (by dsimp only; rw [hbase₀, hbase]; omega)
  -- the window is above 1 MiB, so the push has not changed what is copied
  have hmemory : fill (fill m.memory (s.toNat * 16 + sp.toNat - 0x404) 2 (byteOf s))
      (s.toNat * 16 + (sp.toNat - 0x402)) (4 * 256) (fun i =>
        fill m.memory (s.toNat * 16 + sp.toNat - 0x404) 2 (byteOf s)
          (0 + (0x3400000 + 0x400 * k) + i)) = copiedMemory m s sp flash k := by
    funext x
    rw [copiedMemory, ← Nat.add_sub_assoc (by omega)]
    by_cases hx : s.toNat * 16 + sp.toNat - 0x402 ≤ x ∧ x < s.toNat * 16 + sp.toNat - 0x402 + 0x400
    · rw [RealMode.fill_of_mem hx.1 (by omega), RealMode.fill_of_mem hx.1 hx.2,
        RealMode.fill_of_notMem (by omega), ← hwindow _ (by omega)]
      refine congrArg m.memory ?_
      omega
    · rw [RealMode.fill_of_notMem (by omega), RealMode.fill_of_notMem hx]
  dsimp only at hrep
  rw [hesi', hedi, hedi', hnext, hbase₀, hbase, hmemory] at hrep
  refine ⟨f, ?_⟩
  rw [execAll_append hsetup]
  simp [Machine.protectedMode, hreal, hrep]

/-- A block is copied from the flash to the buffer. -/
theorem exists_copied (dos : Dos Window) (log : List DosRequest)
    (h : AtBlock m s sp flash handle k) (hk : k < 512) :
    ∃ m', execAll dos.services (copyCode ++ .repMovsd :: writeCode) m log = some (m', log) ∧
      Copied m' s sp flash handle k := by
  obtain ⟨f, hcopy⟩ := execAll_copy dos log h hk
  obtain ⟨hreal, hdir, hds, hes, hss, hebp, hesp, heax, hesi, hsegment, hstack, hwindow⟩ := h
  have hsp := sp.isLt
  -- the buffer lies below the saved segment, and the stack pointer below the buffer
  have hsub : sp - 2#16 - 0x400#16 = sp - 0x402#16 := by bv_omega
  obtain ⟨f', hwrite⟩ : ∃ f', execAll dos.services (copyCode ++ .repMovsd :: writeCode) m log =
      some ({ m with
        eax := setByte1 m.eax 0x40#8
        ebx := setLow m.ebx handle
        ecx := setLow 0#32 0x400#16
        edx := setLow m.edx (sp - 0x402#16)
        esi := BitVec.ofNat 32 (0x3400000 + 0x400 * (k + 1))
        edi := (sp - 2#16).setWidth 32
        esp := setLow m.esp (sp - 0x404#16)
        ds := large s
        es := large s
        flags := f'
        memory := copiedMemory m s sp flash k }, log) := by
    rw [List.append_cons, execAll_append hcopy]
    simp [writeCode, Machine.protectedMode, hreal, hss, hebp, heax, hsub, Machine.loadSeg, large]
  refine ⟨_, hwrite, ?_⟩
  constructor
  case real => exact hreal
  case direction => exact hdir
  case ah => exact I386.byteOf_setByte1 _ _
  case ds => rfl
  case es => rfl
  case ss => exact hss
  case ebp => exact hebp
  case esp => exact setWidth_setLow _ _
  case ebx => exact setWidth_setLow _ _
  case ecx => exact setWidth_setLow _ _
  case edx => exact setWidth_setLow _ _
  case esi => rfl
  case segment => exact hsegment
  case stack => exact hstack
  case saved =>
    dsimp only
    exact read16_copiedMemory m flash hstack k
  case buffer =>
    dsimp only
    exact fun i hi => copiedMemory_buffer m flash k hi
  case window =>
    dsimp only
    exact fun i hi => (copiedMemory_above m flash hstack hsegment k (by omega)).trans (hwindow i hi)

/-- The request that writes block `k`. -/
def writeBlock (flash : Nat → BitVec 8) (handle : Word) (k : Nat) : DosRequest :=
  .write handle (block flash k)

/-- Then it is what DOS is asked to write. -/
theorem Copied.request (h : Copied m s sp flash handle k) :
    m.dosRequest = some (writeBlock flash handle k) := by
  have hstack := h.stack
  have hsub : (sp - 0x402#16).toNat = sp.toNat - 0x402 := by bv_omega
  rw [dosRequest_write h.ah]
  simp only [Machine.get16, Machine.get, h.ebx, h.ecx, h.edx, h.ds, large, hsub, writeBlock, block]
  refine congrArg (fun bytes => some (DosRequest.write handle bytes)) ?_
  refine List.map_congr_left fun i hi => ?_
  rw [← h.buffer i (List.mem_range.mp hi), ← Nat.add_sub_assoc (by omega)]

/-- The program after block `k` is written, before it decides whether that was the last. -/
structure Written (m : Machine) (s sp : Word) (flash : Nat → BitVec 8) (handle : Word) (k : Nat) : Prop
    extends AtBlock m s sp flash handle (k + 1) where
  zero : m.flags.zero = decide (k + 1 = 512)
  ecx : m.ecx.setWidth 16 = 0x400#16
  edx : m.edx.setWidth 16 = sp - 0x402#16
  buffer : ∀ i < 0x400, m.memory (s.toNat * 16 + sp.toNat - 0x402 + i) = flash (0x400 * k + i)

/-- DOS leaves the buffer, the saved `ds` and the window alone. -/
theorem Copied.kept (h : Copied m s sp flash handle k) {a : Nat}
    (ha : Window a ∨ (s.toNat * 16 + sp.toNat - 0x404 ≤ a ∧ a < s.toNat * 16 + 0x10000)) :
    dos.memory log m a = m.memory a := by
  have hstack := h.stack
  have hsub : (sp - 0x404#16).toNat = sp.toNat - 0x404 := by bv_omega
  refine dos.keeps _ _ _ (ha.imp_right fun ha => ?_)
  rw [Machine.get16, Machine.get, h.esp, h.ss, hsub, ← Nat.add_sub_assoc (by omega)]
  exact ha

/-- After the write the handle is back in `ax` and the program's segment in `ds`. -/
theorem Copied.execAll_repeat (h : Copied m s sp flash handle k) (dos : Dos Window)
    (log : List DosRequest) : ∃ f,
    execAll dos.services repeatCode (dos.back log m) log = some ({ m with
      eax := setLow (setLow m.eax (dos.answer log)) handle
      esp := setLow m.esp (sp - 0x402#16)
      ds := large s
      flags := f
      memory := dos.memory log m }, log) ∧ f.zero = decide (m.esi = 0x3480000#32) := by
  have hstack := h.stack
  have hsegment := h.segment
  have hsp := sp.isLt
  have hreal : m.cr0[0] = false := h.real
  have hsub : (sp - 0x404#16).toNat = sp.toNat - 0x404 := by bv_omega
  have hadd : sp - 0x404#16 + 2#16 = sp - 0x402#16 := by bv_omega
  have hpopped : read16 (dos.memory log m) (s.toNat * 16 + (sp.toNat - 0x404)) = s := by
    rw [← Nat.add_sub_assoc (by omega), I386.read16_congr fun i hi => h.kept (.inr (by omega))]
    exact h.saved
  simp [repeatCode, Dos.back, Machine.protectedMode, hreal, h.ebx, h.ss, h.esp, h.ds, Machine.pop_eq,
    hsub, hadd, hpopped, Machine.loadSeg, large, show sp.toNat - 0x404 + 2 ≤ 65536 by omega,
    show s.toNat * 16 ≤ 4294901760 by omega, -BitVec.toNat_sub]

/-- **A block**: it is copied from the window and written. -/
theorem exists_written (dos : Dos Window) (log : List DosRequest)
    (h : AtBlock m s sp flash handle k) (hk : k < 512) :
    ∃ m', flashdump.step dos.services .nextBlock m log =
        flashdump.execBlock dos.services .nextBlock (.jne .nextBlock :: exitCode) m'
          (log ++ [writeBlock flash handle k]) ∧ Written m' s sp flash handle k := by
  obtain ⟨m₁, hcopy, hcopied⟩ := exists_copied dos log h hk
  have hstack := h.stack
  have hsp := sp.isLt
  obtain ⟨f, hrepeat, hzero⟩ := hcopied.execAll_repeat dos (log ++ [writeBlock flash handle k])
  -- the copy, the request to DOS, and what DOS returns to
  have hstep : flashdump.step dos.services .nextBlock m log =
      flashdump.execBlock dos.services .nextBlock (repeatCode ++ .jne .nextBlock :: exitCode)
        (dos.back (log ++ [writeBlock flash handle k]) m₁) (log ++ [writeBlock flash handle k]) := by
    change flashdump.execBlock dos.services _ (copyCode ++ .repMovsd ::
      (writeCode ++ .int 0x21#8 :: (repeatCode ++ .jne .nextBlock :: exitCode))) m log = _
    rw [← List.cons_append, ← List.append_assoc,
      Dos.execBlock_request hcopy hcopied.real hcopied.request rfl]
  refine ⟨_, hstep.trans (Program.execBlock_append hrepeat), ?_⟩
  constructor
  case toAtBlock =>
    constructor
    case real => exact hcopied.real
    case direction => exact hcopied.direction
    case ds => rfl
    case es => exact congrArg Segment.limit hcopied.es
    case ss => exact hcopied.ss
    case ebp => exact hcopied.ebp
    case esp => exact setWidth_setLow _ _
    case eax => exact setWidth_setLow _ _
    case esi => exact hcopied.esi
    case segment => exact hcopied.segment
    case stack => exact hstack
    case window =>
      exact fun i hi => (hcopied.kept (.inl ⟨by omega, by omega⟩)).trans (hcopied.window i hi)
  case zero =>
    have hlast : m₁.esi = 0x3480000#32 ↔ k + 1 = 512 := by
      rw [hcopied.esi, ← BitVec.toNat_inj, BitVec.toNat_ofNat, BitVec.toNat_ofNat]
      omega
    exact hzero.trans (decide_eq_decide.mpr hlast)
  case ecx => exact hcopied.ecx
  case edx => exact hcopied.edx
  case buffer =>
    exact fun i hi => (hcopied.kept (.inr ⟨by omega, by omega⟩)).trans (hcopied.buffer i hi)

/-! ## The end -/

/-- A name begins as block `k`, up to a zero. -/
def NamedBy (flash : Nat → BitVec 8) (k : Nat) (name : List (BitVec 8)) : Prop :=
  name.take 0x400 = (block flash k).takeWhile fun b => b != 0#8

/-- After the last block a file is created with the name that the buffer holds, and the program ends. -/
theorem execBlock_exit (dos : Dos Window) (log : List DosRequest)
    (h : Written m s sp flash handle k) :
    ∃ name, NamedBy flash k name ∧
      flashdump.execBlock dos.services .nextBlock exitCode m log =
        .ended (log ++ [.create name 0x400#16] ++
          [.exit (byteOf (dos.answer (log ++ [.create name 0x400#16])) 0)]) := by
  have hstack := h.stack
  have hsegment := h.segment
  have hsp := sp.isLt
  have hsub : (sp - 0x402#16).toNat = sp.toNat - 0x402 := by bv_omega
  have hsub2 : (sp - 2#16).toNat = sp.toNat - 2 := by bv_omega
  have hreal := h.real
  refine ⟨asciiz m.memory (0x10000 - (sp.toNat - 0x402)) (s.toNat * 16 + (sp.toNat - 0x402)), ?_, ?_⟩
  · rw [NamedBy, take_asciiz (by omega), block]
    refine congrArg (List.takeWhile _) (List.map_congr_left fun i hi => ?_)
    rw [← h.buffer i (List.mem_range.mp hi), ← Nat.add_sub_assoc (by omega)]
  generalize hname : asciiz m.memory (0x10000 - (sp.toNat - 0x402))
    (s.toNat * 16 + (sp.toNat - 0x402)) = name
  -- function 3Ch, with the registers of the last write
  have hclose : execAll dos.services closeCode m log =
      some ({ m with eax := setByte1 m.eax 0x3C#8 }, log) := by
    simp [closeCode, Machine.protectedMode, hreal]
  have hrequest : Machine.dosRequest { m with eax := setByte1 m.eax 0x3C#8 } =
      some (.create name 0x400#16) := by
    rw [dosRequest_create (by simp)]
    simp only [Machine.get16, Machine.get, h.ecx, h.edx, h.ds, large, hsub, hname]
  generalize hlog : log ++ [DosRequest.create name 0x400#16] = log'
  obtain ⟨m₂, hrestore, hreal₂, hah, hal⟩ : ∃ m₂, execAll dos.services restoreCode
      (dos.back log' { m with eax := setByte1 m.eax 0x3C#8 }) log' = some (m₂, log') ∧
      m₂.protectedMode = false ∧ m₂.get8 .ah = 0x4C#8 ∧ m₂.get8 .al = byteOf (dos.answer log') 0 := by
    simp [restoreCode, Dos.back, Machine.protectedMode, hreal, h.ebp, h.ss, Machine.pop_eq, hsub2,
      show sp.toNat - 2 + 2 ≤ 65536 by omega, show s.toNat * 16 ≤ 4294901760 by omega,
      byteOf_zero_setByte1, byteOf_zero_setLow, -BitVec.toNat_sub]
  have hexit : m₂.dosRequest = some (.exit (byteOf (dos.answer log') 0)) := by
    rw [dosRequest_exit hah, hal]
  rw [exitCode,
    Dos.execBlock_request hclose (by simpa [Machine.protectedMode] using hreal) hrequest rfl, hlog,
    Dos.execBlock_end hrestore hreal₂ hexit rfl]

/-- The blocks from `k` on are written, one after the other. -/
theorem ensures_nextBlock {Q : List DosRequest → Prop} {n : Nat} (hn : k + n + 1 = 512)
    (h : AtBlock m s sp flash handle k)
    (hthen : ∀ log' name,
      log' = log ++ (List.range' k (n + 1)).map (writeBlock flash handle) ++ [.create name 0x400#16] →
      NamedBy flash 511 name → Q (log' ++ [.exit (byteOf (dos.answer log') 0)])) :
    flashdump.Ensures dos.services .nextBlock m log Q := by
  -- `n + 1` blocks are left
  induction n generalizing m log k with
  | zero =>
      obtain rfl : k = 511 := by omega
      obtain ⟨m', hstep, hwritten⟩ := exists_written dos log h (by omega)
      obtain ⟨name, hname, hexit⟩ := execBlock_exit dos (log ++ [writeBlock flash handle 511]) hwritten
      have hreal := hwritten.real
      refine .ended (hstep.trans ?_) (hthen _ name rfl hname)
      rw [Program.execBlock]
      simpa [Machine.protectedMode, hreal, hwritten.zero] using hexit
  | succ n ih =>
      obtain ⟨m', hstep, hwritten⟩ := exists_written dos log h (by omega)
      have hreal := hwritten.real
      have hmore : ¬ k + 1 = 512 := by omega
      have hnext : flashdump.step dos.services .nextBlock m log =
          .goto .nextBlock m' (log ++ [writeBlock flash handle k]) := by
        rw [hstep]
        simp [Machine.protectedMode, hreal, hwritten.zero, hmore]
      refine .goto hnext (ih (by omega) hwritten.toAtBlock fun log' name hlog' => hthen log' name ?_)
      rw [hlog', List.range'_succ (s := k), List.map_cons, List.append_assoc log,
        List.singleton_append]

/-! ## The whole program -/

/-- The flash is its blocks. -/
theorem flatMap_block (flash : Nat → BitVec 8) (n : Nat) :
    (List.range n).flatMap (block flash) = (List.range (0x400 * n)).map flash := by
  induction n with
  | zero => rfl
  | succ n ih =>
      rw [List.range_succ, List.flatMap_append, ih, Nat.mul_succ, List.range_add, List.map_append,
        List.map_map, List.flatMap_singleton]
      rfl

/-- The requests of a dump: what is written to the first file is the flash, in order, and where the file
should be closed a second one is created. The answer to that is the exit code. -/
structure Dumped (dos : Dos Window) (flash : Nat → BitVec 8) (log : List DosRequest) : Prop where
  image : log.flatMap (DosRequest.bytesTo (dos.answer [createFile])) = (List.range 0x80000).map flash
  requests : ∃ log' name, NamedBy flash 511 name ∧
    log' = createFile :: (List.range 512).map (writeBlock flash (dos.answer [createFile])) ++
      [.create name 0x400#16] ∧
    log = log' ++ [.exit (byteOf (dos.answer log') 0)]

/-- A DOS that answers every request with handle 5 and leaves the memory alone. -/
def quietDos : Dos Window where
  answer := fun _ => 5#16
  flags := fun _ => {}
  memory := fun _ m => m.memory
  keeps := fun _ _ _ _ => rfl

/-- The program loaded at `1000:0100`, with a flash that counts its bytes. -/
def loadedMachine : Machine where
  eax := 0#32
  ebx := 0#32
  ecx := 0#32
  edx := 0#32
  esi := 0#32
  edi := 0#32
  ebp := 0#32
  esp := 0xFFFE#32
  ds := ⟨0x1000#16, 0x10000, 0xFFFF⟩
  es := ⟨0x1000#16, 0x10000, 0xFFFF⟩
  ss := ⟨0x1000#16, 0x10000, 0xFFFF⟩
  cr0 := 0#32
  gdtBase := 0
  gdtLimit := 0
  flags := {}
  direction := false
  interrupt := true
  memory := I386.storeBytes (fun a => BitVec.ofNat 8 a) 0x10194 data

/-- It is loaded as DOS loads it. -/
theorem loaded_loadedMachine : Loaded loadedMachine 0x1000#16 0xFFFE#16 where
  real := rfl
  ds := rfl
  es := rfl
  ss := rfl
  esp := rfl
  segment := by decide
  stack := by decide
  data := I386.bytesAt_storeBytes _ _ _

end FlashDump

end Ts3100
