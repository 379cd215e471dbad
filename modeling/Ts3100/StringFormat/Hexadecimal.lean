import Ts3100.StringFormat.Decimal

/-! # Hexadecimal conversion

`put_hex_dword` writes as many hexadecimal digits as `cl` has groups of four bits, the most
significant first. Read back, they are the value's lowest bits (`putHex_exact`). -/

namespace Ts3100

namespace StringFormat

open I386 Digits
open RealMode (Word fill)

/-! ## Numerals -/

/-- A hexadecimal digit, from the table. -/
def hexByte (d : Nat) : Byte := hexDigits.getD d 0#8

/-- The `k` lowest hexadecimal digits of a number. -/
def hexBytes (k n : Nat) : List Byte := (fixed 16 k n).map hexByte

/-- There are as many characters as digits. -/
@[simp] theorem length_hexBytes (k n : Nat) : (hexBytes k n).length = k := by
  rw [hexBytes, List.length_map, length_fixed]

/-- The most significant digit comes first. -/
theorem hexBytes_succ (k n : Nat) :
    hexBytes (k + 1) n = hexByte (n / 16 ^ k % 16) :: hexBytes k n := rfl

variable {m : Machine Files} {k : Nat} {Q : Word → Machine Files → Prop}

/-- `shr` and `and` leave a digit. -/
theorem toNat_digit (v : Dword) (k : Nat) :
    (byteOf (v >>> (4 * k)) 0 &&& 0xF#8).toNat = v.toNat / 16 ^ k % 16 := by
  have hpow : 2 ^ (4 * k) = 16 ^ k := by rw [Nat.pow_mul]
  have hmask (b : Byte) : (b &&& 0xF#8).toNat = b.toNat % 16 := by
    rw [BitVec.toNat_and, show (0xF#8).toNat = 2 ^ 4 - 1 by rfl, Nat.and_two_pow_sub_one_eq_mod]
  rw [hmask, toNat_byteOf, BitVec.toNat_ushiftRight, Nat.shiftRight_eq_div_pow, hpow]
  simp only [Nat.mul_zero, Nat.pow_zero, Nat.div_one]
  omega

/-- The digit that `xlat` finds. -/
theorem HasHexDigits.read {mem : Nat → Byte} {base d : Nat} (h : HasHexDigits mem base) (hd : d < 16) :
    mem (base + (hexLookupTable.toNat + d)) = hexByte d := by
  rw [← Nat.add_assoc, h d hd, hexByte, List.getD_eq_getElem _ _ hd]

/-- A table of hexadecimal digits is not changed by what is stored elsewhere. -/
theorem HasHexDigits.congr {mem mem' : Nat → Byte} {base : Nat} (h : HasHexDigits mem base)
    (hsame : ∀ x, base + 0x1B8 ≤ x → x < base + 0x1C8 → mem' x = mem x) : HasHexDigits mem' base := by
  refine BytesAt.congr h fun i hi => ?_
  have hlen : hexDigits.length = 16 := rfl
  have hoffset : hexLookupTable.toNat = 0x1B8 := rfl
  exact hsame _ (by omega) (by omega)

/-! ## Blocks -/

/-- What `.output_digit` has done when it comes to its `test`. -/
theorem execBlock_outputDigit (is : List (Instr Label)) (hdir : m.direction = false)
    (hedi : m.edi.toNat < 65536) (hk : k < 8) (hcl : byteOf m.ecx 0 = BitVec.ofNat 8 (4 * (k + 1)))
    (hebx : m.ebx = hexLookupTable) (htable : HasHexDigits m.memory (m.ds.toNat * 16)) :
    ∃ a f, stringFormat.execBlock .outputDigit
      (.alu8 .sub .cl 4#8 :: .mov .eax (.reg .edx) :: .shrCl .eax :: .alu8 .and .al 0xF#8 :: .xlat ::
        .stosb :: is) m =
      stringFormat.execBlock .outputDigit is
        { m.emit [hexByte (m.edx.toNat / 16 ^ k % 16)] with
          eax := a
          ecx := setByte0 m.ecx (BitVec.ofNat 8 (4 * k))
          flags := f } := by
  have hcl' : BitVec.ofNat 8 (4 * (k + 1)) - 4#8 = BitVec.ofNat 8 (4 * k) := by
    interval_cases k <;> rfl
  have hshift : 4 * k % 32 = 4 * k := by omega
  have hdigit := toNat_digit m.edx k
  have hlt : m.edx.toNat / 16 ^ k % 16 < 16 := Nat.mod_lt _ (by omega)
  generalize hd : byteOf (m.edx >>> (4 * k)) 0 &&& 0xF#8 = d at hdigit
  have hoffset : (hexLookupTable + d.setWidth 32).toNat = hexLookupTable.toNat + d.toNat := by
    unfold hexLookupTable
    rw [BitVec.toNat_add, BitVec.toNat_setWidth, BitVec.toNat_ofNat]
    omega
  have hread := htable.read (d := d.toNat) (by omega)
  have hroom : hexLookupTable.toNat + d.toNat < 65536 := by
    unfold hexLookupTable
    rw [BitVec.toNat_ofNat]
    omega
  rw [← hdigit]
  refine ⟨setByte0 (setByte0 (m.edx >>> (4 * k)) d) (hexByte d.toNat), (RealMode.logic d).2, ?_⟩
  simp [hcl, hcl', Machine.shrCl, hshift, hd, Machine.xlat_eq, hebx, hroom, hoffset, hread,
    Machine.stosb_eq, hedi, hdir, Machine.emit]

/-- `.output_digit` with digits left. -/
theorem step_outputDigit (hdir : m.direction = false) (hedi : m.edi.toNat < 65536) (hk : k + 1 < 8)
    (hcl : byteOf m.ecx 0 = BitVec.ofNat 8 (4 * (k + 1 + 1))) (hebx : m.ebx = hexLookupTable)
    (htable : HasHexDigits m.memory (m.ds.toNat * 16)) :
    ∃ a f, stringFormat.step .outputDigit m = .goto .outputDigit
      { m.emit [hexByte (m.edx.toNat / 16 ^ (k + 1) % 16)] with
        eax := a
        ecx := setByte0 m.ecx (BitVec.ofNat 8 (4 * (k + 1)))
        flags := f } := by
  obtain ⟨a, f, hdigit⟩ := execBlock_outputDigit [.alu8 .test .cl 0xFF#8,
    .jcc .ne .outputDigit, .pop .edx, .pop .ebx, .ret] hdir hedi hk hcl hebx htable
  have hleft : BitVec.ofNat 8 (4 * (k + 1)) &&& 255#8 ≠ 0#8 := by
    have hlt : k < 7 := by omega
    interval_cases k <;> decide
  refine ⟨a, (RealMode.logic (BitVec.ofNat 8 (4 * (k + 1)) &&& 255#8)).2, ?_⟩
  rw [Program.step, show stringFormat.code .outputDigit = outputDigitCode from rfl, outputDigitCode,
    hdigit]
  simp [hleft]

/-- `.output_digit` at the last digit returns. -/
theorem step_outputDigit_last (hdir : m.direction = false) (hedi : m.edi.toNat < 65536)
    (hcl : byteOf m.ecx 0 = BitVec.ofNat 8 (4 * (0 + 1))) (hebx : m.ebx = hexLookupTable)
    (htable : HasHexDigits m.memory (m.ds.toNat * 16)) (hesp : m.esp.toNat + 10 ≤ 65536) :
    ∃ a f, stringFormat.step .outputDigit m = .returned
      (read16 (m.emit [hexByte (m.edx.toNat / 16 ^ 0 % 16)]).memory
        (m.ss.toNat * 16 + m.esp.toNat + 8))
      { m.emit [hexByte (m.edx.toNat / 16 ^ 0 % 16)] with
        eax := a
        ecx := setByte0 m.ecx (BitVec.ofNat 8 (4 * 0))
        edx := read32 (m.emit [hexByte (m.edx.toNat / 16 ^ 0 % 16)]).memory
          (m.ss.toNat * 16 + m.esp.toNat)
        ebx := read32 (m.emit [hexByte (m.edx.toNat / 16 ^ 0 % 16)]).memory
          (m.ss.toNat * 16 + m.esp.toNat + 4)
        esp := addSp (m.esp + 8#32) 2#16
        flags := f } := by
  obtain ⟨a, f, hdigit⟩ := execBlock_outputDigit [.alu8 .test .cl 0xFF#8,
    .jcc .ne .outputDigit, .pop .edx, .pop .ebx, .ret] hdir hedi (by omega) hcl hebx htable
  have hpop₄ : (m.esp + 4#32).toNat = m.esp.toNat + 4 := by bv_omega
  have hpop₈ : (m.esp + 8#32).toNat = m.esp.toNat + 8 := by bv_omega
  refine ⟨a, (RealMode.logic (0#8 : Byte)).2, ?_⟩
  rw [Program.step, show stringFormat.code .outputDigit = outputDigitCode from rfl, outputDigitCode,
    hdigit]
  simp [Machine.pop32_eq, Machine.pop16_eq, Machine.emit, hpop₄, hpop₈, BitVec.add_assoc,
    show m.esp.toNat + 4 < 65536 by omega, show m.esp.toNat + 4 + 4 < 65536 by omega,
    show m.esp.toNat + 8 + 2 ≤ 65536 by omega, Nat.add_assoc]

/-! ## The routine -/

/-- From `.output_digit` with `k + 1` digits left, all but the last are written. -/
theorem ensures_outputDigit (hdir : m.direction = false) (hk : k < 8)
    (hcl : byteOf m.ecx 0 = BitVec.ofNat 8 (4 * (k + 1))) (hebx : m.ebx = hexLookupTable)
    (htable : HasHexDigits m.memory (m.ds.toNat * 16)) (hroom : m.edi.toNat + k < 65536)
    (hapart : Apart (m.es.toNat * 16 + m.edi.toNat) k (m.ds.toNat * 16 + 0x1B8) 16)
    (hthen : ∀ a c f, byteOf c 0 = BitVec.ofNat 8 (4 * (0 + 1)) →
      stringFormat.alone.Ensures .outputDigit
        { m.emit (hexBytes k (m.edx.toNat / 16)) with
          eax := a
          ecx := c
          flags := f } Q) :
    stringFormat.alone.Ensures .outputDigit m Q := by
  -- on the digits left, from the highest: `cl` is the shift of the next one
  induction k generalizing m with
  | zero =>
      have hlast := hthen m.eax m.ecx m.flags hcl
      rw [hexBytes, fixed, List.map_nil, Machine.emit_nil] at hlast
      exact hlast
  | succ k ih =>
      obtain ⟨a, f, hstep⟩ := step_outputDigit hdir (by omega) hk hcl hebx htable
      refine Program.Ensures.goto ((Program.step_alone _ _).trans hstep) ?_
      have hedi : (m.edi + 1#32).toNat = m.edi.toNat + 1 := by bv_omega
      have htable' : HasHexDigits (m.emit [hexByte (m.edx.toNat / 16 ^ (k + 1) % 16)]).memory
          (m.ds.toNat * 16) := by
        refine htable.congr fun x hx hx' => storeBytes_of_notMem ?_
        unfold Apart at hapart
        simp only [List.length_singleton]
        omega
      refine ih (m := { m.emit [hexByte (m.edx.toNat / 16 ^ (k + 1) % 16)] with
        eax := a
        ecx := setByte0 m.ecx (BitVec.ofNat 8 (4 * (k + 1)))
        flags := f }) hdir (by omega) (byteOf_setByte0 _ _) hebx htable' ?_ ?_ fun a' c f' hc => ?_
      · change (m.edi + 1#32).toNat + k < 65536
        omega
      · change Apart (m.es.toNat * 16 + (m.edi + 1#32).toNat) k (m.ds.toNat * 16 + 0x1B8) 16
        unfold Apart at hapart ⊢
        omega
      · have hlast := hthen a' c f' hc
        rw [hexBytes_succ, Nat.div_div_eq_div_mul, ← Nat.pow_succ', ← List.singleton_append,
          ← Machine.emit_append] at hlast
        · simpa only [Machine.emit] using hlast
        · simp only [List.length_singleton]
          omega

/-- The machine after `ebx` and `edx` are pushed. -/
def pushedEbxEdx (m : Machine Files) : Machine Files :=
  { m with
    esp := m.esp - 8#32
    memory := fill (fill m.memory (m.ss.toNat * 16 + m.esp.toNat - 4) 4 (byteOf m.ebx))
      (m.ss.toNat * 16 + m.esp.toNat - 8) 4 (byteOf m.edx) }

/-- `put_hex_dword` may be called for `n` digits: as for `put_dec_dword`, with room for two registers on
the stack. -/
structure ReadyToPutHex (m : Machine Files) (n : Nat) : Prop where
  direction : m.direction = false
  stack : 8 ≤ m.esp.toNat ∧ m.esp.toNat + 2 ≤ 65536
  room : m.edi.toNat + n ≤ 65536
  hexDigits : HasHexDigits m.memory (m.ds.toNat * 16)
  output_stack : Apart (m.es.toNat * 16 + m.edi.toNat) n (m.ss.toNat * 16 + m.esp.toNat - 8) 10
  output_table : Apart (m.es.toNat * 16 + m.edi.toNat) n (m.ds.toNat * 16 + 0x1B8) 16
  stack_table : Apart (m.ss.toNat * 16 + m.esp.toNat - 8) 8 (m.ds.toNat * 16 + 0x1B8) 16

/-- The words on the stack after the two pushes. -/
theorem pushedEbxEdx_memory (hlow : 8 ≤ m.esp.toNat) :
    read32 (pushedEbxEdx m).memory (m.ss.toNat * 16 + m.esp.toNat - 8) = m.edx ∧
      read32 (pushedEbxEdx m).memory (m.ss.toNat * 16 + m.esp.toNat - 4) = m.ebx ∧
      ∀ x, ¬ (m.ss.toNat * 16 + m.esp.toNat - 8 ≤ x ∧ x < m.ss.toNat * 16 + m.esp.toNat) →
        (pushedEbxEdx m).memory x = m.memory x := by
  refine ⟨read32_fill m.edx, ?_, fun x hx => ?_⟩
  · refine (read32_congr fun i hi => RealMode.fill_of_notMem ?_).trans (read32_fill m.ebx)
    omega
  · exact (RealMode.fill_of_notMem (by omega)).trans (RealMode.fill_of_notMem (by omega))

/-- The last digit, after the others. -/
theorem ensures_lastHexDigit {text : List Byte} {a c : Dword} {f : RealMode.Flags}
    (h : ReadyToPutHex m (text.length + 1)) (hc : byteOf c 0 = BitVec.ofNat 8 (4 * (0 + 1)))
    (htable : HasHexDigits ((pushedEbxEdx m).emit text).memory (m.ds.toNat * 16)) :
    stringFormat.alone.Ensures .outputDigit
      { (pushedEbxEdx m).emit text with
        ebx := hexLookupTable
        edx := m.eax
        eax := a
        ecx := c
        flags := f }
      (PutsText 8 m (text ++ [hexByte (m.eax.toNat % 16)])) := by
  obtain ⟨hdir, ⟨hlow, hhigh⟩, hroom, -, hstack, -, -⟩ := h
  obtain ⟨hpushedEdx, hpushedEbx, hpushed⟩ := pushedEbxEdx_memory hlow
  have hsub : (m.esp - 8#32).toNat = m.esp.toNat - 8 := by bv_omega
  have hedi : (m.edi + BitVec.ofNat 32 text.length).toNat = m.edi.toNat + text.length := by
    rw [BitVec.toNat_add, BitVec.toNat_ofNat]
    omega
  obtain ⟨a', f', hstep⟩ := step_outputDigit_last (m := { (pushedEbxEdx m).emit text with
    ebx := hexLookupTable
    edx := m.eax
    eax := a
    ecx := c
    flags := f }) hdir (by simp only [Machine.emit, pushedEbxEdx, hedi]; omega) hc rfl htable
    (by simp only [Machine.emit, pushedEbxEdx, hsub]; omega)
  simp only [Nat.pow_zero, Nat.div_one] at hstep
  refine Program.Ensures.returned ((Program.step_alone _ _).trans hstep) rfl ?_
  -- all digits in one piece
  have hemit : ((pushedEbxEdx m).emit text).emit [hexByte (m.eax.toNat % 16)] =
      (pushedEbxEdx m).emit (text ++ [hexByte (m.eax.toNat % 16)]) :=
    Machine.emit_append (by simp only [pushedEbxEdx]; omega) _
  have hlen : m.edi.toNat + text.length < 2 ^ 32 := by omega
  have hmemory : storeBytes ((pushedEbxEdx m).emit text).memory
      (m.es.toNat * 16 + (m.edi + BitVec.ofNat 32 text.length).toNat) [hexByte (m.eax.toNat % 16)] =
        storeBytes (pushedEbxEdx m).memory (m.es.toNat * 16 + m.edi.toNat)
          (text ++ [hexByte (m.eax.toNat % 16)]) :=
    Machine.emit_concat_memory (m := pushedEbxEdx m) hlen _
  -- the stack's bytes are not the output's
  have hsaved (x : Nat) (hx : m.ss.toNat * 16 + m.esp.toNat - 8 ≤ x)
      (hx' : x < m.ss.toNat * 16 + m.esp.toNat + 2) :
      storeBytes ((pushedEbxEdx m).emit text).memory
        (m.es.toNat * 16 + (m.edi + BitVec.ofNat 32 text.length).toNat)
          [hexByte (m.eax.toNat % 16)] x = (pushedEbxEdx m).memory x :=
    Machine.emit_concat_memory_of_apart (m := pushedEbxEdx m) hlen hstack hx (by omega)
  constructor
  case ip =>
    change read16 (storeBytes ((pushedEbxEdx m).emit text).memory _ _)
      (m.ss.toNat * 16 + (m.esp - 8#32).toNat + 8) = _
    rw [hsub, show m.ss.toNat * 16 + (m.esp.toNat - 8) + 8 = m.ss.toNat * 16 + m.esp.toNat by omega]
    exact read16_congr fun i hi => (hsaved _ (by omega) (by omega)).trans (hpushed _ (by omega))
  case esp =>
    change addSp (m.esp - 8#32 + 8#32) 2#16 = _
    rw [BitVec.sub_add_cancel]
  case output =>
    have hbytes := bytesAt_storeBytes (pushedEbxEdx m).memory (m.es.toNat * 16 + m.edi.toNat)
      (text ++ [hexByte (m.eax.toNat % 16)])
    rw [← hmemory] at hbytes
    exact hbytes
  case edi => exact congrArg Machine.edi hemit
  case stored => exact congrArg Machine.stored hemit
  case frame =>
    intro x hout hstacked
    have hkept : storeBytes (pushedEbxEdx m).memory _ _ x = (pushedEbxEdx m).memory x :=
      storeBytes_of_notMem hout
    exact (congrFun hmemory x).trans (hkept.trans (hpushed x hstacked))
  case edx =>
    change read32 (storeBytes ((pushedEbxEdx m).emit text).memory _ _)
      (m.ss.toNat * 16 + (m.esp - 8#32).toNat) = _
    rw [hsub, ← Nat.add_sub_assoc hlow]
    exact (read32_congr fun i hi => hsaved _ (by omega) (by omega)).trans hpushedEdx
  case ebx =>
    change read32 (storeBytes ((pushedEbxEdx m).emit text).memory _ _)
      (m.ss.toNat * 16 + (m.esp - 8#32).toNat + 4) = _
    rw [hsub, show m.ss.toNat * 16 + (m.esp.toNat - 8) + 4 = m.ss.toNat * 16 + m.esp.toNat - 4 by omega]
    exact (read32_congr fun i hi => hsaved _ (by omega) (by omega)).trans hpushedEbx
  all_goals rfl

/-- `put_hex_dword` writes the digits asked for. -/
theorem ensures_putHexDword (hk : k < 8) (h : ReadyToPutHex m (k + 1))
    (hcl : byteOf m.ecx 0 = BitVec.ofNat 8 (4 * (k + 1))) :
    stringFormat.alone.Ensures .putHexDword m (PutsText 8 m (hexBytes (k + 1) m.eax.toNat)) := by
  have hready := h
  obtain ⟨hdir, ⟨hlow, hhigh⟩, hroom, htable, hstack, houtput, hstackTable⟩ := h
  have hsub : (m.esp - 4#32).toNat = m.esp.toNat - 4 := by bv_omega
  have haddress : m.ss.toNat * 16 + (m.esp.toNat - 4) - 4 = m.ss.toNat * 16 + m.esp.toNat - 8 := by
    omega
  have hstep : stringFormat.step .putHexDword m = .goto .outputDigit { pushedEbxEdx m with
      ebx := hexLookupTable
      edx := m.eax } := by
    simp [Program.step, stringFormat, putHexDwordCode, Label.fallsTo, Machine.push32_eq, hsub,
      show 4 ≤ m.esp.toNat by omega, show m.esp.toNat < 65536 by omega,
      show 4 ≤ m.esp.toNat - 4 by omega, show m.esp.toNat - 4 < 65536 by omega, haddress,
      BitVec.sub_sub, pushedEbxEdx]
  refine Program.Ensures.goto ((Program.step_alone _ _).trans hstep) ?_
  -- the pushes leave the table alone, and so do the digits
  obtain ⟨-, -, hpushed⟩ := pushedEbxEdx_memory hlow
  have htable' : HasHexDigits (pushedEbxEdx m).memory (m.ds.toNat * 16) := by
    refine htable.congr fun x hx hx' => hpushed x ?_
    unfold Apart at hstackTable
    omega
  have hapart : Apart (m.es.toNat * 16 + m.edi.toNat) k (m.ds.toNat * 16 + 0x1B8) 16 := by
    unfold Apart at houtput ⊢
    omega
  refine ensures_outputDigit (m := { pushedEbxEdx m with ebx := hexLookupTable, edx := m.eax }) hdir hk
    hcl rfl htable' (by simp only [pushedEbxEdx]; omega) hapart fun a c f hc => ?_
  have htext : hexBytes (k + 1) m.eax.toNat =
      hexBytes k (m.eax.toNat / 16) ++ [hexByte (m.eax.toNat % 16)] := by
    rw [hexBytes, fixed_succ_right, List.map_append, List.map_singleton, hexBytes]
  have htable'' : HasHexDigits ((pushedEbxEdx m).emit (hexBytes k (m.eax.toNat / 16))).memory
      (m.ds.toNat * 16) := by
    refine htable'.congr fun x hx hx' => storeBytes_of_notMem ?_
    change ¬ (m.es.toNat * 16 + m.edi.toNat ≤ x ∧ x < m.es.toNat * 16 + m.edi.toNat + _)
    unfold Apart at hapart
    rw [length_hexBytes]
    omega
  rw [htext]
  simpa only [Machine.emit] using ensures_lastHexDigit (a := a) (f := f)
    (by rwa [length_hexBytes]) hc htable''

/-! ## The number printed -/

/-- The value of a hexadecimal digit. -/
def hexDigit (b : Byte) : Option Nat := hexDigits.idxOf? b

/-- The number that a text of hexadecimal digits stands for; `none` for any other text. -/
def hexValue (text : List Byte) : Option Nat :=
  text.foldl (fun n b => n.bind fun n => (hexDigit b).map fun d => 16 * n + d) (some 0)

/-- A digit at the end is worth one. -/
theorem hexValue_concat (text : List Byte) (b : Byte) :
    hexValue (text ++ [b]) = (hexValue text).bind fun n => (hexDigit b).map fun d => 16 * n + d := by
  rw [hexValue, List.foldl_append, List.foldl_cons, List.foldl_nil, hexValue]

/-- A character that is printed reads as its digit. -/
theorem hexDigit_hexByte {d : Nat} (hd : d < 16) : hexDigit (hexByte d) = some d := by
  interval_cases d <;> rfl

/-- The lowest `k` digits of a number, read back. -/
theorem hexValue_hexBytes (k n : Nat) : hexValue (hexBytes k n) = some (n % 16 ^ k) := by
  induction k generalizing n with
  | zero =>
      rw [Nat.pow_zero, Nat.mod_one]
      rfl
  | succ k ih =>
      have hdigit : n % 16 < 16 := Nat.mod_lt _ (by decide)
      have hsplit : hexBytes (k + 1) n = hexBytes k (n / 16) ++ [hexByte (n % 16)] := by
        rw [hexBytes, fixed_succ_right, List.map_append, List.map_singleton, hexBytes]
      have hmod : n % 16 ^ (k + 1) = 16 * (n / 16 % 16 ^ k) + n % 16 := by
        rw [Nat.pow_succ', Nat.mod_mul, Nat.add_comm]
      rw [hsplit, hexValue_concat, ih, Option.bind_some, hexDigit_hexByte hdigit, Option.map_some, hmod]

/-- **Hexadecimal conversion is exact.** Called with any value and a count of bits that is a multiple of
four, the routine returns with one digit for every four bits written, and these digits are those of the
value's lowest bits. -/
theorem putHex_exact {k : Nat} {m : Machine Files} (hk : k < 8) (h : ReadyToPutHex m (k + 1))
    (hcl : byteOf m.ecx 0 = BitVec.ofNat 8 (4 * (k + 1))) :
    stringFormat.alone.Ensures .putHexDword m fun ip m' => ∃ text, PutsText 8 m text ip m' ∧
      text.length = k + 1 ∧ hexValue text = some (m.eax.toNat % 16 ^ (k + 1)) := by
  refine (ensures_putHexDword hk h hcl).mono fun ip m' hputs => ⟨_, hputs, ?_, ?_⟩
  · exact length_hexBytes _ _
  · exact hexValue_hexBytes _ _

/-- A call for the three lowest digits of a number of five. -/
def truncated : Machine Files := { minimum with eax := 0xABCDE#32, ecx := 12#32 }

/-- Three digits of a longer number. -/
theorem putHex_exact_truncated :
    stringFormat.alone.Ensures .putHexDword truncated fun ip m' => ∃ text,
      PutsText 8 truncated text ip m' ∧ text.length = 3 ∧ hexValue text = some 0xCDE := by
  refine putHex_exact (m := truncated) (show 2 < 8 by decide) ?_ rfl
  have hedi : truncated.edi.toNat = 0x800 := rfl
  have hesp : truncated.esp.toNat = 0x1000 := rfl
  have hsegments : truncated.es.toNat = 0 ∧ truncated.ss.toNat = 0 ∧ truncated.ds.toNat = 0 :=
    ⟨rfl, rfl, rfl⟩
  constructor
  case direction => rfl
  case hexDigits =>
    unfold HasHexDigits BytesAt
    decide
  case stack => exact ⟨by omega, by omega⟩
  case room => omega
  all_goals
    unfold Apart
    omega

end StringFormat

end Ts3100
