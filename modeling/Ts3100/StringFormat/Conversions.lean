import Ts3100.StringFormat.Fprintf

/-! # The conversions of fprintf

Each format label loads the argument at `ss:ebp` and enters a conversion; the conversion returns to
`.print`, which writes the text from the window. -/

namespace Ts3100

namespace StringFormat

open I386
open RealMode (Word Flags fill)

variable {m m' : Machine Files} {n : Nat} {r : Radix} {w : Width}

/-! ## The texts -/

/-- A number has at most `k` digits if it is below the power of ten. -/
theorem length_decimalText_le {n k : Nat} (hk : 0 < k) : (decimalText n).length ≤ k ↔ n < 10 ^ k := by
  rw [decimalText, List.length_map, Nat.length_toDigits_le_iff (by omega) hk]

/-- Only a sign and ten digits are longer than ten bytes. -/
theorem length_signedText_le {v : Int} (hlow : -2147483648 ≤ v) (hhigh : v < 2147483648) :
    (signedText v).length ≤ 11 ∧ ((signedText v).length ≤ 10 ↔ -1000000000 < v) := by
  have hnine := length_decimalText_le (n := v.natAbs) (k := 9) (by omega)
  have hten := length_decimalText_le (n := v.natAbs) (k := 10) (by omega)
  by_cases hneg : v < 0
  · rw [signedText, if_pos hneg, List.length_cons]
    omega
  · rw [signedText, if_neg hneg]
    omega

/-- No text of the code's conversions is longer than eleven bytes. -/
theorem length_text_le (hr : r ≠ .binary) (w : Width) (v : Dword) : (r.text w v).length ≤ 11 := by
  have hbits : w.bits ≤ 32 := by cases w <;> decide
  have hpow : 2 ^ w.bits ≤ 2 ^ 32 := Nat.pow_le_pow_right (by omega) hbits
  cases r with
  | unsigned =>
      have hlt := (v.setWidth w.bits).isLt
      have hten := (length_decimalText_le (n := (v.setWidth w.bits).toNat) (k := 10) (by omega)).mpr
        (by omega)
      exact Nat.le_succ_of_le hten
  | signed =>
      have hlow := BitVec.le_toInt (v.setWidth w.bits)
      have hhigh := BitVec.toInt_lt (x := v.setWidth w.bits)
      refine (length_signedText_le ?_ ?_).1 <;> cases w <;> simp only [Width.bits] at * <;> omega
  | hex =>
      rw [Radix.text, length_hexBytes]
      omega
  | binary => exact absurd rfl hr

/-- It has one at least. -/
theorem length_decimalText_pos (n : Nat) : 0 < (decimalText n).length := by
  rw [decimalText, List.length_map]
  exact Nat.length_toDigits_pos

/-- No text is empty. -/
theorem length_text_pos (hr : r ≠ .binary) (w : Width) (v : Dword) : 0 < (r.text w v).length := by
  cases r with
  | unsigned => exact length_decimalText_pos _
  | signed =>
      rw [Radix.text, signedText]
      split
      · exact Nat.succ_pos _
      · exact length_decimalText_pos _
  | hex =>
      rw [Radix.text, length_hexBytes]
      cases w <;> decide
  | binary => exact absurd rfl hr

/-! ## Loading an argument -/

/-- The argument of a width at `a`, with zeros above it. -/
def argument (mem : Nat → Byte) (a : Nat) : Width → Dword
  | .byte => (mem a).setWidth 32
  | .word => (read16 mem a).setWidth 32
  | .dword => read32 mem a

/-- What a format label loads: a signed argument is extended by its sign. -/
def loaded (mem : Nat → Byte) (a : Nat) : Radix → Width → Dword
  | .signed, .byte => (mem a).signExtend 32
  | .signed, .word => (read16 mem a).signExtend 32
  | _, w => argument mem a w

/-- The routine of a radix. -/
def putLabel : Radix → Label
  | .unsigned => .putDecDword
  | .signed => .putDecDwordSigned
  | .hex => .putHexDword
  | .binary => .finish

/-- A format label loads its argument. -/
theorem step_format (hr : r ≠ .binary) (hroom : m.ebp.toNat + w.slot ≤ 65536) :
    stringFormat.step (formatLabel r w) m = .goto (putLabel r) { m with
      eax := loaded m.memory (m.ss.toNat * 16 + m.ebp.toNat) r w } := by
  have haddress (k : Nat) (hk : k ≤ w.slot) :
      m.address .ss m.ebp k = some (m.ss.toNat * 16 + m.ebp.toNat) :=
    Machine.address_eq (by omega)
  cases w with
  | byte =>
      have hload : m.load8 .ss .ebp = some (m.memory (m.ss.toNat * 16 + m.ebp.toNat)) := by
        rw [Machine.load8, Machine.get, haddress 1 (by decide), Option.map_some]
      cases r with
      | binary => exact absurd rfl hr
      | _ => simp [Program.step, stringFormat, formatLabel, putLabel, loaded, argument, hload]
  | word =>
      have hload : m.load16 .ss .ebp = some (read16 m.memory (m.ss.toNat * 16 + m.ebp.toNat)) := by
        rw [Machine.load16, Machine.get, haddress 2 (by decide), Option.map_some]
      cases r with
      | binary => exact absurd rfl hr
      | _ => simp [Program.step, stringFormat, formatLabel, putLabel, loaded, argument, hload]
  | dword =>
      have hload : m.load (.mem .ss .ebp) = some (read32 m.memory (m.ss.toNat * 16 + m.ebp.toNat)) := by
        rw [Machine.load, Machine.get, haddress 4 (by decide), Option.map_some]
      cases r with
      | binary => exact absurd rfl hr
      | _ => simp [Program.step, stringFormat, formatLabel, putLabel, loaded, argument, hload]

/-- An argument fits its width. -/
theorem setWidth_argument (mem : Nat → Byte) (a : Nat) (w : Width) :
    ((argument mem a w).setWidth w.bits).toNat = (argument mem a w).toNat := by
  cases w with
  | byte =>
      have hlt := (mem a).isLt
      simp only [argument, Width.bits, BitVec.toNat_setWidth]
      omega
  | word =>
      have hlt := (read16 mem a).isLt
      simp only [argument, Width.bits, BitVec.toNat_setWidth]
      omega
  | dword => rw [Width.bits, BitVec.setWidth_eq]

/-- A signed argument is the number that its bits denote. -/
theorem toInt_loaded (mem : Nat → Byte) (a : Nat) (w : Width) :
    (loaded mem a .signed w).toInt = ((argument mem a w).setWidth w.bits).toInt := by
  cases w with
  | byte =>
      rw [loaded, BitVec.toInt_signExtend_of_le (by omega), argument, Width.bits,
        BitVec.setWidth_setWidth_of_le _ (by omega), BitVec.setWidth_eq]
  | word =>
      rw [loaded, BitVec.toInt_signExtend_of_le (by omega), argument, Width.bits,
        BitVec.setWidth_setWidth_of_le _ (by omega), BitVec.setWidth_eq]
  | dword =>
      change (argument mem a .dword).toInt = _
      rw [Width.bits, BitVec.setWidth_eq]

/-! ## Converting it -/

/-- A conversion may be entered: a return address on the stack with room for two registers below it,
room for eleven bytes at `es:edi`, the tables at `ds`, and these apart. -/
structure ReadyToConvert (m : Machine Files) : Prop where
  direction : m.direction = false
  stack : 8 ≤ m.esp.toNat ∧ m.esp.toNat + 2 ≤ 65536
  room : m.edi.toNat + 11 ≤ 65536
  divisors : HasDivisors m.memory (m.ds.toNat * 16)
  hexDigits : HasHexDigits m.memory (m.ds.toNat * 16)
  output_stack : Apart (m.es.toNat * 16 + m.edi.toNat) 11 (m.ss.toNat * 16 + m.esp.toNat - 8) 10
  output_tables : Apart (m.es.toNat * 16 + m.edi.toNat) 11 (m.ds.toNat * 16 + 0x194) 52
  stack_tables : Apart (m.ss.toNat * 16 + m.esp.toNat - 8) 8 (m.ds.toNat * 16 + 0x194) 52

/-- A conversion has room for the decimal routines. -/
theorem ReadyToConvert.readyToPut (h : ReadyToConvert m) (hn : n ≤ 11) : ReadyToPut m n := by
  obtain ⟨hdir, ⟨hlow, hhigh⟩, hroom, hdivisors, -, hstack, htables, hstackTables⟩ := h
  unfold Apart at hstack htables hstackTables
  constructor
  case direction => exact hdir
  case stack => omega
  case room => omega
  case divisors => exact hdivisors
  all_goals
    unfold Apart
    omega

/-- It has room for the hexadecimal one. -/
theorem ReadyToConvert.readyToPutHex (h : ReadyToConvert m) (hn : n ≤ 11) : ReadyToPutHex m n := by
  obtain ⟨hdir, ⟨hlow, hhigh⟩, hroom, -, hdigits, hstack, htables, hstackTables⟩ := h
  unfold Apart at hstack htables hstackTables
  constructor
  case direction => exact hdir
  case stack => omega
  case room => omega
  case hexDigits => exact hdigits
  all_goals
    unfold Apart
    omega

/-- That does not depend on the value. -/
theorem ReadyToConvert.set_eax (h : ReadyToConvert m) (v : Dword) :
    ReadyToConvert { m with eax := v } := by
  obtain ⟨hdir, hstack, hroom, hdivisors, hdigits, houtput, htables, hstackTables⟩ := h
  exact ⟨hdir, hstack, hroom, hdivisors, hdigits, houtput, htables, hstackTables⟩

/-- A smaller part of the stack written is also a part of a larger one. -/
theorem PutsText.mono {scratch scratch' : Nat} {text : List Byte} {ip : Word}
    (h : PutsText scratch m text ip m') (hle : scratch ≤ scratch') : PutsText scratch' m text ip m' :=
  { h with frame := fun x hx hx' => h.frame x hx (by omega) }

/-- **A format label writes the text of its argument** and returns to the address on the stack. -/
theorem ensures_format (hr : r ≠ .binary) (h : ReadyToConvert m)
    (hecx : m.ecx = BitVec.ofNat 32 w.bits) (hroom : m.ebp.toNat + w.slot ≤ 65536) :
    stringFormat.alone.Ensures (formatLabel r w) m
      (PutsText 8 m (r.text w (argument m.memory (m.ss.toNat * 16 + m.ebp.toNat) w))) := by
  have hlength := length_text_le hr w (argument m.memory (m.ss.toNat * 16 + m.ebp.toNat) w)
  refine Program.Ensures.goto ((Program.step_alone _ _).trans (step_format hr hroom)) ?_
  have hready := h.set_eax (loaded m.memory (m.ss.toNat * 16 + m.ebp.toNat) r w)
  cases r with
  | unsigned =>
      rw [Radix.text, setWidth_argument] at hlength ⊢
      refine (ensures_putDecDword (hready.readyToPut hlength)).mono fun ip m' hputs => ?_
      exact (hputs.of_eax_flags (f := m.flags)).mono (by omega)
  | signed =>
      rw [Radix.text, ← toInt_loaded] at hlength ⊢
      refine (ensures_putDecDwordSigned (hready.readyToPut hlength)).mono fun ip m' hputs => ?_
      exact (hputs.of_eax_flags (f := m.flags)).mono (by omega)
  | hex =>
      rw [Radix.text, setWidth_argument] at hlength ⊢
      obtain ⟨k, hk, hbits⟩ : ∃ k, k < 8 ∧ w.bits = 4 * (k + 1) := by
        cases w with
        | byte => exact ⟨1, by omega, rfl⟩
        | word => exact ⟨3, by omega, rfl⟩
        | dword => exact ⟨7, by omega, rfl⟩
      have hdigits : w.bits / 4 = k + 1 := by omega
      rw [hdigits]
      have hcl : byteOf m.ecx 0 = BitVec.ofNat 8 (4 * (k + 1)) := by
        apply BitVec.eq_of_toNat_eq
        rw [hecx, hbits, toNat_byteOf, BitVec.toNat_ofNat, BitVec.toNat_ofNat]
        omega
      refine (ensures_putHexDword hk (hready.readyToPutHex (by omega)) hcl).mono fun ip m' hputs => ?_
      exact hputs.of_eax_flags (f := m.flags)
  | binary => exact absurd rfl hr


/-! ## The other blocks -/

/-- What DOS reads from a segment. -/
theorem bytesFrom_eq {mem : Nat → Byte} {s : Word} {o : Dword} {bs : List Byte}
    (hbs : BytesAt mem (s.toNat * 16 + o.toNat) bs) (hroom : o.toNat + bs.length ≤ 65536) :
    bytesFrom mem s (o.setWidth 16) bs.length = bs := by
  apply List.ext_getElem
  · simp [bytesFrom]
  · intro i hi hi'
    have hoffset : ((o.setWidth 16 : Word).toNat + i) % 65536 = o.toNat + i := by
      rw [BitVec.toNat_setWidth]
      omega
    simp only [bytesFrom, List.getElem_map, List.getElem_range, hoffset, ← Nat.add_assoc]
    exact hbs i hi'

/-- Appending twice to a file. -/
theorem Files.append_append (files : Files) (handle : Word) (bs cs : List Byte) :
    (files.append handle bs).append handle cs = files.append handle (bs ++ cs) := by
  simp [Files.append]

/-- `fprintf` clears the direction flag and reserves its window. -/
theorem step_fprintf (hlow : 14 ≤ m.esp.toNat) (hhigh : m.esp.toNat < 65536) :
    ∃ f, (14 < m.esp.toNat → f.zero = false) ∧ stringFormat.step .fprintf m = .goto .next { m with
      direction := false
      esp := m.esp - 14#32
      memory := fill m.memory (m.ss.toNat * 16 + m.esp.toNat - 4) 4 (byteOf m.ebp)
      esi := m.edi
      flags := f } := by
  refine ⟨(RealMode.subb (m.esp - 4#32) 10#32).2, fun hlt => ?_, ?_⟩
  · refine decide_eq_false fun heq => ?_
    have hzero : (m.esp - 4#32 - 10#32).toNat = 0 := by rw [heq]; rfl
    bv_omega
  · simp [Program.step, stringFormat, fprintfCode, Label.fallsTo, Machine.push32_eq,
      show 4 ≤ m.esp.toNat by omega, hhigh, BitVec.sub_sub]

/-- `%%%` puts a percent sign into the window. -/
theorem step_formatEscape (hdir : m.direction = false) (hedi : m.edi.toNat < 65536) :
    stringFormat.step .formatEscape m = .goto .print { m.emit [percent] with
      eax := setByte0 m.eax percent } := by
  simp [Program.step, stringFormat, formatEscapeCode, Label.fallsTo, Machine.stosb_eq, hdir, hedi,
    Machine.emit, percent]

/-- `.print` writes what is between `edx` and `edi`. -/
theorem step_print (hesp : m.esp.toNat + 4 < 65536) :
    stringFormat.step .print m = .goto .next { m with
      eax := setByte1 m.eax 0x40#8
      edi := m.edi - m.edx
      ecx := read32 m.memory (m.ss.toNat * 16 + m.esp.toNat)
      esp := m.esp + 4#32
      world := m.world.append (m.ebx.setWidth 16) (bytesFrom m.memory m.ds (m.edx.setWidth 16)
        ((m.edi - m.edx).setWidth 16 : Word).toNat)
      flags := (RealMode.subb m.edi m.edx).2 } := by
  simp [Program.step, stringFormat, printCode, interrupt, dosWrite, Machine.pop32_eq, hesp]

/-- The end of `fprintf` restores its caller's registers. -/
theorem step_finish (hesp : m.esp.toNat + 16 ≤ 65536) :
    ∃ f, stringFormat.step .finish m = .returned
      (read16 m.memory (m.ss.toNat * 16 + m.esp.toNat + 14)) { m with
        ebp := read32 m.memory (m.ss.toNat * 16 + m.esp.toNat + 10)
        esp := addSp (m.esp + 14#32) 2#16
        flags := f } := by
  have hadd₁₀ : (m.esp + 10#32).toNat = m.esp.toNat + 10 := by bv_omega
  have hadd₁₄ : (m.esp + 14#32).toNat = m.esp.toNat + 14 := by bv_omega
  refine ⟨(RealMode.addc m.esp 10#32 false).2, ?_⟩
  simp [Program.step, stringFormat, finishCode, Machine.pop32_eq, Machine.pop16_eq, hadd₁₀, hadd₁₄,
    RealMode.addc, BitVec.add_assoc, show m.esp.toNat + 10 + 4 < 65536 by omega,
    show m.esp.toNat + 14 + 2 ≤ 65536 by omega, Nat.add_assoc]

end StringFormat

end Ts3100
