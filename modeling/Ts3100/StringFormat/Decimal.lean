import Ts3100.Library.Digits
import Ts3100.StringFormat.Code

/-! # Decimal conversion

`put_dec_dword` skips the divisors of its table that exceed the value, then divides by each that is
left; `put_dec_dword_signed` writes a sign and goes on with the magnitude. -/

namespace Ts3100

namespace StringFormat

open I386 Digits
open RealMode (Word fill)

/-! ## Numerals -/

/-- The canonical decimal numeral. -/
def decimalText (n : Nat) : List Byte := (Nat.toDigits 10 n).map ascii

/-- The canonical decimal numeral with its sign. -/
def signedText (i : Int) : List Byte :=
  if i < 0 then ascii '-' :: decimalText i.natAbs else decimalText i.natAbs

/-- What `add eax, '0'` makes of a digit. -/
def digitByte (d : Nat) : Byte := BitVec.ofNat 8 (0x30 + d)

/-- The `k` lowest decimal digits of a number. -/
def digitBytes (k n : Nat) : List Byte := (fixed 10 k n).map digitByte

/-- A digit and `'0'` are its character. -/
theorem byteOf_add_zero (v : Dword) : byteOf (v + 0x30#32) 0 = digitByte v.toNat := by
  apply BitVec.eq_of_toNat_eq
  rw [toNat_byteOf, digitByte, BitVec.toNat_add]
  simp only [BitVec.toNat_ofNat, Nat.reducePow, Nat.mul_zero, Nat.pow_zero, Nat.div_one]
  omega

/-- The characters of Lean's digits are the same. -/
theorem ascii_digitChar {d : Nat} (h : d < 10) : ascii (Nat.digitChar d) = digitByte d := by
  revert d
  decide

/-- The text of a number with `k + 1` digits. -/
theorem decimalText_eq {k n : Nat} (hlt : n < 10 ^ (k + 1)) (hle : k = 0 ∨ 10 ^ k ≤ n) :
    decimalText n = digitBytes (k + 1) n := by
  rw [decimalText, toDigits_eq_fixed (by omega) hlt hle, List.map_map, digitBytes]
  exact List.map_congr_left fun d hd => ascii_digitChar (lt_of_mem_fixed (by omega) hd)

/-- There are as many characters as digits. -/
@[simp] theorem length_digitBytes (k n : Nat) : (digitBytes k n).length = k := by
  rw [digitBytes, List.length_map, length_fixed]

/-! ## The divisors -/

/-- The table of divisors depends on its bytes. -/
theorem HasDivisors.congr {mem mem' : Nat → Byte} {base : Nat} (h : HasDivisors mem base)
    (hsame : ∀ x, base + 0x194 ≤ x → x < base + 0x1B8 → mem' x = mem x) : HasDivisors mem' base := by
  intro i hi
  rw [← h i hi]
  have hlen : i < 9 := hi
  apply read32_congr
  intro j hj
  have htable : decDivisorTable.toNat = 0x194 := rfl
  exact hsame _ (by omega) (by omega)

/-- Output apart from it leaves it. -/
theorem HasDivisors.emit {m : Machine Files} {bs : List Byte}
    (h : HasDivisors m.memory (m.ds.toNat * 16))
    (hapart : Apart (m.es.toNat * 16 + m.edi.toNat) bs.length (m.ds.toNat * 16 + 0x194) 36) :
    HasDivisors (m.emit bs).memory (m.ds.toNat * 16) := by
  refine h.congr fun x hlow hhigh => storeBytes_of_notMem ?_
  unfold Apart at hapart
  omega

variable {m : Machine Files} {k : Nat} {Q : Word → Machine Files → Prop}

/-- `ecx` when `k` divisors are left. -/
@[irreducible] def divisorOffset (k : Nat) : Dword := decDivisorTableEnd - BitVec.ofNat 32 (4 * k)

/-- The offset of a divisor as a number. -/
theorem toNat_divisorOffset (hk : k ≤ 10) : (divisorOffset k).toNat = 0x1B8 - 4 * k := by
  unfold divisorOffset decDivisorTableEnd
  bv_omega

/-- The next smaller divisor is a double word up. -/
theorem divisorOffset_succ_add (k : Nat) : divisorOffset (k + 1) + 4#32 = divisorOffset k := by
  unfold divisorOffset
  rw [Nat.mul_add, BitVec.ofNat_add]
  bv_omega

/-- The divisor at `ecx`. -/
theorem HasDivisors.read {mem : Nat → Byte} {base : Nat} (h : HasDivisors mem base) (hk : k < 9) :
    read32 mem (base + (divisorOffset (k + 1)).toNat) = BitVec.ofNat 32 (10 ^ (k + 1)) := by
  have hi := h (8 - k) (show 8 - k < 9 by omega)
  rw [toNat_divisorOffset (by omega)]
  rw [show base + (0x1B8 - 4 * (k + 1)) = base + decDivisorTable.toNat + 4 * (8 - k) by
    simp only [decDivisorTable, BitVec.toNat_ofNat]
    omega, hi]
  interval_cases k <;> rfl

/-- What is loaded from there is a power of ten. -/
theorem HasDivisors.load (h : HasDivisors m.memory (m.ds.toNat * 16)) (hk : k < 9)
    (hecx : m.ecx = divisorOffset (k + 1)) :
    ∃ d : Dword, d.toNat = 10 ^ (k + 1) ∧ m.load (.mem .ds .ecx) = some d := by
  have hoffset : (divisorOffset (k + 1)).toNat + 4 ≤ 65536 := by
    rw [toNat_divisorOffset (by omega)]
    omega
  refine ⟨BitVec.ofNat 32 (10 ^ (k + 1)), by interval_cases k <;> rfl, ?_⟩
  rw [Machine.load, Machine.get, hecx, Machine.address_eq hoffset, Option.map_some]
  exact congrArg some (h.read hk)

/-! ## Blocks -/

/-- `.compute_digit` writes a quotient and goes on with the remainder. -/
theorem step_computeDigit (hdir : m.direction = false) (hedi : m.edi.toNat < 65536) (hk : k < 9)
    (hecx : m.ecx = divisorOffset (k + 1)) (hedx : m.edx = 0#32)
    (hdivisors : HasDivisors m.memory (m.ds.toNat * 16)) :
    ∃ f, stringFormat.step .computeDigit m =
      .goto (if k = 0 then .finalDigit else .computeDigit)
        { m.emit [digitByte (m.eax.toNat / 10 ^ (k + 1))] with
          eax := BitVec.ofNat 32 (m.eax.toNat % 10 ^ (k + 1))
          edx := 0#32
          ecx := divisorOffset k
          flags := f } := by
  obtain ⟨d, hd, hload⟩ := hdivisors.load hk hecx
  have hdne : d ≠ 0#32 := by
    rintro rfl
    have hpos : 0 < 10 ^ (k + 1) := Nat.pow_pos (by omega)
    rw [← hd] at hpos
    exact absurd hpos (by decide)
  have hdiv := Machine.div_eq hedx hdne
  -- the quotient is a digit
  have hquotient : byteOf (m.eax / d + 48#32) 0 = digitByte (m.eax.toNat / 10 ^ (k + 1)) := by
    rw [← hd, ← BitVec.toNat_udiv]
    exact byteOf_add_zero _
  have hremainder : m.eax % d = BitVec.ofNat 32 (m.eax.toNat % 10 ^ (k + 1)) := by
    rw [← hd, ← BitVec.toNat_umod, BitVec.ofNat_toNat, BitVec.setWidth_eq]
  have hend : divisorOffset k = decDivisorTableEnd ↔ k = 0 := by
    rw [← BitVec.toNat_inj, toNat_divisorOffset (by omega)]
    simp only [decDivisorTableEnd, BitVec.toNat_ofNat]
    omega
  refine ⟨(RealMode.subb (divisorOffset k) decDivisorTableEnd).2, ?_⟩
  by_cases hzero : k = 0
  · simp [Program.step, stringFormat, computeDigitCode, Label.fallsTo, hload, hdiv, Machine.stosb_eq,
      hedi, hdir, hecx, divisorOffset_succ_add, hend, eq_true hzero, hquotient, hremainder,
      Machine.emit]
  · simp [Program.step, stringFormat, computeDigitCode, hload, hdiv, Machine.stosb_eq,
      hedi, hdir, hecx, divisorOffset_succ_add, hend, hzero, hquotient, hremainder, Machine.emit]

/-- `.final_digit` writes the last digit and returns. -/
theorem step_finalDigit (hdir : m.direction = false) (hedi : m.edi.toNat < 65536)
    (hesp : m.esp.toNat + 6 ≤ 65536) :
    ∃ f, stringFormat.step .finalDigit m =
      .returned
        (read16 (m.emit [digitByte m.eax.toNat]).memory (m.ss.toNat * 16 + m.esp.toNat + 4))
        { m.emit [digitByte m.eax.toNat] with
          eax := m.eax + 0x30#32
          edx := read32 (m.emit [digitByte m.eax.toNat]).memory (m.ss.toNat * 16 + m.esp.toNat)
          esp := addSp (m.esp + 4#32) 2#16
          flags := f } := by
  have hdigit := byteOf_add_zero m.eax
  have hpop : (m.esp + 4#32).toNat = m.esp.toNat + 4 := by bv_omega
  refine ⟨(RealMode.addc m.eax 0x30#32 false).2, ?_⟩
  simp [Program.step, stringFormat, finalDigitCode, Machine.stosb_eq, hedi, hdir, hdigit,
    Machine.pop32_eq, Machine.pop16_eq, Machine.emit, hpop, show m.esp.toNat + 4 < 65536 by omega,
    show m.esp.toNat + 4 + 2 ≤ 65536 by omega, Nat.add_assoc]

/-- `.get_extent` skips a divisor that exceeds the value. -/
theorem step_getExtent (hk : k < 9) (hecx : m.ecx = divisorOffset (k + 2))
    (hdivisors : HasDivisors m.memory (m.ds.toNat * 16)) :
    ∃ f, stringFormat.step .getExtent m =
      .goto (if m.eax.toNat < 10 ^ (k + 1) then .getExtent else .computeDigit)
        { m with
          ecx := divisorOffset (k + 1)
          flags := f } := by
  have hoffset := toNat_divisorOffset (k := k + 2) (by omega)
  have hnotLast : divisorOffset (k + 2) ≠ decDivisorTableEnd - 4#32 := by
    intro h
    rw [h] at hoffset
    simp only [decDivisorTableEnd] at hoffset
    bv_omega
  obtain ⟨d, hd, hload⟩ := HasDivisors.load (m := { m with
    ecx := divisorOffset (k + 1)
    flags := (RealMode.addc (divisorOffset (k + 2)) 4#32 false).2 }) hdivisors hk rfl
  refine ⟨(RealMode.subb m.eax d).2, ?_⟩
  have hcarry : (RealMode.subb m.eax d).2.carry = decide (m.eax.toNat < 10 ^ (k + 1)) := by
    rw [← hd]
    rfl
  by_cases hlt : m.eax.toNat < 10 ^ (k + 1)
  · simp [Program.step, stringFormat, getExtentCode, hecx, hnotLast, divisorOffset_succ_add, hload,
      hcarry, hlt]
  · simp [Program.step, stringFormat, getExtentCode, Label.fallsTo, hecx, hnotLast,
      divisorOffset_succ_add, hload, hcarry, hlt]

/-- `.get_extent` without a divisor left. -/
theorem step_getExtent_last (hecx : m.ecx = divisorOffset 1) :
    ∃ f, stringFormat.step .getExtent m = .goto .finalDigit { m with flags := f } := by
  have hend : divisorOffset 1 = decDivisorTableEnd - 4#32 := by rw [divisorOffset]
  refine ⟨(RealMode.subb m.ecx (decDivisorTableEnd - 4#32)).2, ?_⟩
  simp [Program.step, stringFormat, getExtentCode, hecx, hend]

/-! ## Loops -/

/-- The digits of a number in front of its last one. -/
theorem digitBytes_div (k n : Nat) : digitBytes (k + 1) (n / 10) =
    digitByte (n / 10 ^ (k + 1) % 10) :: digitBytes k (n % 10 ^ (k + 1) / 10) := by
  have hpow : 10 ^ (k + 1) = 10 * 10 ^ k := Nat.pow_succ'
  rw [digitBytes, fixed, List.map_cons, Nat.div_div_eq_div_mul, ← hpow, digitBytes, hpow,
    Nat.mod_mul_right_div_self, fixed_mod (Nat.le_refl k)]

/-- From `.compute_digit` with `k + 1` divisors left, all digits but the last are written. -/
theorem ensures_computeDigit (hdir : m.direction = false) (hk : k < 9)
    (hecx : m.ecx = divisorOffset (k + 1)) (hedx : m.edx = 0#32)
    (hdivisors : HasDivisors m.memory (m.ds.toNat * 16)) (hlt : m.eax.toNat < 10 ^ (k + 2))
    (hroom : m.edi.toNat + (k + 1) < 65536)
    (hapart : Apart (m.es.toNat * 16 + m.edi.toNat) (k + 1) (m.ds.toNat * 16 + 0x194) 36)
    (hthen : ∀ f, stringFormat.alone.Ensures .finalDigit
      { m.emit (digitBytes (k + 1) (m.eax.toNat / 10)) with
        eax := BitVec.ofNat 32 (m.eax.toNat % 10)
        edx := 0#32
        ecx := divisorOffset 0
        flags := f } Q) :
    stringFormat.alone.Ensures .computeDigit m Q := by
  -- on the divisors left: each round emits the quotient's digit and goes on with the remainder
  induction k generalizing m with
  | zero =>
      obtain ⟨f, hstep⟩ := step_computeDigit hdir (by omega) hk hecx hedx hdivisors
      rw [if_pos rfl] at hstep
      refine Program.Ensures.goto ((Program.step_alone _ _).trans hstep) ?_
      have hquotient : m.eax.toNat / 10 ^ (0 + 1) % 10 = m.eax.toNat / 10 ^ (0 + 1) :=
        Nat.mod_eq_of_lt (by omega)
      have hdigits := digitBytes_div 0 m.eax.toNat
      rw [hquotient] at hdigits
      have hfinal := hthen f
      rw [hdigits] at hfinal
      exact hfinal
  | succ k ih =>
      obtain ⟨f, hstep⟩ := step_computeDigit hdir (by omega) hk hecx hedx hdivisors
      rw [if_neg (by omega)] at hstep
      refine Program.Ensures.goto ((Program.step_alone _ _).trans hstep) ?_
      -- the value is below `10 ^ (k + 3)`, so the quotient is one digit
      have hquotient : m.eax.toNat / 10 ^ (k + 1 + 1) % 10 = m.eax.toNat / 10 ^ (k + 1 + 1) := by
        refine Nat.mod_eq_of_lt (Nat.div_lt_of_lt_mul ?_)
        rwa [← Nat.pow_succ]
      have hedi : (m.edi + 1#32).toNat = m.edi.toNat + 1 := by bv_omega
      have hremainder : (BitVec.ofNat 32 (m.eax.toNat % 10 ^ (k + 1 + 1))).toNat =
          m.eax.toNat % 10 ^ (k + 1 + 1) := by
        rw [BitVec.toNat_ofNat]
        exact Nat.mod_eq_of_lt (Nat.lt_of_le_of_lt (Nat.mod_le _ _) m.eax.isLt)
      have hfirst : Apart (m.es.toNat * 16 + m.edi.toNat) 1 (m.ds.toNat * 16 + 0x194) 36 := by
        unfold Apart at hapart ⊢
        omega
      refine ih (m := { m.emit [digitByte (m.eax.toNat / 10 ^ (k + 1 + 1))] with
        eax := BitVec.ofNat 32 (m.eax.toNat % 10 ^ (k + 1 + 1))
        edx := 0#32
        ecx := divisorOffset (k + 1)
        flags := f }) hdir (by omega) rfl rfl (hdivisors.emit hfirst) ?_ ?_ ?_ fun f' => ?_
      · rw [hremainder]
        exact Nat.mod_lt _ (Nat.pow_pos (by omega))
      · change (m.edi + 1#32).toNat + (k + 1) < 65536
        omega
      · change Apart (m.es.toNat * 16 + (m.edi + 1#32).toNat) (k + 1) (m.ds.toNat * 16 + 0x194) 36
        unfold Apart at hapart ⊢
        omega
      · have hfinal := hthen f'
        have hlast : m.eax.toNat % 10 ^ (k + 1 + 1) % 10 = m.eax.toNat % 10 :=
          Nat.mod_mod_of_dvd _ (Dvd.intro_left _ rfl)
        rw [digitBytes_div, hquotient, ← List.singleton_append, ← Machine.emit_append] at hfinal
        · simp only [hremainder, hlast]
          exact hfinal
        · simp only [List.length_singleton]
          omega

/-- From `.get_extent` with `k` divisors left, all digits of the numeral but the last are written. -/
theorem ensures_getExtent (hdir : m.direction = false) (hk : k < 10)
    (hecx : m.ecx = divisorOffset (k + 1)) (hedx : m.edx = 0#32)
    (hdivisors : HasDivisors m.memory (m.ds.toNat * 16)) (hlt : m.eax.toNat < 10 ^ (k + 1))
    (hroom : m.edi.toNat + (decimalText m.eax.toNat).length ≤ 65536)
    (hapart : Apart (m.es.toNat * 16 + m.edi.toNat) (decimalText m.eax.toNat).length
      (m.ds.toNat * 16 + 0x194) 36)
    (hthen : ∀ text ecx f, decimalText m.eax.toNat = text ++ [digitByte (m.eax.toNat % 10)] →
      stringFormat.alone.Ensures .finalDigit
        { m.emit text with
          eax := BitVec.ofNat 32 (m.eax.toNat % 10)
          edx := 0#32
          ecx := ecx
          flags := f } Q) :
    stringFormat.alone.Ensures .getExtent m Q := by
  -- on the divisors left, from the highest: the first that does not exceed the value gives the
  -- first digit
  induction k generalizing m with
  | zero =>
      obtain ⟨f, hstep⟩ := step_getExtent_last hecx
      refine Program.Ensures.goto ((Program.step_alone _ _).trans hstep) ?_
      have hmod : m.eax.toNat % 10 = m.eax.toNat := Nat.mod_eq_of_lt hlt
      have hfinal := hthen [] m.ecx f (by
        rw [decimalText_eq (k := 0) hlt (Or.inl rfl), digitBytes, fixed, fixed]
        simp)
      rw [hmod, BitVec.ofNat_toNat, BitVec.setWidth_eq, ← hedx, Machine.emit_nil] at hfinal
      exact hfinal
  | succ k ih =>
      obtain ⟨f, hstep⟩ := step_getExtent (by omega) hecx hdivisors
      by_cases hbelow : m.eax.toNat < 10 ^ (k + 1)
      · -- the divisor exceeds the value
        rw [if_pos hbelow] at hstep
        refine Program.Ensures.goto ((Program.step_alone _ _).trans hstep) ?_
        exact ih (m := { m with ecx := divisorOffset (k + 1), flags := f }) hdir (by omega) rfl hedx
          hdivisors hbelow hroom hapart hthen
      · -- the first digit is not zero: the numeral has one digit for every divisor left and a last one
        rw [if_neg hbelow] at hstep
        refine Program.Ensures.goto ((Program.step_alone _ _).trans hstep) ?_
        have htext := decimalText_eq hlt (Or.inr (Nat.le_of_not_lt hbelow))
        rw [htext, length_digitBytes] at hroom hapart
        have hfirst : Apart (m.es.toNat * 16 + m.edi.toNat) (k + 1) (m.ds.toNat * 16 + 0x194) 36 := by
          unfold Apart at hapart ⊢
          omega
        refine ensures_computeDigit (m := { m with ecx := divisorOffset (k + 1), flags := f }) hdir
          (by omega) rfl hedx hdivisors hlt (by simp only; omega) hfirst fun f' => ?_
        refine hthen _ _ f' ?_
        rw [htext, digitBytes, fixed_succ_right, List.map_append, List.map_singleton, digitBytes]

/-! ## The routines -/

/-- A conversion may be called: string instructions go upwards, the stack has room for what it pushes,
its `n` bytes of output end inside the segment, and they, the table and the stack are apart. -/
structure ReadyToPut (m : Machine Files) (n : Nat) : Prop where
  direction : m.direction = false
  stack : 4 ≤ m.esp.toNat ∧ m.esp.toNat + 2 ≤ 65536
  room : m.edi.toNat + n ≤ 65536
  divisors : HasDivisors m.memory (m.ds.toNat * 16)
  output_stack : Apart (m.es.toNat * 16 + m.edi.toNat) n (m.ss.toNat * 16 + m.esp.toNat - 4) 6
  output_table : Apart (m.es.toNat * 16 + m.edi.toNat) n (m.ds.toNat * 16 + 0x194) 36
  stack_table : Apart (m.ss.toNat * 16 + m.esp.toNat - 4) 4 (m.ds.toNat * 16 + 0x194) 36

/-- A conversion called at `m` returned to `ip` with `text` written: the text is at the old `es:edi`
and `edi` behind it, the stack is popped, the other registers but `eax` and `ecx` are kept, and only
the output and the `scratch` bytes below the stack pointer differ in memory. -/
structure PutsText (scratch : Nat) (m : Machine Files) (text : List Byte) (ip : Word)
    (m' : Machine Files) : Prop where
  ip : ip = read16 m.memory (m.ss.toNat * 16 + m.esp.toNat)
  esp : m'.esp = addSp m.esp 2#16
  output : BytesAt m'.memory (m.es.toNat * 16 + m.edi.toNat) text
  edi : m'.edi = m.edi + BitVec.ofNat 32 text.length
  stored : m'.stored = m.stored ++ offsets m.edi text.length
  frame : ∀ x, ¬ (m.es.toNat * 16 + m.edi.toNat ≤ x ∧
      x < m.es.toNat * 16 + m.edi.toNat + text.length) →
    ¬ (m.ss.toNat * 16 + m.esp.toNat - scratch ≤ x ∧ x < m.ss.toNat * 16 + m.esp.toNat) →
      m'.memory x = m.memory x
  ebx : m'.ebx = m.ebx
  edx : m'.edx = m.edx
  esi : m'.esi = m.esi
  ebp : m'.ebp = m.ebp
  ds : m'.ds = m.ds
  es : m'.es = m.es
  ss : m'.ss = m.ss
  direction : m'.direction = m.direction
  world : m'.world = m.world

section eaxFlags

variable {scratch n : Nat} {text : List Byte} {v : Dword} {f : RealMode.Flags} {ip : Word}
  {m' : Machine Files}

/-- Whether a conversion may be called does not depend on the value it is called with. -/
theorem ReadyToPut.set_eax_flags (h : ReadyToPut m n) (v : Dword) (f : RealMode.Flags) :
    ReadyToPut { m with eax := v, flags := f } n :=
  ⟨h.direction, h.stack, h.room, h.divisors, h.output_stack, h.output_table, h.stack_table⟩

/-- Nor does anything else that it keeps. -/
theorem PutsText.of_eax_flags (h : PutsText scratch { m with eax := v, flags := f } text ip m') :
    PutsText scratch m text ip m' where
  ip := h.ip
  esp := h.esp
  output := h.output
  edi := h.edi
  stored := h.stored
  frame := h.frame
  ebx := h.ebx
  edx := h.edx
  esi := h.esi
  ebp := h.ebp
  ds := h.ds
  es := h.es
  ss := h.ss
  direction := h.direction
  world := h.world

end eaxFlags

/-- The machine after `edx` is pushed. -/
def pushedEdx (m : Machine Files) : Machine Files :=
  { m with
    esp := m.esp - 4#32
    memory := fill m.memory (m.ss.toNat * 16 + m.esp.toNat - 4) 4 (byteOf m.edx) }

/-- The last digit, after the others. -/
theorem ensures_finalDigit {text : List Byte} {v ecx : Dword} {f : RealMode.Flags}
    (h : ReadyToPut m (text.length + 1)) :
    stringFormat.alone.Ensures .finalDigit
      { (pushedEdx m).emit text with
        eax := v
        edx := 0#32
        ecx := ecx
        flags := f }
      (PutsText 4 m (text ++ [digitByte v.toNat])) := by
  obtain ⟨hdir, ⟨hlow, hhigh⟩, hroom, -, hstack, -, -⟩ := h
  have hsub : (m.esp - 4#32).toNat = m.esp.toNat - 4 := by bv_omega
  have hedi : (m.edi + BitVec.ofNat 32 text.length).toNat = m.edi.toNat + text.length := by
    rw [BitVec.toNat_add, BitVec.toNat_ofNat]
    omega
  obtain ⟨f', hstep⟩ := step_finalDigit (m := { (pushedEdx m).emit text with
    eax := v
    edx := 0#32
    ecx := ecx
    flags := f }) hdir (by simp only [Machine.emit, pushedEdx, hedi]; omega)
    (by simp only [Machine.emit, pushedEdx, hsub]; omega)
  refine Program.Ensures.returned ((Program.step_alone _ _).trans hstep) rfl ?_
  -- all digits in one piece
  have hemit : ((pushedEdx m).emit text).emit [digitByte v.toNat] =
      (pushedEdx m).emit (text ++ [digitByte v.toNat]) :=
    Machine.emit_append (by simp only [pushedEdx]; omega) _
  have hlen : m.edi.toNat + text.length < 2 ^ 32 := by omega
  have hmemory : storeBytes ((pushedEdx m).emit text).memory
      (m.es.toNat * 16 + (m.edi + BitVec.ofNat 32 text.length).toNat) [digitByte v.toNat] =
        storeBytes (pushedEdx m).memory (m.es.toNat * 16 + m.edi.toNat) (text ++ [digitByte v.toNat]) :=
    Machine.emit_concat_memory (m := pushedEdx m) hlen _
  -- the stack's bytes are not the output's
  have hsaved (x : Nat) (hx : m.ss.toNat * 16 + m.esp.toNat - 4 ≤ x)
      (hx' : x < m.ss.toNat * 16 + m.esp.toNat + 2) :
      storeBytes ((pushedEdx m).emit text).memory
        (m.es.toNat * 16 + (m.edi + BitVec.ofNat 32 text.length).toNat) [digitByte v.toNat] x =
          (pushedEdx m).memory x :=
    Machine.emit_concat_memory_of_apart (m := pushedEdx m) hlen hstack hx (by omega)
  constructor
  case ip =>
    change read16 (storeBytes ((pushedEdx m).emit text).memory _ _)
      (m.ss.toNat * 16 + (m.esp - 4#32).toNat + 4) = _
    rw [hsub, show m.ss.toNat * 16 + (m.esp.toNat - 4) + 4 = m.ss.toNat * 16 + m.esp.toNat by omega]
    refine read16_congr fun i hi => (hsaved _ (by omega) (by omega)).trans ?_
    exact RealMode.fill_of_notMem (by omega)
  case esp =>
    change addSp (m.esp - 4#32 + 4#32) 2#16 = _
    rw [BitVec.sub_add_cancel]
  case output =>
    have hbytes := bytesAt_storeBytes (pushedEdx m).memory (m.es.toNat * 16 + m.edi.toNat)
      (text ++ [digitByte v.toNat])
    rw [← hmemory] at hbytes
    exact hbytes
  case edi => exact congrArg Machine.edi hemit
  case stored => exact congrArg Machine.stored hemit
  case frame =>
    intro x hout hstacked
    have hkept : storeBytes (pushedEdx m).memory _ _ x = (pushedEdx m).memory x :=
      storeBytes_of_notMem hout
    exact (congrFun hmemory x).trans (hkept.trans (RealMode.fill_of_notMem (by omega)))
  case edx =>
    change read32 (storeBytes ((pushedEdx m).emit text).memory _ _)
      (m.ss.toNat * 16 + (m.esp - 4#32).toNat) = _
    rw [hsub, ← Nat.add_sub_assoc hlow]
    refine (read32_congr fun i hi => hsaved _ (by omega) (by omega)).trans ?_
    exact read32_fill m.edx
  all_goals rfl

/-- `put_dec_dword` writes the canonical decimal numeral. -/
theorem ensures_putDecDword (h : ReadyToPut m (decimalText m.eax.toNat).length) :
    stringFormat.alone.Ensures .putDecDword m (PutsText 4 m (decimalText m.eax.toNat)) := by
  have hready := h
  obtain ⟨hdir, ⟨hlow, hhigh⟩, hroom, hdivisors, hstack, htable, hstackTable⟩ := h
  have hoffset : divisorOffset 10 = decDivisorTable - 4#32 := by
    rw [divisorOffset]
    rfl
  have hstep : stringFormat.step .putDecDword m = .goto .getExtent { pushedEdx m with
      edx := 0#32
      ecx := divisorOffset 10
      flags := (RealMode.logic (0#32 : Dword)).2 } := by
    simp [Program.step, stringFormat, putDecDwordCode, Label.fallsTo, Machine.push32_eq, hlow,
      show m.esp.toNat < 65536 by omega, hoffset, pushedEdx]
  refine Program.Ensures.goto ((Program.step_alone _ _).trans hstep) ?_
  -- the push leaves the table alone
  have hdivisors' : HasDivisors (pushedEdx m).memory (m.ds.toNat * 16) := by
    refine hdivisors.congr fun x hx hx' => RealMode.fill_of_notMem ?_
    unfold Apart at hstackTable
    omega
  have hlt : m.eax.toNat < 10 ^ (9 + 1) := Nat.lt_trans m.eax.isLt (by norm_num)
  refine ensures_getExtent (m := { pushedEdx m with
    edx := 0#32
    ecx := divisorOffset 10
    flags := (RealMode.logic (0#32 : Dword)).2 }) hdir (by omega) rfl rfl hdivisors' hlt hroom htable
    fun text ecx f htext => ?_
  have hlast : (BitVec.ofNat 32 (m.eax.toNat % 10)).toNat = m.eax.toNat % 10 := by
    rw [BitVec.toNat_ofNat]
    omega
  have htext' : decimalText m.eax.toNat =
      text ++ [digitByte (BitVec.ofNat 32 (m.eax.toNat % 10)).toNat] := by
    rw [hlast]
    exact htext
  rw [htext', List.length_append, List.length_singleton] at hready
  have heax : (pushedEdx m).eax = m.eax := rfl
  rw [htext']
  simpa only [Machine.emit, heax] using ensures_finalDigit hready

/-- A byte stored by the caller is part of the text. -/
theorem PutsText.cons {b : Byte} {text : List Byte} {v : Dword} {f : RealMode.Flags} {ip : Word}
    {m' : Machine Files} (hroom : m.edi.toNat + (text.length + 1) ≤ 65536) (hlow : 4 ≤ m.esp.toNat)
    (hstack : Apart (m.es.toNat * 16 + m.edi.toNat) (text.length + 1)
      (m.ss.toNat * 16 + m.esp.toNat - 4) 6)
    (h : PutsText 4 { m.emit [b] with eax := v, flags := f } text ip m') :
    PutsText 4 m (b :: text) ip m' := by
  have hedi : (m.edi + 1#32).toNat = m.edi.toNat + 1 := by bv_omega
  have hfirst : (m.emit [b]).memory (m.es.toNat * 16 + m.edi.toNat) = b :=
    bytesAt_storeBytes m.memory _ [b] 0 (by simp)
  have hrest (x : Nat) (hx : x ≠ m.es.toNat * 16 + m.edi.toNat) :
      (m.emit [b]).memory x = m.memory x :=
    storeBytes_of_notMem (by simp only [List.length_singleton]; omega)
  -- the callee's facts speak of `edi + 1`, in the memory that already has the first byte
  unfold Apart at hstack
  have hip : ip = read16 (m.emit [b]).memory (m.ss.toNat * 16 + m.esp.toNat) := h.ip
  have houtput : BytesAt m'.memory (m.es.toNat * 16 + (m.edi + 1#32).toNat) text := h.output
  have hframe : ∀ x, ¬ (m.es.toNat * 16 + (m.edi + 1#32).toNat ≤ x ∧
      x < m.es.toNat * 16 + (m.edi + 1#32).toNat + text.length) →
    ¬ (m.ss.toNat * 16 + m.esp.toNat - 4 ≤ x ∧ x < m.ss.toNat * 16 + m.esp.toNat) →
      m'.memory x = (m.emit [b]).memory x := h.frame
  rw [hedi] at houtput hframe
  constructor
  case ip =>
    rw [hip]
    exact read16_congr fun i hi => hrest _ (by omega)
  case output =>
    rw [bytesAt_cons, ← hfirst]
    exact ⟨hframe _ (by omega) (by omega), houtput⟩
  case edi =>
    rw [h.edi, List.length_cons, Nat.add_comm, BitVec.ofNat_add, ← BitVec.add_assoc]
    rfl
  case stored =>
    rw [h.stored, List.length_cons, Nat.add_comm, offsets_add, ← List.append_assoc]
    rfl
  case frame =>
    intro x hout hstacked
    rw [List.length_cons] at hout
    rw [hframe x (by omega) hstacked, hrest x (by omega)]
  case esp => exact h.esp
  case ebx => exact h.ebx
  case edx => exact h.edx
  case esi => exact h.esi
  case ebp => exact h.ebp
  case ds => exact h.ds
  case es => exact h.es
  case ss => exact h.ss
  case direction => exact h.direction
  case world => exact h.world

/-- `test eax, 0x80000000` looks at the sign. -/
theorem and_sign_eq_zero_iff (v : Dword) : v &&& 0x80000000#32 = 0#32 ↔ ¬ v.toInt < 0 := by
  have hsign : v.getLsbD 31 = decide (v.toInt < 0) := v.msb_eq_toInt
  rw [show 0x80000000#32 = BitVec.twoPow 32 31 by rfl, BitVec.and_twoPow, hsign]
  by_cases hneg : v.toInt < 0 <;> simp [hneg]

/-- The two's complement of a negative number is its magnitude. -/
theorem toNat_not_add_one {v : Dword} (hneg : v.toInt < 0) : (~~~v + 1#32).toNat = v.toInt.natAbs := by
  have hv := v.isLt
  rw [← BitVec.neg_eq_not_add, BitVec.toNat_neg]
  rw [BitVec.toInt_eq_toNat_cond] at hneg ⊢
  split at hneg <;> omega

/-- A number without a sign is its own magnitude. -/
theorem natAbs_toInt {v : Dword} (hneg : ¬ v.toInt < 0) : v.toInt.natAbs = v.toNat := by
  have hv := v.isLt
  rw [BitVec.toInt_eq_toNat_cond] at hneg ⊢
  split at hneg <;> omega

/-- `put_dec_dword_signed` writes the canonical decimal numeral with its sign. -/
theorem ensures_putDecDwordSigned (h : ReadyToPut m (signedText m.eax.toInt).length) :
    stringFormat.alone.Ensures .putDecDwordSigned m (PutsText 4 m (signedText m.eax.toInt)) := by
  have hsign := and_sign_eq_zero_iff m.eax
  by_cases hneg : m.eax.toInt < 0
  · -- a minus sign is stored, and the magnitude is printed behind it; the least number is its
    -- own two's complement, read as its magnitude
    rw [signedText, if_pos hneg, ← toNat_not_add_one hneg] at h ⊢
    obtain ⟨hdir, ⟨hlow, hhigh⟩, hroom, hdivisors, hstack, htable, hstackTable⟩ := h
    rw [List.length_cons] at hroom hstack htable
    have hedi : (m.edi + 1#32).toNat = m.edi.toNat + 1 := by bv_omega
    have hstep : stringFormat.step .putDecDwordSigned m = .goto .putDecDword
        { m.emit [ascii '-'] with
          eax := ~~~m.eax + 1#32
          flags := { (RealMode.addc m.edi 1#32 false).2 with carry := false } } := by
      have hlt : m.edi.toNat < 65536 := by omega
      simp [Program.step, stringFormat, putDecDwordSignedCode, Label.fallsTo, hsign, hneg,
        Machine.storeEs_eq, hlt, Machine.emit, ascii, RealMode.logic]
    refine Program.Ensures.goto ((Program.step_alone _ _).trans hstep) ?_
    have hready : ReadyToPut { m.emit [ascii '-'] with
        eax := ~~~m.eax + 1#32
        flags := { (RealMode.addc m.edi 1#32 false).2 with carry := false } }
        (decimalText (~~~m.eax + 1#32).toNat).length := by
      unfold Apart at hstack htable
      constructor
      case direction => exact hdir
      case stack => exact ⟨hlow, hhigh⟩
      case room =>
        change (m.edi + 1#32).toNat + _ ≤ 65536
        omega
      case divisors =>
        refine hdivisors.emit ?_
        unfold Apart
        simp only [List.length_singleton]
        omega
      case output_stack =>
        change Apart (m.es.toNat * 16 + (m.edi + 1#32).toNat) _ (m.ss.toNat * 16 + m.esp.toNat - 4) 6
        unfold Apart
        omega
      case output_table =>
        change Apart (m.es.toNat * 16 + (m.edi + 1#32).toNat) _ (m.ds.toNat * 16 + 0x194) 36
        unfold Apart
        omega
      case stack_table => exact hstackTable
    exact (ensures_putDecDword hready).mono fun ip m' hputs => hputs.cons hroom hlow hstack
  · -- no sign: the routine falls through to the unsigned one
    rw [signedText, if_neg hneg, natAbs_toInt hneg] at h ⊢
    have hstep : stringFormat.step .putDecDwordSigned m = .goto .putDecDword { m with
        flags := (RealMode.logic (m.eax &&& 0x80000000#32)).2 } := by
      simp [Program.step, stringFormat, putDecDwordSignedCode, hsign, hneg]
    refine Program.Ensures.goto ((Program.step_alone _ _).trans hstep) ?_
    have hready := h.set_eax_flags m.eax (RealMode.logic (m.eax &&& 0x80000000#32)).2
    exact (ensures_putDecDword hready).mono fun ip m' hputs => hputs.of_eax_flags

/-- **Decimal conversion is exact.** Called with any value, the routines return with its canonical
decimal numeral written, without and with the sign of the two's complement, `edi` behind it and `edx`
kept. -/
theorem putDec_exact (m : Machine Files) :
    (ReadyToPut m (decimalText m.eax.toNat).length →
      stringFormat.alone.Ensures .putDecDword m (PutsText 4 m (decimalText m.eax.toNat))) ∧
    (ReadyToPut m (signedText m.eax.toInt).length →
      stringFormat.alone.Ensures .putDecDwordSigned m (PutsText 4 m (signedText m.eax.toInt))) :=
  ⟨ensures_putDecDword, ensures_putDecDwordSigned⟩

/-- A call with the least 32-bit number. -/
def minimum : Machine Files where
  eax := 0x80000000#32
  ebx := 0#32
  ecx := 0#32
  edx := 0#32
  esi := 0#32
  edi := 0x800#32
  ebp := 0#32
  esp := 0x1000#32
  ds := 0#16
  es := 0#16
  ss := 0#16
  flags := {}
  direction := false
  memory := tableMemory
  stored := []
  world := fun _ => []

/-- The least number, with and without its sign. -/
theorem putDec_exact_minimum :
    stringFormat.alone.Ensures .putDecDword minimum
      (PutsText 4 minimum ("2147483648".toList.map ascii)) ∧
    stringFormat.alone.Ensures .putDecDwordSigned minimum
      (PutsText 4 minimum ("-2147483648".toList.map ascii)) := by
  have hdecimal : decimalText minimum.eax.toNat = "2147483648".toList.map ascii := by decide
  have hsigned : signedText minimum.eax.toInt = "-2147483648".toList.map ascii := by decide
  have hdivisors : HasDivisors minimum.memory (minimum.ds.toNat * 16) := by
    unfold HasDivisors
    decide
  have hready (n : Nat) (hn : n ≤ 11) : ReadyToPut minimum n := by
    have hedi : minimum.edi.toNat = 0x800 := rfl
    have hesp : minimum.esp.toNat = 0x1000 := rfl
    have hsegments : minimum.es.toNat = 0 ∧ minimum.ss.toNat = 0 ∧ minimum.ds.toNat = 0 :=
      ⟨rfl, rfl, rfl⟩
    constructor
    case direction => rfl
    case stack => omega
    case room => omega
    case divisors => exact hdivisors
    all_goals
      unfold Apart
      omega
  obtain ⟨hunsigned, hsignedCall⟩ := putDec_exact minimum
  rw [hdecimal] at hunsigned
  rw [hsigned] at hsignedCall
  exact ⟨hunsigned (hready _ (by decide)), hsignedCall (hready _ (by decide))⟩

end StringFormat

end Ts3100
