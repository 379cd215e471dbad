import Ts3100.StringFormat.Format

/-! # fprintf

One round of `fprintf` passes the bytes before a `%`, writes them, and converts the token behind it
into a window of ten bytes that lies between the saved `ebp` and what the conversion pushes. -/

namespace Ts3100

namespace StringFormat

open I386
open RealMode (Word Flags fill word)

variable {m : Machine Files} {k : Nat}

/-! ## Looking for a token -/

/-- `.next`, by what `repne scasb` does. -/
theorem step_next_of_scan {e r : Dword} {f : Flags}
    (hscan : { m with edi := m.esi, eax := setByte0 m.eax percent }.scasbTimes m.ecx.toNat =
      some { m with edi := e, eax := setByte0 m.eax percent, ecx := r, flags := f })
    (hlow : 4 ≤ m.esp.toNat) (hhigh : m.esp.toNat < 65536) :
    ∃ f', stringFormat.step .next m = .goto .eos { m with
      eax := setByte0 m.eax percent
      edi := e
      esp := m.esp - 4#32
      memory := fill m.memory (m.ss.toNat * 16 + m.esp.toNat - 4) 4 (byteOf r)
      ecx := if f.zero then e - 1#32 else e
      flags := f' } := by
  simp only [percent] at hscan
  cases hz : f.zero with
  | false =>
      refine ⟨f, ?_⟩
      simp [Program.step, stringFormat, nextCode, percent, hscan, Machine.push32_eq, hlow, hhigh, hz]
  | true =>
      refine ⟨{ (RealMode.subb e 1#32).2 with carry := f.carry }, ?_⟩
      simp [Program.step, stringFormat, nextCode, Label.fallsTo, percent, hscan, Machine.push32_eq,
        hlow, hhigh, hz]

/-- `repne scasb` stops behind the first `%`, or at the end. -/
theorem scan_eq {literal rest : List (Byte × Byte)} (hdir : m.direction = false)
    (hfound : BytesAt m.memory (m.es.toNat * 16 + m.esi.toNat) ((literal ++ rest).map Prod.fst))
    (hliteral : ∀ c ∈ literal, c.1 ≠ percent)
    (hrest : rest = [] ∨ ∃ read rest', rest = (percent, read) :: rest')
    (hecx : m.ecx.toNat = (literal ++ rest).length)
    (hroom : m.esi.toNat + (literal ++ rest).length ≤ 65536) :
    ∃ f : Flags, (m.flags.zero = false → f.zero = decide (rest ≠ [])) ∧
      { m with edi := m.esi, eax := setByte0 m.eax percent }.scasbTimes m.ecx.toNat =
        some { m with
          edi := m.esi + BitVec.ofNat 32 (literal.length + min 1 rest.length)
          eax := setByte0 m.eax percent
          ecx := BitVec.ofNat 32 (rest.length - 1)
          flags := f } := by
  have hal : byteOf (setByte0 m.eax percent) 0 = percent := byteOf_setByte0 _ _
  rw [List.map_append, bytesAt_append, List.length_map] at hfound
  rw [List.length_append] at hecx hroom
  have hnotMem : byteOf (setByte0 m.eax percent) 0 ∉ literal.map Prod.fst := by
    rw [hal, List.mem_map]
    rintro ⟨c, hc, heq⟩
    exact hliteral c hc heq
  obtain ⟨f, hf, hscan⟩ := Machine.scasbTimes_of_notMem (m := { m with
    edi := m.esi
    eax := setByte0 m.eax percent }) hfound.1 hnotMem (by simp only [List.length_map]; omega) hdir
      rest.length
  rw [List.length_map, ← hecx] at hscan
  have hleft : m.ecx - BitVec.ofNat 32 literal.length = BitVec.ofNat 32 rest.length := by
    apply BitVec.eq_of_toNat_eq
    rw [BitVec.toNat_sub, hecx, BitVec.toNat_ofNat, BitVec.toNat_ofNat]
    omega
  simp only [hleft] at hscan
  rcases hrest with rfl | ⟨read, rest', rfl⟩
  · -- the count ends first
    refine ⟨f, fun hz => ?_, hscan⟩
    rw [decide_eq_false (by simp), Bool.eq_false_iff]
    intro hfz
    exact absurd ((hf hfz).2.symm.trans hz) (by simp)
  · have hedi : (m.esi + BitVec.ofNat 32 literal.length).toNat = m.esi.toNat + literal.length := by
      rw [BitVec.toNat_add, BitVec.toNat_ofNat]
      omega
    have hpercent := (bytesAt_cons.mp hfound.2).1
    rw [List.length_cons] at hroom
    obtain ⟨f', hf', hstop⟩ := Machine.scasbTimes_of_eq (m := { m with
      edi := m.esi + BitVec.ofNat 32 literal.length
      eax := setByte0 m.eax percent
      ecx := BitVec.ofNat 32 ((percent, read) :: rest').length
      flags := f }) (n := rest'.length)
      (by
        simp only [Machine.linear, Machine.getSeg, hedi, hal, ← Nat.add_assoc]
        exact hpercent)
      (by simp only [hedi]; omega) hdir
    refine ⟨f', fun _ => by simp [hf'], hscan.trans (hstop.trans ?_)⟩
    simp [BitVec.ofNat_add, BitVec.add_assoc]

/-- `.next` looks for `%` and finds the bytes before it. With the zero flag clear, an empty format is one
without `%`. -/
theorem step_next {literal rest : List (Byte × Byte)} (hdir : m.direction = false)
    (hfound : BytesAt m.memory (m.es.toNat * 16 + m.esi.toNat) ((literal ++ rest).map Prod.fst))
    (hliteral : ∀ c ∈ literal, c.1 ≠ percent)
    (hrest : rest = [] ∨ ∃ read rest', rest = (percent, read) :: rest')
    (hecx : m.ecx.toNat = (literal ++ rest).length)
    (hroom : m.esi.toNat + (literal ++ rest).length ≤ 65536)
    (hlow : 4 ≤ m.esp.toNat) (hhigh : m.esp.toNat < 65536) :
    ∃ c f, (m.flags.zero = false → c = m.esi + BitVec.ofNat 32 literal.length) ∧
      stringFormat.step .next m = .goto .eos { m with
        eax := setByte0 m.eax percent
        edi := m.esi + BitVec.ofNat 32 (literal.length + min 1 rest.length)
        esp := m.esp - 4#32
        memory := fill m.memory (m.ss.toNat * 16 + m.esp.toNat - 4) 4
          (byteOf (BitVec.ofNat 32 (rest.length - 1)))
        ecx := c
        flags := f } := by
  obtain ⟨f, hf, hscan⟩ := scan_eq hdir hfound hliteral hrest hecx hroom
  obtain ⟨f', hstep⟩ := step_next_of_scan hscan hlow hhigh
  refine ⟨_, f', fun hz => ?_, hstep⟩
  rw [hf hz]
  rcases hrest with rfl | ⟨read, rest', rfl⟩
  · simp
  · rw [decide_eq_true (List.cons_ne_nil _ _), if_pos rfl, List.length_cons,
      Nat.min_eq_left (by omega), BitVec.ofNat_add, ← BitVec.add_assoc, BitVec.add_sub_cancel]

/-! ## Writing what is before it -/

/-- The files after `.eos` has written the bytes before a token. -/
def literalWritten (m : Machine Files) : Files :=
  m.world.append (m.ebx.setWidth 16)
    (bytesFrom m.memory m.ds (m.esi.setWidth 16) ((m.ecx - m.esi).setWidth 16 : Word).toNat)

/-- `.eos` with fewer than two bytes left. -/
theorem step_eos_finish {r : Dword} (hr : read32 m.memory (m.ss.toNat * 16 + m.esp.toNat) = r)
    (hesp : m.esp.toNat + 4 < 65536) (hlt : r.toNat < 2) :
    ∃ f, stringFormat.step .eos m = .goto .finish { m with
      eax := setByte1 m.eax 0x40#8
      edx := m.esi
      ecx := r
      esp := m.esp + 4#32
      world := literalWritten m
      flags := f } := by
  have hcarry : (RealMode.subb r 2#32).2.carry = true := decide_eq_true hlt
  refine ⟨(RealMode.subb r 2#32).2, ?_⟩
  simp [Program.step, stringFormat, eosCode, interrupt, dosWrite, Machine.pop32_eq, hesp, hr, hcarry,
    literalWritten]

/-- `.eos` with a token. -/
theorem step_eos_token {r : Dword} (hdir : m.direction = false)
    (hr : read32 m.memory (m.ss.toNat * 16 + m.esp.toNat) = r)
    (hesp : m.esp.toNat + 4 < 65536) (hle : 2 ≤ r.toNat) (hedi : m.edi.toNat + 2 ≤ 65536) :
    ∃ f, stringFormat.step .eos m = stringFormat.execBlock .eos tokenCode { m with
      eax := setLow (setByte1 m.eax 0x40#8) (read16 m.memory (m.ds.toNat * 16 + m.edi.toNat))
      edx := m.esp + 4#32
      edi := m.esp + 4#32
      esi := m.edi + 2#32
      ecx := r - 2#32
      esp := m.esp + 4#32
      world := literalWritten m
      flags := f } := by
  have hcarry : (RealMode.subb r 2#32).2.carry = false := by
    refine decide_eq_false ?_
    simp only [BitVec.toNat_ofNat]
    omega
  refine ⟨(RealMode.subb r 2#32).2, ?_⟩
  simp [Program.step, stringFormat, eosCode, interrupt, dosWrite, Machine.pop32_eq, hesp, hr, hcarry,
    literalWritten, Machine.lodsw, Machine.load16, Machine.address, Machine.stride, hedi, hdir]

/-! ## Deciding on a token -/

/-- The label of a conversion. -/
def formatLabel : Radix → Width → Label
  | .unsigned, .byte => .formatU8
  | .unsigned, .word => .formatU16
  | .unsigned, .dword => .formatU32
  | .signed, .byte => .formatS8
  | .signed, .word => .formatS16
  | .signed, .dword => .formatS32
  | .hex, .byte => .formatH8
  | .hex, .word => .formatH16
  | .hex, .dword => .formatH32
  | .binary, _ => .finish

/-- Compare `ax` with tokens, and jump to the label of the one that it is. -/
def compare (cases : List (Word × Label)) : List (Instr Label) :=
  cases.flatMap fun c => [.cmpAx c.1, .jcc .e c.2]

/-- The tokens that are compared before anything is pushed. -/
def escapeCases : List (Word × Label) := [(0x2525#16, .formatEscape)]

/-- The tokens of bytes. -/
def byteCases : List (Word × Label) :=
  [(0x6268#16, .formatH8), (0x6273#16, .formatS8), (0x6275#16, .formatU8)]

/-- The tokens of words. -/
def wordCases : List (Word × Label) :=
  [(0x7768#16, .formatH16), (0x7773#16, .formatS16), (0x7775#16, .formatU16)]

/-- The tokens of double words. -/
def dwordCases : List (Word × Label) :=
  [(0x6468#16, .formatH32), (0x6473#16, .formatS32), (0x6475#16, .formatU32)]

/-- The code for a token that is none of them. -/
def unknownCode : List (Instr Label) :=
  [.alu .add .ebp (.imm 4#32), .popWord .ecx, .pop .ecx, .jmp .next]

/-- The code from the tokens of double words on. -/
def dwordCode : List (Instr Label) :=
  .alu .sub .ebp (.imm 2#32) :: .mov .ecx (.imm 32#32) :: (compare dwordCases ++ unknownCode)

/-- The code from the tokens of words on. -/
def wordCode : List (Instr Label) := .mov .ecx (.imm 16#32) :: (compare wordCases ++ dwordCode)

/-- The code from the tokens of bytes on. -/
def byteCode : List (Instr Label) :=
  .alu .sub .ebp (.imm 2#32) :: .mov .ecx (.imm 8#32) :: (compare byteCases ++ wordCode)

/-- The code of a token compares it with the escape first. -/
theorem tokenCode_eq :
    tokenCode = .push .ecx :: (compare escapeCases ++ .pushWord printOffset :: byteCode) := rfl

/-- A chain of comparisons is a search. -/
theorem execBlock_compare (cases : List (Word × Label)) (is : List (Instr Label)) (m : Machine Files) :
    ∃ f, stringFormat.execBlock .eos (compare cases ++ is) m =
      match cases.lookup (m.eax.setWidth 16) with
      | some l => .goto l { m with flags := f }
      | none => stringFormat.execBlock .eos is { m with flags := f } := by
  induction cases generalizing m with
  | nil => exact ⟨m.flags, rfl⟩
  | cons c cases ih =>
      by_cases hc : m.eax.setWidth 16 = c.1
      · refine ⟨(RealMode.subb (m.eax.setWidth 16) c.1).2, ?_⟩
        rw [List.lookup_cons, beq_iff_eq.mpr hc]
        simp [compare, hc]
      · obtain ⟨f, hf⟩ := ih { m with flags := (RealMode.subb (m.eax.setWidth 16) c.1).2 }
        refine ⟨f, ?_⟩
        rw [List.lookup_cons, beq_eq_false_iff_ne.mpr hc]
        rw [← hf]
        simp [compare, hc]


/-! ## Taking a token -/

/-- The memory after the remaining length and the address of `.print` are pushed. -/
def pushedPrint (m : Machine Files) : Nat → Byte :=
  fill (fill m.memory (m.ss.toNat * 16 + m.esp.toNat - 4) 4 (byteOf m.ecx))
    (m.ss.toNat * 16 + m.esp.toNat - 6) 2 (byteOf printOffset)

/-- A token that is not known is none of those that a chain compares with. -/
theorem lookup_eq_none {t : Word} {cases : List (Word × Label)} (h : conversionOf t = none)
    (hcases : ∀ c ∈ cases, c.1 ∈ tokens.map Prod.fst) : cases.lookup t = none := by
  rw [conversionOf, List.lookup_eq_none_iff] at h
  rw [List.lookup_eq_none_iff]
  intro c hc
  obtain ⟨d, hd, hdc⟩ := List.mem_map.mp (hcases c hc)
  rw [← hdc]
  exact h d hd

/-- The token of a conversion is in the list. -/
theorem mem_tokens {t : Word} {c : Conversion} (h : conversionOf t = some c) : (t, c) ∈ tokens := by
  obtain ⟨before, after, heq, -⟩ := List.lookup_eq_some_iff.mp h
  rw [heq]
  simp

/-- Where the chains take the token of a number. -/
theorem lookup_number {t : Word} {r : Radix} {w : Width} (h : conversionOf t = some (.number r w)) :
    escapeCases.lookup t = none ∧
      byteCases.lookup t = (if w = .byte then some (formatLabel r w) else none) ∧
      (w ≠ .byte → wordCases.lookup t = if w = .word then some (formatLabel r w) else none) ∧
      (w = .dword → dwordCases.lookup t = some (formatLabel r w)) := by
  have hmem := mem_tokens h
  simp only [tokens, List.mem_cons, Prod.mk.injEq, Conversion.number.injEq, reduceCtorEq, and_false,
    false_or, List.not_mem_nil, or_false] at hmem
  rcases hmem with ⟨rfl, rfl, rfl⟩ | ⟨rfl, rfl, rfl⟩ | ⟨rfl, rfl, rfl⟩ | ⟨rfl, rfl, rfl⟩ |
    ⟨rfl, rfl, rfl⟩ | ⟨rfl, rfl, rfl⟩ | ⟨rfl, rfl, rfl⟩ | ⟨rfl, rfl, rfl⟩ | ⟨rfl, rfl, rfl⟩ <;>
  decide

/-- The token of the escape is found. -/
theorem lookup_escape {t : Word} (h : conversionOf t = some .escape) :
    escapeCases.lookup t = some .formatEscape := by
  have hmem := mem_tokens h
  simp only [tokens, List.mem_cons, Prod.mk.injEq, reduceCtorEq, and_false, and_true, or_false,
    List.not_mem_nil] at hmem
  rw [hmem]
  rfl

/-- The remaining length is pushed first. -/
theorem execBlock_tokenCode (hlow : 4 ≤ m.esp.toNat) (hhigh : m.esp.toNat < 65536) :
    stringFormat.execBlock .eos tokenCode m =
      stringFormat.execBlock .eos (compare escapeCases ++ .pushWord printOffset :: byteCode) { m with
        esp := m.esp - 4#32
        memory := fill m.memory (m.ss.toNat * 16 + m.esp.toNat - 4) 4 (byteOf m.ecx) } := by
  rw [tokenCode_eq, Program.execBlock, Instr.exec, Machine.get, Machine.push32_eq hlow hhigh]
  rfl

/-- The escape. -/
theorem execBlock_escape (htoken : conversionOf (m.eax.setWidth 16) = some .escape)
    (hlow : 4 ≤ m.esp.toNat) (hhigh : m.esp.toNat < 65536) :
    ∃ f, stringFormat.execBlock .eos tokenCode m = .goto .formatEscape { m with
      esp := m.esp - 4#32
      memory := fill m.memory (m.ss.toNat * 16 + m.esp.toNat - 4) 4 (byteOf m.ecx)
      flags := f } := by
  obtain ⟨f, hf⟩ := execBlock_compare escapeCases (.pushWord printOffset :: byteCode) { m with
    esp := m.esp - 4#32
    memory := fill m.memory (m.ss.toNat * 16 + m.esp.toNat - 4) 4 (byteOf m.ecx) }
  rw [← execBlock_tokenCode hlow hhigh] at hf
  simp only [lookup_escape htoken] at hf
  exact ⟨f, hf⟩

/-- Any other token comes to the chain of the bytes. -/
theorem execBlock_byteCode (htoken : escapeCases.lookup (m.eax.setWidth 16) = none)
    (hlow : 6 ≤ m.esp.toNat) (hhigh : m.esp.toNat < 65536) :
    ∃ f, stringFormat.execBlock .eos tokenCode m =
      stringFormat.execBlock .eos (compare byteCases ++ wordCode) { m with
        esp := m.esp - 6#32
        memory := pushedPrint m
        ebp := m.ebp - 2#32
        ecx := 8#32
        flags := f } := by
  have hsub : (m.esp - 4#32).toNat = m.esp.toNat - 4 := by bv_omega
  have haddress : m.ss.toNat * 16 + (m.esp.toNat - 4) - 2 = m.ss.toNat * 16 + m.esp.toNat - 6 := by
    omega
  obtain ⟨f, hf⟩ := execBlock_compare escapeCases (.pushWord printOffset :: byteCode) { m with
    esp := m.esp - 4#32
    memory := fill m.memory (m.ss.toNat * 16 + m.esp.toNat - 4) 4 (byteOf m.ecx) }
  rw [← execBlock_tokenCode (by omega) hhigh] at hf
  simp only [htoken] at hf
  refine ⟨(RealMode.subb m.ebp 2#32).2, hf.trans ?_⟩
  rw [Program.execBlock, Instr.exec, Machine.push16_eq (by simp only [hsub]; omega)
    (by simp only [hsub]; omega), byteCode]
  simp [hsub, haddress, BitVec.sub_sub, pushedPrint]

/-- A token that is not of a byte comes to the chain of the words. -/
theorem execBlock_wordCode (hescape : escapeCases.lookup (m.eax.setWidth 16) = none)
    (hbyte : byteCases.lookup (m.eax.setWidth 16) = none)
    (hlow : 6 ≤ m.esp.toNat) (hhigh : m.esp.toNat < 65536) :
    ∃ f, stringFormat.execBlock .eos tokenCode m =
      stringFormat.execBlock .eos (compare wordCases ++ dwordCode) { m with
        esp := m.esp - 6#32
        memory := pushedPrint m
        ebp := m.ebp - 2#32
        ecx := 16#32
        flags := f } := by
  obtain ⟨f, hf⟩ := execBlock_byteCode hescape hlow hhigh
  obtain ⟨f', hf'⟩ := execBlock_compare byteCases wordCode { m with
    esp := m.esp - 6#32
    memory := pushedPrint m
    ebp := m.ebp - 2#32
    ecx := 8#32
    flags := f }
  simp only [hbyte] at hf'
  exact ⟨f', hf.trans hf'⟩

/-- A token that is neither comes to the chain of the double words. -/
theorem execBlock_dwordCode (hescape : escapeCases.lookup (m.eax.setWidth 16) = none)
    (hbyte : byteCases.lookup (m.eax.setWidth 16) = none)
    (hword : wordCases.lookup (m.eax.setWidth 16) = none)
    (hlow : 6 ≤ m.esp.toNat) (hhigh : m.esp.toNat < 65536) :
    ∃ f, stringFormat.execBlock .eos tokenCode m =
      stringFormat.execBlock .eos (compare dwordCases ++ unknownCode) { m with
        esp := m.esp - 6#32
        memory := pushedPrint m
        ebp := m.ebp - 4#32
        ecx := 32#32
        flags := f } := by
  obtain ⟨f, hf⟩ := execBlock_wordCode hescape hbyte hlow hhigh
  obtain ⟨f', hf'⟩ := execBlock_compare wordCases dwordCode { m with
    esp := m.esp - 6#32
    memory := pushedPrint m
    ebp := m.ebp - 2#32
    ecx := 16#32
    flags := f }
  simp only [hword] at hf'
  refine ⟨(RealMode.subb (m.ebp - 2#32) 2#32).2, hf.trans (hf'.trans ?_)⟩
  simp [dwordCode, BitVec.sub_sub]

/-- A number: the conversion is entered with its argument below `ebp`, its width in `ecx` and the address
of `.print` on the stack. -/
theorem execBlock_number {r : Radix} {w : Width}
    (htoken : conversionOf (m.eax.setWidth 16) = some (.number r w))
    (hlow : 6 ≤ m.esp.toNat) (hhigh : m.esp.toNat < 65536) :
    ∃ f, stringFormat.execBlock .eos tokenCode m = .goto (formatLabel r w) { m with
      esp := m.esp - 6#32
      memory := pushedPrint m
      ebp := m.ebp - BitVec.ofNat 32 w.slot
      ecx := BitVec.ofNat 32 w.bits
      flags := f } := by
  obtain ⟨hescape, hbyte, hword, hdword⟩ := lookup_number htoken
  -- the widths are compared in turn: each falls through to the next block
  cases w with
  | byte =>
      obtain ⟨f, hf⟩ := execBlock_byteCode hescape hlow hhigh
      obtain ⟨f', hf'⟩ := execBlock_compare byteCases wordCode { m with
        esp := m.esp - 6#32
        memory := pushedPrint m
        ebp := m.ebp - 2#32
        ecx := 8#32
        flags := f }
      simp only [hbyte, if_true] at hf'
      exact ⟨f', hf.trans hf'⟩
  | word =>
      obtain ⟨f, hf⟩ := execBlock_wordCode hescape hbyte hlow hhigh
      obtain ⟨f', hf'⟩ := execBlock_compare wordCases dwordCode { m with
        esp := m.esp - 6#32
        memory := pushedPrint m
        ebp := m.ebp - 2#32
        ecx := 16#32
        flags := f }
      simp only [hword (by decide), if_true] at hf'
      exact ⟨f', hf.trans hf'⟩
  | dword =>
      obtain ⟨f, hf⟩ := execBlock_dwordCode hescape hbyte (hword (by decide)) hlow hhigh
      obtain ⟨f', hf'⟩ := execBlock_compare dwordCases unknownCode { m with
        esp := m.esp - 6#32
        memory := pushedPrint m
        ebp := m.ebp - 4#32
        ecx := 32#32
        flags := f }
      simp only [hdword rfl] at hf'
      exact ⟨f', hf.trans hf'⟩

/-- The two values pushed, read back. -/
theorem pushedPrint_memory (hlow : 6 ≤ m.esp.toNat) :
    read16 (pushedPrint m) (m.ss.toNat * 16 + m.esp.toNat - 6) = printOffset ∧
      read32 (pushedPrint m) (m.ss.toNat * 16 + m.esp.toNat - 4) = m.ecx ∧
      ∀ x, ¬ (m.ss.toNat * 16 + m.esp.toNat - 6 ≤ x ∧ x < m.ss.toNat * 16 + m.esp.toNat) →
        pushedPrint m x = m.memory x := by
  refine ⟨read16_fill printOffset, ?_, fun x hx => ?_⟩
  · refine (read32_congr fun i hi => RealMode.fill_of_notMem ?_).trans (read32_fill m.ecx)
    omega
  · exact (RealMode.fill_of_notMem (by omega)).trans (RealMode.fill_of_notMem (by omega))

/-- Any other token is dropped: what was pushed is popped, and `ebp` is as before. -/
theorem execBlock_unknown (htoken : conversionOf (m.eax.setWidth 16) = none)
    (hlow : 6 ≤ m.esp.toNat) (hhigh : m.esp.toNat < 65536) :
    ∃ f : Flags, (f.zero = true → m.ebp = 0#32) ∧
      stringFormat.execBlock .eos tokenCode m = .goto .next { m with
        memory := pushedPrint m
        flags := f } := by
  obtain ⟨f, hf⟩ := execBlock_dwordCode (lookup_eq_none htoken (by decide))
    (lookup_eq_none htoken (by decide)) (lookup_eq_none htoken (by decide)) hlow hhigh
  obtain ⟨f', hf'⟩ := execBlock_compare dwordCases unknownCode { m with
    esp := m.esp - 6#32
    memory := pushedPrint m
    ebp := m.ebp - 4#32
    ecx := 32#32
    flags := f }
  have hnone : dwordCases.lookup (m.eax.setWidth 16) = none := lookup_eq_none htoken (by decide)
  simp only [hnone] at hf'
  obtain ⟨-, hecx, -⟩ := pushedPrint_memory hlow
  refine ⟨(RealMode.addc (m.ebp - 4#32) 4#32 false).2, fun hz => ?_, hf.trans (hf'.trans ?_)⟩
  · have hzero := of_decide_eq_true hz
    simpa [RealMode.addc] using hzero
  · have hsub₆ : (m.esp - 6#32).toNat = m.esp.toNat - 6 := by bv_omega
    have hsp : addSp (m.esp - 6#32) 2#16 = m.esp - 4#32 := by
      rw [show (2#16 : Word) = BitVec.ofNat 16 2 from rfl, addSp_add (by omega)]
      bv_omega
    have hsub₄ : (m.esp - 4#32).toNat = m.esp.toNat - 4 := by bv_omega
    have hpop : m.esp - 4#32 + 4#32 = m.esp := BitVec.sub_add_cancel _ _
    have haddress : m.ss.toNat * 16 + (m.esp.toNat - 4) = m.ss.toNat * 16 + m.esp.toNat - 4 := by
      omega
    simp [unknownCode, Machine.pop16_eq, Machine.pop32_eq, hsub₆, hsub₄, hsp, hpop, haddress, hecx,
      show m.esp.toNat - 6 + 2 ≤ 65536 by omega, show m.esp.toNat - 4 + 4 < 65536 by omega,
      RealMode.addc]

end StringFormat

end Ts3100
