import Ts3100.Flash.Decoder
import Ts3100.Library.RealMode.Output386

/-! # The option ROM's string formatter

The routines of `stringformat.asm`, block by block under the labels of the source, with the addresses
of the tables and of `.print` as assembled in `option.rom`. `fprintf` writes through `int 21h`,
function `40h`: `dosWrite` appends bytes to the file of a handle.

`fprintf` jumps to a conversion with the address of `.print` pushed, so that the conversion's `ret`
leads there. `stringFormat` follows that return; `stringFormat.alone` is a conversion by itself. -/

namespace Ts3100

namespace StringFormat

open I386

/-! ## Labels and tables -/

/-- The labels of `stringformat.asm`. -/
inductive Label where
  | putDecDwordSigned
  | putDecDword
  | getExtent
  | computeDigit
  | finalDigit
  | putHexDword
  | outputDigit
  | fprintf
  | next
  | eos
  | formatU8
  | formatS8
  | formatU16
  | formatS16
  | formatU32
  | formatS32
  | formatH8
  | formatH16
  | formatH32
  | formatEscape
  | print
  | finish
  deriving DecidableEq, Repr

/-- The offset of `dec_divisor_table`. -/
def decDivisorTable : Dword := 0x194#32

/-- The offset of `dec_divisor_table_end`. -/
def decDivisorTableEnd : Dword := 0x1B8#32

/-- The offset of `hex_lookup_table`. -/
def hexLookupTable : Dword := 0x1B8#32

/-- `dec_divisor_table`. -/
def decDivisors : List Dword :=
  [1000000000#32, 100000000#32, 10000000#32, 1000000#32, 100000#32, 10000#32, 1000#32, 100#32, 10#32]

/-- The code of a character. -/
def ascii (c : Char) : Byte := BitVec.ofNat 8 c.toNat

/-- `hex_lookup_table`. -/
def hexDigits : List Byte :=
  ['0', '1', '2', '3', '4', '5', '6', '7', '8', '9', 'A', 'B', 'C', 'D', 'E', 'F'].map ascii

/-- The divisors are in memory, in the segment at `base`. -/
def HasDivisors (mem : Nat → Byte) (base : Nat) : Prop :=
  ∀ i (hi : i < decDivisors.length), read32 mem (base + decDivisorTable.toNat + 4 * i) = decDivisors[i]

/-- The hexadecimal digits are in memory, in the segment at `base`. -/
def HasHexDigits (mem : Nat → Byte) (base : Nat) : Prop :=
  BytesAt mem (base + hexLookupTable.toNat) hexDigits

/-- A memory with the two tables, for a segment at 0. -/
def tableMemory : Nat → Byte :=
  storeBytes (fun _ => 0#8) decDivisorTable.toNat
    ((decDivisors.flatMap fun d => (List.range 4).map (byteOf d)) ++ hexDigits)

/-- The offset of `.print`. -/
def printOffset : RealMode.Word := 0x17C#16

/-! ## Code -/

/-- `put_dec_dword_signed`. -/
def putDecDwordSignedCode : List (Instr Label) :=
  [ -- bail if number isn't negative
    .alu .test .eax (.imm 0x80000000#32),
    .jcc .e .putDecDword,
    -- output '-' if negative and take the two's complement
    .movEs .edi 0x2D#8,
    .not .eax,
    .inc .eax,
    .inc .edi ]

/-- `put_dec_dword`. -/
def putDecDwordCode : List (Instr Label) :=
  [ .push .edx,
    .alu .xor .edx (.reg .edx),
    .mov .ecx (.imm (decDivisorTable - 4#32)) ]

/-- `put_dec_dword.get_extent`. -/
def getExtentCode : List (Instr Label) :=
  [ .alu .cmp .ecx (.imm (decDivisorTableEnd - 4#32)),
    .jcc .e .finalDigit,
    .alu .add .ecx (.imm 4#32),
    .alu .cmp .eax (.mem .ds .ecx),
    .jcc .b .getExtent ]

/-- `put_dec_dword.compute_digit`. -/
def computeDigitCode : List (Instr Label) :=
  [ .div (.mem .ds .ecx),
    .alu .add .eax (.imm 0x30#32),
    .stosb,
    .mov .eax (.reg .edx),
    .alu .xor .edx (.reg .edx),
    .alu .add .ecx (.imm 4#32),
    .alu .cmp .ecx (.imm decDivisorTableEnd),
    .jcc .ne .computeDigit ]

/-- `put_dec_dword.final_digit`. -/
def finalDigitCode : List (Instr Label) :=
  [ .alu .add .eax (.imm 0x30#32),
    .stosb,
    .pop .edx,
    .ret ]

/-- `put_hex_dword`. -/
def putHexDwordCode : List (Instr Label) :=
  [ .push .ebx,
    .push .edx,
    .mov .ebx (.imm hexLookupTable),
    .mov .edx (.reg .eax) ]

/-- `put_hex_dword.output_digit`. -/
def outputDigitCode : List (Instr Label) :=
  [ .alu8 .sub .cl 4#8,
    .mov .eax (.reg .edx),
    .shrCl .eax,
    .alu8 .and .al 0xF#8,
    .xlat,
    .stosb,
    .alu8 .test .cl 0xFF#8,
    .jcc .ne .outputDigit,
    .pop .edx,
    .pop .ebx,
    .ret ]

/-- `fprintf`. -/
def fprintfCode : List (Instr Label) :=
  [ .cld,
    .push .ebp,
    .alu .sub .esp (.imm 10#32),
    .mov .esi (.reg .edi) ]

/-- `fprintf.next`. -/
def nextCode : List (Instr Label) :=
  [ .mov .edi (.reg .esi),
    .mov8 .al 0x25#8,
    .repneScasb,
    -- stash remaining string length
    .push .ecx,
    .mov .ecx (.reg .edi),
    .jcc .ne .eos,
    .dec .ecx ]

/-- `fprintf.eos`, up to the format tokens. -/
def eosCode : List (Instr Label) :=
  [ .alu .sub .ecx (.reg .esi),
    .mov .edx (.reg .esi),
    .mov8 .ah 0x40#8,
    .int 0x21#8,
    .pop .ecx,
    -- if there isn't enough string for format arguments, skip
    .alu .cmp .ecx (.imm 2#32),
    .jcc .b .finish,
    -- read format arguments
    .mov .esi (.reg .edi),
    .lodsw,
    .alu .sub .ecx (.imm 2#32),
    -- setup window into temporary memory
    .mov .edx (.reg .esp),
    .mov .edi (.reg .esp) ]

/-- The rest of `fprintf.eos`. -/
def tokenCode : List (Instr Label) :=
  [ -- decide on format arguments
    .push .ecx,
    .cmpAx 0x2525#16,
    .jcc .e .formatEscape,
    .pushWord printOffset,
    .alu .sub .ebp (.imm 2#32),
    .mov .ecx (.imm 8#32),
    .cmpAx 0x6268#16,
    .jcc .e .formatH8,
    .cmpAx 0x6273#16,
    .jcc .e .formatS8,
    .cmpAx 0x6275#16,
    .jcc .e .formatU8,
    .mov .ecx (.imm 16#32),
    .cmpAx 0x7768#16,
    .jcc .e .formatH16,
    .cmpAx 0x7773#16,
    .jcc .e .formatS16,
    .cmpAx 0x7775#16,
    .jcc .e .formatU16,
    .alu .sub .ebp (.imm 2#32),
    .mov .ecx (.imm 32#32),
    .cmpAx 0x6468#16,
    .jcc .e .formatH32,
    .cmpAx 0x6473#16,
    .jcc .e .formatS32,
    .cmpAx 0x6475#16,
    .jcc .e .formatU32,
    .alu .add .ebp (.imm 4#32),
    -- this is pulling off the manual return address push
    .popWord .ecx,
    .pop .ecx,
    .jmp .next ]

/-- `fprintf.format_escape`. -/
def formatEscapeCode : List (Instr Label) :=
  [ .mov8 .al 0x25#8,
    .stosb ]

/-- `fprintf.print`. -/
def printCode : List (Instr Label) :=
  [ .alu .sub .edi (.reg .edx),
    .mov .ecx (.reg .edi),
    .mov8 .ah 0x40#8,
    .int 0x21#8,
    .pop .ecx,
    .jmp .next ]

/-- `fprintf.end`. -/
def finishCode : List (Instr Label) :=
  [ .alu .add .esp (.imm 10#32),
    .pop .ebp,
    .ret ]

/-! ## The program -/

/-- The contents of the files, by handle. -/
abbrev Files := RealMode.Word → List Byte

/-- The files after bytes are appended to one of them. -/
def Files.append (files : Files) (handle : RealMode.Word) (bs : List Byte) : Files :=
  Function.update files handle (files handle ++ bs)

/-- The `n` bytes at `s:o`, with the offset taken modulo 64 KiB. -/
def bytesFrom (mem : Nat → Byte) (s o : RealMode.Word) (n : Nat) : List Byte :=
  (List.range n).map fun i => mem (s.toNat * 16 + (o.toNat + i) % 65536)

/-- DOS function `40h`: append the `cx` bytes at `ds:dx` to the file of handle `bx`. -/
def dosWrite (m : Machine Files) : Machine Files :=
  let data := bytesFrom m.memory m.ds (m.edx.setWidth 16) (m.ecx.setWidth 16 : RealMode.Word).toNat
  { m with world := Files.append m.world (m.ebx.setWidth 16) data }

/-- `int 21h`. -/
def interrupt (n : Byte) (m : Machine Files) : Option (Machine Files) :=
  if n = 0x21#8 ∧ byteOf m.eax 1 = 0x40#8 then some (dosWrite m) else none

/-- The label a block falls through to. -/
def Label.fallsTo : Label → Option Label
  | .putDecDwordSigned => some .putDecDword
  | .putDecDword => some .getExtent
  | .getExtent => some .computeDigit
  | .computeDigit => some .finalDigit
  | .putHexDword => some .outputDigit
  | .fprintf => some .next
  | .next => some .eos
  | .formatEscape => some .print
  | _ => none

/-- The code of `stringformat.asm`. -/
def stringFormat : Program Label Files where
  code
    | .putDecDwordSigned => putDecDwordSignedCode
    | .putDecDword => putDecDwordCode
    | .getExtent => getExtentCode
    | .computeDigit => computeDigitCode
    | .finalDigit => finalDigitCode
    | .putHexDword => putHexDwordCode
    | .outputDigit => outputDigitCode
    | .fprintf => fprintfCode
    | .next => nextCode
    | .eos => eosCode ++ tokenCode
    | .formatU8 => [.movzx8 .eax .ss .ebp, .jmp .putDecDword]
    | .formatS8 => [.movsx8 .eax .ss .ebp, .jmp .putDecDwordSigned]
    | .formatU16 => [.movzx16 .eax .ss .ebp, .jmp .putDecDword]
    | .formatS16 => [.movsx16 .eax .ss .ebp, .jmp .putDecDwordSigned]
    | .formatU32 => [.mov .eax (.mem .ss .ebp), .jmp .putDecDword]
    | .formatS32 => [.mov .eax (.mem .ss .ebp), .jmp .putDecDwordSigned]
    | .formatH8 => [.movzx8 .eax .ss .ebp, .jmp .putHexDword]
    | .formatH16 => [.movzx16 .eax .ss .ebp, .jmp .putHexDword]
    | .formatH32 => [.mov .eax (.mem .ss .ebp), .jmp .putHexDword]
    | .formatEscape => formatEscapeCode
    | .print => printCode
    | .finish => finishCode
  next := Label.fallsTo
  labelAt ip := if ip = printOffset then some .print else none
  interrupt := interrupt

end StringFormat

end Ts3100
