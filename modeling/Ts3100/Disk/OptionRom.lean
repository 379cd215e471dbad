import Ts3100.Disk.Host

/-! # The virtual disk's INT 13h handler

The `int13h_handler` of the option ROM, block by block under the labels of the source. `optionRom`
is the routine; its `offset` and `labelAt` give the three return addresses the code pushes, as
assembled in `option.rom`.

`HandleAH02` and `HandleAH03` are one routine with the string-move registers exchanged: reading
copies from the window (`si`) to the caller's buffer (`di`), writing from the buffer (`si`) to the
window (`di`), with `ds` and `es` swapped around the copy. `transferCode` is that routine, and
`handleAH02` and `handleAH03` are its two instances. -/

namespace Ts3100

open RealMode

/-! ## Labels and data -/

/-- The two transfer functions of the handler. -/
inductive Transfer where
  | handleAH02
  | handleAH03
  deriving DecidableEq, Repr

/-- The function number in `ah`. -/
@[simp] def Transfer.function : Transfer → Byte
  | .handleAH02 => 0x02#8
  | .handleAH03 => 0x03#8

/-- The string-move register that walks the disk window. -/
@[simp] def Transfer.window : Transfer → Reg
  | .handleAH02 => .si
  | .handleAH03 => .di

/-- The string-move register that walks the caller's buffer. -/
@[simp] def Transfer.buffer : Transfer → Reg
  | .handleAH02 => .di
  | .handleAH03 => .si

/-- The local labels of a transfer function: its entry, the source's `.HandleAH0x_…` labels, and the
instruction after the second `call IncrementLBA`. -/
inductive TransferLabel where
  | entry
  | outputLBALowWord
  | outputLBAHighWord
  | skipLBA
  | startCopy
  | skipAlignment
  | nextBlock
  | lastCopy
  | finishCopy
  deriving DecidableEq, Repr

/-- The labels of the handler. -/
inductive Label where
  | int13hHandler
  | handleAH08
  | transfer (t : Transfer) (l : TransferLabel)
  | biosInt13h
  | returnFromInt13h
  | finishInt13hHandler
  | incrementLBA
  deriving DecidableEq, Repr

/-- The offset of `bios_int13h_segment` in the ROM. -/
def biosInt13hSegment : Word := 0x4C5#16

/-- The offset of `bios_int13h_offset` in the ROM. -/
def biosInt13hOffset : Word := 0x4C7#16

/-- The offset of `vdisk_drivenum` in the ROM. -/
def vdiskDrivenum : Word := 0x4CD#16

/-! ## Code -/

/-- `[ss:bp-n]`. -/
def stackVar (n : Word) : Operand := .mem (.below .ss .bp n)

/-- `int13h_handler`. -/
def int13hHandlerCode : List (Instr Label) :=
  [ .sti,
    -- set a stack frame
    .push (.reg .bp),
    .mov (.reg .bp) (.reg .sp),
    .alu .sub (.reg .sp) (.imm 12#16),
    -- save some registers, setup vars pointer
    .mov (stackVar 2#16) (.reg .ax),
    .mov (stackVar 4#16) (.seg .ds),
    .mov (stackVar 6#16) (.reg .cx),
    .mov (stackVar 8#16) (.reg .di),
    .mov (stackVar 10#16) (.reg .dx),
    .mov (stackVar 12#16) (.reg .si),
    .mov (.reg .ax) (.seg .cs),
    .mov (.seg .ds) (.reg .ax),
    .mov (.reg .ax) (stackVar 2#16),
    -- skip disk reset for now
    .alu8 .cmp (.reg .ah) (.imm 0x00#8),
    .jcc .e .biosInt13h,
    -- skip if not our disk
    .alu8 .cmp (.reg .dl) (.mem (.abs .ds vdiskDrivenum)),
    .jcc .ne .biosInt13h,
    .alu8 .cmp (.reg .ah) (.imm 0x08#8),
    .jcc .e .handleAH08,
    .alu8 .cmp (.reg .ah) (.imm 0x02#8),
    .jcc .e (.transfer .handleAH02 .entry),
    .alu8 .cmp (.reg .ah) (.imm 0x03#8),
    .jcc .e (.transfer .handleAH03 .entry),
    .jmp .biosInt13h ]

/-- `.HandleAH08`. -/
def handleAH08Code : List (Instr Label) :=
  [ .mov (.reg .dx) (.imm 0xFE01#16),
    .mov (.reg .cx) (.imm 0x073F#16),
    -- no error (clear CF, zero AH)
    .alu8 .xor (.reg .ah) (.reg .ah),
    .clc,
    .mov (stackVar 2#16) (.reg .ax),
    .mov (stackVar 6#16) (.reg .cx),
    .mov (stackVar 10#16) (.reg .dx),
    .jmp .finishInt13hHandler ]

/-- A transfer function, for the label type `t`: `window` is the string-move register that walks the
disk window, `buffer` the one that walks the caller's buffer, and `swap` the code that exchanges
`ds` and `es` where the function does so. -/
def transferCode (t : Transfer) (window buffer : Reg) (swap : List (Instr Label)) :
    TransferLabel → List (Instr Label)
  | .entry =>
      [ .cld,
        .mov (.reg buffer) (.reg .bx),
        -- convert chs to lba (dx:ax = 512 bytes/sector lba)
        .mov8 (.reg .al) (.imm 255#8),
        .mul8 (.reg .ch),
        .mov8 (.reg .dl) (.reg .dh),
        .alu8 .xor (.reg .dh) (.reg .dh),
        .alu .add (.reg .ax) (.reg .dx),
        .mov (.reg .dx) (.imm 63#16),
        .mul (.reg .dx),
        .alu8 .xor (.reg .ch) (.reg .ch),
        .alu8 .sub (.reg .cl) (.imm 1#8),
        .alu .add (.reg .ax) (.reg .cx),
        .alu .adc (.reg .dx) (.imm 0#16),
        -- check the current lba
        .push (.reg .ax),
        .mov (.reg .bx) (.reg .ax),
        .mov (.reg .cx) (.reg .dx),
        .alu .and (.reg .bx) (.imm 0xFFF8#16),
        .mov (.reg .dx) (.imm 0xD000#16),
        .inAxDx,
        .alu .cmp (.reg .ax) (.reg .bx),
        .jcc .ne (.transfer t .outputLBALowWord),
        .alu .add (.reg .dx) (.imm 2#16),
        .inAxDx,
        .alu .cmp (.reg .ax) (.reg .cx),
        .jcc .ne (.transfer t .outputLBAHighWord),
        .jmp (.transfer t .skipLBA) ]
  | .outputLBALowWord =>
      [ .mov (.reg .ax) (.reg .bx),
        .outDxAx,
        .alu .add (.reg .dx) (.imm 2#16) ]
  | .outputLBAHighWord =>
      [ .mov (.reg .ax) (.reg .cx),
        .outDxAx,
        .alu .add (.reg .dx) (.imm 2#16),
        .outDxAx ]
  | .skipLBA =>
      .pop (.reg .ax) :: swap ++
      [ -- figure out the offset
        .mov (.reg .bx) (stackVar 2#16),
        .alu .and (.reg .ax) (.imm 0x0007#16),
        .jcc .e (.transfer t .skipAlignment),
        -- get blocks to move
        .alu8 .xor (.reg .cl) (.reg .cl),
        .mov8 (.reg .ch) (.imm 8#8),
        .alu8 .sub (.reg .ch) (.reg .al),
        .alu8 .cmp (.reg .ch) (.reg .bl),
        .jcc .ng (.transfer t .startCopy),
        -- so we aren't moving a whole block
        .mov8 (.reg .ch) (.reg .bl) ]
  | .startCopy =>
      [ .alu8 .sub (.reg .bl) (.reg .ch),
        -- compute offset into memory
        .mov8 (.reg .ah) (.reg .al),
        .shl8 (.reg .ah),
        .alu8 .xor (.reg .al) (.reg .al),
        .mov (.reg window) (.imm 0x1000#16),
        .alu .add (.reg window) (.reg .ax),
        .repMovsw,
        .alu8 .test (.reg .bl) (.reg .bl),
        .jcc .e (.transfer t .finishCopy),
        -- increment the LBA before continuing to main loop
        .call .incrementLBA (.transfer t .skipAlignment) ]
  | .skipAlignment =>
      [ .alu8 .test (.reg .bl) (.imm 0xF8#8),
        .jcc .e (.transfer t .lastCopy),
        .mov (.reg .cx) (.imm 2048#16),
        .mov (.reg window) (.imm 0x1000#16),
        .repMovsw,
        .alu8 .sub (.reg .bl) (.imm 8#8),
        .jcc .e (.transfer t .finishCopy),
        -- increment the LBA before the next block
        .call .incrementLBA (.transfer t .nextBlock) ]
  | .nextBlock => [ .jmp (.transfer t .skipAlignment) ]
  | .lastCopy =>
      [ .alu8 .xor (.reg .cl) (.reg .cl),
        .mov8 (.reg .ch) (.reg .bl),
        .mov (.reg window) (.imm 0x1000#16),
        .repMovsw ]
  | .finishCopy =>
      swap ++
      [ -- setup results
        .mov (.reg .ax) (stackVar 2#16),
        .alu8 .xor (.reg .ah) (.reg .ah),
        .clc,
        .mov (stackVar 2#16) (.reg .ax),
        .jmp .finishInt13hHandler ]

/-- `swap ds, es`. -/
def swapDsEs : List (Instr Label) :=
  [ .mov (.reg .bx) (.seg .es),
    .mov (.reg .dx) (.seg .ds),
    .mov (.seg .es) (.reg .dx),
    .mov (.seg .ds) (.reg .bx) ]

/-- `.HandleAH02`. -/
def handleAH02 : TransferLabel → List (Instr Label) := transferCode .handleAH02 .si .di []

/-- `.HandleAH03`. -/
def handleAH03 : TransferLabel → List (Instr Label) := transferCode .handleAH03 .di .si swapDsEs

/-- `.BIOSInt13h`: forward to the handler that was installed before. -/
def biosInt13hCode (returnOffset : Word) : List (Instr Label) :=
  [ .push (.reg .bp),
    -- simulate int instruction's return data
    .push (.mem (.above .ss .bp 6#16)),
    .push (.seg .cs),
    .push (.imm returnOffset),
    -- push old handler and restore variables
    .push (.mem (.abs .ds biosInt13hSegment)),
    .push (.mem (.abs .ds biosInt13hOffset)),
    .mov (.reg .ax) (stackVar 2#16),
    .mov (.seg .ds) (stackVar 4#16),
    .mov (.reg .cx) (stackVar 6#16),
    .mov (.reg .di) (stackVar 8#16),
    .mov (.reg .dx) (stackVar 10#16),
    .mov (.reg .bp) (.mem (.above .ss .bp 0#16)),
    .retf 0#16 ]

/-- `.ReturnFromInt13h`: where the forwarded call comes back. -/
def returnFromInt13hCode : List (Instr Label) :=
  [ .pop (.reg .bp),
    .mov (stackVar 2#16) (.reg .ax),
    .mov (stackVar 6#16) (.reg .cx),
    .mov (stackVar 8#16) (.reg .di),
    .mov (stackVar 10#16) (.reg .dx),
    .mov (stackVar 12#16) (.reg .si),
    -- setup vars pointer
    .mov (.reg .ax) (.seg .cs),
    .mov (.seg .ds) (.reg .ax) ]

/-- `.FinishInt13hHandler`. -/
def finishInt13hHandlerCode : List (Instr Label) :=
  [ -- restore registers
    .mov (.reg .ax) (stackVar 2#16),
    .mov (.seg .ds) (stackVar 4#16),
    .mov (.reg .cx) (stackVar 6#16),
    .mov (.reg .di) (stackVar 8#16),
    .mov (.reg .dx) (stackVar 10#16),
    .mov (.reg .si) (stackVar 12#16),
    -- restore stack frame
    .mov (.reg .sp) (.reg .bp),
    .pop (.reg .bp),
    -- skip over the flags entry on the stack
    .retf 2#16 ]

/-- `IncrementLBA`. -/
def incrementLBACode : List (Instr Label) :=
  [ .push (.reg .dx),
    .push (.reg .ax),
    .mov (.reg .dx) (.imm 0xD000#16),
    .inAxDx,
    .alu .add (.reg .ax) (.imm 8#16),
    .outDxAx,
    .alu .add (.reg .dx) (.imm 2#16),
    .inAxDx,
    .alu .adc (.reg .ax) (.imm 0#16),
    .outDxAx,
    .alu .add (.reg .dx) (.imm 2#16),
    .outDxAx,
    .pop (.reg .ax),
    .pop (.reg .dx),
    .ret ]

/-! ## The routine -/

/-- The label a block falls through to. -/
def Label.next : Label → Option Label
  | .transfer t .outputLBALowWord => some (.transfer t .outputLBAHighWord)
  | .transfer t .outputLBAHighWord => some (.transfer t .skipLBA)
  | .transfer t .skipLBA => some (.transfer t .startCopy)
  | .transfer t .lastCopy => some (.transfer t .finishCopy)
  | .returnFromInt13h => some .finishInt13hHandler
  | _ => none

/-- The offset in the ROM of a label, as assembled in `option.rom`. -/
def Label.offset : Label → Word
  | .int13hHandler => 0x295#16
  | .handleAH08 => 0x2E0#16
  | .transfer .handleAH02 l => match l with
    | .entry => 0x2F8#16
    | .outputLBALowWord => 0x32E#16
    | .outputLBAHighWord => 0x334#16
    | .skipLBA => 0x33B#16
    | .startCopy => 0x351#16
    | .skipAlignment => 0x367#16
    | .nextBlock => 0x37C#16
    | .lastCopy => 0x37E#16
    | .finishCopy => 0x387#16
  | .transfer .handleAH03 l => match l with
    | .entry => 0x395#16
    | .outputLBALowWord => 0x3CB#16
    | .outputLBAHighWord => 0x3D1#16
    | .skipLBA => 0x3D8#16
    | .startCopy => 0x3F6#16
    | .skipAlignment => 0x40C#16
    | .nextBlock => 0x421#16
    | .lastCopy => 0x423#16
    | .finishCopy => 0x42C#16
  | .biosInt13h => 0x441#16
  | .returnFromInt13h => 0x46D#16
  | .finishInt13hHandler => 0x486#16
  | .incrementLBA => 0x4A4#16

/-- The labels a pushed return address leads to. -/
def Label.returnLabels : List Label :=
  [.transfer .handleAH02 .skipAlignment, .transfer .handleAH02 .nextBlock,
    .transfer .handleAH03 .skipAlignment, .transfer .handleAH03 .nextBlock, .returnFromInt13h]

/-- The code of the handler. -/
def optionRom : Program Label where
  code
    | .int13hHandler => int13hHandlerCode
    | .handleAH08 => handleAH08Code
    | .transfer .handleAH02 l => handleAH02 l
    | .transfer .handleAH03 l => handleAH03 l
    | .biosInt13h => biosInt13hCode Label.returnFromInt13h.offset
    | .returnFromInt13h => returnFromInt13hCode
    | .finishInt13hHandler => finishInt13hHandlerCode
    | .incrementLBA => incrementLBACode
  next := Label.next
  offset := Label.offset
  labelAt w := Label.returnLabels.find? fun l => l.offset = w

end Ts3100
