import ClockStep.Word

/-!
# Instructions

An instruction word has its opcode in bits 15 to 12 and its operands below. `Instruction` keeps
exactly what a word says: two words have the same `decode` when they differ only in bits that the
opcode does not use. Offsets and immediates are signed, in two's complement.

The opcode and operand fields of a word are also there one by one, whether its opcode uses them or
not.
-/

namespace ClockStep

/-- The sixteen opcodes, in the order of their numbers. -/
inductive Opcode where
  | br | add | ld | st | jsr | and | ldr | str | rti | not | ldi | sti | jmp | reserved | lea | trap
deriving Repr, DecidableEq

/-- All opcodes by number. -/
def Opcode.table : Vector Opcode 16 :=
  #v[.br, .add, .ld, .st, .jsr, .and, .ldr, .str, .rti, .not, .ldi, .sti, .jmp, .reserved, .lea,
    .trap]

/-- The opcode with the given number, if it has four bits. -/
def Opcode.ofNat? (n : Nat) : Option Opcode := Opcode.table[n]?

/-- The service routines with a known trap vector. -/
inductive TrapRoutine where
  | getc | out | puts | read | putsp | halt
deriving Repr, DecidableEq

/-- The service routine behind a trap vector, `x20` to `x25` being known. -/
def TrapRoutine.ofNat? : Nat → Option TrapRoutine
  | 0x20 => some .getc
  | 0x21 => some .out
  | 0x22 => some .puts
  | 0x23 => some .read
  | 0x24 => some .putsp
  | 0x25 => some .halt
  | _ => none

/-- A register number. -/
abbrev Register := BitVec 3

/-- The second operand of an addition or conjunction. -/
inductive Operand where
  | register (source : Register)
  | immediate (value : BitVec 5)
deriving Repr, DecidableEq

/-- What an instruction word says. -/
inductive Instruction where
  /-- Branch when one of the chosen condition flags is set. -/
  | branch (negative zero positive : Bool) (offset : BitVec 9)
  | add (target source : Register) (operand : Operand)
  | and (target source : Register) (operand : Operand)
  | not (target source : Register)
  | load (target : Register) (offset : BitVec 9)
  | loadIndirect (target : Register) (offset : BitVec 9)
  | loadAddress (target : Register) (offset : BitVec 9)
  | loadBased (target base : Register) (offset : BitVec 6)
  | store (source : Register) (offset : BitVec 9)
  | storeIndirect (source : Register) (offset : BitVec 9)
  | storeBased (source base : Register) (offset : BitVec 6)
  /-- Call a subroutine at an offset. -/
  | call (offset : BitVec 11)
  /-- Call the subroutine a register points to. -/
  | callRegister (base : Register)
  /-- Jump to where a register points to; through register 7 it is a return. -/
  | jump (base : Register)
  | returnFromInterrupt
  | reserved
  | trap (vector : BitVec 8)
deriving Repr, DecidableEq

/-! ### The fields of a word -/

namespace Word

/-- The opcode in the highest four bits. -/
def opcode (w : Word) : Opcode := Opcode.table[(w.field 12 4).toFin]

/-- Bits 11 to 9, the target or source register. -/
def upperRegister (w : Word) : Register := w.field 9 3

/-- Bits 8 to 6, the first source or base register. -/
def middleRegister (w : Word) : Register := w.field 6 3

/-- Bits 2 to 0, the second source register. -/
def lowerRegister (w : Word) : Register := w.field 0 3

/-- Bit 5, which tells an immediate second operand from a register. -/
def isImmediate (w : Word) : Bool := w.bit 5

/-- The signed number in the lowest five bits. -/
def immediate (w : Word) : Int := (w.field 0 5).toInt

/-- The trap vector in the low byte. -/
def trapVector (w : Word) : Byte := w.low

/-- The second operand of an addition or conjunction. -/
def operand (w : Word) : Operand :=
  if w.isImmediate then .immediate (w.field 0 5) else .register w.lowerRegister

end Word

/-- Reads an instruction word. Every word is an instruction. -/
def Instruction.decode (w : Word) : Instruction :=
  match w.opcode with
  | .br => .branch (w.bit 11) (w.bit 10) (w.bit 9) (w.field 0 9)
  | .add => .add w.upperRegister w.middleRegister w.operand
  | .and => .and w.upperRegister w.middleRegister w.operand
  | .not => .not w.upperRegister w.middleRegister
  | .ld => .load w.upperRegister (w.field 0 9)
  | .ldi => .loadIndirect w.upperRegister (w.field 0 9)
  | .lea => .loadAddress w.upperRegister (w.field 0 9)
  | .ldr => .loadBased w.upperRegister w.middleRegister (w.field 0 6)
  | .st => .store w.upperRegister (w.field 0 9)
  | .sti => .storeIndirect w.upperRegister (w.field 0 9)
  | .str => .storeBased w.upperRegister w.middleRegister (w.field 0 6)
  | .jsr => if w.bit 11 then .call (w.field 0 11) else .callRegister w.middleRegister
  | .jmp => .jump w.middleRegister
  | .rti => .returnFromInterrupt
  | .reserved => .reserved
  | .trap => .trap (w.field 0 8)

end ClockStep
