import ClockStep.Instruction.Basic
import ClockStep.Text.Basic

/-!
# Disassembly

The text of an instruction: its mnemonic, then its operands by name. Offsets and immediates are in
decimal with their sign, trap vectors in hexadecimal with the name of their service routine.
-/

namespace ClockStep

open Text (hexPadded)

/-- The name of a service routine. -/
def TrapRoutine.name : TrapRoutine → String
  | .getc => "GETC"
  | .out => "OUT"
  | .puts => "PUTS"
  | .read => "IN"
  | .putsp => "PUTSP"
  | .halt => "HALT"

namespace Instruction

/-- A register operand under its name. -/
def registerText (name : String) (r : Register) : String := name ++ "=R" ++ toString r.toNat

/-- A signed operand under its name. -/
def signedText {width : Nat} (name : String) (v : BitVec width) : String :=
  name ++ "=" ++ toString v.toInt

/-- The second operand of an addition or conjunction. -/
def operandText : Operand → String
  | .register r => registerText "SR2" r
  | .immediate v => signedText "imm5" v

/-- The letters of the chosen condition flags. -/
def flagsText (negative zero positive : Bool) : String :=
  (if negative then "n" else "") ++ (if zero then "z" else "") ++ (if positive then "p" else "")

/-- The name of the service routine behind a trap vector. -/
def routineText (vector : BitVec 8) : String :=
  match TrapRoutine.ofNat? vector.toNat with
  | some routine => routine.name
  | none => "unknown trap"

/-- The disassembly of an instruction. -/
def text : Instruction → String
  | branch n z p offset => "BR (" ++ flagsText n z p ++ ") " ++ signedText "PCoffset9" offset
  | add target source operand =>
    "ADD " ++ registerText "DR" target ++ ", " ++ registerText "SR1" source ++ ", " ++
      operandText operand
  | and target source operand =>
    "AND " ++ registerText "DR" target ++ ", " ++ registerText "SR1" source ++ ", " ++
      operandText operand
  | not target source => "NOT " ++ registerText "DR" target ++ ", " ++ registerText "SR" source
  | load target offset => "LD " ++ registerText "DR" target ++ ", " ++ signedText "PCoffset9" offset
  | loadIndirect target offset =>
    "LDI " ++ registerText "DR" target ++ ", " ++ signedText "PCoffset9" offset
  | loadAddress target offset =>
    "LEA " ++ registerText "DR" target ++ ", " ++ signedText "PCoffset9" offset
  | loadBased target base offset =>
    "LDR " ++ registerText "DR" target ++ ", " ++ registerText "baseR" base ++ ", " ++
      signedText "offset6" offset
  | store source offset => "ST " ++ registerText "SR" source ++ ", " ++ signedText "PCoffset9" offset
  | storeIndirect source offset =>
    "STI " ++ registerText "SR" source ++ ", " ++ signedText "PCoffset9" offset
  | storeBased source base offset =>
    "STR " ++ registerText "SR" source ++ ", " ++ registerText "baseR" base ++ ", " ++
      signedText "offset6" offset
  | call offset => "JSR " ++ signedText "PCoffset11" offset
  | callRegister base => "JSRR " ++ registerText "BaseR" base
  | jump base => if base = 7 then "RET" else "JMP " ++ registerText "BaseR" base
  | returnFromInterrupt => "RTI"
  | reserved => "Reserved opcode (1101)"
  | trap vector => "TRAP vec=x" ++ hexPadded 2 vector.toNat ++ " (" ++ routineText vector ++ ")"

end Instruction

namespace Word

/-- The disassembly of an instruction word. -/
def disassembly (w : Word) : String := (Instruction.decode w).text

/-- The word itself beside its disassembly. -/
def inspection (w : Word) : String :=
  "Instruction(0x" ++ hexPadded 4 w.toNat ++ ": " ++ w.disassembly ++ ")"

end Word

end ClockStep
