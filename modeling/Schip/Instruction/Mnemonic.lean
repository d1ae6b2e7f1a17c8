import Schip.Instruction
import Schip.Text.Numeral

/-!
# Mnemonics

The assembler text of an instruction. Register numbers are plain hexadecimal, bytes have two digits,
addresses three and raw words four; the scroll distance alone is decimal. Every mnemonic but four
belongs to one instruction, and those four (`skeq`, `skne`, `mov`, `add`) tell a register operand
from a byte by the letter `v`.
-/

set_option autoImplicit false

namespace Schip.Instruction

open Numeral

/-- Register operand. -/
def registerText (x : Nat) : String := "v" ++ hex x

/-- Byte operand. -/
def byteText (kk : UInt8) : String := hexPadded 2 kk.toNat

/-- Address operand. -/
def addressText (address : UInt16) : String := hexPadded 3 address.toNat

/-- Mnemonic with one register. -/
def unaryText (name : String) (x : Nat) : String :=
  name ++ " " ++ registerText x

/-- Mnemonic with two registers. -/
def binaryText (name : String) (x y : Nat) : String :=
  name ++ " " ++ registerText x ++ ", " ++ registerText y

/-- Mnemonic with a register and a byte. -/
def immediateText (name : String) (x : Nat) (kk : UInt8) : String :=
  name ++ " " ++ registerText x ++ ", " ++ byteText kk

/-- Mnemonic with an address. -/
def absoluteText (name : String) (address : UInt16) : String :=
  name ++ " " ++ addressText address

/-- Assembler text of an instruction. -/
def text : Instruction → String
  | scrollDown n => "scd " ++ decimal n.toNat
  | clearScreen => "cls"
  | ret => "rts"
  | scrollRight => "scr"
  | scrollLeft => "scl"
  | exit => "exit"
  | lowRes => "low"
  | highRes => "high"
  | jump address => absoluteText "jmp" address
  | call address => absoluteText "jsr" address
  | skipEqImm x kk => immediateText "skeq" x kk
  | skipNeImm x kk => immediateText "skne" x kk
  | skipEqReg x y => binaryText "skeq" x y
  | loadImm x kk => immediateText "mov" x kk
  | addImm x kk => immediateText "add" x kk
  | move x y => binaryText "mov" x y
  | or x y => binaryText "or" x y
  | and x y => binaryText "and" x y
  | xor x y => binaryText "xor" x y
  | addReg x y => binaryText "add" x y
  | sub x y => binaryText "sub" x y
  | shiftRight x => unaryText "shr" x
  | reverseSub x y => binaryText "rsb" x y
  | shiftLeft x => unaryText "shl" x
  | skipNeReg x y => binaryText "skne" x y
  | loadIndex address => absoluteText "mvi" address
  | jumpIndexed address => absoluteText "jmi" address
  | random x kk => immediateText "rand" x kk
  | draw x y n => binaryText "sprite" x y ++ ", " ++ hex n.toNat
  | drawExtended x y => binaryText "xsprite" x y
  | skipKeyDown x => unaryText "skpr" x
  | skipKeyUp x => unaryText "skup" x
  | getDelay x => unaryText "gdelay" x
  | waitKey x => unaryText "key" x
  | setDelay x => unaryText "sdelay" x
  | setSound x => unaryText "ssound" x
  | addIndex x => unaryText "adi" x
  | loadFont x => unaryText "font" x
  | loadExtendedFont x => unaryText "xfont" x
  | storeBcd x => unaryText "bcd" x
  | storeRegisters x => "str v0-" ++ registerText x
  | loadRegisters x => "ldr v0-" ++ registerText x
  | unknown word => "dw " ++ hexPadded 4 word.toNat

end Schip.Instruction
