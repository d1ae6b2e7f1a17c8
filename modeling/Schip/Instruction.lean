/-!
# Instructions

The instruction set of CHIP-8 with the SUPER-CHIP additions, and the decoding of a sixteen-bit
word. A word is read as four nibbles: the group, the register numbers `x` and `y`, and the minor
opcode `n`; the low byte is `kk` and the low twelve bits are `nnn`. Decoding is total: a word that
no row of the table names becomes `Instruction.unknown`.
-/

set_option autoImplicit false

namespace Schip

/-- One instruction. Register numbers are natural numbers; the register file looks only at their
low four bits. -/
inductive Instruction where
  /-- Scroll the screen down by `n` lines (00CN). -/
  | scrollDown (n : UInt8)
  /-- Blank the screen (00E0). -/
  | clearScreen
  /-- Return from a subroutine (00EE). -/
  | ret
  /-- Scroll the screen right (00FB). -/
  | scrollRight
  /-- Scroll the screen left (00FC). -/
  | scrollLeft
  /-- The program is finished (00FD). -/
  | exit
  /-- Standard resolution (00FE). -/
  | lowRes
  /-- Extended resolution (00FF). -/
  | highRes
  /-- Jump (1NNN). -/
  | jump (address : UInt16)
  /-- Call a subroutine (2NNN). -/
  | call (address : UInt16)
  /-- Skip if a register equals a byte (3XKK). -/
  | skipEqImm (x : Nat) (kk : UInt8)
  /-- Skip if a register differs from a byte (4XKK). -/
  | skipNeImm (x : Nat) (kk : UInt8)
  /-- Skip if two registers are equal (5XY_). -/
  | skipEqReg (x y : Nat)
  /-- Load a byte (6XKK). -/
  | loadImm (x : Nat) (kk : UInt8)
  /-- Add a byte, without a carry flag (7XKK). -/
  | addImm (x : Nat) (kk : UInt8)
  /-- Copy a register (8XY0). -/
  | move (x y : Nat)
  /-- Bitwise or (8XY1). -/
  | or (x y : Nat)
  /-- Bitwise and (8XY2). -/
  | and (x y : Nat)
  /-- Bitwise exclusive or (8XY3). -/
  | xor (x y : Nat)
  /-- Addition with carry (8XY4). -/
  | addReg (x y : Nat)
  /-- Subtraction of `y` from `x` (8XY5). -/
  | sub (x y : Nat)
  /-- Shift right by one (8XY6). -/
  | shiftRight (x : Nat)
  /-- Subtraction of `x` from `y`, kept in `x` (8XY7). -/
  | reverseSub (x y : Nat)
  /-- Shift left by one (8XYE). -/
  | shiftLeft (x : Nat)
  /-- Skip if two registers differ (9XY_). -/
  | skipNeReg (x y : Nat)
  /-- Load the index register (ANNN). -/
  | loadIndex (address : UInt16)
  /-- Jump to an address plus register zero (BNNN). -/
  | jumpIndexed (address : UInt16)
  /-- A random byte under a mask (CXKK). -/
  | random (x : Nat) (kk : UInt8)
  /-- Draw a sprite of `n` rows, eight pixels wide (DXYN). -/
  | draw (x y : Nat) (n : UInt8)
  /-- Draw a sprite of sixteen by sixteen pixels (DXY0). -/
  | drawExtended (x y : Nat)
  /-- Skip if a key is down (EX9E). -/
  | skipKeyDown (x : Nat)
  /-- Skip if a key is up (EXA1). -/
  | skipKeyUp (x : Nat)
  /-- Read the delay timer (FX07). -/
  | getDelay (x : Nat)
  /-- Wait for a key (FX0A). -/
  | waitKey (x : Nat)
  /-- Set the delay timer (FX15). -/
  | setDelay (x : Nat)
  /-- Set the sound timer (FX18). -/
  | setSound (x : Nat)
  /-- Add a register to the index (FX1E). -/
  | addIndex (x : Nat)
  /-- Address of a five-byte glyph (FX29). -/
  | loadFont (x : Nat)
  /-- Address of a ten-byte glyph (FX30). -/
  | loadExtendedFont (x : Nat)
  /-- Store three decimal digits (FX33). -/
  | storeBcd (x : Nat)
  /-- Store the registers up to `x` (FX55). -/
  | storeRegisters (x : Nat)
  /-- Load the registers up to `x` (FX65). -/
  | loadRegisters (x : Nat)
  /-- A word outside the table. -/
  | unknown (word : UInt16)
  deriving DecidableEq, Repr

namespace Word

/-- First nibble: the opcode group. -/
def group (word : UInt16) : Nat := word.toNat / 4096

/-- Second nibble: a register number. -/
def x (word : UInt16) : Nat := word.toNat / 256 % 16

/-- Third nibble: a register number. -/
def y (word : UInt16) : Nat := word.toNat / 16 % 16

/-- Fourth nibble: a count or a minor opcode. -/
def n (word : UInt16) : Nat := word.toNat % 16

/-- Low byte. -/
def kk (word : UInt16) : UInt8 := UInt8.ofNat (word.toNat % 256)

/-- Low twelve bits. -/
def nnn (word : UInt16) : UInt16 := UInt16.ofNat (word.toNat % 4096)

end Word

namespace Instruction

/-- Group zero: screen and flow control without operands, chosen by the low byte alone. -/
def decodeSystem (word : UInt16) : Instruction :=
  match (Word.kk word).toNat with
  | 0xE0 => clearScreen
  | 0xEE => ret
  | 0xFB => scrollRight
  | 0xFC => scrollLeft
  | 0xFD => exit
  | 0xFE => lowRes
  | 0xFF => highRes
  | _ => if Word.y word = 0xC then scrollDown (UInt8.ofNat (Word.n word)) else unknown word

/-- Group eight: register arithmetic, chosen by the last nibble. -/
def decodeArithmetic (word : UInt16) : Instruction :=
  match Word.n word with
  | 0x0 => move (Word.x word) (Word.y word)
  | 0x1 => or (Word.x word) (Word.y word)
  | 0x2 => and (Word.x word) (Word.y word)
  | 0x3 => xor (Word.x word) (Word.y word)
  | 0x4 => addReg (Word.x word) (Word.y word)
  | 0x5 => sub (Word.x word) (Word.y word)
  | 0x6 => shiftRight (Word.x word)
  | 0x7 => reverseSub (Word.x word) (Word.y word)
  | 0xE => shiftLeft (Word.x word)
  | _ => unknown word

/-- Group thirteen: sprites; a height of zero asks for the extended sprite. -/
def decodeSprite (word : UInt16) : Instruction :=
  if Word.n word = 0 then drawExtended (Word.x word) (Word.y word)
  else draw (Word.x word) (Word.y word) (UInt8.ofNat (Word.n word))

/-- Group fourteen: skips on keys. -/
def decodeKeySkip (word : UInt16) : Instruction :=
  match (Word.kk word).toNat with
  | 0x9E => skipKeyDown (Word.x word)
  | 0xA1 => skipKeyUp (Word.x word)
  | _ => unknown word

/-- Group fifteen: timers, index register and memory transfers. -/
def decodeTransfer (word : UInt16) : Instruction :=
  match (Word.kk word).toNat with
  | 0x07 => getDelay (Word.x word)
  | 0x0A => waitKey (Word.x word)
  | 0x15 => setDelay (Word.x word)
  | 0x18 => setSound (Word.x word)
  | 0x1E => addIndex (Word.x word)
  | 0x29 => loadFont (Word.x word)
  | 0x30 => loadExtendedFont (Word.x word)
  | 0x33 => storeBcd (Word.x word)
  | 0x55 => storeRegisters (Word.x word)
  | 0x65 => loadRegisters (Word.x word)
  | _ => unknown word

/-- Instruction of a word, by its group. -/
def decode (word : UInt16) : Instruction :=
  match Word.group word with
  | 0x0 => decodeSystem word
  | 0x1 => jump (Word.nnn word)
  | 0x2 => call (Word.nnn word)
  | 0x3 => skipEqImm (Word.x word) (Word.kk word)
  | 0x4 => skipNeImm (Word.x word) (Word.kk word)
  | 0x5 => skipEqReg (Word.x word) (Word.y word)
  | 0x6 => loadImm (Word.x word) (Word.kk word)
  | 0x7 => addImm (Word.x word) (Word.kk word)
  | 0x8 => decodeArithmetic word
  | 0x9 => skipNeReg (Word.x word) (Word.y word)
  | 0xA => loadIndex (Word.nnn word)
  | 0xB => jumpIndexed (Word.nnn word)
  | 0xC => random (Word.x word) (Word.kk word)
  | 0xD => decodeSprite word
  | 0xE => decodeKeySkip word
  | _ => decodeTransfer word

end Instruction

end Schip
