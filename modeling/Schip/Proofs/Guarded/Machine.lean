import Schip.Machine.Cycle
import Schip.Proofs.Guarded.Scroll

/-!
# Guarded machine

The machine with all its stores as plain arrays: memory, general registers, call stack, keys and the
guarded screen. No size is part of a type, and a cycle aborts wherever an index is missing, a sum or
difference leaves its range or a divisor is zero. Register and key numbers are reduced to their low
four bits before they index; an address is checked against the capacity first, and what does not fit
is recorded as a fault.

`Machine.of` lays a machine out in this form.
-/

set_option autoImplicit false

namespace Schip.Guarded

open FrameBuffer (wordLimit)

/-- State of the machine, in plain arrays. -/
structure Machine where
  memory : Array UInt8
  general : Array UInt8
  index : UInt16
  pc : UInt16
  stack : Array UInt16
  /-- Next free slot of the stack, -1 if there is none. -/
  pointer : Int
  delay : UInt8
  sound : UInt8
  screen : Screen
  keys : Array Bool
  incrementIndex : Bool
  random : RandomSource
  faults : List Fault

namespace Machine

/-- Machine with one more recorded fault. -/
def record (g : Machine) (fault : Fault) : Machine := { g with faults := g.faults ++ [fault] }

/-! ## Registers -/

/-- Value of a general register. -/
def v? (g : Machine) (x : Nat) : Option UInt8 := g.general[x % 16]?

/-- General register set. -/
def setV? (g : Machine) (x : Nat) (value : UInt8) : Option Machine := do
  return { g with general := ← write? g.general (x % 16) value }

/-- Program counter one instruction on, modulo its range. -/
def advance (g : Machine) : Machine := { g with pc := g.pc + 2 }

/-- Program counter one instruction back, modulo its range. -/
def rewind (g : Machine) : Machine := { g with pc := g.pc - 2 }

/-- Program counter before a target, modulo its range. -/
def jump (g : Machine) (target : UInt16) : Machine := { g with pc := target - 2 }

/-- Skip of the next instruction under a condition. -/
def skipIf (g : Machine) (condition : Bool) : Machine := if condition then g.advance else g

/-- Register with a value and the flag set afterwards. -/
def setThenFlag? (g : Machine) (x : Nat) (value : UInt8) (flag : Bool) : Option Machine := do
  (← g.setV? x value).setV? Registers.flag (if flag then 1 else 0)

/-- Flag set and a register set afterwards. -/
def flagThenSet? (g : Machine) (flag value : UInt8) (x : Nat) : Option Machine := do
  (← g.setV? Registers.flag flag).setV? x value

/-- Index moved past the registers up to `x`, if the options say so. -/
def bumpIndex? (g : Machine) (x : Nat) : Option Machine :=
  if g.incrementIndex then do
    let step ← short? ((UInt16.ofNat x).toNat + 1)
    return { g with index := g.index + step }
  else
    some g

/-- Address of a glyph of `height` bytes in a font. -/
def glyph? (base height : Nat) (digit : UInt8) : Option UInt16 := do
  let offset ← word? (height * (digit.toNat % 16))
  let address ← word? (base + offset)
  return UInt16.ofNat address

/-! ## Call stack -/

/-- Return address stored and the pointer decremented; on a full stack the lowest slot is
overwritten. -/
def push? (g : Machine) (value : UInt16) : Option Machine :=
  if g.pointer = CallStack.fullPointer then do
    let stack ← write? g.stack 0 value
    return { g with stack := stack }.record .stackOverflow
  else do
    let slot ← slot? g.pointer
    let stack ← write? g.stack slot value
    let pointer ← signed? (g.pointer - 1)
    return { g with stack := stack, pointer := pointer }

/-- Pointer incremented and the address there read; an empty stack gives address zero. -/
def pop? (g : Machine) : Option (UInt16 × Machine) :=
  if g.pointer = CallStack.emptyPointer then
    some (0, g.record .stackUnderflow)
  else do
    let pointer ← signed? (g.pointer + 1)
    let slot ← slot? pointer
    let address ← g.stack[slot]?
    return (address, { g with pointer := pointer })

/-! ## Memory -/

/-- End of a range of addresses, unless it is past the capacity. The sum may overflow, which is a
fault like any other. -/
def rangeEnd (address length capacity : Nat) : Except Fault Nat :=
  if address + length < wordLimit ∧ address + length ≤ capacity then .ok (address + length)
  else .error (.outOfRange (max address capacity))

/-- Big-endian word at an address. -/
def loadWord? (g : Machine) (address : Nat) : Option (Except Fault UInt16) :=
  match rangeEnd address 2 g.memory.size with
  | .error fault => some (.error fault)
  | .ok stop => do
    let part ← slice? g.memory address stop
    let high ← part[0]?
    let low ← part[1]?
    return .ok (high.toUInt16 <<< 8 ||| low.toUInt16)

/-- Byte at an address; one past the end reads as zero and is recorded. -/
def loadByte? (g : Machine) (address : Nat) : Option (UInt8 × Machine) :=
  match rangeEnd address 1 g.memory.size with
  | .error fault => some (0, g.record fault)
  | .ok stop => do
    let part ← slice? g.memory address stop
    let value ← part[0]?
    return (value, g)

/-- Byte stored at an address; one past the end is dropped and recorded. -/
def storeByte? (g : Machine) (address : Nat) (value : UInt8) : Option Machine :=
  match rangeEnd address 1 g.memory.size with
  | .error fault => some (g.record fault)
  | .ok stop => do
    let part ← slice? g.memory address stop
    let _ ← part[0]?
    let memory ← write? g.memory address value
    return { g with memory := memory }

/-- Three decimal digits of a byte stored from the index on. -/
def storeDigits? (g : Machine) (value : UInt8) : Option Machine := do
  let start := g.index.toNat
  let g ← g.storeByte? start (value / 100)
  let g ← g.storeByte? (← word? (start + 1)) (value / 10 % 10)
  g.storeByte? (← word? (start + 2)) (value % 10)

/-- Register number `k` stored `k` bytes after an address. -/
def storeRegister? (start k : Nat) (g : Machine) : Option Machine := do
  g.storeByte? (← word? (start + k)) (← g.v? k)

/-- Registers up to `x` stored from the index on. -/
def storeRegisters? (g : Machine) (x : Nat) : Option Machine := do
  (← ascending? (storeRegister? g.index.toNat) (x + 1) g).bumpIndex? x

/-- Register number `k` loaded from `k` bytes after an address. -/
def loadRegister? (start k : Nat) (g : Machine) : Option Machine := do
  let (value, g) ← g.loadByte? (← word? (start + k))
  g.setV? k value

/-- Registers up to `x` loaded from the index on. -/
def loadRegisters? (g : Machine) (x : Nat) : Option Machine := do
  (← ascending? (loadRegister? g.index.toNat) (x + 1) g).bumpIndex? x

/-! ## Screen -/

/-- Eight pixels of a sprite, from the byte that lies `offset` bytes after an address. -/
def unpackByte? (start offset : Nat) (state : List UInt8 × Machine) :
    Option (List UInt8 × Machine) := do
  let (byte, g) ← state.2.loadByte? (← word? (start + offset))
  return (state.1 ++ FrameBuffer.bytePixels byte, g)

/-- Sprite of `rows` rows of `rowBytes` bytes, read from the index on and drawn at the place that
two registers hold. The first product is the space reserved for the pixels. -/
def drawSprite? (g : Machine) (x y rowBytes rows : Nat) : Option Machine := do
  let rowWidth ← word? (rowBytes * 8)
  let _ ← word? (rowWidth * rows)
  let count ← word? (rowBytes * rows)
  let (pixels, g) ← ascending? (unpackByte? g.index.toNat) count ([], g)
  let (hit, screen) ← g.screen.drawSprite? (← g.v? x).toNat (← g.v? y).toNat rowWidth pixels
  { g with screen := screen }.setV? Registers.flag (if hit then 1 else 0)

/-! ## Keys -/

/-- Whether a key is down. -/
def isPressed? (g : Machine) (key : UInt8) : Option Bool := g.keys[key.toNat % 16]?

/-- First key of a list that is down. -/
def firstPressed? (g : Machine) : List UInt8 → Option (Option UInt8)
  | [] => some none
  | key :: rest => do
    if ← g.isPressed? key then return some key else g.firstPressed? rest

/-- Lowest pressed key into a register, or a step back to wait for one. -/
def waitKey? (g : Machine) (x : Nat) : Option Machine := do
  match ← g.firstPressed? Keypad.keys with
  | some key => g.setV? x key
  | none => return g.rewind

/-- Keypad with a key changed. -/
def setKey? (g : Machine) (key : UInt8) (down : Bool) : Option Machine := do
  return { g with keys := ← write? g.keys (key.toNat % 16) down }

/-! ## Instructions -/

/-- State after an instruction. -/
def effect? (g : Machine) : Instruction → Option Machine
  | .scrollDown n => do return { g with screen := ← g.screen.scrollDown? n.toNat }
  | .clearScreen => some { g with screen := g.screen.clear }
  | .ret => do
    let (address, g) ← g.pop?
    return { g with pc := address }
  | .scrollRight => do return { g with screen := ← g.screen.scrollRight? }
  | .scrollLeft => do return { g with screen := ← g.screen.scrollLeft? }
  | .exit => some g
  | .lowRes => do return { g with screen := ← g.screen.setExtended? false }
  | .highRes => do return { g with screen := ← g.screen.setExtended? true }
  | .jump address => some (g.jump address)
  | .call address => do return (← g.push? g.pc).jump address
  | .skipEqImm x kk => do return g.skipIf ((← g.v? x) == kk)
  | .skipNeImm x kk => do return g.skipIf ((← g.v? x) != kk)
  | .skipEqReg x y => do return g.skipIf ((← g.v? x) == (← g.v? y))
  | .loadImm x kk => g.setV? x kk
  | .addImm x kk => do g.setV? x ((← g.v? x) + kk)
  | .move x y => do g.setV? x (← g.v? y)
  | .or x y => do g.setV? x ((← g.v? x) ||| (← g.v? y))
  | .and x y => do g.setV? x ((← g.v? x) &&& (← g.v? y))
  | .xor x y => do g.setV? x ((← g.v? x) ^^^ (← g.v? y))
  | .addReg x y => do
    let vx ← g.v? x
    let vy ← g.v? y
    g.setThenFlag? x (vx + vy) (256 ≤ vx.toNat + vy.toNat)
  | .sub x y => do
    let vx ← g.v? x
    let vy ← g.v? y
    g.flagThenSet? (if vy ≤ vx then 1 else 0) (vx - vy) x
  | .shiftRight x => do
    let vx ← g.v? x
    g.flagThenSet? (vx &&& 1) (vx >>> 1) x
  | .reverseSub x y => do
    let vx ← g.v? x
    let vy ← g.v? y
    g.flagThenSet? (if vx ≤ vy then 1 else 0) (vy - vx) x
  | .shiftLeft x => do
    let vx ← g.v? x
    g.flagThenSet? (vx >>> 7) (vx <<< 1) x
  | .skipNeReg x y => do return g.skipIf ((← g.v? x) != (← g.v? y))
  | .loadIndex address => some { g with index := address }
  | .jumpIndexed address => do return g.jump (address + (← g.v? 0).toUInt16)
  | .random x kk =>
    match g.random.draw with
    | (value, source) => { g with random := source }.setV? x (value &&& kk)
  | .draw x y n => g.drawSprite? x y 1 n.toNat
  | .drawExtended x y => g.drawSprite? x y 2 16
  | .skipKeyDown x => do return g.skipIf (← g.isPressed? (← g.v? x))
  | .skipKeyUp x => do return g.skipIf (!(← g.isPressed? (← g.v? x)))
  | .getDelay x => g.setV? x g.delay
  | .waitKey x => g.waitKey? x
  | .setDelay x => do return { g with delay := ← g.v? x }
  | .setSound x => do return { g with sound := ← g.v? x }
  | .addIndex x => do return { g with index := g.index + (← g.v? x).toUInt16 }
  | .loadFont x => do
    return { g with index := ← glyph? Font.standardBase Font.standardHeight (← g.v? x) }
  | .loadExtendedFont x => do
    return { g with index := ← glyph? Font.extendedBase Font.extendedHeight (← g.v? x) }
  | .storeBcd x => do g.storeDigits? (← g.v? x)
  | .storeRegisters x => g.storeRegisters? x
  | .loadRegisters x => g.loadRegisters? x
  | .unknown word => some (g.record (.unknownOpcode word))

/-- What an instruction asks for, by the registers before it. -/
def outcome? (g : Machine) : Instruction → Option Outcome
  | .exit => some .exit
  | .setSound x => do return if 0 < (← g.v? x) then .startTone else .proceed
  | _ => some .proceed

/-- Instruction of a word. A word has sixteen groups; a further one would be an abort. -/
def decode? (word : UInt16) : Option Instruction :=
  if Word.group word < 16 then some (Instruction.decode word) else none

/-- End of a cycle: tick of the timers, advance of the program counter and report. -/
def finish (g : Machine) (pc : UInt16) (instruction : Option Instruction) (outcome : Outcome) :
    Step × Machine :=
  let ended :=
    if outcome = .exit then g
    else { g with delay := countdown g.delay, sound := countdown g.sound }.advance
  (⟨pc, instruction, outcome, ended.faults⟩, { ended with faults := [] })

/-- One cycle. -/
def cycle? (g : Machine) : Option (Step × Machine) := do
  match ← g.loadWord? g.pc.toNat with
  | .error fault => return (g.record fault).finish g.pc none .proceed
  | .ok word =>
    let instruction ← decode? word
    let outcome ← g.outcome? instruction
    let executed ← g.effect? instruction
    return executed.finish g.pc (some instruction) outcome

/-- Layout of a machine. -/
def of (m : Schip.Machine) : Machine where
  memory := m.memory.bytes.toArray
  general := m.registers.general.toArray
  index := m.registers.index
  pc := m.registers.pc
  stack := m.registers.stack.slots.toArray
  pointer := m.registers.stack.pointer
  delay := m.registers.delay
  sound := m.registers.sound
  screen := Screen.of m.screen
  keys := m.keypad.down.toArray
  incrementIndex := m.incrementIndex
  random := m.random
  faults := m.faults

end Machine

end Schip.Guarded
