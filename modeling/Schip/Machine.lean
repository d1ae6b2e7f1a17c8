import Schip.Config
import Schip.FrameBuffer.Scroll
import Schip.FrameBuffer.Sprite
import Schip.Instruction
import Schip.Keypad
import Schip.Registers

/-!
# The machine

State of the machine and the effect of one instruction on it. Nothing in an instruction can fail: an
access past the end of memory, an abused call stack and a word outside the table are recorded as
faults, and execution goes on with a fallback, zero for a value that could not be had.

Control flow is written for the advance of the program counter that ends every cycle: a jump aims
two bytes short of its target and a wait steps two bytes back.
-/

set_option autoImplicit false

namespace Schip

/-- What an instruction asks of the world outside the machine. -/
inductive Outcome where
  /-- Nothing. -/
  | proceed
  /-- The sound timer was loaded with a value that is not zero. -/
  | startTone
  /-- The program is finished. -/
  | exit
  deriving DecidableEq, Repr

/-- Whole state of the machine. -/
structure Machine where
  memory : Memory
  registers : Registers
  screen : FrameBuffer
  keypad : Keypad
  /-- Whether register transfers leave the index past the last byte. -/
  incrementIndex : Bool
  random : RandomSource
  /-- Faults recorded and not yet handed out, the oldest first. -/
  faults : List Fault
  /-- Program to load again on a restart. -/
  program : Option (List UInt8)

namespace Machine

/-- Relative instruction rate in the standard mode. -/
def standardPace : UInt32 := 150

/-- Relative instruction rate in the extended mode. -/
def extendedPace : UInt32 := 250

/-- Machine at power-on with given options and random bytes. -/
def new (config : Config) (random : RandomSource) : Machine where
  memory := Memory.new
  registers := Registers.new
  screen := (FrameBuffer.new.setReduceFlicker config.reduceFlicker).setDecayDelay config.decayDelay
  keypad := Keypad.clear
  incrementIndex := config.incrementIndex
  random := random
  faults := []
  program := none

/-- Relative instruction rate of the present mode. -/
def paceScale (m : Machine) : UInt32 :=
  match m.screen.mode with
  | .standard => standardPace
  | .extended => extendedPace

/-- Machine with changed registers. -/
def withRegisters (m : Machine) (registers : Registers) : Machine :=
  { m with registers := registers }

/-- Machine with a changed screen. -/
def withScreen (m : Machine) (screen : FrameBuffer) : Machine :=
  { m with screen := screen }

/-- Machine with a changed keypad. -/
def withKeypad (m : Machine) (keypad : Keypad) : Machine :=
  { m with keypad := keypad }

/-- Machine with one more recorded fault. -/
def record (m : Machine) (fault : Fault) : Machine :=
  { m with faults := m.faults ++ [fault] }

/-- Recorded faults, and the machine without them. -/
def takeFaults (m : Machine) : List Fault × Machine :=
  (m.faults, { m with faults := [] })

/-- Machine with a general register set. -/
def setV (m : Machine) (x : Nat) (value : UInt8) : Machine :=
  m.withRegisters (m.registers.setV x value)

/-- Machine with the index register set. -/
def setIndex (m : Machine) (value : UInt16) : Machine :=
  m.withRegisters (m.registers.setIndex value)

/-- Byte at an address; one past the end reads as zero and is recorded. -/
def loadByte (m : Machine) (address : Nat) : UInt8 × Machine :=
  match m.memory.load address with
  | .ok value => (value, m)
  | .error fault => (0, m.record fault)

/-- Byte stored at an address; one past the end is dropped and recorded. -/
def storeByte (m : Machine) (address : Nat) (value : UInt8) : Machine :=
  match m.memory.store address value with
  | .ok memory => { m with memory := memory }
  | .error fault => m.record fault

/-- Bytes at `count` addresses in a row. -/
def loadBytes (m : Machine) (address : Nat) : Nat → List UInt8 × Machine
  | 0 => ([], m)
  | count + 1 =>
    match m.loadByte address with
    | (value, m') =>
      match loadBytes m' (address + 1) count with
      | (values, m'') => (value :: values, m'')

/-- Bytes stored at addresses in a row. -/
def storeBytes (m : Machine) (address : Nat) : List UInt8 → Machine
  | [] => m
  | value :: values => storeBytes (m.storeByte address value) (address + 1) values

/-- General registers set in a row, from number `x` on. -/
def setRegisters (m : Machine) (x : Nat) : List UInt8 → Machine
  | [] => m
  | value :: values => setRegisters (m.setV x value) (x + 1) values

/-- Index moved past the registers up to `x`, if the options say so. -/
def bumpIndex (m : Machine) (x : Nat) : Machine :=
  if m.incrementIndex then m.setIndex (m.registers.index + (UInt16.ofNat x + 1)) else m

/-- Sprite of `rows` rows of `rowBytes` bytes, read from the index on and drawn at the place that
two registers hold; the flag says whether it collided. -/
def drawSprite (m : Machine) (x y rowBytes rows : Nat) : Machine :=
  match m.loadBytes m.registers.index.toNat (rowBytes * rows) with
  | (sprite, m') =>
    match m'.screen.drawSprite (m'.registers.v x).toNat (m'.registers.v y).toNat (rowBytes * 8)
      (sprite.flatMap FrameBuffer.bytePixels) with
    | (hit, screen) => (m'.withScreen screen).setV Registers.flag (if hit then 1 else 0)

/-- Call of a subroutine. A full stack is recorded; the jump is made all the same. -/
def call (m : Machine) (target : UInt16) : Machine :=
  match m.registers.push m.registers.pc with
  | (.ok (), registers) => m.withRegisters (registers.jump target)
  | (.error fault, registers) => (m.withRegisters (registers.jump target)).record fault

/-- Return from a subroutine. An empty stack is recorded and returns to address zero. -/
def ret (m : Machine) : Machine :=
  match m.registers.pop with
  | (.ok address, registers) => m.withRegisters (registers.setPc address)
  | (.error fault, registers) => (m.withRegisters (registers.setPc 0)).record fault

/-- Skip of the next instruction under a condition. -/
def skipIf (m : Machine) (condition : Bool) : Machine :=
  m.withRegisters (m.registers.skipIf condition)

/-- Register with a value and the flag set afterwards: the flag wins if it is the register. -/
def setThenFlag (m : Machine) (x : Nat) (value : UInt8) (flag : Bool) : Machine :=
  (m.setV x value).setV Registers.flag (if flag then 1 else 0)

/-- Flag set and a register set afterwards: the value wins if the register is the flag. -/
def flagThenSet (m : Machine) (flag value : UInt8) (x : Nat) : Machine :=
  (m.setV Registers.flag flag).setV x value

/-- A byte drawn from the random source, masked, into a register. -/
def randomByte (m : Machine) (x : Nat) (mask : UInt8) : Machine :=
  match m.random.draw with
  | (value, source) => { m with random := source }.setV x (value &&& mask)

/-- Lowest pressed key into a register, or a step back to wait for one. -/
def waitKey (m : Machine) (x : Nat) : Machine :=
  match m.keypad.firstPressed? with
  | some key => m.setV x key
  | none => m.withRegisters m.registers.rewind

/-- Hundreds, tens and ones of a byte. -/
def decimalDigits (value : UInt8) : List UInt8 := [value / 100, value / 10 % 10, value % 10]

/-- State after an instruction. -/
def effect (m : Machine) : Instruction → Machine
  | .scrollDown n => m.withScreen (m.screen.scrollDown n.toNat)
  | .clearScreen => m.withScreen m.screen.clear
  | .ret => m.ret
  | .scrollRight => m.withScreen m.screen.scrollRight
  | .scrollLeft => m.withScreen m.screen.scrollLeft
  | .exit => m
  | .lowRes => m.withScreen (m.screen.setMode .standard)
  | .highRes => m.withScreen (m.screen.setMode .extended)
  | .jump address => m.withRegisters (m.registers.jump address)
  | .call address => m.call address
  | .skipEqImm x kk => m.skipIf (m.registers.v x == kk)
  | .skipNeImm x kk => m.skipIf (m.registers.v x != kk)
  | .skipEqReg x y => m.skipIf (m.registers.v x == m.registers.v y)
  | .loadImm x kk => m.setV x kk
  | .addImm x kk => m.setV x (m.registers.v x + kk)
  | .move x y => m.setV x (m.registers.v y)
  | .or x y => m.setV x (m.registers.v x ||| m.registers.v y)
  | .and x y => m.setV x (m.registers.v x &&& m.registers.v y)
  | .xor x y => m.setV x (m.registers.v x ^^^ m.registers.v y)
  | .addReg x y =>
    m.setThenFlag x (m.registers.v x + m.registers.v y)
      (256 ≤ (m.registers.v x).toNat + (m.registers.v y).toNat)
  | .sub x y =>
    m.flagThenSet (if m.registers.v y ≤ m.registers.v x then 1 else 0)
      (m.registers.v x - m.registers.v y) x
  | .shiftRight x => m.flagThenSet (m.registers.v x &&& 1) (m.registers.v x >>> 1) x
  | .reverseSub x y =>
    m.flagThenSet (if m.registers.v x ≤ m.registers.v y then 1 else 0)
      (m.registers.v y - m.registers.v x) x
  | .shiftLeft x => m.flagThenSet (m.registers.v x >>> 7) (m.registers.v x <<< 1) x
  | .skipNeReg x y => m.skipIf (m.registers.v x != m.registers.v y)
  | .loadIndex address => m.setIndex address
  | .jumpIndexed address =>
    m.withRegisters (m.registers.jump (address + (m.registers.v 0).toUInt16))
  | .random x kk => m.randomByte x kk
  | .draw x y n => m.drawSprite x y 1 n.toNat
  | .drawExtended x y => m.drawSprite x y 2 16
  | .skipKeyDown x => m.skipIf (m.keypad.isPressed (m.registers.v x))
  | .skipKeyUp x => m.skipIf (!m.keypad.isPressed (m.registers.v x))
  | .getDelay x => m.setV x m.registers.delay
  | .waitKey x => m.waitKey x
  | .setDelay x => m.withRegisters (m.registers.setDelay (m.registers.v x))
  | .setSound x => m.withRegisters (m.registers.setSound (m.registers.v x))
  | .addIndex x => m.setIndex (m.registers.index + (m.registers.v x).toUInt16)
  | .loadFont x => m.setIndex (Font.standardAddress (m.registers.v x))
  | .loadExtendedFont x => m.setIndex (Font.extendedAddress (m.registers.v x))
  | .storeBcd x => m.storeBytes m.registers.index.toNat (decimalDigits (m.registers.v x))
  | .storeRegisters x =>
    (m.storeBytes m.registers.index.toNat ((List.range (x + 1)).map m.registers.v)).bumpIndex x
  | .loadRegisters x =>
    match m.loadBytes m.registers.index.toNat (x + 1) with
    | (values, m') => (m'.setRegisters 0 values).bumpIndex x
  | .unknown word => m.record (.unknownOpcode word)

/-- What an instruction asks for, by the registers before it. -/
def outcome (registers : Registers) : Instruction → Outcome
  | .exit => .exit
  | .setSound x => if 0 < registers.v x then .startTone else .proceed
  | _ => .proceed

/-- One instruction, without the tick of the timers and the advance that a cycle adds. -/
def execute (m : Machine) (instruction : Instruction) : Outcome × Machine :=
  (outcome m.registers instruction, m.effect instruction)

end Machine

end Schip
