import Schip.Proofs.Guarded.Machine
import Schip.Proofs.Machine.Activity
import Schip.Proofs.Machine.Transfer

/-!
# The guarded machine executes like the machine

One lemma for each operation of the guarded machine: on the layout of a machine it does not abort,
and it leaves the layout of what the operation on the machine leaves. They meet in `effect?_of`, for
all instructions, and in `cycle?_of`, for all words that memory can hold at the program counter.

Two things have to be known of the machine, `Sound`, and one of the instruction, `Bounded`; that
every decoded instruction is bounded is `bounded_decode`.
-/

set_option autoImplicit false

namespace Schip.Guarded.Machine

open FrameBuffer (wordLimit)

variable (m : Schip.Machine)

/-! ## Registers and keys -/

@[simp] theorem v?_of (x : Nat) : (of m).v? x = some (m.registers.v x) :=
  getElem?_toArray m.registers.general (Nat.mod_lt x (by decide))

@[simp] theorem setV?_of (x : Nat) (value : UInt8) :
    (of m).setV? x value = some (of (m.setV x value)) := by
  have hwrite := write?_toArray m.registers.general (Nat.mod_lt x (by decide)) value
  rw [setV?, show (of m).general = m.registers.general.toArray from rfl, hwrite]
  rfl

@[simp] theorem isPressed?_of (key : UInt8) :
    (of m).isPressed? key = some (m.keypad.isPressed key) :=
  getElem?_toArray m.keypad.down (Nat.mod_lt key.toNat (by decide))

/-- Setting a key cannot abort: a key number is taken modulo the number of keys. -/
theorem setKey?_of (key : UInt8) (down : Bool) :
    (of m).setKey? key down = some (of (m.withKeypad (m.keypad.setKey key down))) := by
  have hwrite := write?_toArray m.keypad.down (Nat.mod_lt key.toNat (by decide)) down
  rw [setKey?, show (of m).keys = m.keypad.down.toArray from rfl, hwrite]
  rfl

/-- Looking for a key that is down cannot abort. -/
theorem firstPressed?_of (keys : List UInt8) :
    (of m).firstPressed? keys = some (keys.find? m.keypad.isPressed) := by
  induction keys with
  | nil => rfl
  | cons key rest ih =>
      rw [firstPressed?, isPressed?_of, List.find?_cons]
      simp only [Option.bind_eq_bind, Option.bind_some]
      cases m.keypad.isPressed key with
      | true => rfl
      | false => exact ih

variable {m}

/-! ## Call stack -/

/-- A write at a slot of the stack. -/
theorem write?_slots (stack : CallStack) {slot : Nat} (h : slot < 16) (value : UInt16) :
    write? stack.slots.toArray slot value =
      some (stack.slots.setIfInBounds slot value).toArray :=
  write?_eq (by rw [Vector.size_toArray]; exact h) value

/-- A call with a valid stack. The slot of the pointer exists, because a full stack is told apart
first. -/
theorem call?_of (h : m.registers.stack.Valid) (target : UInt16) :
    (of m).effect? (.call target) = some (of (m.call target)) := by
  obtain ⟨low, high⟩ := h
  simp only [CallStack.fullPointer, CallStack.emptyPointer] at low high
  have hstack : (of m).stack = m.registers.stack.slots.toArray := rfl
  have hpointer : (of m).pointer = m.registers.stack.pointer := rfl
  rw [effect?, push?, hstack, hpointer, Schip.Machine.call, Registers.push, CallStack.push]
  by_cases hfull : m.registers.stack.pointer = CallStack.fullPointer
  · rw [if_pos hfull, if_pos hfull, write?_slots _ (by decide)]
    rfl
  · rw [if_neg hfull, if_neg hfull]
    simp only [CallStack.fullPointer] at hfull
    have hslot : m.registers.stack.pointer.toNat < 16 := by omega
    rw [slot?_eq (by omega), Option.bind_eq_bind, Option.bind_eq_bind, Option.bind_some,
      write?_slots _ hslot, signed?_of_small (by omega) (by omega)]
    rfl

/-- A return with a valid stack. The slot above the pointer exists, because an empty stack is told
apart first. -/
theorem ret?_of (h : m.registers.stack.Valid) : (of m).effect? .ret = some (of m.ret) := by
  obtain ⟨low, high⟩ := h
  simp only [CallStack.fullPointer, CallStack.emptyPointer] at low high
  have hstack : (of m).stack = m.registers.stack.slots.toArray := rfl
  have hpointer : (of m).pointer = m.registers.stack.pointer := rfl
  rw [effect?, pop?, hstack, hpointer, Schip.Machine.ret, Registers.pop, CallStack.pop]
  by_cases hempty : m.registers.stack.pointer = CallStack.emptyPointer
  · rw [if_pos hempty, if_pos hempty]
    rfl
  · rw [if_neg hempty, if_neg hempty]
    simp only [CallStack.emptyPointer] at hempty
    have hslot : (m.registers.stack.pointer + 1).toNat < 16 := by omega
    have hread := getElem?_toArray m.registers.stack.slots hslot
    have hvalue : m.registers.stack.slots[(m.registers.stack.pointer + 1).toNat]?.getD 0 =
        m.registers.stack.slots[(m.registers.stack.pointer + 1).toNat] := by
      rw [Vector.getElem?_eq_getElem hslot]
      rfl
    have hindex : slot? (m.registers.stack.pointer + 1) =
        some (m.registers.stack.pointer + 1).toNat := slot?_eq (by omega)
    rw [signed?_of_small (by omega) (by omega), hvalue]
    simp only [Option.bind_eq_bind, Option.bind_some, hindex, hread]
    rfl

/-! ## Memory -/

theorem size_memory_of (m : Schip.Machine) : (of m).memory.size = 4096 := by simp [of]

/-- A range that fits in memory; its end is a machine word all the more. -/
theorem rangeEnd_of_le {address length : Nat} (h : address + length ≤ 4096) :
    rangeEnd address length 4096 = .ok (address + length) := by
  have hword : address + length < wordLimit := Nat.lt_of_le_of_lt h (by decide)
  exact if_pos ⟨hword, h⟩

/-- A range that does not fit in memory, be it because its end is no machine word. -/
theorem rangeEnd_of_lt {address length : Nat} (h : 4096 < address + length) :
    rangeEnd address length 4096 = .error (Memory.missAt address) :=
  if_neg fun hfits => Nat.not_le.2 h hfits.2

/-- Bytes of a range that fits in memory. -/
theorem slice?_of (mem : Memory) {address length : Nat} (h : address + length ≤ 4096) :
    slice? mem.bytes.toArray address (address + length) =
      some (mem.bytes.toArray.extract address (address + length)) :=
  slice?_eq (Nat.le_add_right address length) (by rw [Vector.size_toArray]; exact h)

/-- A slice of the memory has the bytes of the memory. -/
theorem getElem?_slice (mem : Memory) {address length i : Nat} (hi : i < length)
    (h : address + length ≤ 4096) :
    (mem.bytes.toArray.extract address (address + length))[i]? = some mem.bytes[address + i] := by
  rw [Array.getElem?_extract, if_pos (by rw [Vector.size_toArray]; omega)]
  exact getElem?_toArray mem.bytes (by omega)

/-- Loading a byte cannot abort: an address outside is recorded. -/
theorem loadByte?_of (m : Schip.Machine) (address : Nat) :
    (of m).loadByte? address = some ((m.loadByte address).1, of (m.loadByte address).2) := by
  have hmemory : (of m).memory = m.memory.bytes.toArray := rfl
  rw [loadByte?, size_memory_of, hmemory, Schip.Machine.loadByte, Memory.load]
  rcases Nat.lt_or_ge address 4096 with h | h
  · have hfits : address + 1 ≤ 4096 := h
    have hbyte := getElem?_slice m.memory Nat.zero_lt_one hfits
    simp only [rangeEnd_of_le hfits, slice?_of m.memory hfits, hbyte, Option.bind_eq_bind,
      Option.bind_some, dif_pos h, Nat.add_zero]
    rfl
  · have hmiss : 4096 < address + 1 := Nat.lt_succ_of_le h
    simp only [rangeEnd_of_lt hmiss, dif_neg (Nat.not_lt.2 h)]
    rfl

/-- Storing a byte cannot abort: an address outside is recorded. -/
theorem storeByte?_of (m : Schip.Machine) (address : Nat) (value : UInt8) :
    (of m).storeByte? address value = some (of (m.storeByte address value)) := by
  have hmemory : (of m).memory = m.memory.bytes.toArray := rfl
  rw [storeByte?, size_memory_of, hmemory, Schip.Machine.storeByte, Memory.store]
  rcases Nat.lt_or_ge address 4096 with h | h
  -- the byte is looked up first and then written
  · have hfits : address + 1 ≤ 4096 := h
    have hbyte := getElem?_slice m.memory Nat.zero_lt_one hfits
    have hwrite := write?_toArray m.memory.bytes h value
    simp only [rangeEnd_of_le hfits, slice?_of m.memory hfits, hbyte, hwrite, Option.bind_eq_bind,
      Option.bind_some, dif_pos h]
    rfl
  · have hmiss : 4096 < address + 1 := Nat.lt_succ_of_le h
    simp only [rangeEnd_of_lt hmiss, dif_neg (Nat.not_lt.2 h)]
    rfl

/-- Loading a word cannot abort. -/
theorem loadWord?_of (m : Schip.Machine) (address : Nat) :
    (of m).loadWord? address = some (m.memory.word address) := by
  have hmemory : (of m).memory = m.memory.bytes.toArray := rfl
  rw [loadWord?, size_memory_of, hmemory, Memory.word]
  rcases Nat.lt_or_ge 4096 (address + 2) with h | h
  -- at least one of the two bytes is past the end
  · simp only [rangeEnd_of_lt h, dif_neg (Nat.not_le.2 h)]
  · have hhigh := getElem?_slice m.memory (show 0 < 2 by decide) h
    have hlow := getElem?_slice m.memory (show 1 < 2 by decide) h
    simp only [rangeEnd_of_le h, slice?_of m.memory h, hhigh, hlow, Option.bind_eq_bind,
      Option.bind_some, dif_pos h]
    rfl

/-- Addresses a little above the index are machine words, also past the end of memory. -/
theorem word?_index (index : UInt16) {offset : Nat} (h : offset < 1 <<< 16) :
    word? (index.toNat + offset) = some (index.toNat + offset) := by
  have hindex := index.toNat_lt
  exact word?_of_small (by omega)

/-- The increment of the index by a register number cannot abort. -/
theorem bumpIndex?_of (m : Schip.Machine) {x : Nat} (hx : x < 16) :
    (of m).bumpIndex? x = some (of (m.bumpIndex x)) := by
  have hincrement : (of m).incrementIndex = m.incrementIndex := rfl
  have hstep : short? ((UInt16.ofNat x).toNat + 1) = some (UInt16.ofNat x + 1) := by
    rw [short?_eq, UInt16.ofNat_add, UInt16.ofNat_toNat]
    · rfl
    · rw [UInt16.toNat_ofNat']
      omega
  rw [bumpIndex?, hincrement, hstep, Schip.Machine.bumpIndex]
  by_cases h : m.incrementIndex = true
  · rw [if_pos h, if_pos h]
    rfl
  · rw [if_neg h, if_neg h]

/-- Storing three digits leaves the layout of what storing a list of them leaves. -/
theorem storeDigits?_of (m : Schip.Machine) (value : UInt8) :
    (of m).storeDigits? value =
      some (of (m.storeBytes m.registers.index.toNat (Schip.Machine.decimalDigits value))) := by
  have hindex : (of m).index = m.registers.index := rfl
  rw [storeDigits?, hindex]
  simp only [word?_index m.registers.index (show 1 < 1 <<< 16 by decide),
    word?_index m.registers.index (show 2 < 1 <<< 16 by decide), storeByte?_of, Option.bind_eq_bind,
    Option.bind_some]
  rfl

/-- One step of the loop that stores registers. -/
theorem storeRegister?_of (m : Schip.Machine) (index : UInt16) {k : Nat} (hk : k < 16) :
    storeRegister? index.toNat k
        (of (m.storeBytes index.toNat ((List.range k).map m.registers.v))) =
      some (of (m.storeBytes index.toNat ((List.range (k + 1)).map m.registers.v))) := by
  have hlast := m.storeBytes_append index.toNat ((List.range k).map m.registers.v)
    (m.registers.v k)
  rw [List.length_map, List.length_range] at hlast
  rw [List.range_succ, List.map_append, List.map_singleton, hlast, storeRegister?]
  simp only [word?_index index (show k < 1 <<< 16 by omega), v?_of, m.registers_storeBytes,
    storeByte?_of, Option.bind_eq_bind, Option.bind_some]

/-- The loop that stores registers does what the instruction does. -/
theorem storeRegisters?_of (m : Schip.Machine) {x : Nat} (hx : x < 16) :
    (of m).storeRegisters? x = some (of (m.effect (.storeRegisters x))) := by
  have hindex : (of m).index = m.registers.index := rfl
  -- before pass `k` the first `k` registers are stored
  have hloop := ascending?_eq (n := x + 1)
    (fun k => of (m.storeBytes m.registers.index.toNat ((List.range k).map m.registers.v)))
    fun k hk => storeRegister?_of m m.registers.index (by omega)
  rw [storeRegisters?, hindex]
  simp only [Option.bind_eq_bind]
  rw [show of m = of (m.storeBytes m.registers.index.toNat
    ((List.range 0).map m.registers.v)) from rfl, hloop, Option.bind_some, bumpIndex?_of _ hx]
  rfl

/-- Loading and setting one register after the other is loading all bytes and then setting the
registers, because a load does not look at the registers. -/
theorem loadRegister?_of (m : Schip.Machine) (index : UInt16) {k : Nat} (hk : k < 16) :
    loadRegister? index.toNat k
        (of ((m.loadBytes index.toNat k).2.setRegisters 0 (m.loadBytes index.toNat k).1)) =
      some (of ((m.loadBytes index.toNat (k + 1)).2.setRegisters 0
        (m.loadBytes index.toNat (k + 1)).1)) := by
  rw [loadRegister?, m.loadBytes_succ, Schip.Machine.setRegisters_append, m.length_loadBytes,
    Nat.zero_add]
  simp only [word?_index index (show k < 1 <<< 16 by omega), loadByte?_of,
    Schip.Machine.loadByte_setRegisters, setV?_of, Option.bind_eq_bind, Option.bind_some]

/-- The loop that loads registers does what the instruction does. -/
theorem loadRegisters?_of (m : Schip.Machine) {x : Nat} (hx : x < 16) :
    (of m).loadRegisters? x = some (of (m.effect (.loadRegisters x))) := by
  have hindex : (of m).index = m.registers.index := rfl
  -- before pass `k` the first `k` registers are loaded
  have hloop := ascending?_eq (n := x + 1)
    (fun k => of ((m.loadBytes m.registers.index.toNat k).2.setRegisters 0
      (m.loadBytes m.registers.index.toNat k).1))
    fun k hk => loadRegister?_of m m.registers.index (by omega)
  rw [loadRegisters?, hindex]
  simp only [Option.bind_eq_bind]
  rw [show of m = of ((m.loadBytes m.registers.index.toNat 0).2.setRegisters 0
    (m.loadBytes m.registers.index.toNat 0).1) from rfl, hloop, Option.bind_some,
    bumpIndex?_of _ hx]
  rfl

/-! ## Sprites -/

/-- One step of the loop that loads the bytes of a sprite and unpacks their pixels. -/
theorem unpackByte?_of (m : Schip.Machine) (index : UInt16) {k : Nat} (hk : k < 1 <<< 16) :
    unpackByte? index.toNat k ((m.loadBytes index.toNat k).1.flatMap FrameBuffer.bytePixels,
        of (m.loadBytes index.toNat k).2) =
      some ((m.loadBytes index.toNat (k + 1)).1.flatMap FrameBuffer.bytePixels,
        of (m.loadBytes index.toNat (k + 1)).2) := by
  rw [unpackByte?, m.loadBytes_succ, List.flatMap_append, List.flatMap_singleton]
  simp only [word?_index index hk, loadByte?_of, Option.bind_eq_bind, Option.bind_some]
  rfl

/-- A byte has eight pixels. -/
theorem length_flatMap_bytePixels (bytes : List UInt8) :
    (bytes.flatMap FrameBuffer.bytePixels).length = 8 * bytes.length := by
  induction bytes with
  | nil => rfl
  | cons byte rest ih =>
      rw [List.flatMap_cons, List.length_append, ih, List.length_cons]
      show 8 + 8 * rest.length = 8 * (rest.length + 1)
      omega

/-- Any sprite that an instruction can ask for, at any place that registers can hold. -/
theorem drawSprite?_of (m : Schip.Machine) (x y : Nat) {rowBytes rows : Nat}
    (hbytes : rowBytes ≤ 2) (hrows : rows < 256) :
    (of m).drawSprite? x y rowBytes rows = some (of (m.drawSprite x y rowBytes rows)) := by
  have hindex : (of m).index = m.registers.index := rfl
  have hcount : rowBytes * rows ≤ 2 * 255 := Nat.mul_le_mul hbytes (Nat.le_of_lt_succ hrows)
  have hspace : rowBytes * 8 * rows ≤ 16 * 255 :=
    Nat.mul_le_mul (Nat.mul_le_mul_right 8 hbytes) (Nat.le_of_lt_succ hrows)
  -- before pass `k` the pixels of `k` bytes are collected
  have hloop := ascending?_eq (n := rowBytes * rows)
    (fun k => ((m.loadBytes m.registers.index.toNat k).1.flatMap FrameBuffer.bytePixels,
      of (m.loadBytes m.registers.index.toNat k).2))
    fun k hk => unpackByte?_of m m.registers.index (by omega)
  have hstart : ([], of m) =
      ((m.loadBytes m.registers.index.toNat 0).1.flatMap FrameBuffer.bytePixels,
        of (m.loadBytes m.registers.index.toNat 0).2) := rfl
  have hlength := m.length_loadBytes m.registers.index.toNat (rowBytes * rows)
  rw [drawSprite?, hindex, word?_of_small (n := rowBytes * 8) (by omega)]
  simp only [Option.bind_eq_bind, Option.bind_some,
    word?_of_small (n := rowBytes * 8 * rows) (by omega),
    word?_of_small (n := rowBytes * rows) (by omega)]
  rw [hstart, hloop, Schip.Machine.drawSprite]
  -- only the number of bytes matters from here on, not what they are
  generalize m.loadBytes m.registers.index.toNat (rowBytes * rows) = loaded at hlength
  obtain ⟨bytes, loaded⟩ := loaded
  have hpixels := length_flatMap_bytePixels bytes
  have hfits : FrameBuffer.SpriteFits (loaded.registers.v x).toNat (loaded.registers.v y).toNat
      (rowBytes * 8) (bytes.flatMap FrameBuffer.bytePixels).length := by
    have hx := (loaded.registers.v x).toNat_lt
    have hy := (loaded.registers.v y).toNat_lt
    exact FrameBuffer.spriteFits_of_small (by omega) (by omega) (by simp only at hlength; omega)
  have hscreen : (of loaded).screen = Screen.of loaded.screen := rfl
  simp only [Option.bind_some, v?_of, hscreen, Screen.drawSprite?_of loaded.screen hfits]
  generalize loaded.screen.drawSprite _ _ _ _ = drawn
  exact setV?_of (loaded.withScreen drawn.2) _ _

/-! ## Instructions -/

theorem setThenFlag?_of (m : Schip.Machine) (x : Nat) (value : UInt8) (flag : Bool) :
    (of m).setThenFlag? x value flag = some (of (m.setThenFlag x value flag)) := by
  simp only [setThenFlag?, setV?_of, Option.bind_eq_bind, Option.bind_some]
  rfl

theorem flagThenSet?_of (m : Schip.Machine) (flag value : UInt8) (x : Nat) :
    (of m).flagThenSet? flag value x = some (of (m.flagThenSet flag value x)) := by
  simp only [flagThenSet?, setV?_of, Option.bind_eq_bind, Option.bind_some]
  rfl

theorem skipIf_of (m : Schip.Machine) (condition : Bool) :
    (of m).skipIf condition = of (m.skipIf condition) := by
  cases condition <;> rfl

/-- The address of a glyph is a sixteen-bit number for every digit. -/
theorem glyph?_of {base height : Nat} (hbase : base < 1 <<< 16) (hheight : height < 1 <<< 16)
    (digit : UInt8) :
    glyph? base height digit = some (UInt16.ofNat (base + height * (digit.toNat % 16))) := by
  have hdigit : digit.toNat % 16 ≤ 15 := Nat.le_of_lt_succ (Nat.mod_lt _ (by decide))
  have hoffset : height * (digit.toNat % 16) ≤ height * 15 := Nat.mul_le_mul_left height hdigit
  have haddress : word? (base + height * (digit.toNat % 16)) =
      some (base + height * (digit.toNat % 16)) := word?_of_small (by omega)
  rw [glyph?, word?_of_small (by omega)]
  simp only [Option.bind_eq_bind, Option.bind_some, haddress]
  rfl

/-- Waiting for a key cannot abort. -/
theorem waitKey?_of (m : Schip.Machine) (x : Nat) :
    (of m).waitKey? x = some (of (m.waitKey x)) := by
  rw [waitKey?, firstPressed?_of, Schip.Machine.waitKey, Keypad.firstPressed?]
  cases Keypad.keys.find? m.keypad.isPressed with
  | none => rfl
  | some key => exact setV?_of m x key

/-- Instruction whose register numbers are those of a word, where they bound a loop. -/
def Bounded : Instruction → Prop
  | .storeRegisters x | .loadRegisters x => x < 16
  | _ => True

/-- State in which no instruction aborts: the grid has the size of its mode, and the pointer of the
stack is between full and empty. -/
structure Sound (m : Schip.Machine) : Prop where
  screen : m.screen.WellFormed
  stack : m.registers.stack.Valid

/-- Every instruction does on the guarded machine what it does on the machine. -/
theorem effect?_of (h : Sound m) {instruction : Instruction} (hins : Bounded instruction) :
    (of m).effect? instruction = some (of (m.effect instruction)) := by
  have hscreen : (of m).screen = Screen.of m.screen := rfl
  cases instruction with
  | call target => exact call?_of h.stack target
  | ret => exact ret?_of h.stack
  | waitKey x => exact waitKey?_of m x
  | storeRegisters x => exact storeRegisters?_of m hins
  | loadRegisters x => exact loadRegisters?_of m hins
  | draw x y n => exact drawSprite?_of m x y (by decide) n.toNat_lt
  | drawExtended x y => exact drawSprite?_of m x y (by decide) (by decide)
  | scrollDown n =>
      have hlines := Screen.width_mul_lt_wordLimit m.screen.mode n
      rw [effect?, hscreen, Screen.scrollDown?_of h.screen hlines]
      rfl
  | scrollLeft =>
      rw [effect?, hscreen, Screen.scrollLeft?_of h.screen]
      rfl
  | scrollRight =>
      rw [effect?, hscreen, Screen.scrollRight?_of h.screen]
      rfl
  | clearScreen =>
      rw [effect?, hscreen, Screen.clear_of]
      rfl
  | lowRes =>
      have hset := Screen.setExtended?_of m.screen .standard
      rw [effect?, hscreen, show false = (Mode.standard == .extended) from rfl, hset]
      rfl
  | highRes =>
      have hset := Screen.setExtended?_of m.screen .extended
      rw [effect?, hscreen, show true = (Mode.extended == .extended) from rfl, hset]
      rfl
  | exit | jump | loadIndex | unknown => rfl
  -- single registers, whose numbers are reduced before they index
  | loadImm x kk => exact setV?_of m x kk
  | getDelay x => exact setV?_of m x m.registers.delay
  | random x kk => exact setV?_of { m with random := m.random.draw.2 } x _
  | addImm | move | or | and | xor =>
      simp only [effect?, v?_of, setV?_of, Option.bind_eq_bind, Option.bind_some]
      rfl
  | addReg | sub | shiftRight | reverseSub | shiftLeft =>
      simp only [effect?, v?_of, setThenFlag?_of, flagThenSet?_of, Option.bind_eq_bind,
        Option.bind_some]
      rfl
  | skipEqImm | skipNeImm | skipEqReg | skipNeReg | skipKeyDown | skipKeyUp =>
      simp only [effect?, v?_of, isPressed?_of, skipIf_of, Option.bind_eq_bind, Option.bind_some]
      rfl
  | jumpIndexed | setDelay | setSound | addIndex =>
      simp only [effect?, v?_of, Option.bind_eq_bind, Option.bind_some]
      rfl
  | loadFont x =>
      have hglyph := glyph?_of (show Font.standardBase < 1 <<< 16 by decide)
        (show Font.standardHeight < 1 <<< 16 by decide) (m.registers.v x)
      simp only [effect?, v?_of, hglyph, Option.bind_eq_bind, Option.bind_some]
      rfl
  | loadExtendedFont x =>
      have hglyph := glyph?_of (show Font.extendedBase < 1 <<< 16 by decide)
        (show Font.extendedHeight < 1 <<< 16 by decide) (m.registers.v x)
      simp only [effect?, v?_of, hglyph, Option.bind_eq_bind, Option.bind_some]
      rfl
  | storeBcd x =>
      simp only [effect?, v?_of, storeDigits?_of, Option.bind_eq_bind, Option.bind_some]
      rfl

/-- The outcome of an instruction needs no guarded step. -/
theorem outcome?_of (m : Schip.Machine) (instruction : Instruction) :
    (of m).outcome? instruction = some (Schip.Machine.outcome m.registers instruction) := by
  cases instruction with
  | setSound x =>
      simp only [outcome?, v?_of, Option.bind_eq_bind, Option.bind_some]
      rfl
  | _ => rfl

/-! ## Cycles -/

/-- The guarded decoder accepts every word and agrees with the unguarded one. -/
theorem decode?_eq (word : UInt16) : decode? word = some (Instruction.decode word) := by
  refine if_pos ?_
  rw [Word.group]
  have hword := word.toNat_lt
  omega

theorem bounded_decodeSystem (word : UInt16) : Bounded (Instruction.decodeSystem word) := by
  rw [Instruction.decodeSystem]
  split
  case h_8 => split <;> trivial
  all_goals trivial

theorem bounded_decodeArithmetic (word : UInt16) :
    Bounded (Instruction.decodeArithmetic word) := by
  rw [Instruction.decodeArithmetic]
  split <;> trivial

theorem bounded_decodeSprite (word : UInt16) : Bounded (Instruction.decodeSprite word) := by
  rw [Instruction.decodeSprite]
  split <;> trivial

theorem bounded_decodeKeySkip (word : UInt16) : Bounded (Instruction.decodeKeySkip word) := by
  rw [Instruction.decodeKeySkip]
  split <;> trivial

/-- The transfers are the group in which a register number bounds a loop; it is a nibble. -/
theorem bounded_decodeTransfer (word : UInt16) : Bounded (Instruction.decodeTransfer word) := by
  have hx : Word.x word < 16 := Nat.mod_lt _ (by decide)
  rw [Instruction.decodeTransfer]
  split
  case h_9 => exact hx
  case h_10 => exact hx
  all_goals trivial

/-- Register numbers and counts of a decoded instruction are those of one digit. -/
theorem bounded_decode (word : UInt16) : Bounded (Instruction.decode word) := by
  rw [Instruction.decode]
  split
  case h_1 => exact bounded_decodeSystem word
  case h_9 => exact bounded_decodeArithmetic word
  case h_14 => exact bounded_decodeSprite word
  case h_15 => exact bounded_decodeKeySkip word
  case h_16 => exact bounded_decodeTransfer word
  all_goals trivial

/-- The end of a cycle leaves the layout of what it leaves on the machine. -/
theorem finish_of (m : Schip.Machine) (pc : UInt16) (instruction : Option Instruction)
    (outcome : Outcome) :
    (of m).finish pc instruction outcome =
      (⟨pc, instruction, outcome,
          (if outcome = .exit then m else m.finishCycle).takeFaults.1⟩,
        of (if outcome = .exit then m else m.finishCycle).takeFaults.2) := by
  rw [finish]
  split <;> rfl

/-- One cycle of the guarded machine does not abort and is one cycle of the machine. -/
theorem cycle?_of (h : Sound m) : (of m).cycle? = some (m.cycle.1, of m.cycle.2) := by
  have hpc : (of m).pc = m.registers.pc := rfl
  rw [cycle?, hpc, loadWord?_of, Schip.Machine.cycle_eq]
  cases hword : m.memory.word m.registers.pc.toNat with
  | error fault =>
      -- no word to fetch: the cycle records the fault and runs nothing
      have hexecuted : m.fetchExecute = (none, .proceed, m.record fault) := by
        rw [Schip.Machine.fetchExecute, Schip.Machine.fetch, hword]
      rw [hexecuted]
      exact congrArg some (finish_of (m.record fault) m.registers.pc none .proceed)
  | ok word =>
      have hexecuted : m.fetchExecute =
          (some (Instruction.decode word), m.execute (Instruction.decode word)) := by
        rw [Schip.Machine.fetchExecute, Schip.Machine.fetch, hword]
      have heffect := effect?_of h (bounded_decode word)
      rw [hexecuted]
      simp only [Option.bind_eq_bind, Option.bind_some, decode?_eq, outcome?_of, heffect,
        finish_of]
      rfl

end Schip.Guarded.Machine
