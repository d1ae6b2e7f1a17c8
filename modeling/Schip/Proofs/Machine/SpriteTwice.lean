import Schip.Proofs.Machine.Anomalies
import Schip.Proofs.Machine.GeneralRegisters
import Schip.Proofs.Machine.Reachability
import Schip.Proofs.Machine.Setting
import Schip.Proofs.Screen.Coverage

/-!
# A sprite drawn twice

Drawing the same sprite a second time undoes the first drawing. On the screen this is exclusive or:
each cell is toggled as often the second time as the first (`sameLogical_draw_draw`), and one of the
two drawings switches a lit pixel off as soon as the sprite has any (`collides_draw_or_draw`).

The machine adds the reading of the sprite. Bytes past the end of memory read as zero and are
recorded, so a sprite that runs off the end is drawn with the bytes that are there
(`loadBytes_eq`, `drawSprite_eq`). The first drawing writes nothing but the screen, the flag and the
faults; with the position in other registers the second one therefore draws the same sprite
(`sprite_afterSprite`). `draws_twice` puts both together for either sprite instruction on every
reachable machine.
-/

set_option autoImplicit false

namespace Schip

/-! ## Twice on the screen -/

namespace FrameBuffer

variable {fb : FrameBuffer}

/-- The second drawing of a sprite undoes the first one. -/
theorem sameLogical_draw_draw (hwf : fb.WellFormed) (hbits : fb.HasBits) (s : Sprite) :
    (s.draw (s.draw fb).2).2.SameLogical fb := by
  have hmode := s.mode_draw fb
  have hmode' := (s.mode_draw (s.draw fb).2).trans hmode
  refine sameLogical_of_pixel? ((hwf.draw s).draw s) hwf hmode' fun row col hin => ?_
  rw [hmode'] at hin
  obtain ⟨cell, hcell⟩ := hwf.exists_cell hin
  have hold := pixel?_of_cell hcell
  have hfirst := pixel?_draw hbits s hin hold
  rw [← hmode] at hin
  rw [pixel?_draw (hbits.draw s) s hin hfirst, hmode, UInt8.xor_assoc, UInt8.xor_self,
    UInt8.xor_zero, hold]

/-- A sprite covers some cell exactly if one of its pixels is set. -/
theorem exists_count_pos_iff (s : Sprite) (mode : Mode) :
    (∃ row col, mode.Contains row col ∧ 0 < s.count mode row col) ↔ ∃ bit ∈ s.pixels, bit ≠ 0 := by
  constructor
  · rintro ⟨row, col, -, hpos⟩
    obtain ⟨i, hi, hcovers⟩ := List.countP_pos_iff.1 hpos
    have hlength : i < s.pixels.length := List.mem_range.1 hi
    obtain ⟨hbit, -, -⟩ := of_decide_eq_true hcovers
    rw [List.getElem?_eq_getElem hlength, Option.getD_some] at hbit
    exact ⟨_, List.getElem_mem hlength, hbit⟩
  · rintro ⟨bit, hmem, hbit⟩
    obtain ⟨i, hlength, rfl⟩ := List.getElem_of_mem hmem
    have hwidth : 0 < mode.width := by cases mode <;> decide
    refine ⟨(s.y.toNat + i / s.rowWidth) % (mode.height + 1),
      (s.x.toNat + i % s.rowWidth) % mode.width, ⟨?_, Nat.mod_lt _ hwidth⟩, ?_⟩
    · exact Nat.le_of_lt_succ (Nat.mod_lt _ (Nat.succ_pos _))
    · refine List.countP_pos_iff.2 ⟨i, List.mem_range.2 hlength, decide_eq_true ⟨?_, rfl, rfl⟩⟩
      rw [List.getElem?_eq_getElem hlength, Option.getD_some]
      exact hbit

/-- One of the two drawings collides, if the sprite has a lit pixel at all. -/
theorem collides_draw_or_draw (hwf : fb.WellFormed) (hbits : fb.HasBits) (s : Sprite) :
    ((s.draw fb).1 = true ∨ (s.draw (s.draw fb).2).1 = true) ↔ ∃ bit ∈ s.pixels, bit ≠ 0 := by
  have hmode := s.mode_draw fb
  have hfirst := collides_draw hwf hbits s
  have hsecond := collides_draw (hwf.draw s) (hbits.draw s) s
  rw [hmode] at hsecond
  rw [← exists_count_pos_iff s fb.mode, hfirst, hsecond]
  have hbit : ∀ {fb : FrameBuffer} {row col : Nat} {old : UInt8}, fb.HasBits →
      fb.pixel? row col = some old → old.toNat ≤ 1 := by
    intro fb row col old hbits hold
    rcases hbits.pixel? hold with rfl | rfl <;> decide
  constructor
  · rintro (⟨row, col, old, hin, hold, htwo⟩ | ⟨row, col, new, hin, hnew, htwo⟩)
    · have hle := hbit hbits hold
      exact ⟨row, col, hin, by omega⟩
    · have hle := hbit (hbits.draw s) hnew
      rw [hmode] at hin
      exact ⟨row, col, hin, by omega⟩
  · rintro ⟨row, col, hin, hpos⟩
    obtain ⟨cell, hcell⟩ := hwf.exists_cell hin
    have hold := pixel?_of_cell hcell
    by_cases hmany : 2 ≤ cell.logical.toNat + s.count fb.mode row col
    · exact Or.inl ⟨row, col, cell.logical, hin, hold, hmany⟩
    -- a dark cell covered once is lit when the sprite comes again
    · refine Or.inr ⟨row, col, _, hmode.symm ▸ hin, pixel?_draw hbits s hin hold, ?_⟩
      have hone : s.count fb.mode row col ≤ 1 := by omega
      rcases xor_parity_cases (hbits.pixel? hold) hone with ⟨hlit, hcount, -⟩ | hsum
      · rw [hlit, hcount] at hmany
        exact absurd (by decide) hmany
      · omega

/-- A byte has a lit pixel if and only if it is not zero. -/
theorem exists_bytePixels_iff (byte : UInt8) : (∃ bit ∈ bytePixels byte, bit ≠ 0) ↔ byte ≠ 0 := by
  constructor
  · rintro ⟨bit, hmem, hbit⟩ rfl
    have hdark : bytePixels 0 = List.replicate 8 0 := rfl
    rw [hdark] at hmem
    exact hbit (List.eq_of_mem_replicate hmem)
  · intro hbyte
    have hlit : ∀ b : Fin 256, b ≠ 0 → ∃ bit ∈ bytePixels ⟨⟨b⟩⟩, bit ≠ 0 := by decide +kernel
    refine hlit byte.toBitVec.toFin fun hzero => hbyte ?_
    exact UInt8.toBitVec_inj.1 (BitVec.toFin_inj.1 hzero)

end FrameBuffer

/-! ## Bytes of a sprite -/

namespace Memory

/-- Some of `count` addresses in a row is there and holds a byte that is not zero. -/
def NonzeroIn (memory : Memory) (address count : Nat) : Prop :=
  ∃ a byte, address ≤ a ∧ a < address + count ∧ memory.load a = .ok byte ∧ byte ≠ 0

/-- The bytes of a sprite are not all zero exactly if the memory under them is not. -/
theorem exists_bytesAt_iff (memory : Memory) (address count : Nat) :
    (∃ byte ∈ memory.bytesAt address count, byte ≠ 0) ↔ memory.NonzeroIn address count := by
  constructor
  · rintro ⟨byte, hmem, hbyte⟩
    obtain ⟨a, ha, rfl⟩ := List.mem_map.1 hmem
    obtain ⟨hle, hlt⟩ := List.mem_range'_1.1 ha
    cases hload : memory.load a with
    | ok byte =>
        rw [hload] at hbyte
        exact ⟨a, byte, hle, hlt, hload, hbyte⟩
    -- an address past the end reads as zero
    | error fault =>
        rw [hload] at hbyte
        exact absurd rfl hbyte
  · rintro ⟨a, byte, hle, hlt, hload, hbyte⟩
    refine ⟨byte, List.mem_map.2 ⟨a, List.mem_range'_1.2 ⟨hle, hlt⟩, ?_⟩, hbyte⟩
    rw [hload]
    rfl

end Memory

theorem Registers.setV_setV (r : Registers) (x : Nat) (value value' : UInt8) :
    (r.setV x value).setV x value' = r.setV x value' := by
  rw [setV, setV, Vector.set_set, setV]

namespace Machine

variable {m : Machine} {x y rowBytes rows : Nat} {wide : 0 < rowBytes}

/-- Sprite that the machine would draw: at the place that two registers hold, with the bytes from
the index on. -/
def sprite (m : Machine) (x y rows : Nat) (wide : 0 < rowBytes) : Sprite where
  x := m.registers.v x
  y := m.registers.v y
  rowWidth := rowBytes * 8
  pixels := (m.memory.bytesAt m.registers.index.toNat (rowBytes * rows)).flatMap
    FrameBuffer.bytePixels
  wide := Nat.mul_pos wide (by decide)

/-- A sprite has a pixel that is set exactly if the memory under it is not all zero. -/
theorem exists_sprite_pixel_iff :
    (∃ bit ∈ (m.sprite x y rows wide).pixels, bit ≠ 0) ↔
      m.memory.NonzeroIn m.registers.index.toNat (rowBytes * rows) := by
  rw [← Memory.exists_bytesAt_iff]
  constructor
  · rintro ⟨bit, hmem, hbit⟩
    obtain ⟨byte, hbyte, hpixel⟩ := List.mem_flatMap.1 hmem
    exact ⟨byte, hbyte, (FrameBuffer.exists_bytePixels_iff byte).1 ⟨bit, hpixel, hbit⟩⟩
  · rintro ⟨byte, hbyte, hne⟩
    obtain ⟨bit, hpixel, hbit⟩ := (FrameBuffer.exists_bytePixels_iff byte).2 hne
    exact ⟨bit, List.mem_flatMap.2 ⟨byte, hbyte, hpixel⟩, hbit⟩

/-- Machine after a sprite is drawn: the screen, the flag and the recorded faults change. -/
def afterSprite (m : Machine) (s : Sprite) (missing : List Fault) : Machine :=
  { m with
    screen := (s.draw m.screen).2
    registers := m.registers.setV Registers.flag (if (s.draw m.screen).1 then 1 else 0)
    faults := m.faults ++ missing }

/-- Drawing in terms of the sprite, and of the addresses that it misses. -/
theorem drawSprite_eq (m : Machine) (x y rows : Nat) (wide : 0 < rowBytes) :
    m.drawSprite x y rowBytes rows = m.afterSprite (m.sprite x y rows wide)
      (Memory.misses m.registers.index.toNat (rowBytes * rows)) := by
  rw [drawSprite, loadBytes_eq]
  rfl

/-- A sprite changes no register but the flag. -/
theorem v_afterSprite (s : Sprite) (missing : List Fault) (hx : x < Registers.flag) :
    (m.afterSprite s missing).registers.v x = m.registers.v x := by
  have hflag : Registers.flag < 16 := by decide
  exact m.registers.v_setV_of_ne hflag (Nat.lt_trans hx hflag) (Nat.ne_of_lt hx) _

/-- With the place in registers other than the flag the same sprite would be drawn again. -/
theorem sprite_afterSprite (s : Sprite) (missing : List Fault) (hx : x < Registers.flag)
    (hy : y < Registers.flag) :
    (m.afterSprite s missing).sprite x y rows wide = m.sprite x y rows wide := by
  rw [sprite, sprite, v_afterSprite s missing hx, v_afterSprite s missing hy]
  rfl

theorem flag_afterSprite (s : Sprite) (missing : List Fault) :
    (m.afterSprite s missing).registers.v Registers.flag =
      if (s.draw m.screen).1 then 1 else 0 :=
  Registers.v_setV_self _ _ _

theorem flag_afterSprite_eq_one_iff (s : Sprite) (missing : List Fault) :
    (m.afterSprite s missing).registers.v Registers.flag = 1 ↔ (s.draw m.screen).1 = true := by
  rw [flag_afterSprite]
  cases (s.draw m.screen).1 <;> decide

theorem flag_afterSprite_eq_zero_iff (s : Sprite) (missing : List Fault) :
    (m.afterSprite s missing).registers.v Registers.flag = 0 ↔ ¬(s.draw m.screen).1 = true := by
  rw [flag_afterSprite]
  cases (s.draw m.screen).1 <;> decide

/-- What a machine is before, between and after two drawings of one sprite of some bytes. -/
structure DrawnTwice (before between after : Machine) (bytes : Nat) : Prop where
  /-- Logical pixels are those of before. -/
  undone : after.screen.SameLogical before.screen
  /-- The first drawing changes the screen, the flag and the faults. -/
  first : between = { before with
    screen := between.screen
    registers := before.registers.setV Registers.flag (between.registers.v Registers.flag)
    faults := before.faults ++ Memory.misses before.registers.index.toNat bytes }
  /-- The second drawing changes the same, and records the same faults again. -/
  second : after = { before with
    screen := after.screen
    registers := before.registers.setV Registers.flag (after.registers.v Registers.flag)
    faults := before.faults ++ Memory.misses before.registers.index.toNat bytes ++
      Memory.misses before.registers.index.toNat bytes }
  /-- One of the drawings collides if and only if a byte of the sprite is not zero. -/
  collides : between.registers.v Registers.flag = 1 ∨ after.registers.v Registers.flag = 1 ↔
    before.memory.NonzeroIn before.registers.index.toNat bytes
  /-- Without such a byte neither does. -/
  clear : ¬before.memory.NonzeroIn before.registers.index.toNat bytes →
    between.registers.v Registers.flag = 0 ∧ after.registers.v Registers.flag = 0

/-- One sprite drawn twice by registers below the flag, which the first drawing does not change. -/
theorem drawnTwice_drawSprite (h : m.Safe) (hx : x < Registers.flag) (hy : y < Registers.flag)
    (rows : Nat) (wide : 0 < rowBytes) :
    m.DrawnTwice (m.drawSprite x y rowBytes rows)
      ((m.drawSprite x y rowBytes rows).drawSprite x y rowBytes rows) (rowBytes * rows) := by
  have hbits : m.screen.HasBits := fun i cell hcell => (h.pixels i cell hcell).logical
  have hlit : (∃ bit ∈ (m.sprite x y rows wide).pixels, bit ≠ 0) ↔
      m.memory.NonzeroIn m.registers.index.toNat (rowBytes * rows) := exists_sprite_pixel_iff
  have hfirst := drawSprite_eq m x y rows wide
  have hsecond := drawSprite_eq (m.drawSprite x y rowBytes rows) x y rows wide
  rw [hfirst, sprite_afterSprite _ _ hx hy] at hsecond
  rw [hfirst, hsecond]
  generalize m.sprite x y rows wide = s at hlit
  have hcollides := FrameBuffer.collides_draw_or_draw h.grid hbits s
  rw [hlit] at hcollides
  constructor
  case undone => exact FrameBuffer.sameLogical_draw_draw h.grid hbits s
  case first =>
    rw [flag_afterSprite]
    rfl
  case second =>
    rw [flag_afterSprite]
    -- the flag of the second drawing replaces the first one
    rw [← m.registers.setV_setV Registers.flag (if (s.draw m.screen).1 then 1 else 0)]
    rfl
  case collides =>
    rw [flag_afterSprite_eq_one_iff, flag_afterSprite_eq_one_iff]
    exact hcollides
  case clear =>
    intro hnone
    rw [← hcollides] at hnone
    constructor
    · rw [flag_afterSprite_eq_zero_iff]
      exact fun hhit => hnone (Or.inl hhit)
    · rw [flag_afterSprite_eq_zero_iff]
      exact fun hhit => hnone (Or.inr hhit)

end Machine

/-- The instruction draws a sprite at a place that is held outside the flag. -/
def Instruction.DrawsBesideFlag : Instruction → Prop
  | .draw x y _ | .drawExtended x y => x < Registers.flag ∧ y < Registers.flag
  | _ => False

/-- Number of bytes of the sprite that an instruction draws. -/
def Instruction.spriteBytes : Instruction → Nat
  | .draw _ _ n => n.toNat
  | .drawExtended _ _ => 32
  | _ => 0

namespace Machine

variable {m : Machine}

/-- A sprite instruction executed twice in a row, with any index, undoes itself: the logical pixels
come back, all else but the flag and the recorded faults stays, and one of the two drawings collides
if and only if the sprite has a byte in memory that is not zero. -/
theorem draws_twice (h : m.Reachable) (index : UInt16) {instruction : Instruction}
    (hdraws : instruction.DrawsBesideFlag) :
    let first := (m.setIndex index).execute instruction
    let second := first.2.execute instruction
    first.1 = .proceed ∧ second.1 = .proceed ∧
      (m.setIndex index).DrawnTwice first.2 second.2 instruction.spriteBytes := by
  intro first second
  have hsafe : (m.setIndex index).Safe := ⟨h.safe.grid, h.safe.pixels, h.safe.stack⟩
  cases instruction with
  | draw x y n =>
      obtain ⟨hx, hy⟩ := hdraws
      have htwice := drawnTwice_drawSprite hsafe hx hy n.toNat Nat.one_pos
      rw [Nat.one_mul] at htwice
      exact ⟨rfl, rfl, htwice⟩
  | drawExtended x y =>
      obtain ⟨hx, hy⟩ := hdraws
      have htwice := drawnTwice_drawSprite hsafe hx hy 16 Nat.two_pos
      refine ⟨rfl, rfl, ?_⟩
      simp only [first, second, execute, effect]
      exact htwice
  | _ => exact absurd hdraws id

/-- A lit pixel is stored at the last address, and a sprite of three bytes is drawn from there. -/
theorem draws_twice_past_end :
    let m := ((((new {} (RandomSource.ofSeed 1)).execute (.loadImm 0 0x80)).2.execute
      (.loadIndex 0xFFF)).2.execute (.storeRegisters 0)).2
    let first := (m.setIndex 0xFFF).execute (.draw 1 1 3)
    let second := first.2.execute (.draw 1 1 3)
    m.Reachable ∧ (Instruction.draw 1 1 3).DrawsBesideFlag ∧
      second.2.screen.SameLogical m.screen ∧
      first.2.faults = [.outOfRange 4096, .outOfRange 4097] ∧
      second.2.faults = first.2.faults ++ [.outOfRange 4096, .outOfRange 4097] ∧
      (first.2.registers.v Registers.flag = 1 ∨ second.2.registers.v Registers.flag = 1) := by
  intro m first second
  have hreachable : m.Reachable := (((Reachable.new _ _).execute _).execute _).execute _
  have hdraws : (Instruction.draw 1 1 3).DrawsBesideFlag := ⟨by decide, by decide⟩
  have hmissing : Memory.misses 0xFFF 3 = [.outOfRange 4096, .outOfRange 4097] := by decide
  have hstep : ∀ q : Machine, q.incrementIndex = false → q.registers.index = 0xFFF →
      (q.execute (.storeRegisters 0)).2 = q.storeByte 0xFFF (q.registers.v 0) := by
    intro q hleft hindex
    show (q.storeBytes q.registers.index.toNat [q.registers.v 0]).bumpIndex 0 = _
    rw [hindex, bumpIndex, if_neg]
    · rfl
    · intro hbump
      have hkept := congrArg Setting.incrementIndex (setting_storeByte q 0xFFF (q.registers.v 0))
      exact Bool.false_ne_true (hleft.symm.trans (hkept.symm.trans hbump))
  have hm : m = Machine.storeByte _ 0xFFF 0x80 := hstep _ rfl rfl
  have hstored : m.memory.load 0xFFF = .ok 0x80 := by
    rw [hm]
    exact load_storeByte _ (by decide) _
  have hnone : m.faults = [] := by
    rw [hm, faults_storeByte, Memory.misses_one_of_lt (by decide)]
    rfl
  -- what the machine holds is all that matters from here on
  clear_value m
  obtain ⟨-, -, htwice⟩ := draws_twice hreachable 0xFFF hdraws
  have hfirst : first.2.faults = m.faults ++ Memory.misses 0xFFF 3 := by
    rw [htwice.first]
    rfl
  have hsecond : second.2.faults = first.2.faults ++ Memory.misses 0xFFF 3 := by
    rw [htwice.second, hfirst]
    rfl
  rw [hnone, hmissing] at hfirst
  rw [hmissing] at hsecond
  refine ⟨hreachable, hdraws, htwice.undone, hfirst, hsecond, htwice.collides.2 ?_⟩
  exact ⟨0xFFF, 0x80, Nat.le_refl _, Nat.lt_add_of_pos_right (Nat.succ_pos 2), hstored, by decide⟩

end Machine

end Schip
