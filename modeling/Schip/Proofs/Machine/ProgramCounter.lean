import Schip.Proofs.Machine.OutsideTable
import Schip.Proofs.Machine.Subroutine

/-!
# The program counter after a cycle

Where a program goes on after a word is read off the digits of the word (`Machine.successor`): at
the target of a jump or a call, behind the caller of a subroutine, at the next word or behind it, at
the same word again, and for all words that are not listed as steering (`Opcode.Steers`) at the next
one. The machine takes two steps to get there. First it decodes: the instruction steers exactly if
the word does or diverts (`Opcode.steers_decode_iff`), and of a word that does not divert it goes on
where the digits say (`landing_decode`). Then it moves: an instruction that steers aims two bytes
short of that place, all others leave the program counter alone (`pc_effect`), and the advance at
the end of the cycle, which only the end of the program is spared, does the rest
(`pc_cycle_of_word`).

A word diverts (`Opcode.Diverts`) if it is stray and has the low byte of the return or of the end of
the program. It is not listed, and yet it goes on where the listed word with that low byte does.

Addresses in the program counter are sixteen bits and wrap. A fetch does not: behind the last word
there is nothing to fetch, and the program counter goes on by two with that recorded
(`cycle_of_unfetchable`).
-/

set_option autoImplicit false

namespace Schip

/-- Return address on top of the stack; zero if there is none. -/
def CallStack.top (s : CallStack) : UInt16 := s.toList.headD 0

/-- Whether some key is down. -/
def Keypad.anyPressed (k : Keypad) : Bool := Keypad.keys.any k.isPressed

/-- Whether an instruction sets the program counter or ends the program. -/
def Instruction.steers : Instruction → Bool
  | .jump _ | .call _ | .ret | .jumpIndexed _ | .waitKey _ | .exit => true
  | .skipEqImm _ _ | .skipNeImm _ _ | .skipEqReg _ _ | .skipNeReg _ _ => true
  | .skipKeyDown _ | .skipKeyUp _ => true
  | _ => false

/-! ## Words that steer -/

namespace Opcode

variable {word : UInt16}

/-- Groups that steer whatever the other digits: 1NNN to 5XY_, 9XY_, BNNN. -/
def steeringGroups : List Nat := [0x1, 0x2, 0x3, 0x4, 0x5, 0x9, 0xB]

/-- A word has the digits of a listed instruction that steers: 00EE, 00FD, those of the groups above,
EX9E, EXA1, FX0A. -/
def Steers (word : UInt16) : Prop :=
  word = 0x00EE ∨ word = 0x00FD ∨ Word.group word ∈ steeringGroups ∨
    (Word.group word = 0xE ∧ (Word.kk word).toNat ∈ keyBytes) ∨
    (Word.group word = 0xF ∧ (Word.kk word).toNat = 0x0A)

/-- A stray word with the low byte of the return or of the end of the program. -/
structure Diverts (word : UInt16) : Prop where
  stray : Stray word
  low : low word = 0x00EE ∨ low word = 0x00FD

theorem toNat_kk_eq_mod (word : UInt16) : (Word.kk word).toNat = word.toNat % 256 := by
  rw [Word.kk, UInt8.toNat_ofNat_of_lt' (Nat.mod_lt _ (by decide))]

/-- A word without its first two digits is its low byte. -/
theorem low_eq_iff (word kk : UInt16) : low word = kk ↔ (Word.kk word).toNat = kk.toNat := by
  rw [← UInt16.toNat_inj, toNat_low, toNat_kk_eq_mod]

/-- A word is the byte `kk` if its first two digits are zero and its low byte is `kk`. -/
theorem eq_byte_iff (word kk : UInt16) (hkk : kk.toNat < 256) :
    word = kk ↔ Word.group word = 0 ∧ Word.x word = 0 ∧ (Word.kk word).toNat = kk.toNat := by
  have hword := word.toNat_lt
  rw [← UInt16.toNat_inj, toNat_kk_eq_mod, Word.group, Word.x]
  omega

/-- A word diverts by its second digit and its low byte. -/
theorem diverts_iff (word : UInt16) : Diverts word ↔
    Word.group word = 0 ∧ Word.x word ≠ 0 ∧
      ((Word.kk word).toNat = 0xEE ∨ (Word.kk word).toNat = 0xFD) := by
  have hlow : (low word = 0x00EE ∨ low word = 0x00FD) ↔
      ((Word.kk word).toNat = 0xEE ∨ (Word.kk word).toNat = 0xFD) :=
    or_congr (low_eq_iff word 0x00EE) (low_eq_iff word 0x00FD)
  constructor
  · intro h
    exact ⟨h.stray.group, h.stray.x, hlow.1 h.low⟩
  · rintro ⟨hgroup, hx, hkk⟩
    have hbyte : HasSystemByte word := by
      rcases hkk with hkk | hkk <;> simp [HasSystemByte, hkk, systemBytes]
    exact ⟨(stray_iff word).2 ⟨hgroup, hx, hbyte⟩, hlow.2 hkk⟩

/-- A word that diverts is none of those that are listed as steering. -/
theorem Diverts.not_steers (h : Diverts word) : ¬Steers word := by
  have hgroup := h.stray.group
  have hx := h.stray.x
  rintro (rfl | rfl | hopen | ⟨hkeys, -⟩ | ⟨htransfers, -⟩)
  · exact hx rfl
  · exact hx rfl
  · rw [hgroup] at hopen
    exact absurd hopen (by decide)
  · exact absurd (hgroup.symm.trans hkeys) (by decide)
  · exact absurd (hgroup.symm.trans htransfers) (by decide)

/-- The listed word that a word which diverts is taken for does not divert. -/
theorem not_diverts_low (word : UInt16) : ¬Diverts (low word) :=
  fun h => h.stray.x (x_low word)

open Instruction

/-- In group zero the return and the end of the program steer. -/
theorem steers_decodeSystem_iff (word : UInt16) : (decodeSystem word).steers = true ↔
    (Word.kk word).toNat = 0xEE ∨ (Word.kk word).toNat = 0xFD := by
  rw [decodeSystem]
  split <;> (try split) <;> unfold steers <;> simp_all

/-- Register arithmetic does not steer. -/
theorem steers_decodeArithmetic (word : UInt16) : (decodeArithmetic word).steers = false := by
  rw [decodeArithmetic]
  split <;> rfl

/-- Sprites do not steer. -/
theorem steers_decodeSprite (word : UInt16) : (decodeSprite word).steers = false := by
  rw [decodeSprite]
  split <;> rfl

/-- In group fourteen the skips on keys steer. -/
theorem steers_decodeKeySkip_iff (word : UInt16) :
    (decodeKeySkip word).steers = true ↔ (Word.kk word).toNat ∈ keyBytes := by
  rw [decodeKeySkip, keyBytes]
  split <;> unfold steers <;> simp_all

/-- In group fifteen waiting for a key steers, and nothing else. -/
theorem steers_decodeTransfer_iff (word : UInt16) :
    (decodeTransfer word).steers = true ↔ (Word.kk word).toNat = 0x0A := by
  rw [decodeTransfer]
  split <;> unfold steers <;> simp_all

/-- A word FX0A waits for a key. -/
theorem decode_of_waitKey (hgroup : Word.group word = 0xF) (hkk : Word.kk word = 0x0A) :
    decode word = waitKey (Word.x word) := by
  simp only [decode, hgroup, decodeTransfer, hkk]
  rfl

/-- All words of a steering group are decoded to instructions that steer. -/
theorem steers_decode_of_group (h : Word.group word ∈ steeringGroups) :
    (decode word).steers = true := by
  simp only [steeringGroups, List.mem_cons, List.not_mem_nil, or_false] at h
  rcases h with h | h | h | h | h | h | h <;> simp only [decode, h] <;> rfl

/-- The words that are decoded to an instruction that steers are those listed as steering and those
that divert, and no others. -/
theorem steers_decode_iff (word : UInt16) :
    (decode word).steers = true ↔ Steers word ∨ Diverts word := by
  by_cases hopen : Word.group word ∈ steeringGroups
  · exact iff_of_true (steers_decode_of_group hopen) (Or.inl (Or.inr (Or.inr (Or.inl hopen))))
  have hreturn := eq_byte_iff word 0x00EE (by decide)
  have hexit := eq_byte_iff word 0x00FD (by decide)
  have hgroups : Word.group word = 0x0 ∨ Word.group word = 0x8 ∨ Word.group word = 0xD ∨
      Word.group word = 0xE ∨ Word.group word = 0xF ∨ Word.group word ∈ [0x6, 0x7, 0xA, 0xC] := by
    have hlt := group_lt word
    simp only [steeringGroups, List.mem_cons, List.not_mem_nil, or_false] at hopen ⊢
    omega
  rw [Steers, diverts_iff, hreturn, hexit]
  rcases hgroups with h | h | h | h | h | h
  -- the second digit decides between listed and diverting, and the decoder does not look at it
  · simp only [decode, h, steers_decodeSystem_iff]
    by_cases hx : Word.x word = 0
    · simp [steeringGroups, hx]
    · simp [steeringGroups, hx]
  · simp [decode, h, steers_decodeArithmetic, steeringGroups]
  · simp [decode, h, steers_decodeSprite, steeringGroups]
  · simp [decode, h, steers_decodeKeySkip_iff, steeringGroups]
  · simp [decode, h, steers_decodeTransfer_iff, steeringGroups]
  · simp only [List.mem_cons, List.not_mem_nil, or_false] at h
    rcases h with h | h | h | h <;> unfold steers <;> simp [decode, h, steeringGroups]

end Opcode

/-- A pop gives the top, and of an empty stack it gives zero. -/
theorem CallStack.pop_eq_top (s : CallStack) : s.pop.1.toOption.getD 0 = s.top := by
  rw [top, toList, List.headD_eq_head?_getD, List.head?_drop, Vector.getElem?_toList, pop]
  by_cases hempty : s.pointer = emptyPointer
  · have hend : (s.pointer + 1).toNat = 16 := by rw [hempty]; rfl
    rw [if_pos hempty, hend, Vector.getElem?_eq_none (Nat.le_refl 16)]
    rfl
  · rw [if_neg hempty]
    rfl

theorem Keypad.firstPressed?_eq_none_iff (k : Keypad) :
    k.firstPressed? = none ↔ k.anyPressed = false := by
  rw [firstPressed?, anyPressed, List.find?_eq_none, List.any_eq_false]

namespace Machine

variable (m : Machine)

/-- Address of the next instruction, or of the one behind it under a condition. -/
def skipping (m : Machine) (condition : Bool) : UInt16 :=
  if condition then m.registers.pc + 4 else m.registers.pc + 2

/-- Address at which the program goes on after an instruction. -/
def landing (m : Machine) : Instruction → UInt16
  | .jump target | .call target => target
  | .jumpIndexed base => base + (m.registers.v 0).toUInt16
  | .ret => m.registers.stack.top + 2
  | .skipEqImm x kk => m.skipping (m.registers.v x = kk)
  | .skipNeImm x kk => m.skipping (m.registers.v x ≠ kk)
  | .skipEqReg x y => m.skipping (m.registers.v x = m.registers.v y)
  | .skipNeReg x y => m.skipping (m.registers.v x ≠ m.registers.v y)
  | .skipKeyDown x => m.skipping (m.keypad.isPressed (m.registers.v x))
  | .skipKeyUp x => m.skipping (!m.keypad.isPressed (m.registers.v x))
  | .waitKey _ => if m.keypad.anyPressed then m.registers.pc + 2 else m.registers.pc
  | .exit => m.registers.pc
  | _ => m.registers.pc + 2

/-- Address at which the program goes on after a word, by the digits of the word. -/
def successor (m : Machine) (word : UInt16) : UInt16 :=
  match Word.group word with
  | 0x0 =>
    if word = 0x00EE then m.registers.stack.top + 2
    else if word = 0x00FD then m.registers.pc
    else m.registers.pc + 2
  | 0x1 | 0x2 => Word.nnn word
  | 0x3 => m.skipping (m.registers.v (Word.x word) = Word.kk word)
  | 0x4 => m.skipping (m.registers.v (Word.x word) ≠ Word.kk word)
  | 0x5 => m.skipping (m.registers.v (Word.x word) = m.registers.v (Word.y word))
  | 0x9 => m.skipping (m.registers.v (Word.x word) ≠ m.registers.v (Word.y word))
  | 0xB => Word.nnn word + (m.registers.v 0).toUInt16
  | 0xE =>
    if Word.kk word = 0x9E then m.skipping (m.keypad.isPressed (m.registers.v (Word.x word)))
    else if Word.kk word = 0xA1 then m.skipping (!m.keypad.isPressed (m.registers.v (Word.x word)))
    else m.registers.pc + 2
  | 0xF =>
    if Word.kk word = 0x0A then
      if m.keypad.anyPressed then m.registers.pc + 2 else m.registers.pc
    else m.registers.pc + 2
  | _ => m.registers.pc + 2

/-! ## The decoder and the digits -/

/-- After an instruction that does not steer the program goes on at the next word. -/
theorem landing_of_not_steers {instruction : Instruction} (h : instruction.steers = false) :
    m.landing instruction = m.registers.pc + 2 := by
  cases instruction with
  | jump | call | ret | jumpIndexed | waitKey | exit => cases h
  | skipEqImm | skipNeImm | skipEqReg | skipNeReg | skipKeyDown | skipKeyUp => cases h
  | _ => rfl

variable {word : UInt16}

/-- The program goes on at the next word after one that is not listed as steering. -/
theorem successor_of_not_steers (h : ¬Opcode.Steers word) :
    m.successor word = m.registers.pc + 2 := by
  simp only [Opcode.Steers, not_or, not_and] at h
  obtain ⟨hreturn, hexit, hopen, hkeys, hwait⟩ := h
  rw [successor]
  split
  case h_1 => rw [if_neg hreturn, if_neg hexit]
  case h_9 hgroup =>
    have hbyte := hkeys hgroup
    have hdown : Word.kk word ≠ 0x9E := fun h => hbyte (by rw [h]; decide)
    have hup : Word.kk word ≠ 0xA1 := fun h => hbyte (by rw [h]; decide)
    rw [if_neg hdown, if_neg hup]
  case h_10 hgroup => rw [if_neg fun h => hwait hgroup (by rw [h]; rfl)]
  case h_11 => rfl
  -- the groups that steer
  all_goals
    rename_i hgroup
    rw [hgroup] at hopen
    exact absurd (by decide) hopen

/-- Where a word is listed as steering, the instruction goes on where its digits say. -/
theorem landing_decode_of_steers (h : Opcode.Steers word) :
    m.landing (Instruction.decode word) = m.successor word := by
  rcases h with rfl | rfl | hopen | ⟨hgroup, hkk⟩ | ⟨hgroup, hkk⟩
  · rfl
  · rfl
  · simp only [Opcode.steeringGroups, List.mem_cons, List.not_mem_nil, or_false] at hopen
    rcases hopen with h | h | h | h | h | h | h <;>
      simp only [Instruction.decode, h, successor] <;> rfl
  · simp only [Opcode.keyBytes, List.mem_cons, List.not_mem_nil, or_false] at hkk
    rcases hkk with hkk | hkk
    · have hbyte : Word.kk word = 0x9E := UInt8.toNat_inj.1 hkk
      simp only [Instruction.decode, hgroup, Instruction.decodeKeySkip, hbyte, successor, if_true]
      rfl
    · have hbyte : Word.kk word = 0xA1 := UInt8.toNat_inj.1 hkk
      simp only [Instruction.decode, hgroup, Instruction.decodeKeySkip, hbyte, successor]
      rfl
  · have hbyte : Word.kk word = 0x0A := UInt8.toNat_inj.1 hkk
    rw [Opcode.decode_of_waitKey hgroup hbyte]
    simp only [hgroup, hbyte, successor, if_true]
    rfl

/-- The instruction of a word that does not divert goes on where the digits of the word say. -/
theorem landing_decode (h : ¬Opcode.Diverts word) :
    m.landing (Instruction.decode word) = m.successor word := by
  by_cases hsteers : Opcode.Steers word
  · exact m.landing_decode_of_steers hsteers
  · have hnot : (Instruction.decode word).steers = false := by
      rw [← Bool.not_eq_true, Opcode.steers_decode_iff]
      exact fun hor => hor.elim hsteers h
    rw [m.landing_of_not_steers hnot, m.successor_of_not_steers hsteers]

/-! ## Instructions that do not steer -/

theorem pc_drawSprite (x y rowBytes rows : Nat) :
    (m.drawSprite x y rowBytes rows).registers.pc = m.registers.pc := by
  rw [footprint_drawSprite]

/-- An instruction that does not steer leaves the program counter alone. -/
theorem pc_effect {instruction : Instruction} (h : instruction.steers = false) :
    (m.effect instruction).registers.pc = m.registers.pc := by
  cases instruction with
  | jump | call | ret | jumpIndexed | waitKey | exit => cases h
  | skipEqImm | skipNeImm | skipEqReg | skipNeReg | skipKeyDown | skipKeyUp => cases h
  | draw | drawExtended => rw [effect, pc_drawSprite]
  | storeBcd => rw [effect, footprint_storeBytes]
  | storeRegisters => rw [footprint_storeRegisters]
  | loadRegisters => rw [footprint_loadRegisters]
  | _ => rfl

/-! ## Instructions that steer -/

/-- A jump aims two bytes short of its target. -/
theorem pc_jump_add_two (r : Registers) (target : UInt16) : (r.jump target).pc + 2 = target :=
  UInt16.sub_add_cancel target 2

/-- A skip aims at the next word, two bytes short of the one behind it. -/
theorem pc_skipIf_add_two (condition : Bool) :
    (m.skipIf condition).registers.pc + 2 = m.skipping condition := by
  cases condition with
  | false => rfl
  | true => exact UInt16.add_assoc m.registers.pc 2 2

/-- A return goes back to the call itself; the advance takes it behind the call. -/
theorem pc_ret : m.ret.registers.pc = m.registers.stack.top := by
  rw [← CallStack.pop_eq_top, ret, Registers.pop]
  rcases m.registers.stack.pop with ⟨_ | _, _⟩ <;> rfl

/-- While no key is down, waiting for one aims two bytes back, and so at the same instruction again. -/
theorem pc_waitKey_add_two (x : Nat) : (m.waitKey x).registers.pc + 2 =
    if m.keypad.anyPressed then m.registers.pc + 2 else m.registers.pc := by
  rw [waitKey]
  cases hkey : m.keypad.firstPressed? with
  | none =>
      rw [(Keypad.firstPressed?_eq_none_iff m.keypad).1 hkey]
      exact UInt16.sub_add_cancel m.registers.pc 2
  | some key =>
      have hdown : m.keypad.anyPressed = true := by
        rw [← Bool.not_eq_false, ← Keypad.firstPressed?_eq_none_iff, hkey]
        exact Option.some_ne_none key
      rw [hdown]
      rfl

/-- The advance at the end of a cycle takes the program counter to where the program goes on. -/
theorem pc_effect_add_two {instruction : Instruction} (h : instruction ≠ .exit) :
    (m.effect instruction).registers.pc + 2 = m.landing instruction := by
  cases hsteers : instruction.steers with
  | false =>
      rw [m.pc_effect hsteers, m.landing_of_not_steers hsteers]
  | true =>
      cases instruction with
      | jump target => exact pc_jump_add_two m.registers target
      | jumpIndexed base => exact pc_jump_add_two m.registers _
      | call target => exact m.pc_call_advance target
      | ret => exact congrArg (· + 2) m.pc_ret
      | waitKey x => exact m.pc_waitKey_add_two x
      | exit => exact absurd rfl h
      | skipEqImm | skipEqReg | skipKeyDown | skipKeyUp => exact m.pc_skipIf_add_two _
      | skipNeImm | skipNeReg =>
          exact (m.pc_skipIf_add_two _).trans (congrArg m.skipping decide_not.symm)
      | _ => cases hsteers

/-! ## Cycles -/

/-- The program goes on where the instruction of the word does. -/
theorem pc_cycle_of_word (hword : m.memory.word m.registers.pc.toNat = .ok word) :
    m.cycle.2.registers.pc = m.landing (Instruction.decode word) := by
  by_cases hexit : Instruction.decode word = .exit
  · rw [cycle_eq, fetchExecute_of_word hword, hexit]
    rfl
  · have hgoes : outcome m.registers (Instruction.decode word) ≠ .exit := by
      rw [ne_eq, outcome_eq_exit_iff]
      exact hexit
    rw [registers_cycle hword hgoes]
    exact m.pc_effect_add_two hexit

/-- Where there is no whole word, nothing is executed and the missing address is recorded. -/
theorem cycle_of_unfetchable {fault : Fault}
    (hword : m.memory.word m.registers.pc.toNat = .error fault) :
    m.cycle.2.registers.pc = m.registers.pc + 2 ∧ m.cycle.1.faults = m.faults ++ [fault] := by
  have hfetch : m.fetch = (none, m.record fault) := by simp only [fetch, hword]
  have hnone : m.fetch.1 = none := congrArg Prod.fst hfetch
  constructor
  · rw [cycle_eq, fetchExecute_of_none hnone, hfetch]
    rfl
  · rw [m.faults_cycle.1, cycleFaults, hword]

/-- A return without a caller goes on at two and is recorded. -/
theorem cycle_of_ret_of_empty
    (hword : m.memory.word m.registers.pc.toNat = .ok word)
    (hret : Instruction.decode word = .ret)
    (hempty : m.registers.stack.pointer = CallStack.emptyPointer) :
    m.cycle.2.registers.pc = 2 ∧ m.cycle.1.faults = m.faults ++ [.stackUnderflow] := by
  constructor
  · rw [pc_cycle_of_word m hword, hret]
    have htop : m.registers.stack.top = 0 := by
      rw [← CallStack.pop_eq_top, CallStack.pop, if_pos hempty]
      rfl
    exact congrArg (· + 2) htop
  · rw [m.faults_cycle.1, cycleFaults, hword]
    simp only [hret, Instruction.faults, if_pos hempty]

/-- The end of the program leaves all registers alone, the timers among them. -/
theorem registers_cycle_of_exit
    (hword : m.memory.word m.registers.pc.toNat = .ok word)
    (hexit : Instruction.decode word = .exit) : m.cycle.2.registers = m.registers := by
  rw [cycle_eq, fetchExecute_of_word hword, hexit]
  rfl

/-- The program counter after a cycle of any machine. Without a whole word to fetch it goes on by two
and the missing address is the one new fault. Otherwise it goes on where the digits of the word say,
and so by two unless the word is listed as steering; a return without a caller goes on at two and is
recorded, and the end of the program leaves all registers, the timers among them. Only a word that
diverts, which is not listed, goes on where the listed word with its low byte does. -/
theorem pc_cycle_exact :
    (4095 ≤ m.registers.pc.toNat →
      m.memory.word m.registers.pc.toNat =
        .error (.outOfRange (max m.registers.pc.toNat 4096)) ∧
      m.cycle.2.registers.pc = m.registers.pc + 2 ∧
      m.cycle.1.faults = m.faults ++ [.outOfRange (max m.registers.pc.toNat 4096)]) ∧
    (m.registers.pc.toNat < 4095 →
      ∃ word, m.memory.word m.registers.pc.toNat = .ok word ∧
        (¬Opcode.Diverts word →
          m.cycle.2.registers.pc = m.successor word ∧
          (¬Opcode.Steers word → m.cycle.2.registers.pc = m.registers.pc + 2) ∧
          (word = 0x00EE → m.registers.stack.pointer = CallStack.emptyPointer →
            m.cycle.2.registers.pc = 2 ∧ m.cycle.1.faults = m.faults ++ [.stackUnderflow]) ∧
          (word = 0x00FD → m.cycle.2.registers = m.registers)) ∧
        (Opcode.Diverts word →
          ¬Opcode.Steers word ∧
          m.cycle.2.registers.pc = m.successor (Opcode.low word) ∧
          (Opcode.low word = 0x00FD → m.cycle.2.registers = m.registers))) := by
  constructor
  · intro hend
    have hword : m.memory.word m.registers.pc.toNat =
        .error (.outOfRange (max m.registers.pc.toNat 4096)) := by
      rw [Memory.word, dif_neg (by omega)]
      rfl
    exact ⟨hword, m.cycle_of_unfetchable hword⟩
  · intro hin
    obtain ⟨word, hword⟩ := exists_word m.memory (Nat.le_of_lt_succ hin)
    refine ⟨word, hword, fun hstays => ?_, fun hdiverts => ?_⟩
    · have hpc : m.cycle.2.registers.pc = m.successor word := by
        rw [m.pc_cycle_of_word hword, m.landing_decode hstays]
      refine ⟨hpc, fun hnot => ?_, ?_, ?_⟩
      · rw [hpc, m.successor_of_not_steers hnot]
      · rintro rfl hempty
        exact m.cycle_of_ret_of_empty hword rfl hempty
      · rintro rfl
        exact m.registers_cycle_of_exit hword rfl
    · have hdecode := Opcode.decode_of_stray hdiverts.stray
      refine ⟨hdiverts.not_steers, ?_, fun hlow => ?_⟩
      · rw [m.pc_cycle_of_word hword, hdecode, m.landing_decode (Opcode.not_diverts_low word)]
      · exact m.registers_cycle_of_exit hword (by rw [hdecode, hlow]; rfl)

/-- Machine with a program of one word. -/
def ofWord (high low : UInt8) : Machine :=
  ((new {} (RandomSource.ofSeed 1)).loadProgram (.ofBytes [high, low])).2

theorem ofWord_eq (high low : UInt8) :
    ofWord high low = (new {} (RandomSource.ofSeed 1)).loaded [high, low] :=
  snd_loadProgram_ofBytes _ (by decide : 2 ≤ Memory.programLimit)

theorem registers_ofWord (high low : UInt8) : (ofWord high low).registers = Registers.new := by
  rw [ofWord_eq, registers_loaded]

theorem faults_ofWord (high low : UInt8) : (ofWord high low).faults = [] := by
  rw [ofWord_eq, faults_loaded]

/-- The program counter of the machine is at its one word. -/
theorem word_ofWord (high low : UInt8) :
    (ofWord high low).memory.word (ofWord high low).registers.pc.toNat =
      .ok (high.toUInt16 <<< 8 ||| low.toUInt16) := by
  rw [ofWord_eq]
  exact word_pair _ high low

theorem pc_ofWord_lt (high low : UInt8) : (ofWord high low).registers.pc.toNat < 4095 := by
  rw [registers_ofWord]
  decide

/-- A return without a caller, a word that only loads a register, and a fetch at the last address
that the program counter can have. -/
theorem pc_cycle_exact_wrapped :
    let m := ofWord 0x00 0xEE
    let plain := ofWord 0x60 0x12
    let far := m.withRegisters (m.registers.setPc 0xFFFF)
    (m.registers.pc.toNat < 4095 ∧ m.cycle.2.registers.pc = 2 ∧
      m.cycle.1.faults = [.stackUnderflow]) ∧
    (plain.registers.pc.toNat < 4095 ∧ plain.cycle.2.registers.pc = 0x202) ∧
    (4095 ≤ far.registers.pc.toNat ∧ far.cycle.2.registers.pc = 1 ∧
      far.cycle.1.faults = [.outOfRange 65535]) := by
  intro m plain far
  refine ⟨⟨pc_ofWord_lt 0x00 0xEE, ?_⟩, ⟨pc_ofWord_lt 0x60 0x12, ?_⟩, ?_⟩
  · obtain ⟨word, hword, hstays, -⟩ := m.pc_cycle_exact.2 (pc_ofWord_lt 0x00 0xEE)
    obtain rfl : word = 0x00EE := Except.ok.inj (hword.symm.trans (word_ofWord 0x00 0xEE))
    obtain ⟨-, -, hreturns, -⟩ := hstays fun h => h.stray.x rfl
    have hempty : m.registers.stack.pointer = CallStack.emptyPointer := by
      rw [registers_ofWord]
      rfl
    have hfaults : m.faults = [] := faults_ofWord 0x00 0xEE
    have hafter := hreturns rfl hempty
    rwa [hfaults] at hafter
  · obtain ⟨word, hword, hstays, -⟩ := plain.pc_cycle_exact.2 (pc_ofWord_lt 0x60 0x12)
    obtain rfl : word = 0x6012 := Except.ok.inj (hword.symm.trans (word_ofWord 0x60 0x12))
    have hplain : ¬Opcode.Diverts 0x6012 := fun h => absurd h.stray.group (by decide)
    obtain ⟨-, hnext, -, -⟩ := hstays hplain
    have hregisters : plain.registers = Registers.new := registers_ofWord 0x60 0x12
    rw [hnext (by unfold Opcode.Steers; decide), hregisters]
    rfl
  · have hfaults : m.faults = [] := faults_ofWord 0x00 0xEE
    clear_value m
    have hend : 4095 ≤ far.registers.pc.toNat := (by decide : 4095 ≤ (0xFFFF : UInt16).toNat)
    obtain ⟨-, hnext, hmissed⟩ := far.pc_cycle_exact.1 hend
    have hwrap : far.registers.pc + 2 = 1 := (by decide : (0xFFFF : UInt16) + 2 = 1)
    refine ⟨hend, hnext.trans hwrap, ?_⟩
    rw [hmissed]
    show m.faults ++ _ = _
    rw [hfaults]
    rfl

/-- The word 05EE is not listed, and it returns: from an empty stack it goes on at two. -/
theorem returns_outside_table :
    let m := ofWord 0x05 0xEE
    m.registers.pc.toNat < 4095 ∧ m.memory.word m.registers.pc.toNat = .ok 0x05EE ∧
      ¬Opcode.Listed 0x05EE ∧ ¬Opcode.Steers 0x05EE ∧
      m.cycle.2.registers.pc ≠ m.registers.pc + 2 ∧ m.cycle.2.registers.pc = 2 ∧
      m.cycle.1.faults = [.stackUnderflow] := by
  intro m
  have hempty : m.registers.stack.pointer = CallStack.emptyPointer := by
    rw [registers_ofWord]
    rfl
  obtain ⟨hpc, hfaults⟩ := m.cycle_of_ret_of_empty (word_ofWord 0x05 0xEE) rfl hempty
  have hregisters : m.registers = Registers.new := registers_ofWord 0x05 0xEE
  have hnone : m.faults = [] := faults_ofWord 0x05 0xEE
  refine ⟨pc_ofWord_lt 0x05 0xEE, word_ofWord 0x05 0xEE, by decide, ?_, ?_, hpc, ?_⟩
  · unfold Opcode.Steers
    decide
  · rw [hpc, hregisters]
    decide
  · rw [hfaults, hnone]
    rfl

end Machine

end Schip
