import Schip.Proofs.Machine.Activity
import Schip.Proofs.Machine.Loading

/-!
# Words outside the instruction table

The table of instructions as data, one row of digits for each, with some digits left open. It says
which words are instructions (`Opcode.Listed`) without running the decoder.

The decoder accepts every listed word, and of the others those that would be listed if their second
digit were zero: it chooses among the system instructions by the low byte alone. Such a word is
stray. `decode_eq_unknown_iff` puts both together.

A cycle that meets an unlisted word which is not stray records the word as unknown, ticks the timers
and advances, and leaves everything else alone (`inert_iff_not_stray`). One that meets a stray word
executes the instruction of the low byte.
-/

set_option autoImplicit false

namespace Schip

namespace Opcode

/-- Row of the table: the four digits of a word, the first one fixed and each of the others either
fixed or open. -/
structure Row where
  group : Nat
  x : Option Nat
  y : Option Nat
  n : Option Nat
  deriving DecidableEq, Repr

/-- A digit of a word is as a row has it, if the row fixes it. -/
def Fits (fixed : Option Nat) (digit : Nat) : Prop := ∀ d, fixed = some d → digit = d

/-- A word has the digits of a row. -/
structure Row.Matches (row : Row) (word : UInt16) : Prop where
  group : Word.group word = row.group
  x : Fits row.x (Word.x word)
  y : Fits row.y (Word.y word)
  n : Fits row.n (Word.n word)

/-- Row with a fixed low byte. -/
def Row.byte (group : Nat) (x : Option Nat) (kk : Nat) : Row :=
  ⟨group, x, some (kk / 16), some (kk % 16)⟩

/-- Groups that are one instruction, or two, whatever the other digits: 1NNN to 7XKK, 9XY_, ANNN to
DXYN. -/
def openGroups : List Nat := [0x1, 0x2, 0x3, 0x4, 0x5, 0x6, 0x7, 0x9, 0xA, 0xB, 0xC, 0xD]

/-- Low bytes of the system instructions: 00E0, 00EE, 00FB to 00FF. -/
def systemBytes : List Nat := [0xE0, 0xEE, 0xFB, 0xFC, 0xFD, 0xFE, 0xFF]

/-- Last digits of the register arithmetic: 8XY0 to 8XY7, 8XYE. -/
def arithmeticDigits : List Nat := [0x0, 0x1, 0x2, 0x3, 0x4, 0x5, 0x6, 0x7, 0xE]

/-- Low bytes of the skips on keys: EX9E, EXA1. -/
def keyBytes : List Nat := [0x9E, 0xA1]

/-- Low bytes of the timers, the index register and the transfers: FX07 to FX65. -/
def transferBytes : List Nat := [0x07, 0x0A, 0x15, 0x18, 0x1E, 0x29, 0x30, 0x33, 0x55, 0x65]

/-- The table of instructions. -/
def table : List Row :=
  ⟨0x0, some 0x0, some 0xC, none⟩ :: systemBytes.map (Row.byte 0x0 (some 0x0)) ++
  openGroups.map (fun group => ⟨group, none, none, none⟩) ++
  arithmeticDigits.map (fun n => ⟨0x8, none, none, some n⟩) ++
  keyBytes.map (Row.byte 0xE none) ++ transferBytes.map (Row.byte 0xF none)

/-- A row of the table has the digits of a word. -/
def Listed (word : UInt16) : Prop := ∃ row ∈ table, row.Matches word

/-- Word without its first two digits. -/
def low (word : UInt16) : UInt16 := (Word.kk word).toUInt16

/-- A word of group zero whose second digit alone keeps it out of the table. -/
structure Stray (word : UInt16) : Prop where
  group : Word.group word = 0
  x : Word.x word ≠ 0
  low : Listed (low word)

variable {word : UInt16} {digit : Nat}

/-! ## Digits -/

theorem fits_none (digit : Nat) : Fits none digit := by
  intro d hd
  cases hd

theorem fits_some {d : Nat} : Fits (some d) digit ↔ digit = d :=
  ⟨fun h => h d rfl, fun h _ hd => h.trans (Option.some.inj hd)⟩

instance (fixed : Option Nat) (digit : Nat) : Decidable (Fits fixed digit) :=
  match fixed with
  | none => isTrue (fits_none digit)
  | some _ => decidable_of_iff _ fits_some.symm

theorem matches_iff {row : Row} : row.Matches word ↔
    Word.group word = row.group ∧ Fits row.x (Word.x word) ∧ Fits row.y (Word.y word) ∧
      Fits row.n (Word.n word) :=
  ⟨fun h => ⟨h.group, h.x, h.y, h.n⟩, fun ⟨hgroup, hx, hy, hn⟩ => ⟨hgroup, hx, hy, hn⟩⟩

instance (row : Row) (word : UInt16) : Decidable (row.Matches word) :=
  decidable_of_iff _ matches_iff.symm

instance (word : UInt16) : Decidable (Listed word) :=
  inferInstanceAs (Decidable (∃ row ∈ table, row.Matches word))

/-- The low byte has the third and the fourth digit. -/
theorem toNat_kk (word : UInt16) : (Word.kk word).toNat = Word.y word * 16 + Word.n word := by
  have hbyte : word.toNat % 256 < 256 := Nat.mod_lt _ (by decide)
  rw [Word.kk, UInt8.toNat_ofNat_of_lt' hbyte, Word.y, Word.n]
  omega

/-- A row with a fixed low byte has the words with that byte. -/
theorem matches_byte {group kk : Nat} {x : Option Nat} :
    (Row.byte group x kk).Matches word ↔
      Word.group word = group ∧ Fits x (Word.x word) ∧ (Word.kk word).toNat = kk := by
  have hn : Word.n word < 16 := Nat.mod_lt _ (by decide)
  rw [toNat_kk]
  constructor
  · rintro ⟨hgroup, hx, hy, hlast⟩
    rw [Row.byte, fits_some] at hy hlast
    exact ⟨hgroup, hx, by omega⟩
  · rintro ⟨hgroup, hx, hkk⟩
    refine ⟨hgroup, hx, ?_, ?_⟩
    · rw [Row.byte, fits_some]
      omega
    · rw [Row.byte, fits_some]
      omega

/-- A group is one digit. -/
theorem group_lt (word : UInt16) : Word.group word < 16 := by
  have hword := word.toNat_lt
  rw [Word.group]
  omega

theorem toNat_low (word : UInt16) : (low word).toNat = word.toNat % 256 := by
  simp [low, Word.kk]

theorem group_low (word : UInt16) : Word.group (low word) = 0 := by
  rw [Word.group, toNat_low]
  omega

theorem x_low (word : UInt16) : Word.x (low word) = 0 := by
  rw [Word.x, toNat_low]
  omega

theorem y_low (word : UInt16) : Word.y (low word) = Word.y word := by
  rw [Word.y, Word.y, toNat_low]
  omega

theorem n_low (word : UInt16) : Word.n (low word) = Word.n word := by
  rw [Word.n, Word.n, toNat_low]
  omega

theorem kk_low (word : UInt16) : Word.kk (low word) = Word.kk word := by
  rw [Word.kk, Word.kk, toNat_low, Nat.mod_mod]

/-! ## The table, group by group -/

/-- The low byte is that of a system instruction, which the decoder looks for. -/
def HasSystemByte (word : UInt16) : Prop :=
  (Word.kk word).toNat ∈ systemBytes ∨ Word.y word = 0xC

/-- The table, read off group by group. -/
theorem listed_iff (word : UInt16) : Listed word ↔
    (Word.group word = 0x0 ∧ Word.x word = 0 ∧ HasSystemByte word) ∨
      Word.group word ∈ openGroups ∨
      (Word.group word = 0x8 ∧ Word.n word ∈ arithmeticDigits) ∨
      (Word.group word = 0xE ∧ (Word.kk word).toNat ∈ keyBytes) ∨
      (Word.group word = 0xF ∧ (Word.kk word).toNat ∈ transferBytes) := by
  constructor
  · rintro ⟨row, hrow, hmatches⟩
    simp only [table, List.cons_append, List.mem_cons, List.mem_append, List.mem_map] at hrow
    rcases hrow with rfl | (((⟨kk, hkk, rfl⟩ | ⟨group, hgroup, rfl⟩) | ⟨n, hn, rfl⟩) |
      ⟨kk, hkk, rfl⟩) | ⟨kk, hkk, rfl⟩
    · exact Or.inl ⟨hmatches.group, fits_some.1 hmatches.x, Or.inr (fits_some.1 hmatches.y)⟩
    · obtain ⟨hgroup, hx, rfl⟩ := matches_byte.1 hmatches
      exact Or.inl ⟨hgroup, fits_some.1 hx, Or.inl hkk⟩
    · exact Or.inr (Or.inl (hmatches.group ▸ hgroup))
    · obtain rfl := fits_some.1 hmatches.n
      exact Or.inr (Or.inr (Or.inl ⟨hmatches.group, hn⟩))
    · obtain ⟨hgroup, -, rfl⟩ := matches_byte.1 hmatches
      exact Or.inr (Or.inr (Or.inr (Or.inl ⟨hgroup, hkk⟩)))
    · obtain ⟨hgroup, -, rfl⟩ := matches_byte.1 hmatches
      exact Or.inr (Or.inr (Or.inr (Or.inr ⟨hgroup, hkk⟩)))
  · intro h
    simp only [Listed, table, List.cons_append, List.mem_cons, List.mem_append, List.mem_map]
    rcases h with ⟨hgroup, hx, hkk | hy⟩ | hgroup | ⟨hgroup, hn⟩ | ⟨hgroup, hkk⟩ | ⟨hgroup, hkk⟩
    · refine ⟨_, Or.inr (Or.inl (Or.inl (Or.inl (Or.inl ⟨_, hkk, rfl⟩)))), matches_byte.2 ?_⟩
      exact ⟨hgroup, fits_some.2 hx, rfl⟩
    · exact ⟨_, Or.inl rfl, hgroup, fits_some.2 hx, fits_some.2 hy, fits_none _⟩
    · refine ⟨_, Or.inr (Or.inl (Or.inl (Or.inl (Or.inr ⟨_, hgroup, rfl⟩)))), rfl, ?_, ?_, ?_⟩
      · exact fits_none _
      · exact fits_none _
      · exact fits_none _
    · refine ⟨_, Or.inr (Or.inl (Or.inl (Or.inr ⟨_, hn, rfl⟩))), hgroup, ?_, ?_, fits_some.2 rfl⟩
      · exact fits_none _
      · exact fits_none _
    · refine ⟨_, Or.inr (Or.inl (Or.inr ⟨_, hkk, rfl⟩)), matches_byte.2 ?_⟩
      exact ⟨hgroup, fits_none _, rfl⟩
    · refine ⟨_, Or.inr (Or.inr ⟨_, hkk, rfl⟩), matches_byte.2 ?_⟩
      exact ⟨hgroup, fits_none _, rfl⟩

theorem hasSystemByte_low : HasSystemByte (low word) ↔ HasSystemByte word := by
  rw [HasSystemByte, HasSystemByte, kk_low, y_low]

/-- A stray word has the low byte of a system instruction. -/
theorem stray_iff (word : UInt16) :
    Stray word ↔ Word.group word = 0 ∧ Word.x word ≠ 0 ∧ HasSystemByte word := by
  have hlow : Listed (low word) ↔ HasSystemByte word := by
    rw [listed_iff, group_low, x_low, hasSystemByte_low]
    simp [openGroups]
  constructor
  · intro h
    exact ⟨h.group, h.x, hlow.1 h.low⟩
  · rintro ⟨hgroup, hx, hbyte⟩
    exact ⟨hgroup, hx, hlow.2 hbyte⟩

/-! ## The decoder, group by group -/

open Instruction

/-- In group zero the decoder looks at the low byte alone. -/
theorem decodeSystem_eq_unknown_iff (word : UInt16) :
    decodeSystem word = unknown word ↔ ¬HasSystemByte word := by
  rw [decodeSystem, HasSystemByte, systemBytes]
  split <;> simp_all

/-- In group eight the decoder looks at the last digit. -/
theorem decodeArithmetic_eq_unknown_iff (word : UInt16) :
    decodeArithmetic word = unknown word ↔ Word.n word ∉ arithmeticDigits := by
  rw [decodeArithmetic, arithmeticDigits]
  split <;> simp_all

/-- In group fourteen the decoder looks at the low byte. -/
theorem decodeKeySkip_eq_unknown_iff (word : UInt16) :
    decodeKeySkip word = unknown word ↔ (Word.kk word).toNat ∉ keyBytes := by
  rw [decodeKeySkip, keyBytes]
  split <;> simp_all

/-- In group fifteen the decoder looks at the low byte. -/
theorem decodeTransfer_eq_unknown_iff (word : UInt16) :
    decodeTransfer word = unknown word ↔ (Word.kk word).toNat ∉ transferBytes := by
  rw [decodeTransfer, transferBytes]
  split <;> simp_all

theorem decodeSprite_ne_unknown (word : UInt16) : decodeSprite word ≠ unknown word := by
  rw [decodeSprite]
  split <;> simp

/-- The decoder accepts every word of a group that is open. -/
theorem decode_ne_unknown_of_open (hgroup : Word.group word ∈ openGroups) :
    decode word ≠ unknown word := by
  simp only [openGroups, List.mem_cons, List.not_mem_nil, or_false] at hgroup
  rw [decode]
  rcases hgroup with h | h | h | h | h | h | h | h | h | h | h | h <;>
    simp [h, decodeSprite_ne_unknown]

/-- The decoder gives up on exactly the words that are neither listed nor stray. -/
theorem decode_eq_unknown_iff (word : UInt16) :
    decode word = unknown word ↔ ¬Listed word ∧ ¬Stray word := by
  rw [listed_iff, stray_iff]
  by_cases hopen : Word.group word ∈ openGroups
  · simp [decode_ne_unknown_of_open hopen, hopen]
  have hgroups : Word.group word = 0x0 ∨ Word.group word = 0x8 ∨ Word.group word = 0xE ∨
      Word.group word = 0xF := by
    have hlt := group_lt word
    simp only [openGroups, List.mem_cons, List.not_mem_nil, or_false] at hopen
    omega
  rcases hgroups with h | h | h | h
  -- the second digit decides between listed and stray, and the decoder does not look at it
  · simp only [decode, h, decodeSystem_eq_unknown_iff]
    by_cases hx : Word.x word = 0
    · simp [openGroups, hx]
    · simp [openGroups, hx]
  · simp only [decode, h, decodeArithmetic_eq_unknown_iff]
    simp [openGroups]
  · simp only [decode, h, decodeKeySkip_eq_unknown_iff]
    simp [openGroups]
  · simp only [decode, h, decodeTransfer_eq_unknown_iff]
    simp [openGroups]

/-- The decoder takes a stray word for the system instruction with the same low byte. -/
theorem decode_of_stray (h : Stray word) : decode word = decode (low word) := by
  obtain ⟨-, -, hbyte⟩ := (stray_iff word).1 h
  simp only [decode, h.group, group_low, decodeSystem, kk_low, y_low, n_low]
  split
  case h_8 hother =>
    have hy : Word.y word = 0xC := by
      rcases hbyte with hmem | hy
      · simp [systemBytes] at hmem
        grind
      · exact hy
    rw [if_pos hy, if_pos hy]
  all_goals rfl

end Opcode

namespace Machine

variable {m : Machine} {word : UInt16}

/-- Report and state of a cycle that meets a word as an unknown one. -/
def inertCycle (m : Machine) (word : UInt16) : Step × Machine :=
  (⟨m.registers.pc, some (.unknown word), .proceed, m.faults ++ [.unknownOpcode word]⟩,
    { m with
      registers :=
        { m.registers with
          pc := m.registers.pc + 2
          delay := countdown m.registers.delay
          sound := countdown m.registers.sound }
      faults := [] })

/-- A cycle at a word that the decoder gives up on. -/
theorem cycle_of_unknown (hword : m.memory.word m.registers.pc.toNat = .ok word)
    (hunknown : Instruction.decode word = .unknown word) : m.cycle = m.inertCycle word := by
  rw [cycle_eq, fetchExecute_of_word hword, hunknown]
  rfl

/-- The word at an address with another byte behind it exists. -/
theorem exists_word (memory : Memory) {address : Nat} (h : address ≤ 4094) :
    ∃ word, memory.word address = .ok word := by
  have hfits : address + 2 ≤ 4096 := by omega
  rw [Memory.word, dif_pos hfits]
  exact ⟨_, rfl⟩

/-- A cycle at a word outside the table only reports the word, ticks the timers and advances, unless
the word is stray; then it executes the listed instruction of the low byte. -/
theorem inert_iff_not_stray (m : Machine) (hpc : m.registers.pc.toNat ≤ 4094) :
    ∃ word, m.memory.word m.registers.pc.toNat = .ok word ∧
      (¬Opcode.Listed word → (m.cycle = m.inertCycle word ↔ ¬Opcode.Stray word)) ∧
      (Opcode.Stray word → Opcode.Listed (Opcode.low word) ∧
        m.cycle.1.instruction = some (Instruction.decode (Opcode.low word))) := by
  obtain ⟨word, hword⟩ := exists_word m.memory hpc
  have hinstruction : m.cycle.1.instruction = some (Instruction.decode word) := by
    rw [cycle_eq, fetchExecute_of_word hword]
  refine ⟨word, hword, fun hunlisted => ⟨?_, ?_⟩, fun hstray => ⟨hstray.low, ?_⟩⟩
  · intro hinert
    -- the report names the word as unknown, so the decoder gave up on it
    rw [hinert] at hinstruction
    have hunknown : Instruction.decode word = .unknown word :=
      (Option.some.inj hinstruction).symm
    exact ((Opcode.decode_eq_unknown_iff word).1 hunknown).2
  · intro hnot
    exact cycle_of_unknown hword ((Opcode.decode_eq_unknown_iff word).2 ⟨hunlisted, hnot⟩)
  · rw [hinstruction, Opcode.decode_of_stray hstray]

/-- First word of a program that has no other. -/
theorem word_pair (m : Machine) (high low : UInt8) :
    (m.loaded [high, low]).memory.word (m.loaded [high, low]).registers.pc.toNat =
      .ok (high.toUInt16 <<< 8 ||| low.toUInt16) := by
  have hlength : 0 + 1 < [high, low].length := Nat.lt_succ_self 1
  have hfits : [high, low].length ≤ Memory.programLimit := (by decide : 2 ≤ Memory.programLimit)
  exact m.word_loaded hlength hfits

/-- The word 8008, which has a last digit that no row of its group has. -/
theorem inert_iff_not_stray_arithmetic :
    let m := ((new {} (RandomSource.ofSeed 1)).loadProgram (.ofBytes [0x80, 0x08])).2
    m.registers.pc.toNat ≤ 4094 ∧ ¬Opcode.Listed 0x8008 ∧ m.cycle = m.inertCycle 0x8008 := by
  intro m
  have hm : m = (new {} (RandomSource.ofSeed 1)).loaded [0x80, 0x08] :=
    snd_loadProgram_ofBytes _ (by decide)
  clear_value m
  have hpc : m.registers.pc.toNat ≤ 4094 := by
    rw [hm, registers_loaded]
    decide
  have hword : m.memory.word m.registers.pc.toNat = .ok 0x8008 := by
    rw [hm]
    exact word_pair _ 0x80 0x08
  obtain ⟨word, hread, hinert, -⟩ := m.inert_iff_not_stray hpc
  obtain rfl : word = 0x8008 := Except.ok.inj (hread.symm.trans hword)
  have hunlisted : ¬Opcode.Listed 0x8008 := by decide
  have hnot : ¬Opcode.Stray 0x8008 := fun h => absurd h.group (by decide)
  exact ⟨hpc, hunlisted, (hinert hunlisted).2 hnot⟩

/-- The word 01FD is in no row of the table, and it ends the program. -/
theorem exits_outside_table :
    let m := ((new {} (RandomSource.ofSeed 1)).loadProgram (.ofBytes [0x01, 0xFD])).2
    m.registers.pc.toNat ≤ 4094 ∧ m.memory.word m.registers.pc.toNat = .ok 0x01FD ∧
      ¬Opcode.Listed 0x01FD ∧ m.cycle ≠ m.inertCycle 0x01FD ∧
      m.cycle.1.outcome = .exit ∧ m.cycle.1.faults = [] ∧
      m.cycle.2.registers.pc = m.registers.pc := by
  intro m
  have hm : m = (new {} (RandomSource.ofSeed 1)).loaded [0x01, 0xFD] :=
    snd_loadProgram_ofBytes _ (by decide)
  clear_value m
  have hword : m.memory.word m.registers.pc.toNat = .ok 0x01FD := by
    rw [hm]
    exact word_pair _ 0x01 0xFD
  have hcycle : m.cycle = (⟨m.registers.pc, some .exit, .exit, []⟩, m) := by
    rw [cycle_eq, fetchExecute_of_word hword, hm]
    rfl
  rw [hcycle]
  refine ⟨by rw [hm, registers_loaded]; decide, hword, by decide, ?_, rfl, rfl, rfl⟩
  intro hinert
  have hinstruction := congrArg (fun cycle => cycle.1.instruction) hinert
  cases hinstruction

end Machine

end Schip
