import Schip.Machine.Cycle

/-!
# Reading mnemonics back

Mnemonics are unambiguous: the text of an instruction can be read back, whatever the values of its
operands, and so can the trace line that a cycle writes (`mnemonics_unambiguous`). The reader splits
a line into words at spaces, commas, colons and hyphens. Numerals are made of digits alone, so no
operand is split, and the first word is the mnemonic. An operand that starts with `v` is a register;
the letter is no digit, and this alone tells the two forms of `skeq`, `skne`, `mov` and `add` apart.
-/

set_option autoImplicit false

namespace Schip.Instruction

open Numeral

/-! ## Words -/

/-- Characters between the words of a line. -/
def separator (c : Char) : Bool := c == ' ' || c == ',' || c == ':' || c == '-'

/-- Words of a line. -/
def words (line : List Char) : List (List Char) :=
  (line.splitOnP separator).filter fun word => !word.isEmpty

/-- One word and nothing else. -/
def IsWord (text : List Char) : Prop := text ≠ [] ∧ ∀ c ∈ text, separator c = false

-- Spelled out, so that it is decided over the text and never over all characters.
instance (text : List Char) : Decidable (IsWord text) :=
  @instDecidableAnd _ _ _ (List.decidableBAll (fun c => separator c = false) text)

/-- One word has itself as its only word. -/
theorem words_of_isWord {text : List Char} (h : IsWord text) : words text = [text] := by
  rw [words, List.splitOnP_eq_singleton h.2]
  simp [h.1]

/-- The words of a line are those before a separator and those behind it. -/
theorem words_append_separator {c : Char} (hc : separator c = true) (left right : List Char) :
    words (left ++ c :: right) = words left ++ words right := by
  rw [words, List.splitOnP_append_cons left right hc, List.filter_append]
  rfl

theorem words_separator {c : Char} (hc : separator c = true) (right : List Char) :
    words (c :: right) = words right :=
  words_append_separator hc [] right

/-- A word at the front of a line is read off at the next separator. -/
theorem words_cons {c : Char} (hc : separator c = true) {word : List Char} (hword : IsWord word)
    (right : List Char) : words (word ++ c :: right) = word :: words right := by
  rw [words_append_separator hc, words_of_isWord hword]
  rfl

/-- A digit separates nothing. -/
theorem separator_digit {v : Nat} (hv : v < 16) : separator (digit v) = false := by
  have table : ∀ v : Fin 16, separator (digit v.val) = false := by decide
  exact table ⟨v, hv⟩

/-- A numeral is one word. -/
theorem isWord_digits {base : Nat} (hl : 2 ≤ base) (hu : base ≤ 16) (n : Nat) :
    IsWord (digits base n) := by
  refine ⟨digits_ne_nil base n, fun c hc => ?_⟩
  obtain ⟨v, hv, rfl⟩ := mem_digits hl hu n hc
  exact separator_digit hv

/-- A padded numeral is one word. -/
theorem isWord_padded (width n : Nat) : IsWord (padded 16 width n) := by
  refine ⟨padded_ne_nil 16 width n, fun c hc => ?_⟩
  obtain ⟨v, hv, rfl⟩ := mem_padded (by omega) (by omega) width n hc
  exact separator_digit hv

/-- Register operand as a word. -/
def registerWord (x : Nat) : List Char := 'v' :: digits 16 x

/-- A register operand is one word. -/
theorem isWord_registerWord (x : Nat) : IsWord (registerWord x) := by
  refine ⟨List.cons_ne_nil _ _, fun c hc => ?_⟩
  rcases List.mem_cons.mp hc with rfl | hc
  · decide
  · exact (isWord_digits (by omega) (by omega) x).2 c hc

/-! ## Words of the families of mnemonics -/

theorem toList_registerText (x : Nat) : (registerText x).toList = registerWord x := by
  simp [registerText, hex, registerWord]

theorem toList_hexPadded (width n : Nat) : (hexPadded width n).toList = padded 16 width n := by
  simp [hexPadded]

/-- The words are the mnemonic and the register. -/
theorem words_unaryText {name : String} (hname : IsWord name.toList) (x : Nat) :
    words (unaryText name x).toList = [name.toList, registerWord x] := by
  have hline : (unaryText name x).toList = name.toList ++ ' ' :: registerWord x := by
    simp [unaryText, toList_registerText]
  rw [hline, words_cons rfl hname, words_of_isWord (isWord_registerWord x)]

/-- The words are the mnemonic, the register and the byte. -/
theorem words_immediateText {name : String} (hname : IsWord name.toList) (x : Nat) (kk : UInt8) :
    words (immediateText name x kk).toList =
      [name.toList, registerWord x, padded 16 2 kk.toNat] := by
  have hline : (immediateText name x kk).toList =
      name.toList ++ ' ' :: (registerWord x ++ ',' :: ' ' :: padded 16 2 kk.toNat) := by
    simp [immediateText, byteText, toList_registerText, toList_hexPadded]
  rw [hline, words_cons rfl hname, words_cons rfl (isWord_registerWord x), words_separator rfl,
    words_of_isWord (isWord_padded 2 _)]

/-- The words are the mnemonic and both registers. -/
theorem words_binaryText {name : String} (hname : IsWord name.toList) (x y : Nat) :
    words (binaryText name x y).toList = [name.toList, registerWord x, registerWord y] := by
  have hline : (binaryText name x y).toList =
      name.toList ++ ' ' :: (registerWord x ++ ',' :: ' ' :: registerWord y) := by
    simp [binaryText, toList_registerText]
  rw [hline, words_cons rfl hname, words_cons rfl (isWord_registerWord x), words_separator rfl,
    words_of_isWord (isWord_registerWord y)]

/-! ## Instructions from words -/

/-- Operand of a mnemonic. The base of a number depends on the mnemonic. -/
inductive Operand where
  | register (x : Nat)
  | number (numeral : List Char)

/-- Operand that a word stands for. -/
def operand : List Char → Operand
  | 'v' :: numeral => .register (value 16 numeral)
  | numeral => .number numeral

/-- Instructions without operands. -/
def plain? : String → Option Instruction
  | "cls" => some clearScreen
  | "rts" => some ret
  | "scr" => some scrollRight
  | "scl" => some scrollLeft
  | "exit" => some exit
  | "low" => some lowRes
  | "high" => some highRes
  | _ => none

/-- Instructions with one register. -/
def unary? : String → Option (Nat → Instruction)
  | "shr" => some shiftRight
  | "shl" => some shiftLeft
  | "skpr" => some skipKeyDown
  | "skup" => some skipKeyUp
  | "gdelay" => some getDelay
  | "key" => some waitKey
  | "sdelay" => some setDelay
  | "ssound" => some setSound
  | "adi" => some addIndex
  | "font" => some loadFont
  | "xfont" => some loadExtendedFont
  | "bcd" => some storeBcd
  | _ => none

/-- Instructions with two registers. A range of registers starts with `v0`. -/
def binary? : String → Option (Nat → Nat → Instruction)
  | "skeq" => some skipEqReg
  | "skne" => some skipNeReg
  | "mov" => some move
  | "or" => some or
  | "and" => some and
  | "xor" => some xor
  | "add" => some addReg
  | "sub" => some sub
  | "rsb" => some reverseSub
  | "xsprite" => some drawExtended
  | "str" => some fun _ x => storeRegisters x
  | "ldr" => some fun _ x => loadRegisters x
  | _ => none

/-- Instructions with a register and a byte. -/
def immediate? : String → Option (Nat → UInt8 → Instruction)
  | "skeq" => some skipEqImm
  | "skne" => some skipNeImm
  | "mov" => some loadImm
  | "add" => some addImm
  | "rand" => some random
  | _ => none

/-- Instructions with an address, and the raw word. -/
def absolute? : String → Option (UInt16 → Instruction)
  | "jmp" => some jump
  | "jsr" => some call
  | "mvi" => some loadIndex
  | "jmi" => some jumpIndexed
  | "dw" => some unknown
  | _ => none

/-- Instruction with a mnemonic and operands. -/
def assemble? (name : String) : List Operand → Option Instruction
  | [] => plain? name
  | [.register x] => (unary? name).map fun make => make x
  | [.register x, .register y] => (binary? name).map fun make => make x y
  | [.register x, .number kk] =>
    (immediate? name).map fun make => make x (UInt8.ofNat (value 16 kk))
  | [.register x, .register y, .number n] =>
    if name = "sprite" then some (draw x y (UInt8.ofNat (value 16 n))) else none
  | [.number numeral] =>
    if name = "scd" then some (scrollDown (UInt8.ofNat (value 10 numeral)))
    else (absolute? name).map fun make => make (UInt16.ofNat (value 16 numeral))
  | _ => none

/-- Instruction that stands in the words of a line. -/
def read? : List (List Char) → Option Instruction
  | [] => none
  | name :: operands => assemble? (String.ofList name) (operands.map operand)

theorem operand_registerWord (x : Nat) : operand (registerWord x) = .register x := by
  simp only [registerWord, operand, value_digits (by omega : 2 ≤ 16) (by omega : 16 ≤ 16)]

/-- The letter of a register operand is not a digit. -/
theorem digit_ne_v {v : Nat} (hv : v < 16) : digit v ≠ 'v' := by
  have table : ∀ v : Fin 16, digit v.val ≠ 'v' := by decide
  exact table ⟨v, hv⟩

/-- Digits are never taken for a register. -/
theorem operand_of_digits {word : List Char} (hdigits : ∀ c ∈ word, ∃ v < 16, c = digit v) :
    operand word = .number word := by
  unfold operand
  split
  · obtain ⟨v, hv, hletter⟩ := hdigits 'v' List.mem_cons_self
    exact absurd hletter.symm (digit_ne_v hv)
  · rfl

theorem operand_digits {base : Nat} (hl : 2 ≤ base) (hu : base ≤ 16) (n : Nat) :
    operand (digits base n) = .number (digits base n) :=
  operand_of_digits fun _ => mem_digits hl hu n

theorem operand_padded (width n : Nat) :
    operand (padded 16 width n) = .number (padded 16 width n) :=
  operand_of_digits fun _ => mem_padded (by omega) (by omega) width n

theorem byte_of_padded (width : Nat) (kk : UInt8) :
    UInt8.ofNat (value 16 (padded 16 width kk.toNat)) = kk := by
  rw [value_padded (by omega) (by omega), UInt8.ofNat_toNat]

theorem address_of_padded (width : Nat) (address : UInt16) :
    UInt16.ofNat (value 16 (padded 16 width address.toNat)) = address := by
  rw [value_padded (by omega) (by omega), UInt16.ofNat_toNat]

/-! ## Mnemonics read back -/

/-- A line is read through its words. -/
theorem read?_of_words {line name : String} {operands : List (List Char)}
    (hwords : words line.toList = name.toList :: operands) :
    read? (words line.toList) = assemble? name (operands.map operand) := by
  rw [hwords, read?, String.ofList_toList]

/-- A mnemonic without operands is read through its table. -/
theorem read?_plain {name : String} {i : Instruction} (hname : IsWord name.toList)
    (hrow : plain? name = some i) : read? (words name.toList) = some i := by
  rw [read?_of_words (words_of_isWord hname)]
  exact hrow

/-- A mnemonic with one register is read through its table. -/
theorem read?_unaryText {name : String} {make : Nat → Instruction} (hname : IsWord name.toList)
    (hrow : unary? name = some make) (x : Nat) :
    read? (words (unaryText name x).toList) = some (make x) := by
  rw [read?_of_words (words_unaryText hname x)]
  simp only [List.map_cons, List.map_nil, operand_registerWord, assemble?, hrow, Option.map_some]

/-- Two register operands are read through one table, whatever stands between them. -/
theorem read?_registerWords {line name : String} {make : Nat → Nat → Instruction}
    (hrow : binary? name = some make) {x y : Nat}
    (hwords : words line.toList = [name.toList, registerWord x, registerWord y]) :
    read? (words line.toList) = some (make x y) := by
  rw [read?_of_words hwords]
  simp only [List.map_cons, List.map_nil, operand_registerWord, assemble?, hrow, Option.map_some]

theorem read?_binaryText {name : String} {make : Nat → Nat → Instruction}
    (hname : IsWord name.toList) (hrow : binary? name = some make) (x y : Nat) :
    read? (words (binaryText name x y).toList) = some (make x y) :=
  read?_registerWords hrow (words_binaryText hname x y)

/-- A mnemonic with a register and a byte is read through its table. -/
theorem read?_immediateText {name : String} {make : Nat → UInt8 → Instruction}
    (hname : IsWord name.toList) (hrow : immediate? name = some make) (x : Nat) (kk : UInt8) :
    read? (words (immediateText name x kk).toList) = some (make x kk) := by
  rw [read?_of_words (words_immediateText hname x kk)]
  simp only [List.map_cons, List.map_nil, operand_registerWord, operand_padded, assemble?, hrow,
    Option.map_some, byte_of_padded]

/-- An address has three digits, a raw word four; the width makes no difference. -/
theorem read?_hexOperand {line name : String} {make : UInt16 → Instruction}
    (hname : IsWord name.toList) (hscroll : name ≠ "scd") (hrow : absolute? name = some make)
    (width : Nat) (word : UInt16)
    (hline : line.toList = name.toList ++ ' ' :: padded 16 width word.toNat) :
    read? (words line.toList) = some (make word) := by
  have hwords : words line.toList = [name.toList, padded 16 width word.toNat] := by
    rw [hline, words_cons rfl hname, words_of_isWord (isWord_padded width _)]
  rw [read?_of_words hwords]
  simp only [List.map_cons, List.map_nil, operand_padded, assemble?, if_neg hscroll, hrow,
    Option.map_some, address_of_padded]

theorem read?_absoluteText {name : String} {make : UInt16 → Instruction}
    (hname : IsWord name.toList) (hscroll : name ≠ "scd") (hrow : absolute? name = some make)
    (address : UInt16) :
    read? (words (absoluteText name address).toList) = some (make address) :=
  read?_hexOperand hname hscroll hrow 3 address
    (by simp [absoluteText, addressText, toList_hexPadded])

theorem read?_unknown (word : UInt16) :
    read? (words (unknown word).text.toList) = some (unknown word) := by
  have hrow : absolute? "dw" = some unknown := rfl
  exact read?_hexOperand (by decide) (by decide) hrow 4 word (by simp [text, toList_hexPadded])

theorem read?_scrollDown (n : UInt8) :
    read? (words (scrollDown n).text.toList) = some (scrollDown n) := by
  have hline : (scrollDown n).text.toList = "scd".toList ++ ' ' :: digits 10 n.toNat := by
    simp [text, decimal]
  have hwords : words (scrollDown n).text.toList = ["scd".toList, digits 10 n.toNat] := by
    rw [hline, words_cons rfl (by decide),
      words_of_isWord (isWord_digits (by omega) (by omega) n.toNat)]
  rw [read?_of_words hwords]
  simp only [List.map_cons, List.map_nil, operand_digits (by omega : 2 ≤ 10) (by omega : 10 ≤ 16),
    assemble?, if_true, value_digits (by omega : 2 ≤ 10) (by omega : 10 ≤ 16), UInt8.ofNat_toNat]

theorem registerWord_zero : registerWord 0 = ['v', '0'] := by
  rw [registerWord, digits]
  rfl

/-- Mnemonics of the range of registers from `v0` to `vx`. -/
theorem read?_range {line name : String} {make : Nat → Nat → Instruction}
    (hname : IsWord name.toList) (hrow : binary? name = some make) (x : Nat)
    (hline : line.toList = name.toList ++ ' ' :: (['v', '0'] ++ '-' :: registerWord x)) :
    read? (words line.toList) = some (make 0 x) := by
  have hwords : words line.toList = [name.toList, registerWord 0, registerWord x] := by
    rw [hline, ← registerWord_zero, words_cons rfl hname, words_cons rfl (isWord_registerWord 0),
      words_of_isWord (isWord_registerWord x)]
  exact read?_registerWords hrow hwords

theorem read?_storeRegisters (x : Nat) :
    read? (words (storeRegisters x).text.toList) = some (storeRegisters x) := by
  have hrow : binary? "str" = some fun _ x => storeRegisters x := rfl
  exact read?_range (by decide) hrow x (by simp [text, toList_registerText])

theorem read?_loadRegisters (x : Nat) :
    read? (words (loadRegisters x).text.toList) = some (loadRegisters x) := by
  have hrow : binary? "ldr" = some fun _ x => loadRegisters x := rfl
  exact read?_range (by decide) hrow x (by simp [text, toList_registerText])

theorem read?_draw (x y : Nat) (n : UInt8) :
    read? (words (draw x y n).text.toList) = some (draw x y n) := by
  have hline : (draw x y n).text.toList =
      (binaryText "sprite" x y).toList ++ ',' :: ' ' :: digits 16 n.toNat := by
    simp [text, hex]
  have hwords : words (draw x y n).text.toList =
      ["sprite".toList, registerWord x, registerWord y, digits 16 n.toNat] := by
    rw [hline, words_append_separator rfl, words_binaryText (by decide), words_separator rfl,
      words_of_isWord (isWord_digits (by omega) (by omega) n.toNat)]
    rfl
  rw [read?_of_words hwords]
  simp only [List.map_cons, List.map_nil, operand_registerWord,
    operand_digits (by omega : 2 ≤ 16) (by omega : 16 ≤ 16), assemble?, if_true,
    value_digits (by omega : 2 ≤ 16) (by omega : 16 ≤ 16), UInt8.ofNat_toNat]

/-- Every instruction is read back from its text. -/
theorem read?_text (i : Instruction) : read? (words i.text.toList) = some i := by
  cases i with
  | clearScreen | ret | scrollRight | scrollLeft | exit | lowRes | highRes =>
    exact read?_plain (by decide) rfl
  | jump address | call address | loadIndex address | jumpIndexed address =>
    exact read?_absoluteText (by decide) (by decide) rfl address
  | skipEqImm x kk | skipNeImm x kk | loadImm x kk | addImm x kk | random x kk =>
    exact read?_immediateText (by decide) rfl x kk
  | skipEqReg x y | skipNeReg x y | move x y | or x y | and x y | xor x y | addReg x y | sub x y
  | reverseSub x y | drawExtended x y =>
    exact read?_binaryText (by decide) rfl x y
  | shiftRight x | shiftLeft x | skipKeyDown x | skipKeyUp x | getDelay x | waitKey x | setDelay x
  | setSound x | addIndex x | loadFont x | loadExtendedFont x | storeBcd x =>
    exact read?_unaryText (by decide) rfl x
  | scrollDown n => exact read?_scrollDown n
  | draw x y n => exact read?_draw x y n
  | storeRegisters x => exact read?_storeRegisters x
  | loadRegisters x => exact read?_loadRegisters x
  | unknown word => exact read?_unknown word

/-- Instructions with the same text are the same, since the text can be read back. -/
theorem text_injective {a b : Instruction} (h : a.text = b.text) : a = b := by
  have hread : some a = some b := by rw [← read?_text a, h, read?_text b]
  exact Option.some.inj hread

end Schip.Instruction

namespace Schip

open Numeral Instruction

/-! ## Traces -/

/-- Address and instruction of a cycle that executed one. -/
def Step.executed? (step : Step) : Option (UInt16 × Instruction) :=
  step.instruction.map fun i => (step.pc, i)

/-- First line of the cycle that executes an instruction at `pc`. -/
def traceLine (pc : UInt16) (i : Instruction) : LogLine :=
  ⟨.trace, addressLabel pc ++ ": " ++ i.text⟩

/-- Address and instruction of a trace line. A line of another level has neither. -/
def LogLine.executed? (line : LogLine) : Option (UInt16 × Instruction) :=
  match line.level, words line.text.toList with
  | .trace, pc :: rest => (read? rest).map fun i => (UInt16.ofNat (value 16 pc), i)
  | _, _ => none

/-- A trace line is read back to the address and the instruction. -/
theorem executed?_traceLine (pc : UInt16) (i : Instruction) :
    (traceLine pc i).executed? = some (pc, i) := by
  have hline : (traceLine pc i).text.toList =
      padded 16 3 pc.toNat ++ ':' :: ' ' :: i.text.toList := by
    simp [traceLine, addressLabel, toList_hexPadded]
  have hwords : words (traceLine pc i).text.toList =
      padded 16 3 pc.toNat :: words i.text.toList := by
    rw [hline, words_cons rfl (isWord_padded 3 _), words_separator rfl]
  have hlevel : (traceLine pc i).level = .trace := rfl
  simp only [LogLine.executed?, hlevel, hwords, read?_text, Option.map_some, address_of_padded]

/-- Trace lines that are the same are about the same instruction at the same address. -/
theorem traceLine_injective {pc pc' : UInt16} {i i' : Instruction}
    (h : traceLine pc i = traceLine pc' i') : (pc, i) = (pc', i') := by
  have hread : some (pc, i) = some (pc', i') := by
    rw [← executed?_traceLine pc i, h, executed?_traceLine]
  exact Option.some.inj hread

/-- A cycle that executes nothing writes nothing; any other starts with its trace line. -/
theorem head?_log (step : Step) :
    step.log.head? = step.executed?.map fun (pc, i) => traceLine pc i := by
  unfold Step.log Step.executed?
  cases step.instruction with
  | none => rfl
  | some i => rfl

/-- What an instruction announces is not a trace. -/
theorem filterMap_notices (pc : UInt16) (i : Instruction) :
    (i.notices pc).filterMap LogLine.executed? = [] := by
  cases i <;> rfl

/-- The lines of one cycle, read back. -/
theorem filterMap_log (step : Step) :
    step.log.filterMap LogLine.executed? = step.executed?.toList := by
  unfold Step.log Step.executed?
  cases step.instruction with
  | none => rfl
  | some i =>
    show (traceLine step.pc i :: i.notices step.pc).filterMap LogLine.executed? = [(step.pc, i)]
    rw [List.filterMap_cons_some (executed?_traceLine step.pc i), filterMap_notices]

/-- The lines of a run of cycles, read back. -/
theorem filterMap_flatMap_log (steps : List Step) :
    (steps.flatMap Step.log).filterMap LogLine.executed? = steps.filterMap Step.executed? := by
  induction steps with
  | nil => rfl
  | cons step rest ih =>
    rw [List.flatMap_cons, List.filterMap_append, filterMap_log, ih]
    cases hexecuted : step.executed? with
    | none =>
      rw [List.filterMap_cons_none hexecuted]
      rfl
    | some _ =>
      rw [List.filterMap_cons_some hexecuted]
      rfl

/-- Mnemonics are unambiguous: instructions with the same text are the same, whatever their
operands; the first line of a cycle determines the address and the instruction executed there; and
the log of any run of cycles can be read back to what was executed, and where. -/
theorem mnemonics_unambiguous :
    (∀ a b : Instruction, a.text = b.text ↔ a = b) ∧
    (∀ step step' : Step, step.log.head? = step'.log.head? ↔ step.executed? = step'.executed?) ∧
    ∀ steps : List Step,
      (steps.flatMap Step.log).filterMap LogLine.executed? = steps.filterMap Step.executed? := by
  refine ⟨fun a b => ⟨text_injective, congrArg text⟩, fun step step' => ?_, filterMap_flatMap_log⟩
  rw [head?_log, head?_log]
  exact Option.map_inj_right fun _ _ => traceLine_injective

end Schip
