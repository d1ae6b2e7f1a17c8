import Schip.Proofs.Machine.Renewal

/-!
# A load is all or nothing

A reader hands out a program in pieces of any size, may be interrupted in between, and may fail. A
load sees only the pieces put together and the first failure (`readAll_of_failure`,
`readAll_of_joined`), so what it does cannot depend on how the bytes arrive. Either all of them end
up in memory, and every restart from then on brings them back, or the machine is left reset and
without a program. `load_all_or_nothing` says which of the two happens.
-/

set_option autoImplicit false

namespace Schip

/-- Bytes that an answer of a reader brings. -/
def ReadResult.bytes : ReadResult → List UInt8
  | .chunk bytes => bytes
  | .interrupted | .failed _ => []

/-- Reason of an answer that is a failure. -/
def ReadResult.failure? : ReadResult → Option String
  | .failed reason => some reason
  | .chunk _ | .interrupted => none

namespace ByteSource

/-- Reason of the first failure, if there is one. -/
def failure? (source : ByteSource) : Option String := source.findSome? ReadResult.failure?

/-- All pieces of a source put together. -/
def joined (source : ByteSource) : List UInt8 := source.flatMap ReadResult.bytes

/-- A source that fails is not read, whatever it gave before. -/
theorem readAll_of_failure {source : ByteSource} {reason : String}
    (h : source.failure? = some reason) : source.readAll = .error reason := by
  induction source with
  | nil => cases h
  | cons answer rest ih =>
      cases answer with
      | chunk bytes =>
          rw [readAll, ih h]
      | interrupted =>
          rw [readAll]
          exact ih h
      | failed first =>
          cases h
          rfl

/-- A source that does not fail is read to its pieces in order. -/
theorem readAll_of_joined {source : ByteSource} (h : source.failure? = none) :
    source.readAll = .ok source.joined := by
  induction source with
  | nil => rfl
  | cons answer rest ih =>
      cases answer with
      | chunk bytes =>
          rw [readAll, ih h]
          rfl
      | interrupted =>
          rw [readAll]
          exact ih h
      | failed first => cases h

end ByteSource

/-- The program region holds a program, and nothing behind it. -/
structure Memory.Holds (mem : Memory) (program : List UInt8) : Prop where
  inside : ∀ i, i < program.length → mem.bytes[Memory.programBase + i]? = program[i]?
  behind : ∀ a (h : a < 4096), Memory.programBase + program.length ≤ a → mem.bytes[a] = 0

/-- Whether a handling brings in another program. -/
def Handling.replaces : Handling → Bool
  | .load _ | .loadFile _ => true
  | .cycle | .key _ _ | .fade | .reset | .restart => false

namespace Machine

variable {m : Machine} {program : List UInt8}

/-- A program that is loaded stands in the memory, with zeros behind it. -/
theorem holds_loaded (m : Machine) (hfits : program.length ≤ Memory.programLimit) :
    (m.loaded program).memory.Holds program where
  inside := by
    intro i hi
    have hbound : Memory.programBase + i < 4096 := by
      simp only [Memory.programLimit, Memory.capacity, Memory.programBase] at hfits ⊢
      omega
    rw [Vector.getElem?_eq_getElem hbound, List.getElem?_eq_getElem hi, memory_loaded,
      Memory.getElem_overlay_add (by simpa using hi) hbound, List.getElem_toArray]
  behind := by
    intro a ha hbehind
    have hregion : Memory.programBase ≤ a := Nat.le_of_add_right_le hbehind
    rw [memory_loaded, Memory.getElem_overlay_of_le (by simpa using hbehind) ha]
    exact (Memory.blank_reset m.memory).program a ha hregion

/-! ## A stored program stays until another one comes -/

/-- What loads no other program leaves the program, a restart included. -/
theorem program_handle_of_not_replaces (hprogram : m.program = some program)
    (hfits : program.length ≤ Memory.programLimit) {handling : Handling}
    (h : handling.replaces = false) : (m.handle handling).program = some program := by
  cases handling with
  | load | loadFile => cases h
  | restart => rw [handle, restart_of_fits hprogram hfits, program_loaded]
  | cycle | key | fade | reset => rw [program_handle m rfl, hprogram]

/-- Through a history that loads no other program the program stays. -/
theorem program_handleAll_of_not_replaces (hprogram : m.program = some program)
    (hfits : program.length ≤ Memory.programLimit) {history : List Handling}
    (h : ∀ handling ∈ history, handling.replaces = false) :
    (m.handleAll history).program = some program := by
  induction history generalizing m with
  | nil => exact hprogram
  | cons handling rest ih =>
      obtain ⟨hfirst, hrest⟩ := List.forall_mem_cons.1 h
      exact ih (program_handle_of_not_replaces hprogram hfits hfirst) hrest

/-- A load looks at nothing but what its reader hands out in all. -/
theorem loadProgram_congr (m : Machine) {source other : ByteSource}
    (hfailure : other.failure? = source.failure?) (hjoined : other.joined = source.joined) :
    m.loadProgram other = m.loadProgram source := by
  have hread : other.readAll = source.readAll := by
    cases hsource : source.failure? with
    | none =>
        rw [ByteSource.readAll_of_joined (hfailure.trans hsource),
          ByteSource.readAll_of_joined hsource, hjoined]
    | some reason =>
        rw [ByteSource.readAll_of_failure (hfailure.trans hsource),
          ByteSource.readAll_of_failure hsource]
  rw [loadProgram, loadProgram, hread]

/-- How the bytes arrive does not matter to a load. If its reader fails it answers with the first
failure, if the bytes are too many with their number, and in both cases it leaves a reset machine
without a program. Otherwise it answers with the number of bytes and leaves them in a machine that
is reset apart from them; and after whatever happens to that machine short of another load, a
restart brings the same bytes back. -/
theorem load_all_or_nothing (m : Machine) (source : ByteSource) :
    let answer := (m.loadProgram source).1
    let left := (m.loadProgram source).2
    (∀ other : ByteSource, other.failure? = source.failure? → other.joined = source.joined →
      m.loadProgram other = m.loadProgram source) ∧
    (∀ reason, source.failure? = some reason →
      answer = .error (.io reason) ∧ left = { m.reset with program := none } ∧
        left.hasProgram = false) ∧
    (source.failure? = none → 3584 < source.joined.length →
      answer = .error (.programTooLarge source.joined.length 3584) ∧
        left = { m.reset with program := none } ∧ left.hasProgram = false) ∧
    (source.failure? = none → source.joined.length ≤ 3584 →
      answer = .ok source.joined.length ∧ left.memory.Holds source.joined ∧
        (∀ a (h : a < 4096), a < Memory.programBase →
          left.memory.bytes[a] = m.reset.memory.bytes[a]) ∧
        left = { m.reset with memory := left.memory, program := some source.joined } ∧
        ∀ history : List Handling, (∀ handling ∈ history, handling.replaces = false) →
          (left.handleAll history).restart.1 = .ok true ∧
            (left.handleAll history).restart.2.memory.Holds source.joined ∧
            (left.handleAll history).restart.2.program = some source.joined) := by
  dsimp only
  refine ⟨fun other => m.loadProgram_congr, ?_, ?_, ?_⟩
  · intro reason hfailure
    rw [m.loadProgram_of_failed (ByteSource.readAll_of_failure hfailure)]
    exact ⟨rfl, rfl, rfl⟩
  · intro hsound hlarge
    rw [m.loadProgram_of_large (ByteSource.readAll_of_joined hsound) hlarge]
    exact ⟨rfl, rfl, rfl⟩
  · intro hsound hfits
    rw [m.loadProgram_of_fits (ByteSource.readAll_of_joined hsound) hfits]
    refine ⟨rfl, m.holds_loaded hfits, ?_, rfl, ?_⟩
    · intro a ha hbelow
      exact Memory.getElem_overlay_of_lt hbelow ha _
    · intro history hkeeps
      have hstored := program_handleAll_of_not_replaces (m.program_loaded source.joined) hfits
        hkeeps
      rw [restart_of_fits hstored hfits]
      exact ⟨rfl, holds_loaded _ hfits, rfl⟩

/-- Three readers for a machine with a program: one that fails half way, one with a byte too many,
and one that is interrupted. The program of the last one runs and is started again twice. -/
theorem load_all_or_nothing_pieces :
    let m := ((new {} (RandomSource.ofSeed 1)).loadProgram (.ofBytes [0x12, 0x00])).2
    let torn : ByteSource := [.chunk [0x60], .failed "boom", .chunk [0x2A]]
    let large : ByteSource := [.chunk (List.replicate 3000 0x60), .chunk (List.replicate 585 0)]
    let whole : ByteSource := .ofBytes [0x60, 0x2A, 0x12, 0x02]
    let pieces : ByteSource := [.chunk [0x60], .interrupted, .chunk [0x2A, 0x12, 0x02]]
    let history : List Handling := [.cycle, .key 5 true, .restart, .cycle]
    (torn.failure? = some "boom" ∧ (m.loadProgram torn).1 = .error (.io "boom")) ∧
      (large.failure? = none ∧ 3584 < large.joined.length ∧
        (m.loadProgram large).2.hasProgram = false) ∧
      (pieces.failure? = whole.failure? ∧ pieces.joined = whole.joined ∧
        m.loadProgram pieces = m.loadProgram whole) ∧
      (whole.failure? = none ∧ whole.joined.length ≤ 3584 ∧
        (∀ handling ∈ history, handling.replaces = false) ∧
        ((m.loadProgram whole).2.handleAll history).restart.2.memory.Holds
          [0x60, 0x2A, 0x12, 0x02]) := by
  intro m torn large whole pieces history
  have hlarge : 3584 < large.joined.length := by
    simp only [large, ByteSource.joined, List.flatMap_cons, List.flatMap_nil, ReadResult.bytes,
      List.length_append, List.length_replicate, List.length_nil]
    decide
  have hfits : whole.joined.length ≤ 3584 := by decide
  have hkeeps : ∀ handling ∈ history, handling.replaces = false := by decide
  obtain ⟨-, hfails, -⟩ := load_all_or_nothing m torn
  obtain ⟨-, -, hrefuses, -⟩ := load_all_or_nothing m large
  obtain ⟨hsame, -, -, hloads⟩ := load_all_or_nothing m whole
  obtain ⟨-, -, -, -, hrestarts⟩ := hloads rfl hfits
  exact ⟨⟨rfl, (hfails "boom" rfl).1⟩, ⟨rfl, hlarge, (hrefuses rfl hlarge).2.2⟩,
    ⟨rfl, rfl, hsame pieces rfl rfl⟩, rfl, hfits, hkeeps, (hrestarts history hkeeps).2.1⟩

end Machine

end Schip
