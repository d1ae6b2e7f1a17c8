import Schip.Machine.Program
import Schip.Proofs.Machine.RenderIndependence
import Schip.Proofs.Memory.Regions

/-!
# Loading and restarting

A load leaves a reset machine with the program in place, or a reset machine without a program
(`loadProgram_cases`), and a restart with a stored program that fits is such a load
(`restart_of_fits`). Resets, loads and restarts of two machines with the same core answer alike and
leave machines with the same core (`SameCore.reset`, `SameCore.loadProgram`, `SameCore.loadFile`,
`SameCore.restart`).
-/

set_option autoImplicit false

namespace Schip.Machine

/-- Machine reset, with a program in place. -/
def loaded (m : Machine) (program : List UInt8) : Machine :=
  { m.reset with
    memory := m.memory.reset.overlay Memory.programBase program.toArray
    program := some program }

@[simp] theorem registers_loaded (m : Machine) (program : List UInt8) :
    (m.loaded program).registers = Registers.new := rfl

@[simp] theorem memory_loaded (m : Machine) (program : List UInt8) :
    (m.loaded program).memory = m.memory.reset.overlay Memory.programBase program.toArray := rfl

@[simp] theorem screen_loaded (m : Machine) (program : List UInt8) :
    (m.loaded program).screen = m.reset.screen := rfl

@[simp] theorem keypad_loaded (m : Machine) (program : List UInt8) :
    (m.loaded program).keypad = Keypad.clear := rfl

@[simp] theorem faults_loaded (m : Machine) (program : List UInt8) :
    (m.loaded program).faults = [] := rfl

@[simp] theorem program_loaded (m : Machine) (program : List UInt8) :
    (m.loaded program).program = some program := rfl

/-- Words of a loaded program. -/
theorem word_loaded (m : Machine) {program : List UInt8} {i : Nat} (h : i + 1 < program.length)
    (hfits : program.length ≤ Memory.programLimit) :
    (m.loaded program).memory.word (Memory.programBase + i) =
      .ok (program[i].toUInt16 <<< 8 ||| program[i + 1].toUInt16) := by
  have hbound : Memory.programBase + i + 2 ≤ 4096 := by
    simp only [Memory.programLimit, Memory.capacity, Memory.programBase] at hfits ⊢
    omega
  have hbyte : ∀ a (ha : a < 4096) j (hj : j < program.length), a = Memory.programBase + j →
      (m.memory.reset.overlay Memory.programBase program.toArray).bytes[a] = program[j] := by
    rintro a ha j hj rfl
    rw [Memory.getElem_overlay_add (by simpa using hj) ha, List.getElem_toArray]
  rw [memory_loaded, Memory.word, dif_pos hbound, hbyte _ _ i (by omega) rfl,
    hbyte _ _ (i + 1) h (Nat.add_assoc _ _ _)]

/-- A source that cannot be read leaves a reset machine without a program. -/
theorem loadProgram_of_failed (m : Machine) {source : ByteSource} {reason : String}
    (h : source.readAll = .error reason) :
    m.loadProgram source = (.error (.io reason), m.reset.dropProgram) := by
  simp only [loadProgram, h]

theorem readAll_ofBytes (program : List UInt8) :
    (ByteSource.ofBytes program).readAll = .ok program := by
  simp [ByteSource.ofBytes, ByteSource.readAll]

/-- A program that is too large leaves a reset machine without a program. -/
theorem loadProgram_of_large (m : Machine) {source : ByteSource} {program : List UInt8}
    (h : source.readAll = .ok program) (hlarge : Memory.programLimit < program.length) :
    m.loadProgram source =
      (.error (.programTooLarge program.length Memory.programLimit), m.reset.dropProgram) := by
  -- memory is reset once with the machine and once more by its own load
  have hmemory : m.reset.dropProgram.memory.reset = m.reset.dropProgram.memory :=
    Memory.reset_reset m.memory
  simp only [loadProgram, h, Memory.loadProgram, readAll_ofBytes, if_neg (Nat.not_le.2 hlarge),
    hmemory]

/-- A program that fits is loaded. -/
theorem loadProgram_of_fits (m : Machine) {source : ByteSource} {program : List UInt8}
    (h : source.readAll = .ok program) (hfits : program.length ≤ Memory.programLimit) :
    m.loadProgram source = (.ok program.length, m.loaded program) := by
  have hmemory : m.reset.dropProgram.memory.reset = m.memory.reset := Memory.reset_reset m.memory
  simp only [loadProgram, h, Memory.loadProgram, readAll_ofBytes, if_pos hfits, hmemory]
  rfl

theorem snd_loadProgram_ofBytes (m : Machine) {program : List UInt8}
    (hfits : program.length ≤ Memory.programLimit) :
    (m.loadProgram (.ofBytes program)).2 = m.loaded program := by
  rw [m.loadProgram_of_fits (readAll_ofBytes program) hfits]

/-- Everything that a load can do. -/
theorem loadProgram_cases (m : Machine) (source : ByteSource) :
    (∃ error, m.loadProgram source = (.error error, m.reset.dropProgram)) ∨
      ∃ program : List UInt8, source.readAll = .ok program ∧
        program.length ≤ Memory.programLimit ∧
        m.loadProgram source = (.ok program.length, m.loaded program) := by
  cases hread : source.readAll with
  | error reason => exact Or.inl ⟨_, m.loadProgram_of_failed hread⟩
  | ok program =>
      rcases Nat.lt_or_ge Memory.programLimit program.length with hlarge | hfits
      · exact Or.inl ⟨_, m.loadProgram_of_large hread hlarge⟩
      · exact Or.inr ⟨program, rfl, hfits, m.loadProgram_of_fits hread hfits⟩

theorem loadProgram_ofBytes (m : Machine) {program : List UInt8}
    (h : program.length ≤ Memory.programLimit) :
    (m.loadProgram (.ofBytes program)).1 = .ok program.length := by
  rw [m.loadProgram_of_fits (readAll_ofBytes program) h]

theorem restart_of_none {m : Machine} (h : m.program = none) :
    m.restart = (.ok false, m.reset) := by
  rw [restart, h]

/-- A restart loads the program again. -/
theorem restart_of_some {m : Machine} {program : List UInt8} (h : m.program = some program) :
    m.restart = ((m.dropProgram.loadProgram (.ofBytes program)).1.map fun _ => true,
      (m.dropProgram.loadProgram (.ofBytes program)).2) := by
  simp only [restart, h]
  rcases m.dropProgram.loadProgram (.ofBytes program) with ⟨_ | _, _⟩ <;> rfl

/-- A restart loads the stored program again. -/
theorem restart_of_fits {m : Machine} {program : List UInt8} (h : m.program = some program)
    (hfits : program.length ≤ Memory.programLimit) : m.restart = (.ok true, m.loaded program) := by
  rw [restart_of_some h, m.dropProgram.loadProgram_of_fits (readAll_ofBytes program) hfits]
  rfl

/-- A restart releases all keys. -/
theorem keypad_restart (m : Machine) : m.restart.2.keypad = Keypad.clear := by
  cases hprogram : m.program with
  | none =>
      rw [restart_of_none hprogram]
      rfl
  | some program =>
      rw [restart_of_some hprogram]
      rcases m.dropProgram.loadProgram_cases (.ofBytes program) with ⟨_, heq⟩ | ⟨_, -, -, heq⟩
      · rw [heq]
        rfl
      · rw [heq]
        rfl

/-! ## Machines with the same core -/

section Agreement

variable {m m' : Machine}

/-- Machines with the same core have the same core after a reset. -/
theorem SameCore.reset (h : m.SameCore m') : m.reset.SameCore m'.reset :=
  ⟨rfl, congrArg Memory.reset h.memory, .setMode .standard, h.program, h.incrementIndex, h.random,
    rfl⟩

theorem SameCore.dropProgram (h : m.SameCore m') : m.dropProgram.SameCore m'.dropProgram :=
  ⟨h.registers, h.memory, h.screen, rfl, h.incrementIndex, h.random, h.faults⟩

/-- Loading from the same source: the same answer, and again the same state. -/
theorem SameCore.loadProgram (h : m.SameCore m') (source : ByteSource) :
    (m.loadProgram source).1 = (m'.loadProgram source).1 ∧
      (m.loadProgram source).2.SameCore (m'.loadProgram source).2 := by
  have hblank := h.reset.dropProgram
  rw [Machine.loadProgram, Machine.loadProgram]
  -- from here on only what the two reset machines have in common matters
  generalize m.reset.dropProgram = blank at hblank
  generalize m'.reset.dropProgram = blank' at hblank
  cases source.readAll with
  | error reason => exact ⟨rfl, hblank⟩
  | ok program =>
      simp only [hblank.memory]
      rcases blank'.memory.loadProgram (.ofBytes program) with ⟨error | size, memory⟩
      -- a program that does not fit is not stored
      · exact ⟨rfl, hblank.registers, rfl, hblank.screen, hblank.program, hblank.incrementIndex,
          hblank.random, hblank.faults⟩
      · exact ⟨rfl, hblank.registers, rfl, hblank.screen, rfl, hblank.incrementIndex,
          hblank.random, hblank.faults⟩

/-- Loading the same file: the same answer, and again the same core. -/
theorem SameCore.loadFile (h : m.SameCore m') (file : ProgramFile) :
    (m.loadFile file).1 = (m'.loadFile file).1 ∧
      (m.loadFile file).2.SameCore (m'.loadFile file).2 := by
  rw [Machine.loadFile, Machine.loadFile]
  cases file.openSource with
  | error reason => exact ⟨rfl, h⟩
  | ok source => exact h.loadProgram source

/-- Restarting: the same answer, and again the same core. -/
theorem SameCore.restart (h : m.SameCore m') :
    m.restart.1 = m'.restart.1 ∧ m.restart.2.SameCore m'.restart.2 := by
  cases hprogram : m.program with
  | none =>
      rw [restart_of_none hprogram, restart_of_none (h.program.symm.trans hprogram)]
      exact ⟨rfl, h.reset⟩
  | some program =>
      rw [restart_of_some hprogram, restart_of_some (h.program.symm.trans hprogram)]
      obtain ⟨hanswer, hstate⟩ := h.dropProgram.loadProgram (.ofBytes program)
      exact ⟨congrArg (Except.map fun _ => true) hanswer, hstate⟩

end Agreement

end Schip.Machine
