import Schip.Proofs.Machine.Drawing
import Schip.Proofs.Machine.Loading
import Schip.Proofs.Machine.Setting

/-!
# A restart forgets the run

Whatever was loaded into a machine and run on it, a restart leaves the machine that a new one of the
same configuration is after loading the stored program, and a reset leaves the new one itself. One
part of the state is exempt: a reset does not write the gap between the fonts and the program
region, so there the bytes of the last run stay. `restart_forgets` is the statement; the random
bytes are no part of it.

`Configured` is the invariant behind it: the options never change, and a program is stored only if
it fits. `Configured.handle` keeps it over one handling of the machine.
-/

set_option autoImplicit false

namespace Schip

/-- What may happen to a machine between its start and a restart. -/
inductive Handling where
  | load (source : ByteSource)
  | loadFile (file : ProgramFile)
  | cycle
  /-- A key goes down or up. -/
  | key (key : UInt8) (down : Bool)
  /-- The afterglow ages by one update. -/
  | fade
  | reset
  | restart
  deriving DecidableEq

/-- Whether a handling loads a program, again or for the first time. -/
def Handling.loads : Handling → Bool
  | .load _ | .loadFile _ | .restart => true
  | _ => false

namespace Machine

/-- Machine after one handling. -/
def handle (m : Machine) : Handling → Machine
  | .load source => (m.loadProgram source).2
  | .loadFile file => (m.loadFile file).2
  | .cycle => m.cycle.2
  | .key key down => m.withKeypad (m.keypad.setKey key down)
  | .fade => m.withScreen m.screen.updateDecay
  | .reset => m.reset
  | .restart => m.restart.2

/-- Machine after a history of handlings. -/
def handleAll (m : Machine) (history : List Handling) : Machine := history.foldl handle m

theorem handleAll_cons (m : Machine) (handling : Handling) (rest : List Handling) :
    m.handleAll (handling :: rest) = (m.handle handling).handleAll rest := rfl

/-- Same state as `fresh` but for the gap in memory, where the bytes are those of `before`. Stored
program and random bytes are left out. -/
structure Renewed (m before fresh : Machine) : Prop where
  registers : m.registers = fresh.registers
  keypad : m.keypad = fresh.keypad
  faults : m.faults = fresh.faults
  screen : m.screen = fresh.screen
  incrementIndex : m.incrementIndex = fresh.incrementIndex
  memory : m.memory.SameOutsideGap fresh.memory
  gap : m.memory.SameGap before.memory

/-- The options are those of a configuration, and a stored program fits. -/
structure Configured (m : Machine) (config : Config) : Prop where
  reduceFlicker : m.screen.reduceFlicker = config.reduceFlicker
  decayDelay : m.screen.decayDelay = max config.decayDelay 1
  incrementIndex : m.incrementIndex = config.incrementIndex
  fits : ∀ program, m.program = some program → program.length ≤ Memory.programLimit

variable {m : Machine} {config : Config}

/-- A new machine has the options that it was made with. -/
theorem configured_new (config : Config) (random : RandomSource) :
    (new config random).Configured config where
  reduceFlicker := rfl
  decayDelay := rfl
  incrementIndex := rfl
  fits := by
    intro program hprogram
    cases hprogram

namespace Configured

variable (h : m.Configured config)
include h

theorem reset : m.reset.Configured config :=
  ⟨h.reduceFlicker, h.decayDelay, h.incrementIndex, h.fits⟩

theorem dropProgram : m.dropProgram.Configured config where
  reduceFlicker := h.reduceFlicker
  decayDelay := h.decayDelay
  incrementIndex := h.incrementIndex
  fits := by
    intro program hprogram
    cases hprogram

theorem loaded {program : List UInt8} (hfits : program.length ≤ Memory.programLimit) :
    (m.loaded program).Configured config where
  reduceFlicker := h.reduceFlicker
  decayDelay := h.decayDelay
  incrementIndex := h.incrementIndex
  fits := by
    intro stored hstored
    cases hstored
    exact hfits

/-- A load changes no option, whether it succeeds or not. -/
theorem loadProgram (source : ByteSource) : (m.loadProgram source).2.Configured config := by
  rcases m.loadProgram_cases source with ⟨error, heq⟩ | ⟨program, -, hfits, heq⟩
  · rw [heq]
    exact h.reset.dropProgram
  · rw [heq]
    exact h.loaded hfits

theorem loadFile (file : ProgramFile) : (m.loadFile file).2.Configured config := by
  rw [Machine.loadFile]
  cases file.openSource with
  | error reason => exact h
  | ok source => exact h.loadProgram source

theorem restart : m.restart.2.Configured config := by
  cases hprogram : m.program with
  | none =>
      rw [restart_of_none hprogram]
      exact h.reset
  | some program =>
      have hfits := h.fits program hprogram
      rw [restart_of_fits hprogram hfits]
      exact h.loaded hfits

/-- A cycle changes no option. -/
theorem cycle : m.cycle.2.Configured config := by
  obtain ⟨hflicker, hdelay⟩ := (cycle_drawnFrom m).sameOptions
  refine ⟨hflicker.trans h.reduceFlicker, hdelay.trans h.decayDelay, ?_, ?_⟩
  · rw [incrementIndex_cycle]
    exact h.incrementIndex
  · rw [program_cycle]
    exact h.fits

/-- One handling of the machine. -/
theorem handle (handling : Handling) : (m.handle handling).Configured config := by
  cases handling with
  | load source => exact h.loadProgram source
  | loadFile file => exact h.loadFile file
  | cycle => exact h.cycle
  | reset => exact h.reset
  | restart => exact h.restart
  | key | fade => exact ⟨h.reduceFlicker, h.decayDelay, h.incrementIndex, h.fits⟩

/-- A reset leaves the screen of a new machine. -/
theorem screen_reset (random : RandomSource) : m.reset.screen = (new config random).screen := by
  have hoptions : m.reset.screen =
      ⟨.standard, FrameBuffer.blankCells .standard, m.screen.reduceFlicker, m.screen.decayDelay⟩ :=
    rfl
  rw [hoptions, h.reduceFlicker, h.decayDelay]
  rfl

/-- A reset leaves a new machine. -/
theorem renewed_reset (random : RandomSource) : m.reset.Renewed m (new config random) where
  registers := rfl
  keypad := rfl
  faults := rfl
  screen := h.screen_reset random
  incrementIndex := h.incrementIndex
  memory := (Memory.blank_reset m.memory).sameOutsideGap Memory.blank_new
  gap := Memory.sameGap_reset m.memory

/-- A load of a program that fits leaves a new machine with that program. -/
theorem renewed_loaded (random : RandomSource) (program : List UInt8) :
    (m.loaded program).Renewed m ((new config random).loaded program) where
  registers := by simp only [registers_loaded]
  keypad := by simp only [keypad_loaded]
  faults := by simp only [faults_loaded]
  screen := by
    -- both screens are the one of a new machine
    rw [screen_loaded, screen_loaded, h.screen_reset random,
      (configured_new config random).screen_reset random]
  incrementIndex := h.incrementIndex
  memory := by
    have hblank := (Memory.blank_reset m.memory).sameOutsideGap
      (Memory.blank_reset (new config random).memory)
    rw [memory_loaded, memory_loaded]
    exact hblank.overlay program.toArray
  gap := (Memory.sameGap_overlay _ program.toArray).trans (Memory.sameGap_reset m.memory)

end Configured

/-- No history changes the options. -/
theorem Configured.handleAll (h : m.Configured config) (history : List Handling) :
    (m.handleAll history).Configured config := by
  induction history generalizing m with
  | nil => exact h
  | cons handling rest ih => exact ih (h.handle handling)

/-- Nothing but a load changes which program is stored. -/
theorem program_handle (m : Machine) {handling : Handling} (h : handling.loads = false) :
    (m.handle handling).program = m.program := by
  cases handling with
  | load | loadFile | restart => cases h
  | cycle => exact program_cycle m
  | key | fade | reset => rfl

/-- A history without loads keeps the program. -/
theorem program_handleAll (m : Machine) {history : List Handling}
    (h : ∀ handling ∈ history, handling.loads = false) :
    (m.handleAll history).program = m.program := by
  induction history generalizing m with
  | nil => rfl
  | cons handling rest ih =>
      obtain ⟨hfirst, hrest⟩ := List.forall_mem_cons.1 h
      rw [handleAll_cons, ih _ hrest, program_handle m hfirst]

/-- After any history, a restart with a stored program succeeds and leaves what a new machine of the
same configuration is once it has loaded that program; a reset leaves the new machine without a
program, and keeps the stored one. In both cases the gap in memory is as it was. -/
theorem restart_forgets (config : Config) (random random' : RandomSource)
    (history : List Handling) :
    let m := (new config random).handleAll history
    let fresh := new config random'
    (∀ program, m.program = some program →
      m.restart.1 = .ok true ∧
        (fresh.loadProgram (.ofBytes program)).1 = .ok program.length ∧
        m.restart.2.Renewed m (fresh.loadProgram (.ofBytes program)).2 ∧
        m.restart.2.program = (fresh.loadProgram (.ofBytes program)).2.program ∧
        m.restart.2.program = some program) ∧
      m.reset.Renewed m fresh ∧ m.reset.program = m.program := by
  intro m fresh
  have hm : m.Configured config := (configured_new config random).handleAll history
  refine ⟨?_, hm.renewed_reset random', rfl⟩
  intro program hprogram
  have hfits := hm.fits program hprogram
  have hread := readAll_ofBytes program
  rw [restart_of_fits hprogram hfits, fresh.loadProgram_of_fits hread hfits]
  refine ⟨rfl, rfl, hm.renewed_loaded random' program, ?_, ?_⟩
  · rw [program_loaded, program_loaded]
  · rw [program_loaded]

/-- A program that writes over the fonts and switches to the extended mode, restarted while a key is
down and pixels fade. -/
theorem restart_forgets_clobbered :
    let program : List UInt8 := [0x60, 0xAB, 0xA0, 0x20, 0xF0, 0x55, 0x00, 0xFF]
    let load : Handling :=
      .load [.chunk [0x60, 0xAB, 0xA0], .interrupted, .chunk [0x20, 0xF0, 0x55, 0x00, 0xFF]]
    let run : List Handling := [.cycle, .cycle, .cycle, .cycle, .key 5 true, .fade]
    let m := (new {} (RandomSource.ofSeed 1)).handleAll (load :: run)
    let fresh := ((new {} (RandomSource.ofSeed 2)).loadProgram (.ofBytes program)).2
    m.program = some program ∧ m.restart.1 = .ok true ∧ m.restart.2.Renewed m fresh := by
  intro program load run m fresh
  have hload := (new {} (RandomSource.ofSeed 1)).loadProgram_of_fits
    (show ByteSource.readAll [.chunk [0x60, 0xAB, 0xA0], .interrupted,
      .chunk [0x20, 0xF0, 0x55, 0x00, 0xFF]] = .ok program from rfl) (by decide)
  have hprogram : m.program = some program := by
    -- nothing that follows the load concerns the stored program
    show ((new {} (RandomSource.ofSeed 1)).handleAll (load :: run)).program = some program
    rw [handleAll_cons, program_handleAll _ (by decide), handle, hload, program_loaded]
  obtain ⟨hanswer, -, hrenewed, -⟩ := (restart_forgets {} (RandomSource.ofSeed 1)
    (RandomSource.ofSeed 2) (load :: run)).1 program hprogram
  exact ⟨hprogram, hanswer, hrenewed⟩

end Machine

end Schip
