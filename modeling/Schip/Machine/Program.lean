import Schip.Log
import Schip.Machine

/-!
# Programs

Loading a program, loading it again, and resetting the machine. Every one of them resets first, so a
load that fails leaves a blank machine; a program counts as loaded only if all of it arrived and
fitted.
-/

set_option autoImplicit false

namespace Schip.Machine

/-- Power-on state of everything but the options, the random bytes and the stored program; memory
below the program region keeps what lies between the fonts and the program. -/
def reset (m : Machine) : Machine :=
  { m with
    registers := Registers.new
    memory := m.memory.reset
    screen := m.screen.setMode .standard
    keypad := Keypad.clear
    faults := [] }

/-- Machine without a stored program. -/
def dropProgram (m : Machine) : Machine := { m with program := none }

/-- Whether a program is stored. -/
def hasProgram (m : Machine) : Bool := m.program.isSome

/-- Program loaded from a source, with its size. -/
def loadProgram (m : Machine) (source : ByteSource) : Except MachineError Nat × Machine :=
  let blank := m.reset.dropProgram
  match source.readAll with
  | .error reason => (.error (.io reason), blank)
  | .ok program =>
    match blank.memory.loadProgram (.ofBytes program) with
    | (.error error, memory) => (.error error, { blank with memory := memory })
    | (.ok size, memory) => (.ok size, { blank with memory := memory, program := some program })

/-- Program loaded from a file. A file that cannot be opened leaves the machine as it is. -/
def loadFile (m : Machine) (file : ProgramFile) : Except MachineError Nat × Machine :=
  match file.openSource with
  | .error reason => (.error (.io reason), m)
  | .ok source => m.loadProgram source

/-- Stored program loaded again, and whether there was one. Without one the machine is reset. -/
def restart (m : Machine) : Except MachineError Bool × Machine :=
  match m.program with
  | none => (.ok false, m.reset)
  | some program =>
    match m.dropProgram.loadProgram (.ofBytes program) with
    | (.error error, m') => (.error error, m')
    | (.ok _, m') => (.ok true, m')

/-- Lines that loading a program writes. -/
def loadLog : Except MachineError Nat → List LogLine
  | .ok size => [⟨.info, "loaded " ++ Numeral.decimal size ++ " byte program"⟩]
  | .error _ => []

/-- Lines that a restart writes: those of loading the stored program, if there is one. -/
def restartLog (m : Machine) : Except MachineError Bool → List LogLine
  | .ok true => loadLog (.ok ((m.program.map List.length).getD 0))
  | _ => []

end Schip.Machine
