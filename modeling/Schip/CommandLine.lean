import Schip.Config
import Schip.Speed

/-!
# Command line

Arguments of the program and the configuration they ask for. Arguments are read from left to right.
A separate value of an option, and the program itself, is checked only when the next argument shows
that it is complete; a value joined to its option by an equals sign is checked at once. The first
problem met in that order is the one reported, and a missing program is reported last.
-/

set_option autoImplicit false

namespace Schip

/-- Reason why the arguments start no session. -/
inductive UsageError where
  | missingRequiredArgument
  | unknownArgument
  | invalidValue
  | valueValidation
  | argumentConflict
  | tooManyValues
  /-- The help text was asked for. -/
  | displayHelp
  /-- The version was asked for. -/
  | displayVersion
  deriving DecidableEq, Repr

/-- Option with a value. -/
inductive ValueOption where
  | keymap
  | speed
  | keyHold
  | seed
  deriving DecidableEq, Repr

/-- Option without a value. -/
inductive Switch where
  | noSound
  | noReduceFlicker
  | plainTiles
  | incrementIndex
  | help
  | version
  deriving DecidableEq, Repr

/-- Meaning of a long option. -/
inductive LongOption where
  | value (option : ValueOption)
  | switch (option : Switch)
  deriving DecidableEq, Repr

/-- Arguments accepted so far. -/
structure Arguments where
  program : Option String := none
  keymap : Option Keymap := none
  speed : Option Float := none
  keyHold : Option UInt64 := none
  seed : Option UInt64 := none
  switches : List Switch := []

/-- Argument that is not complete before the next one is seen. -/
inductive Pending where
  | nothing
  /-- An option and the value that followed it, if any did. -/
  | option (option : ValueOption) (value : Option String)
  /-- The program. -/
  | program (path : String)
  deriving DecidableEq, Repr

/-- State between two arguments. -/
structure CommandLine where
  accepted : Arguments := {}
  pending : Pending := .nothing
  /-- Whether everything that follows is an operand. -/
  operandsOnly : Bool := false

/-- Long options by name. -/
def LongOption.ofName? : String → Option LongOption
  | "keymap" => some (.value .keymap)
  | "speed" => some (.value .speed)
  | "key-hold-ms" => some (.value .keyHold)
  | "seed" => some (.value .seed)
  | "no-sound" => some (.switch .noSound)
  | "no-reduce-flicker" => some (.switch .noReduceFlicker)
  | "plain-tiles" => some (.switch .plainTiles)
  | "increment-index" => some (.switch .incrementIndex)
  | "help" => some (.switch .help)
  | "version" => some (.switch .version)
  | _ => none

/-- Short switches by letter. -/
def Switch.ofLetter? : Char → Option Switch
  | 'h' => some .help
  | 'V' => some .version
  | _ => none

namespace Arguments

/-- Whether an option has its value already. -/
def has (a : Arguments) : ValueOption → Bool
  | .keymap => a.keymap.isSome
  | .speed => a.speed.isSome
  | .keyHold => a.keyHold.isSome
  | .seed => a.seed.isSome

/-- Value of a word option. -/
def readWord (text : String) : Except UsageError UInt64 :=
  match Numeral.readWord64? text.toList with
  | some word => .ok word
  | none => .error .valueValidation

/-- Value of an option, checked. -/
def withValue (a : Arguments) (option : ValueOption) (text : String) :
    Except UsageError Arguments :=
  match option with
  | .keymap =>
    match Keymap.ofName? text with
    | some keymap => .ok { a with keymap := some keymap }
    | none => .error .invalidValue
  | .speed =>
    match readSpeed text with
    | .ok speed => .ok { a with speed := some speed }
    | .error _ => .error .valueValidation
  | .keyHold => (readWord text).map fun word => { a with keyHold := some word }
  | .seed => (readWord text).map fun word => { a with seed := some word }

/-- Value of an option that may not be given twice. -/
def setOption (a : Arguments) (option : ValueOption) (text : String) :
    Except UsageError Arguments :=
  if a.has option then .error .argumentConflict else a.withValue option text

/-- Switch that may not be given twice; help and version end the reading. -/
def setSwitch (a : Arguments) : Switch → Except UsageError Arguments
  | .help => .error .displayHelp
  | .version => .error .displayVersion
  | switch =>
    if a.switches.contains switch then .error .argumentConflict
    else .ok { a with switches := a.switches ++ [switch] }

/-- Pending argument taken as complete. -/
def complete (a : Arguments) : Pending → Except UsageError Arguments
  | .nothing => .ok a
  | .option _ none => .error .invalidValue
  | .option option (some text) => a.setOption option text
  | .program path =>
    if path.isEmpty then .error .invalidValue else .ok { a with program := some path }

/-- Configuration that the arguments ask for. -/
def config (a : Arguments) : Config :=
  let config : Config := {
    keymap := a.keymap.getD .literal
    sound := !a.switches.contains .noSound
    reduceFlicker := !a.switches.contains .noReduceFlicker
    speed := a.speed.getD 1.0
    incrementIndex := a.switches.contains .incrementIndex
    keyHold := (a.keyHold.map UInt64.toNat).getD 100
    seed := a.seed }
  if a.switches.contains .plainTiles then config.plainTiles else config

end Arguments

namespace CommandLine

/-- State with the pending argument complete. -/
def settled (c : CommandLine) : Except UsageError CommandLine :=
  (c.accepted.complete c.pending).map fun accepted =>
    { c with accepted := accepted, pending := .nothing }

/-- Whether the program was given. -/
def hasProgram (c : CommandLine) : Bool :=
  match c.pending with
  | .program _ => true
  | _ => c.accepted.program.isSome

/-- Operand: the program, of which there is one. -/
def operand (c : CommandLine) (text : String) : Except UsageError CommandLine :=
  if c.hasProgram then .error .unknownArgument
  else c.settled.map fun c => { c with pending := .program text }

/-- Switch. -/
def switch (c : CommandLine) (option : Switch) : Except UsageError CommandLine := do
  let c ← c.settled
  let accepted ← c.accepted.setSwitch option
  return { c with accepted := accepted }

/-- Option joined to its value. -/
def joined (c : CommandLine) (option : ValueOption) (text : String) :
    Except UsageError CommandLine := do
  let c ← c.settled
  let accepted ← c.accepted.setOption option text
  return { c with accepted := accepted }

/-- Name of a long option, and the value joined to it. -/
def splitJoined (text : List Char) : List Char × Option (List Char) :=
  match text.dropWhile (· ≠ '=') with
  | [] => (text, none)
  | _ :: value => (text.takeWhile (· ≠ '='), some value)

/-- Long option, without its dashes. -/
def long (c : CommandLine) (text : List Char) : Except UsageError CommandLine :=
  match splitJoined text with
  | (name, value) =>
    match LongOption.ofName? (String.ofList name), value with
    | none, _ => .error .unknownArgument
    | some (.switch option), none => c.switch option
    | some (.switch _), some _ => .error .tooManyValues
    | some (.value option), none => c.settled.map fun c => { c with pending := .option option none }
    | some (.value option), some value => c.joined option (String.ofList value)

/-- Short switches in one argument, without the dash. -/
def short (c : CommandLine) : List Char → Except UsageError CommandLine
  | [] => .ok c
  | letter :: rest =>
    match Switch.ofLetter? letter with
    | none => .error .unknownArgument
    | some option => (c.switch option).bind fun c => c.short rest

/-- Text that is no option: the value that an option waits for, or an operand. -/
def plain (c : CommandLine) (text : String) : Except UsageError CommandLine :=
  match c.pending with
  | .option option none => .ok { c with pending := .option option (some text) }
  | _ => c.operand text

/-- One argument. -/
def argument (c : CommandLine) (text : String) : Except UsageError CommandLine :=
  if c.operandsOnly then c.operand text
  else
    match text.toList with
    | ['-', '-'] => .ok { c with operandsOnly := true }
    | '-' :: '-' :: name => c.long name
    | '-' :: letter :: rest => c.short (letter :: rest)
    | _ => c.plain text

/-- End of the arguments: the program has to be there. -/
def finish (c : CommandLine) : Except UsageError (String × Config) := do
  let c ← c.settled
  match c.accepted.program with
  | none => throw .missingRequiredArgument
  | some program => return (program, c.accepted.config)

/-- Program and configuration that a list of arguments asks for. -/
def parse (arguments : List String) : Except UsageError (String × Config) := do
  let c ← arguments.foldlM argument {}
  c.finish

end CommandLine

end Schip
