import Schip.CommandLine.Help
import Schip.Picture
import Schip.Session
import Schip.Terminal

/-!
# The program

A session in the terminal. Every frame runs the slots that are due, hands the keys typed since the
last frame to the session, and prints the picture. Everything that is decided is decided elsewhere;
this module only moves bytes and time.
-/

set_option autoImplicit false

namespace Schip

/-- Sound device of the program: requests are kept and answered by the terminal's bell. -/
abbrev Bell := Recorded Mute

/-- State between two frames. -/
structure Front where
  scheduler : Scheduler Bell
  terminal : Terminal
  /-- Time up to which slots were run, in nanoseconds. -/
  playedUntil : Nat

/-- File at a path. -/
def readProgramFile (path : String) : IO ProgramFile := do
  try
    let bytes ← IO.FS.readBinFile path
    return .contents bytes.toList
  catch
    | .noFileOrDirectory .. => return .missing
    | .inappropriateType .. => return .directory
    | error => return .unopenable (toString error)

/-- Key presses in a line of input. -/
def pressesOf (line : String) : List KeyPress :=
  (line.toList.filter (· ≠ '\n')).map fun c =>
    if c = '\x1b' then { code := .escape }
    else if c = '\x7f' ∨ c = '\x08' then { code := .backspace }
    else { code := .char c }

/-- Reader of the keyboard; the end of the input is an escape. -/
partial def readKeys (typed : IO.Ref (List KeyPress)) : IO Unit := do
  let line ← (← IO.getStdin).getLine
  if line.isEmpty then
    typed.modify (· ++ [{ code := .escape }])
  else
    typed.modify (· ++ pressesOf line)
    readKeys typed

/-- Lines worth the user's attention. -/
def printLog (lines : List LogLine) : IO Unit := do
  for line in lines do
    if line.level = .error ∨ line.level = .warn then
      IO.eprintln (line.level.name ++ ": " ++ line.text)

/-- Slots run in a row, up to the first failure. -/
def runSlots : Nat → Scheduler Bell → IO (Scheduler Bell)
  | 0, s => return s
  | n + 1, s => do
    match s.tick with
    | (.ok report, s') =>
      printLog report.log
      runSlots n s'
    | (.error error, s') =>
      IO.eprintln ("scheduler giving up: " ++ error.message)
      return s'.stop.2

/-- Picture on the screen of the terminal. -/
def printFrame (frame : FrameBuffer) (state : RunState) : IO Unit := do
  IO.print "\x1b[H\x1b[2J"
  IO.println state.title
  for row in frame.picture do
    IO.println row

/-- Frames up to the end of the session, and the exit code. -/
partial def play (typed : IO.Ref (List KeyPress)) (audible : Bool) (front : Front) :
    IO UInt32 := do
  let now ← IO.monoNanosNow
  let batches := (now - front.playedUntil) / max front.scheduler.pacer.period 1
  let scheduler ← runSlots (Pacer.batchSize * min batches 100) front.scheduler
  if audible && scheduler.sound.requests.contains .start then
    IO.print "\x07"
  let quiet := { scheduler with sound := { scheduler.sound with requests := [] } }
  let presses ← typed.modifyGet fun presses => (presses, [])
  let (events, terminal) := front.terminal.poll presses (now / 1000000)
  match Session.afterPoll quiet ({} : FrameAlbum) (.ok events) with
  | (.error error, _, _) =>
    IO.eprintln ("Error: " ++ error.message)
    return 1
  | (.ok .finished, _, _) => return 0
  | (.ok .goOn, scheduler, album) =>
    for (frame, state) in album.frames do
      printFrame frame state
    IO.sleep 17
    play typed audible {
      scheduler := scheduler
      terminal := terminal
      playedUntil := front.playedUntil + batches * front.scheduler.pacer.period }

/-- Session of a program, and the exit code. -/
def start (path : String) (config : Config) : IO UInt32 := do
  let now ← IO.monoNanosNow
  let machine := Machine.new config (config.randomSource (UInt64.ofNat now))
  match machine.loadFile (← readProgramFile path) with
  | (.error error, _) =>
    IO.eprintln ("Error: " ++ error.message)
    return 1
  | (.ok _, machine) =>
    match Scheduler.spawn machine false ({ device := {} } : Bell) config.speed with
    | .error error =>
      IO.eprintln ("Error: " ++ error.message)
      return 1
    | .ok scheduler =>
      let typed ← IO.mkRef []
      let _ ← IO.asTask (readKeys typed)
      play typed config.sound {
        scheduler := scheduler
        terminal := Terminal.new config.keymap config.keyHold
        playedUntil := now }

end Schip

open Schip in
/-- Entry point of the program. -/
def main (arguments : List String) : IO UInt32 := do
  match CommandLine.parse arguments with
  | .ok (path, config) => start path config
  | .error error =>
    if error.isRequest then
      IO.println error.message
      return 0
    else
      IO.eprintln error.message
      IO.eprintln CommandLine.usageText
      return 2
