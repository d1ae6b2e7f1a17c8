import Schip.CommandLine

/-!
# Help

Texts that the command line prints instead of starting a session.
-/

set_option autoImplicit false

namespace Schip.CommandLine

/-- Version of the program. -/
def versionText : String := "schip 0.1.0"

/-- One line on how the program is called. -/
def usageText : String := "Usage: schip [OPTIONS] <ROM>"

/-- Help text, line by line. -/
def helpLines : List String := [
  "Run a CHIP-8 / SUPER-CHIP program in the terminal",
  "",
  usageText,
  "",
  "Arguments:",
  "  <ROM>  program to run",
  "",
  "Options:",
  "      --keymap <KEYMAP>            keys of the hex keypad: literal or conventional",
  "      --no-sound                   never beep",
  "      --no-reduce-flicker          clear pixels immediately instead of letting them fade",
  "      --plain-tiles                shorter fade",
  "      --speed <SPEED>              instruction rate multiplier, 0.01 to 100",
  "      --increment-index            FX55 and FX65 advance I past the registers they touch",
  "      --key-hold-ms <KEY_HOLD_MS>  how long a key counts as held",
  "      --seed <SEED>                seed for the random number generator",
  "  -h, --help                       print help",
  "  -V, --version                    print version"]

end Schip.CommandLine

namespace Schip.UsageError

/-- Whether the arguments asked for a text instead of a session. -/
def isRequest : UsageError → Bool
  | displayHelp | displayVersion => true
  | _ => false

/-- Wording of a problem, or the text asked for. -/
def message : UsageError → String
  | missingRequiredArgument => "error: the program to run is missing"
  | unknownArgument => "error: unexpected argument"
  | invalidValue => "error: a value is missing or not one of the possible ones"
  | valueValidation => "error: a value does not parse or is out of range"
  | argumentConflict => "error: an option is given twice"
  | tooManyValues => "error: a value for an option that takes none"
  | displayHelp => String.intercalate "\n" CommandLine.helpLines
  | displayVersion => CommandLine.versionText

end Schip.UsageError
