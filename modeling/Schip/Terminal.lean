import Schip.HeldKeys
import Schip.Keymap

/-!
# Terminal keyboard

Keys as a terminal reports them, and their meaning: characters of the keymap press keys, space and
`p` pause, backspace starts the program again, escape and control with `c` end the session.
-/

set_option autoImplicit false

namespace Schip

/-- Key of the terminal. -/
inductive KeyCode where
  | char (c : Char)
  | backspace
  | escape
  /-- Any key without a meaning here. -/
  | other
  deriving DecidableEq, Repr

/-- Key with the modifiers held down with it. -/
structure KeyPress where
  code : KeyCode
  control : Bool := false
  shift : Bool := false
  alt : Bool := false
  deriving DecidableEq, Repr

/-- Keymap and held keys of a terminal. -/
structure Terminal where
  keymap : Keymap
  keys : HeldKeys

namespace Terminal

/-- Terminal with nothing held. -/
def new (keymap : Keymap) (hold : Nat) : Terminal := ⟨keymap, HeldKeys.new hold⟩

/-- Press of the key that a character stands for; other characters mean nothing. -/
def pressCharacter (t : Terminal) (c : Char) (now : Nat) : List InputEvent × Terminal :=
  match t.keymap.key? c with
  | none => ([], t)
  | some key =>
    match t.keys.press key now with
    | (events, keys) => (events, { t with keys := keys })

/-- Events of a key press at a time. -/
def press (t : Terminal) (key : KeyPress) (now : Nat) : List InputEvent × Terminal :=
  match key.code with
  | .char c =>
    if c = 'c' ∧ key.control then ([.quit], t)
    else if c = ' ' ∨ c = 'p' then ([.togglePause], t)
    else t.pressCharacter c now
  | .backspace => ([.reset], t)
  | .escape => ([.quit], t)
  | .other => ([], t)

/-- Release of the keys whose time is over. -/
def expire (t : Terminal) (now : Nat) : List InputEvent × Terminal :=
  match t.keys.expire now with
  | (events, keys) => (events, { t with keys := keys })

/-- Events of key presses, in order. -/
def pressAll (t : Terminal) (now : Nat) : List KeyPress → List InputEvent × Terminal
  | [] => ([], t)
  | key :: rest =>
    match t.press key now with
    | (events, t') =>
      match pressAll t' now rest with
      | (more, t'') => (events ++ more, t'')

/-- Answer to a poll: the events of the keys pressed since the last one, and then the releases. -/
def poll (t : Terminal) (presses : List KeyPress) (now : Nat) : List InputEvent × Terminal :=
  match t.pressAll now presses with
  | (events, t') =>
    match t'.expire now with
    | (released, t'') => (events ++ released, t'')

end Terminal

end Schip
