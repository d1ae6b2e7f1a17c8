/-!
# Keymaps

Which characters press which keys of the hexadecimal keypad: a digit or letter for the key of the
same name, or the block of four by four characters at the left of a keyboard in the arrangement of a
hexadecimal pad. Each keymap covers every key once.
-/

set_option autoImplicit false

namespace Schip

/-- Choice of keymap. -/
inductive Keymap where
  /-- The characters `0` to `9` and `a` to `f` press the keys of the same name. -/
  | literal
  /-- The block `1234`, `qwer`, `asdf`, `zxcv`. -/
  | conventional
  deriving DecidableEq, Repr

namespace Keymap

/-- Characters with their keys, in ascending order of the keys. -/
def table : Keymap → List (Char × Fin 16)
  | literal => [
    ('0', 0x0), ('1', 0x1), ('2', 0x2), ('3', 0x3),
    ('4', 0x4), ('5', 0x5), ('6', 0x6), ('7', 0x7),
    ('8', 0x8), ('9', 0x9), ('a', 0xA), ('b', 0xB),
    ('c', 0xC), ('d', 0xD), ('e', 0xE), ('f', 0xF)]
  | conventional => [
    ('x', 0x0), ('1', 0x1), ('2', 0x2), ('3', 0x3),
    ('q', 0x4), ('w', 0x5), ('e', 0x6), ('a', 0x7),
    ('s', 0x8), ('d', 0x9), ('z', 0xA), ('c', 0xB),
    ('4', 0xC), ('r', 0xD), ('f', 0xE), ('v', 0xF)]

/-- Key of a character; letters count in either case. -/
def key? (keymap : Keymap) (c : Char) : Option (Fin 16) :=
  keymap.table.lookup c.toLower

/-- Characters with their keys, in ascending order of the characters. -/
def byCharacter (keymap : Keymap) : List (Char × Fin 16) :=
  keymap.table.mergeSort fun a b => a.1 ≤ b.1

/-- Name of a keymap on the command line. -/
def name : Keymap → String
  | literal => "literal"
  | conventional => "conventional"

/-- Keymap of a name, in lower case only. -/
def ofName? (text : String) : Option Keymap :=
  [literal, conventional].find? fun keymap => keymap.name == text

end Keymap

end Schip
