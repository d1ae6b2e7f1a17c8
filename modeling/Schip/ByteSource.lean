/-!
# Byte sources

Where a program comes from: the sequence of answers that a reader gives, and the state of a file on
disk. `ByteSource.readAll` joins the chunks, tries again after an interruption, and stops after the
last answer or at the first failure; a chunk without bytes adds nothing and does not end the data.
-/

set_option autoImplicit false

namespace Schip

/-- Answer of a reader to one request for bytes. -/
inductive ReadResult where
  /-- The next bytes, possibly none. -/
  | chunk (bytes : List UInt8)
  /-- Nothing was read, and the request may be repeated. -/
  | interrupted
  /-- Reading failed for the given reason. -/
  | failed (reason : String)
  deriving DecidableEq, Repr

/-- Answers of a reader in order; after the last one the data is at its end. -/
abbrev ByteSource := List ReadResult

namespace ByteSource

/-- Source that hands out all its bytes at once. -/
def ofBytes (bytes : List UInt8) : ByteSource := [.chunk bytes]

/-- Bytes up to the end of the data, or the reason of the first failure. -/
def readAll : ByteSource → Except String (List UInt8)
  | [] => .ok []
  | .chunk bytes :: rest =>
    match readAll rest with
    | .ok more => .ok (bytes ++ more)
    | .error reason => .error reason
  | .interrupted :: rest => readAll rest
  | .failed reason :: _ => .error reason

end ByteSource

/-- What a path to a program leads to. -/
inductive ProgramFile where
  /-- Nothing is there. -/
  | missing
  /-- A directory: it can be opened but not read. -/
  | directory
  /-- A file with its contents. -/
  | contents (bytes : List UInt8)
  /-- Something that cannot be opened, with the reason. -/
  | unopenable (reason : String)
  deriving DecidableEq, Repr

namespace ProgramFile

/-- Reader of an opened file, or the reason why it cannot be opened. -/
def openSource : ProgramFile → Except String ByteSource
  | missing => .error "No such file or directory (os error 2)"
  | directory => .ok [.failed "Is a directory (os error 21)"]
  | contents bytes => .ok (.ofBytes bytes)
  | unopenable reason => .error reason

end ProgramFile

end Schip
