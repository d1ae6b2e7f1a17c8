import Schip.ByteSource
import Schip.Fault
import Schip.Font

/-!
# Memory

Four kilobytes of memory: the fonts below, programs from `0x200` on. Addresses are unbounded
natural numbers, so an address past the end is never wrapped to a low one; every access is checked
against the capacity and fails as a whole with the first address that is not there.
-/

set_option autoImplicit false

namespace Schip

/-- Memory of the machine. -/
structure Memory where
  bytes : Vector UInt8 4096
  deriving DecidableEq

namespace Memory

/-- Number of bytes. -/
def capacity : Nat := 4096

/-- Address at which programs are loaded. -/
def programBase : Nat := 0x200

/-- Size of the largest program. -/
def programLimit : Nat := capacity - programBase

/-- Fault of an access that starts at `address` and does not fit. -/
def missAt (address : Nat) : Fault := .outOfRange (max address capacity)

/-- Byte at an address. -/
def load (mem : Memory) (address : Nat) : Except Fault UInt8 :=
  if h : address < 4096 then .ok mem.bytes[address] else .error (missAt address)

/-- Memory after one byte is stored. -/
def store (mem : Memory) (address : Nat) (value : UInt8) : Except Fault Memory :=
  if h : address < 4096 then .ok ⟨mem.bytes.set address value⟩ else .error (missAt address)

/-- Big-endian word at an address. -/
def word (mem : Memory) (address : Nat) : Except Fault UInt16 :=
  if h : address + 2 ≤ 4096 then
    .ok (mem.bytes[address].toUInt16 <<< 8 ||| mem.bytes[address + 1].toUInt16)
  else
    .error (missAt address)

/-- Bytes of a range of addresses, all of which have to exist. An empty range may lie at the end of
memory but not beyond it. -/
def slice (mem : Memory) (address length : Nat) : Except Fault (List UInt8) :=
  if address + length ≤ capacity then
    .ok (mem.bytes.toArray.extract address (address + length)).toList
  else
    .error (missAt address)

/-- Memory with `data` laid over the bytes from `address` on; what falls past the end is lost. -/
def overlay (mem : Memory) (address : Nat) (data : Array UInt8) : Memory :=
  ⟨mem.bytes.mapIdx fun i old => if address ≤ i then data[i - address]?.getD old else old⟩

/-- Memory after a whole range is written, or no change at all. -/
def write (mem : Memory) (address : Nat) (data : List UInt8) : Except Fault Memory :=
  if address + data.length ≤ capacity then .ok (mem.overlay address data.toArray)
  else .error (missAt address)

/-- Memory after a range is filled with one value, or no change at all. -/
def fill (mem : Memory) (address length : Nat) (value : UInt8) : Except Fault Memory :=
  if address + length ≤ capacity then
    .ok ⟨mem.bytes.mapIdx fun i old =>
      if address ≤ i ∧ i < address + length then value else old⟩
  else
    .error (missAt address)

/-- Memory with both fonts in place, the extended one last. -/
def installFonts (mem : Memory) : Memory :=
  (mem.overlay Font.standardBase Font.standard.toArray).overlay
    Font.extendedBase Font.extended.toArray

/-- Blank memory with the fonts. -/
def new : Memory :=
  installFonts ⟨Vector.replicate 4096 0⟩

/-- Memory with a blank program region and fresh fonts; what lies between is left alone. -/
def reset (mem : Memory) : Memory :=
  installFonts ⟨mem.bytes.mapIdx fun i old => if programBase ≤ i then 0 else old⟩

/-- Memory after a program is loaded: reset first, and left so if reading fails or the program is
too large. -/
def loadProgram (mem : Memory) (source : ByteSource) : Except MachineError Nat × Memory :=
  match source.readAll with
  | .error reason => (.error (.io reason), mem.reset)
  | .ok program =>
    if program.length ≤ programLimit then
      (.ok program.length, mem.reset.overlay programBase program.toArray)
    else
      (.error (.programTooLarge program.length programLimit), mem.reset)

/-- Inside the memory a load gives the byte. -/
theorem load_of_lt (mem : Memory) {address : Nat} (h : address < 4096) :
    mem.load address = .ok mem.bytes[address] := by
  simp [load, h]

/-- Behind the memory a load fails and names the address. -/
theorem load_of_le (mem : Memory) {address : Nat} (h : 4096 ≤ address) :
    mem.load address = .error (.outOfRange address) := by
  simp [load, missAt, capacity, Nat.not_lt.2 h, Nat.max_eq_left h]

/-- A stored byte is loaded again, and every other address gives what it gave before. -/
theorem load_store {mem mem' : Memory} {a : Nat} {value : UInt8}
    (h : mem.store a value = .ok mem') (b : Nat) :
    mem'.load b = if b = a then .ok value else mem.load b := by
  unfold store at h
  split at h
  · cases h
    unfold load
    by_cases hb : b < 4096
    · simp only [hb, dite_true, Vector.getElem_set, eq_comm]
      split <;> rfl
    · rw [if_neg (by omega)]
      simp [hb]
  · cases h

/-- Data laid over the memory covers the bytes from its start on as far as it reaches. -/
theorem getElem_overlay (mem : Memory) (a : Nat) (data : Array UInt8) (b : Nat) (h : b < 4096) :
    (mem.overlay a data).bytes[b] =
      if a ≤ b then data[b - a]?.getD mem.bytes[b] else mem.bytes[b] := by
  simp [overlay]

end Memory

end Schip
