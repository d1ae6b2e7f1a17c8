import Schip.Proofs.Guarded.Execution
import Schip.Proofs.Memory.Regions

/-!
# Access to ranges of memory

A range of addresses is read or written as a whole, after one comparison of its end with the
capacity. That comes to the same as going through it byte by byte and stopping at the first byte
that is not there: one address taken off the front of a range at a time (`slice_succ`,
`write_cons`), reads agree with single loads (`slice_eq_loadEach`) and writes with single stores
(`write_eq_storeEach`), faults included. What a write that fails does not share with single stores
is that it stores nothing.

The end of a range is computed in machine words and may overflow. That is no third case: an end that
is no machine word lies past the capacity (`rangeEnd_eq`).
-/

set_option autoImplicit false

namespace Schip.Memory

variable {mem mem' : Memory} {address length : Nat} {data : List UInt8}

/-- Bytes loaded one by one, up to the first load that fails. -/
def loadEach (mem : Memory) (address : Nat) : Nat → Except Fault (List UInt8)
  | 0 => .ok []
  | length + 1 =>
    match mem.load address with
    | .error fault => .error fault
    | .ok value => (loadEach mem (address + 1) length).map (value :: ·)

/-- Memory after bytes are stored one by one, up to the first store that fails. -/
def storeEach (mem : Memory) (address : Nat) : List UInt8 → Except Fault Memory
  | [] => .ok mem
  | value :: rest =>
    match mem.store address value with
    | .error fault => .error fault
    | .ok mem' => mem'.storeEach (address + 1) rest

/-- Memory that a write leaves behind, whether it succeeds or not. -/
def written (mem : Memory) (address : Nat) (data : List UInt8) : Memory :=
  (mem.write address data).toOption.getD mem

/-- Number that bytes stand for, the highest byte first. -/
def bigEndian (bytes : List UInt8) : Nat :=
  bytes.foldl (fun value byte => value * 256 + byte.toNat) 0

/-- All ranges that start inside the memory and leave it miss the same address first. -/
theorem missAt_succ (h : address < 4096) : missAt (address + 1) = missAt address := by
  rw [missAt, missAt, capacity, Nat.max_eq_right (Nat.succ_le_of_lt h),
    Nat.max_eq_right (Nat.le_of_lt h)]

/-! ## Reads -/

theorem slice_of_le (h : address + length ≤ 4096) : mem.slice address length =
    .ok (mem.bytes.toArray.extract address (address + length)).toList :=
  if_pos h

theorem slice_of_lt (h : 4096 < address + length) :
    mem.slice address length = .error (missAt address) :=
  if_neg (Nat.not_le.2 h)

/-- A slice is its first byte and the slice behind it. -/
theorem extract_succ (mem : Memory) (hfirst : address < 4096) (length : Nat) :
    (mem.bytes.toArray.extract address (address + (length + 1))).toList =
      mem.bytes[address] ::
        (mem.bytes.toArray.extract (address + 1) (address + 1 + length)).toList := by
  have hsize : address < mem.bytes.toArray.toList.length := by simpa using hfirst
  rw [Array.toList_extract, Array.toList_extract, List.extract_eq_take_drop,
    List.extract_eq_take_drop, List.drop_eq_getElem_cons hsize, Nat.add_sub_cancel_left,
    Nat.add_sub_cancel_left, List.take_succ_cons]
  simp

/-- A range read byte by byte: the first address, and then the rest of the range. -/
theorem slice_succ (mem : Memory) (address length : Nat) :
    mem.slice address (length + 1) =
      match mem.load address with
      | .error fault => .error fault
      | .ok value => (mem.slice (address + 1) length).map (value :: ·) := by
  rcases Nat.lt_or_ge address 4096 with hfirst | hfirst
  · simp only [load_of_lt mem hfirst]
    rcases Nat.lt_or_ge 4096 (address + (length + 1)) with hmiss | hfits
    · have hrest : 4096 < address + 1 + length := by omega
      rw [slice_of_lt hmiss, slice_of_lt hrest, missAt_succ hfirst]
      rfl
    · have hrest : address + 1 + length ≤ 4096 := by omega
      rw [slice_of_le hfits, slice_of_le hrest, extract_succ mem hfirst]
      rfl
  · have hmiss : 4096 < address + (length + 1) := by omega
    rw [slice_of_lt hmiss, load_of_le mem hfirst, missAt, capacity, Nat.max_eq_left hfirst]

/-- The two ways to read a range agree wherever the range is not empty or not beyond memory. -/
theorem slice_eq_loadEach (h : 0 < length ∨ address ≤ 4096) :
    mem.slice address length = mem.loadEach address length := by
  induction length generalizing address with
  | zero =>
      have hend : address ≤ 4096 := h.resolve_left (Nat.lt_irrefl 0)
      rw [slice_of_le hend, loadEach]
      simp
  | succ length ih =>
      rw [slice_succ, loadEach]
      cases hload : mem.load address with
      | error fault => rfl
      | ok value =>
          -- the rest of the range begins in memory or right behind it
          have hfirst : address < 4096 := by
            refine Nat.lt_of_not_le fun hge => ?_
            rw [load_of_le mem hge] at hload
            cases hload
          rw [ih (Or.inr hfirst)]

/-- A word has its first byte in front. -/
theorem toNat_bytes (high low : UInt8) :
    (high.toUInt16 <<< 8 ||| low.toUInt16).toNat = high.toNat * 256 + low.toNat := by
  have hlow : low.toNat < 2 ^ 8 := low.toNat_lt
  have hhigh : high.toNat < 2 ^ 8 := high.toNat_lt
  have hshift : (high.toUInt16 <<< 8).toNat = high.toNat <<< 8 := by
    rw [UInt16.toNat_shiftLeft, UInt8.toNat_toUInt16]
    show high.toNat <<< 8 % 2 ^ 16 = high.toNat <<< 8
    rw [Nat.mod_eq_of_lt]
    rw [Nat.shiftLeft_eq]
    omega
  rw [UInt16.toNat_or, hshift, UInt8.toNat_toUInt16, ← Nat.shiftLeft_add_eq_or_of_lt hlow,
    Nat.shiftLeft_eq]

/-- A word is a range of two bytes. -/
theorem toNat_word (mem : Memory) (address : Nat) :
    (mem.word address).map UInt16.toNat = (mem.loadEach address 2).map bigEndian := by
  rw [← slice_eq_loadEach (Or.inl Nat.two_pos)]
  rcases Nat.lt_or_ge 4096 (address + 2) with hmiss | hfits
  · rw [slice_of_lt hmiss, word, dif_neg (Nat.not_le.2 hmiss)]
    rfl
  · have hbytes : (mem.bytes.toArray.extract address (address + 2)).toList =
        [mem.bytes[address], mem.bytes[address + 1]] := by
      rw [extract_succ mem (by omega) 1, extract_succ mem (by omega) 0]
      simp
    rw [slice_of_le hfits, word, dif_pos hfits, hbytes, Except.map, Except.map, toNat_bytes]
    simp [bigEndian]

/-- The checked end of a range exists where the range does, and misses with the same fault. -/
theorem rangeEnd_eq (mem : Memory) (address length : Nat) :
    Guarded.Machine.rangeEnd address length capacity =
      (mem.slice address length).map fun _ => address + length := by
  rcases Nat.lt_or_ge 4096 (address + length) with hmiss | hfits
  · rw [slice_of_lt hmiss]
    exact Guarded.Machine.rangeEnd_of_lt hmiss
  · rw [slice_of_le hfits]
    exact Guarded.Machine.rangeEnd_of_le hfits

/-- Reads of ranges from an address on are loads of single bytes. -/
structure ReadsBytewise (mem : Memory) (address : Nat) : Prop where
  slice : ∀ length, 0 < length → mem.slice address length = mem.loadEach address length
  /-- A word is the number of two bytes. -/
  word : (mem.word address).map UInt16.toNat = (mem.loadEach address 2).map bigEndian
  /-- The first load that fails, if one does, is the first past the end. -/
  misses : ∀ length fault, 0 < length → (mem.loadEach address length = .error fault ↔
    4096 < address + length ∧ fault = .outOfRange (max address 4096))
  /-- The end computed in machine words decides the same, with the same fault. -/
  overflow : ∀ length, Guarded.Machine.rangeEnd address length capacity =
    (mem.slice address length).map fun _ => address + length
  /-- An empty range may lie right behind memory. -/
  empty : mem.slice address 0 =
    if address ≤ 4096 then .ok [] else .error (.outOfRange (max address 4096))

/-- Slices and words are what byte by byte loads give. -/
theorem readsBytewise (mem : Memory) (address : Nat) : mem.ReadsBytewise address where
  slice := fun _ hlength => slice_eq_loadEach (Or.inl hlength)
  word := mem.toNat_word address
  misses := by
    intro length fault hlength
    rw [← slice_eq_loadEach (Or.inl hlength)]
    rcases Nat.lt_or_ge 4096 (address + length) with hmiss | hfits
    · rw [slice_of_lt hmiss, Except.error.injEq, eq_comm]
      exact (and_iff_right hmiss).symm
    · rw [slice_of_le hfits]
      constructor
      · intro h
        cases h
      · exact fun h => absurd h.1 (Nat.not_lt.2 hfits)
  overflow := mem.rangeEnd_eq address
  empty := by
    split
    · next hend => exact slice_eq_loadEach (Or.inr hend)
    · next hend => exact slice_of_lt (Nat.not_le.1 hend)

/-! ## Writes -/

theorem write_of_le (h : address + data.length ≤ 4096) :
    mem.write address data = .ok (mem.overlay address data.toArray) :=
  if_pos h

theorem write_of_lt (h : 4096 < address + data.length) :
    mem.write address data = .error (missAt address) :=
  if_neg (Nat.not_le.2 h)

theorem overlay_nil (mem : Memory) (address : Nat) : mem.overlay address #[] = mem := by
  refine ext_bytes fun a ha => ?_
  rw [getElem_overlay]
  simp

/-- Data is laid over byte by byte. -/
theorem overlay_cons (mem : Memory) (h : address < 4096) (value : UInt8) (rest : List UInt8) :
    mem.overlay address (value :: rest).toArray =
      (Memory.mk (mem.bytes.set address value)).overlay (address + 1) rest.toArray := by
  refine ext_bytes fun a ha => ?_
  rw [getElem_overlay, getElem_overlay, Vector.getElem_set]
  rcases Nat.lt_trichotomy a address with hlow | rfl | hhigh
  · rw [if_neg (by omega), if_neg (by omega), if_neg (by omega)]
  · rw [if_pos (Nat.le_refl a), if_neg (Nat.not_succ_le_self a), if_pos rfl]
    simp
  · have hindex : a - address = (a - (address + 1)) + 1 := by omega
    rw [if_pos (by omega), if_pos (by omega), if_neg (by omega), hindex]
    simp

/-- A range written byte by byte: the first address, and then the rest of the range. -/
theorem write_cons (mem : Memory) (address : Nat) (value : UInt8) (rest : List UInt8) :
    mem.write address (value :: rest) =
      match mem.store address value with
      | .error fault => .error fault
      | .ok mem' => mem'.write (address + 1) rest := by
  rcases Nat.lt_or_ge address 4096 with hfirst | hfirst
  · simp only [store, dif_pos hfirst]
    rcases Nat.lt_or_ge 4096 (address + (value :: rest).length) with hmiss | hfits
    · have hrest : 4096 < address + 1 + rest.length := by
        rw [List.length_cons] at hmiss
        omega
      rw [write_of_lt hmiss, write_of_lt hrest, missAt_succ hfirst]
    · have hrest : address + 1 + rest.length ≤ 4096 := by
        rw [List.length_cons] at hfits
        omega
      rw [write_of_le hfits, write_of_le hrest, overlay_cons mem hfirst]
  · have hmiss : 4096 < address + (value :: rest).length := by
      rw [List.length_cons]
      omega
    simp only [write_of_lt hmiss, store, dif_neg (Nat.not_lt.2 hfirst)]

/-- A write is what byte by byte stores give, if there is data or the address is not behind the
end. -/
theorem write_eq_storeEach (h : data ≠ [] ∨ address ≤ 4096) :
    mem.write address data = mem.storeEach address data := by
  induction data generalizing mem address with
  | nil =>
      have hend : address ≤ 4096 := h.resolve_left fun hne => hne rfl
      rw [write_of_le hend, storeEach]
      exact congrArg Except.ok (mem.overlay_nil address)
  | cons value rest ih =>
      rw [write_cons, storeEach]
      rcases Nat.lt_or_ge address 4096 with hfirst | hfirst
      · simp only [store, dif_pos hfirst]
        exact ih (Or.inr hfirst)
      · simp only [store, dif_neg (Nat.not_lt.2 hfirst)]

/-- Behind a write its bytes are loaded. -/
theorem load_of_write_inside (h : mem.write address data = .ok mem') {i : Nat}
    (hi : i < data.length) : mem'.load (address + i) = .ok data[i] := by
  rcases Nat.lt_or_ge 4096 (address + data.length) with hmiss | hfits
  · rw [write_of_lt hmiss] at h
    cases h
  · rw [write_of_le hfits] at h
    cases h
    have hsize : i < data.toArray.size := hi
    rw [load_of_lt _ (show address + i < 4096 by omega), getElem_overlay_add hsize]
    rfl

/-- Outside a write every address gives what it gave. -/
theorem load_of_write_outside (h : mem.write address data = .ok mem') {a : Nat}
    (ha : a < address ∨ address + data.length ≤ a) : mem'.load a = mem.load a := by
  rcases Nat.lt_or_ge 4096 (address + data.length) with hmiss | hfits
  · rw [write_of_lt hmiss] at h
    cases h
  · rw [write_of_le hfits] at h
    cases h
    rcases Nat.lt_or_ge a 4096 with hin | hend
    · rw [load_of_lt _ hin, load_of_lt _ hin]
      rcases ha with hbelow | habove
      · rw [getElem_overlay_of_lt hbelow]
      · rw [getElem_overlay_of_le habove]
    · rw [load_of_le _ hend, load_of_le _ hend]

/-- Writes of ranges from an address on are stores of single bytes, all of them or none. -/
structure WritesBytewise (mem : Memory) (address : Nat) (data : List UInt8) : Prop where
  bytewise : data ≠ [] → mem.write address data = mem.storeEach address data
  /-- What can be read can be written. -/
  succeeds : data ≠ [] → ((mem.write address data).isOk ↔
    (mem.loadEach address data.length).isOk)
  inside : ∀ mem', mem.write address data = .ok mem' → ∀ i (hi : i < data.length),
    mem'.load (address + i) = .ok data[i]
  outside : ∀ mem', mem.write address data = .ok mem' →
    ∀ a, a < address ∨ address + data.length ≤ a → mem'.load a = mem.load a
  /-- A write that fails leaves every byte, those that there is room for among them. -/
  fails : ∀ fault, mem.write address data = .error fault →
    fault = .outOfRange (max address 4096) ∧ ∀ a, (mem.written address data).load a = mem.load a
  /-- Nothing can be written right behind memory, but not beyond. -/
  empty : mem.write address [] =
    if address ≤ 4096 then .ok mem else .error (.outOfRange (max address 4096))

/-- A write is what byte by byte stores give, and it is done as a whole or not at all. -/
theorem writesBytewise (mem : Memory) (address : Nat) (data : List UInt8) :
    mem.WritesBytewise address data where
  bytewise := fun hdata => write_eq_storeEach (Or.inl hdata)
  succeeds := by
    intro hdata
    rw [← slice_eq_loadEach (Or.inl (List.length_pos_iff.2 hdata))]
    rcases Nat.lt_or_ge 4096 (address + data.length) with hmiss | hfits
    · rw [write_of_lt hmiss, slice_of_lt hmiss]
      rfl
    · rw [write_of_le hfits, slice_of_le hfits]
      rfl
  inside := fun _ h _ hi => load_of_write_inside h hi
  outside := fun _ h _ ha => load_of_write_outside h ha
  fails := by
    intro fault h
    refine ⟨?_, fun a => by rw [written, h]; rfl⟩
    rcases Nat.lt_or_ge 4096 (address + data.length) with hmiss | hfits
    · rw [write_of_lt hmiss] at h
      exact (Except.error.inj h).symm
    · rw [write_of_le hfits] at h
      cases h
  empty := by
    split
    · next hend => exact write_eq_storeEach (Or.inr hend)
    · next hend => exact write_of_lt (Nat.not_le.1 hend)

/-- Ranges of memory are read and written as their single bytes are, wherever they lie. -/
theorem bulk_access_bytewise (mem : Memory) (address : Nat) :
    mem.ReadsBytewise address ∧ ∀ data, mem.WritesBytewise address data :=
  ⟨mem.readsBytewise address, mem.writesBytewise address⟩

/-- Two bytes at the end of memory, two of which the second is missing, and two of which the second
has no address in a machine word. -/
theorem bulk_access_bytewise_at_end :
    (∃ mem', new.write 4094 [0xAB, 0xCD] = .ok mem' ∧ mem'.load 4095 = .ok 0xCD ∧
      mem'.load 4093 = new.load 4093) ∧
    new.slice 4095 2 = .error (.outOfRange 4096) ∧
    new.slice (0xFFFFFFFFFFFFFFFF) 2 = .error (.outOfRange (0xFFFFFFFFFFFFFFFF)) ∧
    new.write 4095 [0xAB, 0xCD] = .error (.outOfRange 4096) ∧
    (new.written 4095 [0xAB, 0xCD]).load 4095 = new.load 4095 := by
  obtain ⟨-, hend⟩ := bulk_access_bytewise new 4094
  obtain ⟨hreads, hlast⟩ := bulk_access_bytewise new 4095
  obtain ⟨hfar, -⟩ := bulk_access_bytewise new (0xFFFFFFFFFFFFFFFF)
  have hwrite : new.write 4094 [0xAB, 0xCD] = .ok _ := write_of_le (by decide)
  have hmiss : new.write 4095 [0xAB, 0xCD] = .error (.outOfRange 4096) := write_of_lt (by decide)
  refine ⟨⟨_, hwrite, ?_, ?_⟩, ?_, ?_, hmiss, ?_⟩
  · exact (hend _).inside _ hwrite 1 (by decide)
  · exact (hend _).outside _ hwrite 4093 (Or.inl (by decide))
  · rw [hreads.slice 2 (by decide), hreads.misses 2 _ (by decide)]
    decide
  · rw [hfar.slice 2 (by decide), hfar.misses 2 _ (by decide)]
    decide
  · exact ((hlast _).fails _ hmiss).2 4095

end Schip.Memory
