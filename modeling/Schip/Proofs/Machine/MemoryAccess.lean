import Schip.Proofs.Machine.Anomalies
import Schip.Proofs.Machine.GeneralRegisters

/-!
# Instructions on memory

Three instructions carry bytes between registers and memory, from the index on. Addresses do not
wrap: a byte that would lie past the end is dropped or read as zero, and its address is recorded
(`storesFromIndex_storeBytes`, `loadsFromIndex_setRegisters`). No other instruction writes memory
(`memory_effect`). `transfers_exact` puts these together.
-/

set_option autoImplicit false

namespace Schip

/-- Whether an instruction writes to memory. -/
def Instruction.storesBytes : Instruction → Bool
  | .storeBcd _ | .storeRegisters _ => true
  | _ => false

namespace Machine

variable (m : Machine)

/-! ## Stores -/

theorem load_storeByte_of_ne {address a : Nat} (h : a ≠ address) (value : UInt8) :
    (m.storeByte address value).memory.load a = m.memory.load a := by
  rw [storeByte]
  cases hstore : m.memory.store address value with
  | error fault => rfl
  | ok memory => exact (Memory.load_store hstore a).trans (if_neg h)

/-- Addresses outside the row keep their bytes. -/
theorem load_storeBytes_of_outside {address a : Nat} {values : List UInt8}
    (h : a < address ∨ address + values.length ≤ a) :
    (m.storeBytes address values).memory.load a = m.memory.load a := by
  induction values generalizing m address with
  | nil => rfl
  | cons value rest ih =>
      rw [List.length_cons] at h
      have hne : a ≠ address := by omega
      have hrest : a < address + 1 ∨ address + 1 + rest.length ≤ a := by omega
      rw [storeBytes, ih _ hrest, load_storeByte_of_ne m hne]

/-- Addresses in the row hold their bytes, as far as memory goes. -/
theorem load_storeBytes {address k : Nat} {values : List UInt8} (hk : k < values.length)
    (h : address + k < 4096) :
    (m.storeBytes address values).memory.load (address + k) = .ok values[k] := by
  induction values generalizing m address k with
  | nil => exact absurd hk (Nat.not_lt_zero k)
  | cons value rest ih =>
      rw [List.length_cons] at hk
      rw [storeBytes]
      cases k with
      | zero =>
          -- the bytes stored later lie behind
          have hlater : address < address + 1 ∨ address + 1 + rest.length ≤ address := by omega
          exact (load_storeBytes_of_outside _ hlater).trans (m.load_storeByte h value)
      | succ k =>
          have hnext : address + (k + 1) = address + 1 + k := by omega
          rw [hnext] at h ⊢
          exact ih _ (Nat.lt_of_succ_lt_succ hk) h

/-- Nothing but memory differs after bytes are stored, and what was missed is recorded. -/
theorem storeBytes_eq (address : Nat) (values : List UInt8) :
    m.storeBytes address values = { m with
      memory := (m.storeBytes address values).memory
      faults := m.faults ++ Memory.misses address values.length } := by
  rw [← faults_storeBytes]
  exact m.footprint_storeBytes address values

/-! ## The index after a transfer -/

/-- Index after a transfer of the registers up to `x`. -/
def indexAfter (m : Machine) (x : Nat) : Nat :=
  if m.incrementIndex then (m.registers.index.toNat + x + 1) % 65536 else m.registers.index.toNat

/-- The increment leads to the index after a transfer. -/
theorem index_bumpIndex {x : Nat} (hx : x < 16) :
    (m.bumpIndex x).registers.index.toNat = m.indexAfter x := by
  rw [bumpIndex, indexAfter]
  split
  · have hnumber : (UInt16.ofNat x + 1).toNat = x + 1 := by
      have hsmall : x < UInt16.size := Nat.lt_trans hx (by decide)
      have hone : (1 : UInt16).toNat = 1 := rfl
      rw [UInt16.toNat_add, UInt16.toNat_ofNat_of_lt' hsmall, hone]
      omega
    show (m.registers.index + (UInt16.ofNat x + 1)).toNat = _
    rw [UInt16.toNat_add, hnumber, Nat.add_assoc]
  · rfl

/-! ## From the index on -/

/-- Bytes were stored from the index on, as far as memory goes, and the index became `index`. Of the
rest of the machine nothing differs; the missing addresses are recorded. -/
structure StoresFromIndex (before after : Machine) (values : List UInt8) (index : Nat) : Prop where
  stored : ∀ k (h : k < values.length), before.registers.index.toNat + k < 4096 →
    after.memory.load (before.registers.index.toNat + k) = .ok values[k]
  kept : ∀ a, a < before.registers.index.toNat ∨
      before.registers.index.toNat + values.length ≤ a →
    after.memory.load a = before.memory.load a
  index : after.registers.index.toNat = index
  rest : after = { before with
    memory := after.memory
    registers := before.registers.setIndex after.registers.index
    faults := before.faults ++ Memory.misses before.registers.index.toNat values.length }

/-- The registers up to `x` were loaded from the index on, with zero for what memory does not have,
and the index became `index`. Of the rest of the machine nothing differs; the missing addresses are
recorded. -/
structure LoadsFromIndex (before after : Machine) (x : Fin 16) (index : Nat) : Prop where
  loaded : ∀ k : Fin 16, k ≤ x → before.registers.index.toNat + k < 4096 →
    before.memory.load (before.registers.index.toNat + k) = .ok (after.registers.v k)
  missed : ∀ k : Fin 16, k ≤ x → 4096 ≤ before.registers.index.toNat + k →
    after.registers.v k = 0
  kept : ∀ k : Fin 16, x < k → after.registers.v k = before.registers.v k
  index : after.registers.index.toNat = index
  rest : after = { before with
    registers := { before.registers with
      general := after.registers.general
      index := after.registers.index }
    faults := before.faults ++ Memory.misses before.registers.index.toNat (x + 1) }

theorem indexAfter_congr {m m' : Machine} (hoption : m'.incrementIndex = m.incrementIndex)
    (hindex : m'.registers.index.toNat = m.registers.index.toNat) (x : Nat) :
    m'.indexAfter x = m.indexAfter x := by
  rw [indexAfter, indexAfter, hoption, hindex]

/-- A list of bytes stored at the index, before any increment. -/
theorem storesFromIndex_storeBytes (values : List UInt8) :
    StoresFromIndex m (m.storeBytes m.registers.index.toNat values) values
      m.registers.index.toNat where
  stored := fun _ hk h => m.load_storeBytes hk h
  kept := fun _ h => m.load_storeBytes_of_outside h
  index := by rw [registers_storeBytes]
  rest := by
    rw [registers_storeBytes]
    exact m.storeBytes_eq _ _

/-- An increment after a store changes the index alone. -/
theorem StoresFromIndex.bumpIndex {m m' : Machine} {values : List UInt8}
    (h : StoresFromIndex m m' values m.registers.index.toNat) {x : Nat} (hx : x < 16) :
    StoresFromIndex m (m'.bumpIndex x) values (m.indexAfter x) := by
  have hoption : m'.incrementIndex = m.incrementIndex := by rw [h.rest]
  have hindex := (index_bumpIndex m' hx).trans (indexAfter_congr hoption h.index x)
  rw [footprint_bumpIndex] at hindex ⊢
  exact ⟨h.stored, h.kept, hindex, congrArg (setIndex · (m'.bumpIndex x).registers.index) h.rest⟩

/-- An increment after a load changes the index alone. -/
theorem LoadsFromIndex.bumpIndex {m m' : Machine} {x : Fin 16}
    (h : LoadsFromIndex m m' x m.registers.index.toNat) :
    LoadsFromIndex m (m'.bumpIndex x) x (m.indexAfter x) := by
  have hoption : m'.incrementIndex = m.incrementIndex := by rw [h.rest]
  have hindex := (index_bumpIndex m' x.isLt).trans (indexAfter_congr hoption h.index x)
  rw [footprint_bumpIndex] at hindex ⊢
  exact ⟨h.loaded, h.missed, h.kept, hindex,
    congrArg (setIndex · (m'.bumpIndex x).registers.index) h.rest⟩

theorem length_bytesAt (memory : Memory) (address count : Nat) :
    (memory.bytesAt address count).length = count := by
  rw [Memory.bytesAt, List.length_map, List.length_range']

/-- The loads, before the index moves. -/
theorem loadsFromIndex_setRegisters (x : Fin 16) :
    LoadsFromIndex m
      ((m.loadBytes m.registers.index.toNat (x + 1)).2.setRegisters 0
        (m.loadBytes m.registers.index.toNat (x + 1)).1) x m.registers.index.toNat := by
  rw [loadBytes_eq]
  have hlength := length_bytesAt m.memory m.registers.index.toNat (x + 1)
  have hbyte : ∀ k (hk : k < (m.memory.bytesAt m.registers.index.toNat (x + 1)).length),
      (m.memory.bytesAt m.registers.index.toNat (x + 1))[k] =
        (m.memory.load (m.registers.index.toNat + k)).toOption.getD 0 := by
    intro k hk
    simp [Memory.bytesAt]
  generalize m.memory.bytesAt m.registers.index.toNat (x + 1) = values at hlength hbyte
  have hfits : 0 + values.length ≤ 16 := by omega
  have hregister : ∀ (read : Machine) (k : Fin 16), k ≤ x →
      (read.setRegisters 0 values).registers.v k =
        (m.memory.load (m.registers.index.toNat + k)).toOption.getD 0 := by
    intro read k hk
    have hlt : (k : Nat) < values.length := by omega
    have hvalue := read.v_setRegisters hfits hlt
    rwa [Nat.zero_add, hbyte k hlt] at hvalue
  constructor
  case loaded =>
    intro k hk hin
    rw [hregister _ k hk, Memory.load_of_lt _ hin]
    rfl
  case missed =>
    intro k hk hout
    rw [hregister _ k hk, Memory.load_of_le _ hout]
    rfl
  case kept =>
    intro k hk
    refine (keepsBut_setRegisters _ hfits).others k fun hmem => ?_
    have hlt := (List.mem_range'_1.1 hmem).2
    omega
  case index => rw [(keepsBut_setRegisters _ hfits).rest, withRegisters]
  case rest =>
    rw [(keepsBut_setRegisters _ hfits).rest]
    rfl

theorem storesFromIndex_storeRegisters (x : Fin 16) :
    StoresFromIndex m (m.effect (.storeRegisters x)) ((List.range (x + 1)).map m.registers.v)
      (m.indexAfter x) :=
  (m.storesFromIndex_storeBytes _).bumpIndex x.isLt

theorem loadsFromIndex_loadRegisters (x : Fin 16) :
    LoadsFromIndex m (m.effect (.loadRegisters x)) x (m.indexAfter x) :=
  (m.loadsFromIndex_setRegisters x).bumpIndex

/-! ## Memory under all other instructions -/

/-- Only the two instructions that store bytes write to memory. -/
theorem memory_effect {instruction : Instruction} (h : instruction.storesBytes = false) :
    (m.effect instruction).memory = m.memory := by
  cases instruction with
  | storeBcd | storeRegisters => cases h
  | call => rw [effect, footprint_call]
  | ret => rw [effect, footprint_ret]
  | waitKey => rw [effect, footprint_waitKey, withRegisters]
  | draw | drawExtended => rw [effect, footprint_drawSprite]
  | loadRegisters => rw [footprint_loadRegisters]
  | _ => rfl

/-! ## All together -/

/-- The three decimal digits of a byte make up the byte. -/
theorem decimalDigits_eq (value : UInt8) : ∃ a b c : UInt8,
    decimalDigits value = [a, b, c] ∧ a ≤ 9 ∧ b ≤ 9 ∧ c ≤ 9 ∧
      100 * a.toNat + 10 * b.toNat + c.toNat = value.toNat := by
  have hvalue := value.toNat_lt
  have hnine : (9 : UInt8).toNat = 9 := rfl
  have hten : (10 : UInt8).toNat = 10 := rfl
  have hhundred : (100 : UInt8).toNat = 100 := rfl
  refine ⟨_, _, _, rfl, ?_⟩
  simp only [UInt8.le_iff_toNat_le, UInt8.toNat_div, UInt8.toNat_mod, hnine, hten, hhundred]
  omega

/-- What the instructions on memory leave, for every index and for the registers up to any. -/
theorem transfers_exact (x : Fin 16) :
    let after (instruction : Instruction) : Machine := (m.execute instruction).2
    StoresFromIndex m (after (.storeRegisters x)) ((List.range (x + 1)).map m.registers.v)
      (m.indexAfter x) ∧
    (∃ a b c : UInt8, a ≤ 9 ∧ b ≤ 9 ∧ c ≤ 9 ∧
      100 * a.toNat + 10 * b.toNat + c.toNat = (m.registers.v x).toNat ∧
      StoresFromIndex m (after (.storeBcd x)) [a, b, c] m.registers.index.toNat) ∧
    LoadsFromIndex m (after (.loadRegisters x)) x (m.indexAfter x) ∧
    ∀ instruction : Instruction, instruction.storesBytes = false →
      (after instruction).memory = m.memory := by
  intro after
  refine ⟨?stores, ?digits, ?loads, ?others⟩
  case stores => exact m.storesFromIndex_storeRegisters x
  case digits =>
    obtain ⟨a, b, c, hdigits, ha, hb, hc, hsum⟩ := decimalDigits_eq (m.registers.v x)
    refine ⟨a, b, c, ha, hb, hc, hsum, ?_⟩
    have hstores : StoresFromIndex m (after (.storeBcd x)) (decimalDigits (m.registers.v x)) _ :=
      m.storesFromIndex_storeBytes _
    rwa [hdigits] at hstores
  case loads => exact m.loadsFromIndex_loadRegisters x
  case others =>
    intro instruction h
    exact m.memory_effect h

/-- Three registers stored two bytes before the end of memory, and three loaded from the last address
that the index can have; the index moves on. -/
theorem transfers_exact_past_end :
    let m := ((((new { incrementIndex := true } (RandomSource.ofSeed 1)).setV 0 7).setV 1 8).setV 2
      234).setIndex 4094
    let stored := (m.execute (.storeRegisters 2)).2
    let far := m.setIndex 0xFFFF
    let loaded := (far.execute (.loadRegisters 2)).2
    stored.memory.load 4094 = .ok 7 ∧ stored.memory.load 4095 = .ok 8 ∧
      stored.memory.load 0 = m.memory.load 0 ∧ stored.faults = [.outOfRange 4096] ∧
      stored.registers.index.toNat = 4097 ∧
      loaded.registers.v 2 = 0 ∧ loaded.registers.v 3 = far.registers.v 3 ∧
      loaded.faults = [.outOfRange 65535, .outOfRange 65536, .outOfRange 65537] ∧
      loaded.registers.index.toNat = 2 ∧
      Instruction.clearScreen.storesBytes = false ∧
      (m.execute .clearScreen).2.memory = m.memory := by
  intro m stored far loaded
  obtain ⟨hstores, -, -, hothers⟩ := m.transfers_exact 2
  obtain ⟨-, -, hloads, -⟩ := far.transfers_exact 2
  have hcleared := hothers .clearScreen rfl
  refine ⟨?_, ?_, ?_, ?_, ?_, ?_, ?_, ?_, ?_, rfl, hcleared⟩
  · exact hstores.stored 0 (by decide) (by decide)
  · exact hstores.stored 1 (by decide) (by decide)
  · exact hstores.kept 0 (by decide)
  · exact congrArg faults hstores.rest
  · exact hstores.index.trans (by decide)
  · exact hloads.missed 2 (by decide) (by decide)
  · exact hloads.kept 3 (by decide)
  · exact congrArg faults hloads.rest
  · exact hloads.index.trans (by decide)

end Machine

end Schip
