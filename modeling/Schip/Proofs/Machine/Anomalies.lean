import Schip.Proofs.Machine.Activity
import Schip.Proofs.Machine.Transfer

/-!
# Faults of a cycle

Which faults a cycle runs into, said without running it. An access to memory has one fault for each
address past the end, in ascending order; a call has one if the stack is full, a return if it is
empty, an unknown word always. A fetch that fails has one, and nothing is executed then.

`faults_effect` says that an instruction records exactly these, after what had been recorded before,
and `faults_cycle` says so of a cycle, which hands all of them out and keeps none.
-/

set_option autoImplicit false

namespace Schip

namespace Memory

/-- Faults of accesses to `count` addresses in a row: one for each that is past the end. -/
def misses (address count : Nat) : List Fault :=
  ((List.range' address count).filter (capacity ≤ ·)).map .outOfRange

theorem misses_zero (address : Nat) : misses address 0 = [] := rfl

/-- The faults of a range are those of its first address and those of the rest. -/
theorem misses_succ (address count : Nat) :
    misses address (count + 1) = misses address 1 ++ misses (address + 1) count := by
  simp only [misses, List.range'_succ, List.range'_zero, ← List.map_append,
    ← List.filter_append, List.singleton_append]

theorem misses_one_of_lt {address : Nat} (h : address < 4096) : misses address 1 = [] := by
  have hnot : ¬ capacity ≤ address := Nat.not_le.2 h
  simp [misses, hnot]

theorem misses_one_of_le {address : Nat} (h : 4096 ≤ address) :
    misses address 1 = [.outOfRange address] := by
  have hle : capacity ≤ address := h
  simp [misses, hle]

/-- Bytes at `count` addresses in a row, with zero for each that is past the end. -/
def bytesAt (memory : Memory) (address count : Nat) : List UInt8 :=
  (List.range' address count).map fun a => (memory.load a).toOption.getD 0

end Memory

/-- Faults that an instruction runs into, by the registers before it. -/
def Instruction.faults (registers : Registers) : Instruction → List Fault
  | .ret => if registers.stack.pointer = CallStack.emptyPointer then [.stackUnderflow] else []
  | .call _ => if registers.stack.pointer = CallStack.fullPointer then [.stackOverflow] else []
  | .draw _ _ n => Memory.misses registers.index.toNat n.toNat
  | .drawExtended _ _ => Memory.misses registers.index.toNat 32
  | .storeBcd _ => Memory.misses registers.index.toNat 3
  | .storeRegisters x => Memory.misses registers.index.toNat (x + 1)
  | .loadRegisters x => Memory.misses registers.index.toNat (x + 1)
  | .unknown word => [.unknownOpcode word]
  | _ => []

namespace Machine

/-- Instruction at the program counter; none where there is no whole word. -/
def fetched? (m : Machine) : Option Instruction :=
  (m.memory.word m.registers.pc.toNat).toOption.map Instruction.decode

/-- Faults that a cycle runs into: the one of a failed fetch, or those of the instruction. -/
def cycleFaults (m : Machine) : List Fault :=
  match m.memory.word m.registers.pc.toNat with
  | .error fault => [fault]
  | .ok word => (Instruction.decode word).faults m.registers

/-! ## Accesses to memory -/

/-- A load gives zero for an address outside and records it. -/
theorem loadByte_eq (m : Machine) (address : Nat) :
    m.loadByte address = ((m.memory.load address).toOption.getD 0,
      { m with faults := m.faults ++ Memory.misses address 1 }) := by
  rw [loadByte]
  rcases Nat.lt_or_ge address 4096 with hlt | hge
  · rw [Memory.load_of_lt _ hlt, Memory.misses_one_of_lt hlt, List.append_nil]
    rfl
  · rw [Memory.load_of_le _ hge, Memory.misses_one_of_le hge]
    rfl

/-- A store outside the memory is recorded. -/
theorem faults_storeByte (m : Machine) (address : Nat) (value : UInt8) :
    (m.storeByte address value).faults = m.faults ++ Memory.misses address 1 := by
  rw [storeByte, Memory.store]
  rcases Nat.lt_or_ge address 4096 with hlt | hge
  · rw [dif_pos hlt, Memory.misses_one_of_lt hlt, List.append_nil]
  · rw [dif_neg (Nat.not_lt.2 hge), Memory.misses_one_of_le hge, Memory.missAt, Memory.capacity,
      Nat.max_eq_left hge]
    rfl

/-- Loading bytes in a row takes those of the memory and records the addresses past the end. -/
theorem loadBytes_eq (m : Machine) (address count : Nat) :
    m.loadBytes address count = (m.memory.bytesAt address count,
      { m with faults := m.faults ++ Memory.misses address count }) := by
  induction count generalizing m address with
  | zero =>
      rw [Memory.misses_zero, List.append_nil]
      rfl
  | succ count ih =>
      rw [loadBytes_cons, loadByte_eq, ih, Memory.misses_succ address count, ← List.append_assoc]
      rfl

/-- A store of several bytes records every address outside, in order. -/
theorem faults_storeBytes (m : Machine) (address : Nat) (values : List UInt8) :
    (m.storeBytes address values).faults = m.faults ++ Memory.misses address values.length := by
  induction values generalizing m address with
  | nil => rw [List.length_nil, Memory.misses_zero, List.append_nil, storeBytes]
  | cons value rest ih =>
      rw [storeBytes, ih, faults_storeByte, List.length_cons,
        Memory.misses_succ address rest.length, List.append_assoc]

/-! ## Instructions -/

/-- A call records an overflow or nothing. -/
theorem faults_call (m : Machine) (target : UInt16) :
    (m.call target).faults = m.faults ++ (Instruction.call target).faults m.registers := by
  rw [call, Registers.push, CallStack.push, Instruction.faults]
  by_cases hfull : m.registers.stack.pointer = CallStack.fullPointer
  · rw [if_pos hfull, if_pos hfull]
    rfl
  · rw [if_neg hfull, if_neg hfull, List.append_nil]
    rfl

/-- A return records an underflow or nothing. -/
theorem faults_ret (m : Machine) :
    m.ret.faults = m.faults ++ Instruction.ret.faults m.registers := by
  rw [ret, Registers.pop, CallStack.pop, Instruction.faults]
  by_cases hempty : m.registers.stack.pointer = CallStack.emptyPointer
  · rw [if_pos hempty, if_pos hempty]
    rfl
  · rw [if_neg hempty, if_neg hempty, List.append_nil]
    rfl

/-- A sprite records the addresses outside that its bytes are loaded from. -/
theorem faults_drawSprite (m : Machine) (x y rowBytes rows : Nat) :
    (m.drawSprite x y rowBytes rows).faults =
      m.faults ++ Memory.misses m.registers.index.toNat (rowBytes * rows) := by
  rw [drawSprite, loadBytes_eq]
  rfl

/-- An instruction records the faults that it runs into, and nothing else. -/
theorem faults_effect (m : Machine) (instruction : Instruction) :
    (m.effect instruction).faults = m.faults ++ instruction.faults m.registers := by
  cases instruction with
  | call target => exact faults_call m target
  | ret => exact faults_ret m
  | draw x y n => rw [effect, faults_drawSprite, Nat.one_mul, Instruction.faults]
  | drawExtended x y => exact faults_drawSprite m x y 2 16
  | storeBcd x => exact faults_storeBytes m _ _
  | storeRegisters x =>
      rw [effect, footprint_bumpIndex, withRegisters, faults_storeBytes, List.length_map,
        List.length_range, Instruction.faults]
  | loadRegisters x =>
      rw [effect, loadBytes_eq]
      dsimp only
      rw [footprint_bumpIndex, footprint_setRegisters]
      rfl
  | unknown word => rfl
  | waitKey x =>
      rw [effect, footprint_waitKey]
      exact (List.append_nil _).symm
  | _ => exact (List.append_nil _).symm

/-! ## Cycles -/

/-- The report of a cycle names the instruction that was fetched. -/
theorem instruction_cycle (m : Machine) : m.cycle.1.instruction = m.fetched? := by
  rw [cycle_eq, fetched?]
  cases hword : m.memory.word m.registers.pc.toNat with
  | error fault => simp only [fetchExecute, fetch, hword, Except.toOption, Option.map_none]
  | ok word => rw [fetchExecute_of_word hword, Except.toOption, Option.map_some]

/-- An instruction that a cycle executes stands in memory at the program counter. -/
theorem exists_word_of_instruction {m : Machine} {instruction : Instruction}
    (h : m.cycle.1.instruction = some instruction) :
    ∃ word, m.memory.word m.registers.pc.toNat = .ok word ∧
      Instruction.decode word = instruction := by
  rw [instruction_cycle, fetched?] at h
  cases hword : m.memory.word m.registers.pc.toNat with
  | error fault =>
      rw [hword] at h
      cases h
  | ok word =>
      rw [hword] at h
      exact ⟨word, rfl, Option.some.inj h⟩

/-- Fetch and execution add the faults of the cycle behind those pending. -/
theorem faults_fetchExecute (m : Machine) :
    m.fetchExecute.2.2.faults = m.faults ++ m.cycleFaults := by
  rw [cycleFaults]
  cases hword : m.memory.word m.registers.pc.toNat with
  | error fault => simp only [fetchExecute, fetch, hword, record]
  | ok word => rw [fetchExecute_of_word hword, execute, faults_effect]

/-- A cycle hands out the faults recorded before it and those that it runs into, and keeps none. -/
theorem faults_cycle (m : Machine) :
    m.cycle.1.faults = m.faults ++ m.cycleFaults ∧ m.cycle.2.faults = [] := by
  rw [cycle_eq]
  refine ⟨?_, rfl⟩
  rw [← faults_fetchExecute]
  -- neither the tick of the timers nor the advance records anything
  split
  · rfl
  · rfl

end Machine

end Schip
