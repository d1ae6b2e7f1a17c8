import Schip.Proofs.Machine.MemoryAccess
import Schip.Proofs.Machine.Setting

/-!
# Registers saved and restored

A program saves registers by storing them to memory and gets them back by loading them from the same
index. In between it may do whatever it likes short of storing bytes: no other instruction reaches
memory (`memory_executeAll`), so the saved bytes are still there, and `restores_saved` follows from
what the two transfers do.
-/

set_option autoImplicit false

namespace Schip

/-- A range inside the memory misses nothing. -/
theorem Memory.misses_of_le {address count : Nat} (h : address + count ≤ 4096) :
    misses address count = [] := by
  rw [misses, List.map_eq_nil_iff, List.filter_eq_nil_iff]
  intro a hmem
  have hlt := (List.mem_range'_1.1 hmem).2
  have hcapacity : capacity = 4096 := rfl
  simp only [hcapacity, decide_eq_true_eq]
  omega

namespace Machine

/-- Instructions executed in order. -/
def executeAll (m : Machine) : List Instruction → Machine
  | [] => m
  | instruction :: rest => (m.execute instruction).2.executeAll rest

variable {m : Machine} {body : List Instruction}

/-- Instructions that store no bytes leave the memory, by induction on the list. -/
theorem memory_executeAll (h : ∀ instruction ∈ body, instruction.storesBytes = false) :
    (m.executeAll body).memory = m.memory := by
  induction body generalizing m with
  | nil => rfl
  | cons instruction rest ih =>
      obtain ⟨hfirst, hrest⟩ := List.forall_mem_cons.1 h
      exact (ih hrest).trans (m.memory_effect hfirst)

/-- No instructions change the setting. -/
theorem setting_executeAll (m : Machine) (body : List Instruction) :
    (m.executeAll body).setting = m.setting := by
  induction body generalizing m with
  | nil => rfl
  | cons instruction rest ih => exact (ih _).trans (m.setting_effect instruction)

/-- Without the option a transfer leaves the index. -/
theorem indexAfter_of_not (h : m.incrementIndex = false) (x : Nat) :
    m.indexAfter x = m.registers.index.toNat := by
  rw [indexAfter, h]
  rfl

/-- A load that stays in memory and leaves the index changes nothing but its registers. -/
theorem LoadsFromIndex.keepsBut {before after : Machine} {y : Fin 16}
    (h : LoadsFromIndex before after y before.registers.index.toNat)
    (hfits : before.registers.index.toNat + y < 4096) :
    KeepsBut (List.range (y + 1)) before after where
  others := by
    intro k hk
    rw [List.mem_range, Nat.lt_succ_iff] at hk
    exact h.kept k (Nat.lt_of_not_le hk)
  rest := by
    have hnone : Memory.misses before.registers.index.toNat (y + 1) = [] :=
      Memory.misses_of_le hfits
    have hrest := h.rest
    rw [hnone, List.append_nil, UInt16.toNat_inj.1 h.index] at hrest
    exact hrest

/-- Registers that were stored come back with a load from the same index, whatever was executed in
between that stores no bytes. The load changes nothing else and misses no address. -/
theorem restores_saved (hoption : m.incrementIndex = false) {x y : Fin 16} (hle : y ≤ x)
    (hfits : m.registers.index.toNat + x < 4096)
    (hbody : ∀ instruction ∈ body, instruction.storesBytes = false) :
    let left := (m.execute (.storeRegisters x)).2.executeAll body
    let resumed := left.setIndex m.registers.index
    let loaded := (resumed.execute (.loadRegisters y)).2
    (∀ k : Fin 16, k ≤ y → loaded.registers.v k = m.registers.v k) ∧
      KeepsBut (List.range (y + 1)) resumed loaded ∧ loaded.faults = left.faults := by
  intro left resumed loaded
  have hmemory : resumed.memory = (m.effect (.storeRegisters x)).memory := memory_executeAll hbody
  have hkept : resumed.incrementIndex = false := by
    have hsetting := (setting_executeAll (m.effect (.storeRegisters x)) body).trans
      (m.setting_effect (.storeRegisters x))
    exact (congrArg Setting.incrementIndex hsetting).trans hoption
  have hstores := m.storesFromIndex_storeRegisters x
  have hloads := resumed.loadsFromIndex_loadRegisters y
  rw [indexAfter_of_not hkept] at hloads
  have hkeeps := hloads.keepsBut (Nat.lt_of_le_of_lt (Nat.add_le_add_left hle _) hfits)
  have hfaults := congrArg faults hkeeps.rest
  refine ⟨?_, hkeeps, hfaults⟩
  intro k hk
  have hkx : (k : Nat) ≤ x := Nat.le_trans hk hle
  have hin : m.registers.index.toNat + k < 4096 := by omega
  have hlt : (k : Nat) < ((List.range (x + 1)).map m.registers.v).length := by
    rw [List.length_map, List.length_range]
    omega
  -- the address that is loaded holds what was stored there
  have hloaded := hloads.loaded k hk hin
  have hstored := hstores.stored k hlt hin
  rw [← hmemory, List.getElem_map, List.getElem_range] at hstored
  exact Except.ok.inj (hloaded.symm.trans hstored)

/-- Three registers saved at the very end of memory, with a call, a sprite, an unknown word and other
values for them in between; two are restored. -/
theorem restores_saved_end_of_memory :
    let m := ((((new {} (RandomSource.ofSeed 1)).setV 0 7).setV 1 8).setV 2 9).setIndex 0xFFD
    let body : List Instruction := [.call 0x300, .draw 0 1 5, .loadIndex 0x123, .loadRegisters 15,
      .unknown 0x8008, .loadImm 0 1, .loadImm 2 3]
    let x : Fin 16 := 2
    let y : Fin 16 := 1
    let left := (m.execute (.storeRegisters x)).2.executeAll body
    let resumed := left.setIndex m.registers.index
    let loaded := (resumed.execute (.loadRegisters y)).2
    m.incrementIndex = false ∧ y ≤ x ∧ m.registers.index.toNat + x < 4096 ∧
      (∀ instruction ∈ body, instruction.storesBytes = false) ∧
      m.registers.v y = 8 ∧ loaded.registers.v y = m.registers.v y ∧
      loaded.registers.v x = resumed.registers.v x ∧ loaded.faults = left.faults := by
  intro m body x y left resumed loaded
  have hoption : m.incrementIndex = false := rfl
  have hle : y ≤ x := by decide
  have hfits : m.registers.index.toNat + x < 4096 := by decide
  have hbody : ∀ instruction ∈ body, instruction.storesBytes = false := by decide
  have hvalue : m.registers.v y = 8 := by decide
  clear_value m body
  obtain ⟨hrestored, hkeeps, hfaults⟩ := restores_saved hoption hle hfits hbody
  refine ⟨hoption, hle, hfits, hbody, hvalue, ?_, ?_, hfaults⟩
  · exact hrestored y (Fin.le_refl y)
  · exact hkeeps.others x (by decide)

end Machine

end Schip
