import Schip.Proofs.Input.Mirror
import Schip.Proofs.Machine.ProgramCounter
import Schip.Proofs.Machine.Setting
import Schip.Proofs.Machine.Timers

/-!
# The key wait

An instruction that waits for a key steps two bytes back, and the advance at the end of the cycle
takes it forward again: while no key is down, a cycle ticks the timers and hands out the faults that
were recorded before it, and nothing else (`cycle_of_idle`). The first cycle that finds keys down
takes the lowest of them and goes on (`cycle_of_pressed`).

Keys change between the cycles, and a wait of any length comes to the same as one state: timers that
have run on, the keypad as the changes left it, and everything else as it was (`perform_idle`). Only
the faults that were still to be handed out when the wait began leave with its first cycle
(`pending_wait`).
-/

set_option autoImplicit false

namespace Schip

open HeldKeys (keyNumber)

/-! ## Keys -/

namespace Keypad

/-- The keys are the sixteen numbers in ascending order. -/
theorem keys_eq : keys = (List.finRange 16).map keyNumber := by
  decide

/-- The first key is the lowest one that is down. -/
theorem firstPressed?_least {k : Keypad} {number : UInt8} (h : k.firstPressed? = some number) :
    ∃ key : Fin 16, number = keyNumber key ∧ k.isPressed (keyNumber key) = true ∧
      ∀ other : Fin 16, k.isPressed (keyNumber other) = true → key ≤ other := by
  rw [firstPressed?, keys_eq, List.find?_map, Option.map_eq_some_iff] at h
  obtain ⟨key, hfind, rfl⟩ := h
  obtain ⟨hdown, i, hi, hkey, hbefore⟩ := List.find?_eq_some_iff_getElem.1 hfind
  rw [List.getElem_finRange] at hkey
  refine ⟨key, rfl, hdown, fun other hother => ?_⟩
  rw [← hkey]
  refine Nat.le_of_not_lt fun hlt => ?_
  have hup := hbefore other.val hlt
  rw [List.getElem_finRange] at hup
  simp only [Function.comp_apply, Fin.cast_mk, Fin.eta, hother] at hup
  cases hup

/-- No key is down in a cycle of a run, and nothing happens in the run but cycles and changes of
keys. -/
def Idle (k : Keypad) : List Activity → Prop
  | [] => True
  | .cycle :: rest => k.anyPressed = false ∧ k.Idle rest
  | .key key down :: rest => (k.setKey key down).Idle rest
  | .render _ :: _ => False

end Keypad

/-- Event that stands for a change of a key. -/
def Activity.keyEvent? : Activity → Option InputEvent
  | .key number true => some (.keyDown number)
  | .key number false => some (.keyUp number)
  | .cycle | .render _ => none

/-- Changes of keys in a run. -/
def keyEvents (activities : List Activity) : List InputEvent :=
  activities.filterMap Activity.keyEvent?

theorem heedAll_keyEvents_key (k : Keypad) (key : UInt8) (down : Bool) (rest : List Activity) :
    k.heedAll (keyEvents (.key key down :: rest)) =
      (k.setKey key down).heedAll (keyEvents rest) := by
  cases down <;> rfl

namespace Machine

variable {m : Machine} {word : UInt16}

/-- Faults still to be handed out after some cycles that record none. -/
def pending (m : Machine) : Nat → List Fault
  | 0 => m.faults
  | _ + 1 => []

/-- Report of a cycle that waits, some such cycles after the first. -/
def waitStep (m : Machine) (x cycles : Nat) : Step where
  pc := m.registers.pc
  instruction := some (.waitKey x)
  outcome := .proceed
  faults := m.pending cycles

/-- State after some cycles that wait. -/
def waited (m : Machine) (cycles : Nat) (keypad : Keypad) : Machine :=
  { m with
    registers := m.registers.elapse cycles
    keypad := keypad
    faults := m.pending cycles }

/-! ## One cycle -/

/-- A cycle of the key wait, up to what the wait itself does. -/
theorem cycle_of_waitKey (hword : m.memory.word m.registers.pc.toNat = .ok word)
    (hgroup : Word.group word = 0xF) (hkk : Word.kk word = 0x0A) :
    m.cycle = (m.waitStep (Word.x word) 0,
      { m.waitKey (Word.x word) with
        registers := (m.waitKey (Word.x word)).registers.tickTimers.advance
        faults := [] }) := by
  have hdecode := Opcode.decode_of_waitKey hgroup hkk
  have hfaults : (m.waitKey (Word.x word)).faults = m.faults := by
    rw [footprint_waitKey, withRegisters]
  rw [cycle_eq, fetchExecute_of_word hword, hdecode, waitStep, pending, ← hfaults]
  rfl

/-- A cycle that finds no key down stays where it is. -/
theorem cycle_of_idle (hword : m.memory.word m.registers.pc.toNat = .ok word)
    (hgroup : Word.group word = 0xF) (hkk : Word.kk word = 0x0A)
    (hidle : m.keypad.anyPressed = false) :
    m.cycle = (m.waitStep (Word.x word) 0, m.waited 1 m.keypad) := by
  have hnone := (Keypad.firstPressed?_eq_none_iff m.keypad).2 hidle
  have hwait : m.waitKey (Word.x word) = m.withRegisters m.registers.rewind := by
    simp only [waitKey, hnone]
  have hback : m.registers.rewind.tickTimers.advance = m.registers.tickTimers := by
    show m.registers.tickTimers.setPc (m.registers.pc - 2 + 2) = m.registers.tickTimers
    rw [UInt16.sub_add_cancel]
    rfl
  rw [cycle_of_waitKey hword hgroup hkk, hwait, waited, ← Registers.tickTimers_eq, ← hback]
  rfl

/-- A cycle that finds keys down takes the lowest one and goes on. -/
theorem cycle_of_pressed (hword : m.memory.word m.registers.pc.toNat = .ok word)
    (hgroup : Word.group word = 0xF) (hkk : Word.kk word = 0x0A)
    (hpressed : m.keypad.anyPressed = true) :
    ∃ key : Fin 16, m.keypad.isPressed (keyNumber key) = true ∧
      (∀ other : Fin 16, m.keypad.isPressed (keyNumber other) = true → key ≤ other) ∧
      m.cycle = (m.waitStep (Word.x word) 0,
        { m with
          registers := ((m.registers.elapse 1).setV (Word.x word) (keyNumber key)).setPc
            (m.registers.pc + 2)
          faults := [] }) := by
  have hsome : m.keypad.firstPressed? ≠ none := by
    rw [ne_eq, Keypad.firstPressed?_eq_none_iff, hpressed]
    exact Bool.noConfusion
  obtain ⟨number, hfirst⟩ := Option.ne_none_iff_exists'.1 hsome
  obtain ⟨key, rfl, hdown, hleast⟩ := Keypad.firstPressed?_least hfirst
  refine ⟨key, hdown, hleast, ?_⟩
  have hwait : m.waitKey (Word.x word) = m.setV (Word.x word) (keyNumber key) := by
    simp only [waitKey, hfirst]
  rw [cycle_of_waitKey hword hgroup hkk, hwait, ← Registers.tickTimers_eq]
  rfl

/-! ## The whole wait -/

theorem waited_zero (m : Machine) : m.waited 0 m.keypad = m := by
  rw [waited, Registers.elapse_zero]
  rfl

/-- To wait for one cycle and then for others is to wait for all of them. -/
theorem waited_waited (m : Machine) (between keypad : Keypad) (cycles : Nat) :
    (m.waited 1 between).waited cycles keypad = m.waited (cycles + 1) keypad := by
  have hpending : (m.waited 1 between).pending cycles = [] := by
    cases cycles <;> rfl
  rw [waited, hpending, waited, waited, Registers.elapse_elapse, Nat.add_comm]
  rfl

theorem waitStep_waited (m : Machine) (keypad : Keypad) (x : Nat) :
    (m.waited 1 keypad).waitStep x = m.waitStep x ∘ Nat.succ := by
  funext cycles
  cases cycles <;> rfl

/-- A run in which no cycle finds a key down. -/
theorem perform_idle (hword : m.memory.word m.registers.pc.toNat = .ok word)
    (hgroup : Word.group word = 0xF) (hkk : Word.kk word = 0x0A) {activities : List Activity}
    (hidle : m.keypad.Idle activities) :
    m.perform activities =
      ((List.range (activities.count .cycle)).map (m.waitStep (Word.x word)),
        m.waited (activities.count .cycle) (m.keypad.heedAll (keyEvents activities))) := by
  induction activities generalizing m with
  | nil => exact congrArg (Prod.mk []) m.waited_zero.symm
  | cons activity rest ih =>
      cases activity with
      | cycle =>
          obtain ⟨hup, hrest⟩ := hidle
          have hcycle := cycle_of_idle hword hgroup hkk hup
          have hnext := ih (m := m.waited 1 m.keypad) hword hrest
          rw [perform, act, hcycle, hnext, waitStep_waited, waited_waited, List.count_cons_self,
            List.range_succ_eq_map, List.map_cons, List.map_map]
          rfl
      | key key down =>
          rw [heedAll_keyEvents_key]
          exact ih (m := m.withKeypad (m.keypad.setKey key down)) hword hidle
      | render edit => cases hidle

/-- The wait for a key. Nothing happens but cycles and changes of keys. As long as no cycle finds a
key down, each one reports that it waits, without a new fault, and the state afterwards is the one
before with that many ticks of the timers, the keys as they were last changed, and the faults handed
out that were recorded before. The first cycle that finds keys down stores the lowest of them and
goes on. -/
theorem waitKey_blocks (hword : m.memory.word m.registers.pc.toNat = .ok word)
    (hgroup : Word.group word = 0xF) (hkk : Word.kk word = 0x0A) {activities : List Activity}
    (hidle : m.keypad.Idle activities) :
    let cycles := activities.count .cycle
    let left := (m.perform activities).2
    (m.perform activities).1 = (List.range cycles).map (m.waitStep (Word.x word)) ∧
    left = m.waited cycles left.keypad ∧
    (∀ key : Fin 16, left.keypad.isPressed (keyNumber key) =
      (InputEvent.levels key (keyEvents activities)).getLast?.getD
        (m.keypad.isPressed (keyNumber key))) ∧
    (left.keypad.anyPressed = true →
      ∃ key : Fin 16, left.keypad.isPressed (keyNumber key) = true ∧
        (∀ other : Fin 16, left.keypad.isPressed (keyNumber other) = true → key ≤ other) ∧
        left.cycle = (m.waitStep (Word.x word) cycles,
          { left with
            registers := ((m.registers.elapse (cycles + 1)).setV (Word.x word)
              (keyNumber key)).setPc (m.registers.pc + 2)
            faults := [] })) := by
  intro cycles left
  have hrun := perform_idle hword hgroup hkk hidle
  have hleft : left = m.waited cycles (m.keypad.heedAll (keyEvents activities)) :=
    congrArg Prod.snd hrun
  refine ⟨congrArg Prod.fst hrun, ?_, ?_, ?_⟩
  · rw [hleft]
    rfl
  · intro key
    rw [hleft]
    exact m.keypad.isPressed_heedAll (keyEvents activities) key
  · intro hpressed
    rw [hleft] at hpressed ⊢
    obtain ⟨key, hdown, hleast, hcycle⟩ :=
      cycle_of_pressed (m := m.waited cycles _) hword hgroup hkk hpressed
    refine ⟨key, hdown, hleast, hcycle.trans ?_⟩
    rw [← Registers.elapse_elapse]
    rfl

/-- Two cycles without a key, then two keys down of which the lower one is named by a number past
fifteen, and one pressed and released again. -/
theorem waitKey_blocks_released :
    let m := ((new {} (RandomSource.ofSeed 1)).loadProgram (.ofBytes [0xF5, 0x0A])).2
    let activities : List Activity := [.cycle, .cycle, .key 0xB true, .key 2 true, .key 0x17 true,
      .key 0x12 false]
    let left := (m.perform activities).2
    m.memory.word m.registers.pc.toNat = .ok 0xF50A ∧ Word.group 0xF50A = 0xF ∧
      Word.kk 0xF50A = 0x0A ∧ m.keypad.Idle activities ∧ left.keypad.anyPressed = true ∧
      left.cycle.2.registers.v 5 = 7 ∧ left.cycle.2.registers.pc = 0x202 := by
  intro m activities
  dsimp only
  have hm : m = (new {} (RandomSource.ofSeed 1)).loaded [0xF5, 0x0A] :=
    snd_loadProgram_ofBytes _ (by decide)
  have hregisters : m.registers = Registers.new := by rw [hm, registers_loaded]
  have hkeypad : m.keypad = Keypad.clear := by
    rw [hm, keypad_loaded]
  have hword : m.memory.word m.registers.pc.toNat = .ok 0xF50A := by
    rw [hm]
    exact word_pair _ 0xF5 0x0A
  clear_value m
  have hidle : m.keypad.Idle activities := by
    rw [hkeypad]
    exact ⟨by decide, by decide, trivial⟩
  obtain ⟨-, -, -, htaken⟩ := waitKey_blocks hword (by decide) (by decide) hidle
  have hkeys : (m.perform activities).2.keypad = Keypad.clear.heedAll (keyEvents activities) := by
    rw [perform_idle hword (by decide) (by decide) hidle, hkeypad]
    rfl
  have hpressed : (m.perform activities).2.keypad.anyPressed = true := by
    rw [hkeys]
    decide
  obtain ⟨key, hdown, hleast, hcycle⟩ := htaken hpressed
  rw [hkeys] at hdown hleast
  have hlowest : ∀ key : Fin 16,
      (Keypad.clear.heedAll (keyEvents activities)).isPressed (keyNumber key) = true →
      key ≤ 7 → key = 7 := by
    decide
  obtain rfl := hlowest key hdown (hleast 7 (by decide))
  refine ⟨hword, by decide, by decide, hidle, hpressed, ?_, ?_⟩
  · rw [hcycle]
    exact Registers.v_setV_self _ 5 7
  · rw [hcycle, hregisters]
    rfl

/-- A fault that was recorded before the wait and not handed out leaves with its first cycle. -/
theorem pending_wait :
    let loaded := ((new {} (RandomSource.ofSeed 1)).loadProgram (.ofBytes [0xF5, 0x0A])).2
    let m := (loaded.execute (.unknown 0x1234)).2
    m.memory.word m.registers.pc.toNat = .ok 0xF50A ∧ m.keypad.anyPressed = false ∧
      m.cycle.1.faults = [.unknownOpcode 0x1234] ∧ m.faults = [.unknownOpcode 0x1234] ∧
      m.cycle.2.faults = [] := by
  intro loaded m
  have hloaded : loaded = (new {} (RandomSource.ofSeed 1)).loaded [0xF5, 0x0A] :=
    snd_loadProgram_ofBytes _ (by decide)
  have hfaults : loaded.faults = [] := by rw [hloaded, faults_loaded]
  have hup : loaded.keypad.anyPressed = false := by
    rw [hloaded, keypad_loaded]
    decide
  have hread : loaded.memory.word loaded.registers.pc.toNat = .ok 0xF50A := by
    rw [hloaded]
    exact word_pair _ 0xF5 0x0A
  clear_value loaded
  have hidle : m.keypad.anyPressed = false := hup
  have hword : m.memory.word m.registers.pc.toNat = .ok 0xF50A := hread
  have hfault : m.faults = [.unknownOpcode 0x1234] := by
    show loaded.faults ++ _ = _
    rw [hfaults]
    rfl
  have hcycle := cycle_of_idle hword (by decide) (by decide) hidle
  refine ⟨hword, hidle, ?_, hfault, ?_⟩
  · rw [hcycle]
    exact hfault
  · rw [hcycle]
    rfl

end Machine

end Schip
