import Schip.Proofs.Machine.GeneralRegisters
import Schip.Proofs.Machine.Subroutine

/-!
# Timers count cycles

A timer that nothing sets is a count of cycles: each one takes one from it until it is zero. What a
cycle executes does not matter, nor whether it finds an instruction at all; only the cycle that ends
the program leaves the timers alone (`timer_cycle`, `timer_perform`). `Registers.elapse` is both
timers some ticks later.

The tick comes after the instruction. So the cycle that sets the delay timer takes one from it at
once (`delay_cycle_of_setDelay`) and the one that reads it has not taken any
(`v_cycle_of_getDelay`): a program that reads the timer `n` cycles after it set it finds `n` taken
from the value (`timers_exact`).
-/

set_option autoImplicit false

namespace Schip

/-! ## Ticks -/

theorem toNat_countdown (timer : UInt8) : (countdown timer).toNat = timer.toNat - 1 := by
  rw [countdown]
  by_cases hzero : timer = 0
  · rw [if_pos hzero, hzero]
    rfl
  · have hone : (1 : UInt8) ≤ timer := by
      rw [UInt8.le_iff_toNat_le]
      exact Nat.one_le_iff_ne_zero.2 fun h => hzero (UInt8.toNat_inj.1 h)
    rw [if_neg hzero, UInt8.toNat_sub_of_le _ _ hone]
    rfl

/-- Value of a timer some ticks later. -/
def timerAfter (timer : UInt8) (ticks : Nat) : UInt8 := UInt8.ofNat (timer.toNat - ticks)

/-- A timer loses one for each tick and stops at zero. -/
theorem toNat_timerAfter (timer : UInt8) (ticks : Nat) :
    (timerAfter timer ticks).toNat = timer.toNat - ticks :=
  UInt8.toNat_ofNat_of_lt (Nat.lt_of_le_of_lt (Nat.sub_le _ _) timer.toNat_lt)

theorem timerAfter_timerAfter (timer : UInt8) (first second : Nat) :
    timerAfter (timerAfter timer first) second = timerAfter timer (first + second) := by
  rw [timerAfter, toNat_timerAfter, Nat.sub_sub, timerAfter]

theorem countdown_eq (timer : UInt8) : countdown timer = timerAfter timer 1 :=
  UInt8.toNat_inj.1 ((toNat_countdown timer).trans (toNat_timerAfter timer 1).symm)

/-- Registers some ticks of the timers later. -/
def Registers.elapse (r : Registers) (ticks : Nat) : Registers :=
  { r with delay := timerAfter r.delay ticks, sound := timerAfter r.sound ticks }

theorem Registers.elapse_zero (r : Registers) : r.elapse 0 = r := by
  rw [elapse, timerAfter, timerAfter, Nat.sub_zero, Nat.sub_zero, UInt8.ofNat_toNat,
    UInt8.ofNat_toNat]

theorem Registers.elapse_elapse (r : Registers) (first second : Nat) :
    (r.elapse first).elapse second = r.elapse (first + second) := by
  simp only [elapse, timerAfter_timerAfter]

theorem Registers.tickTimers_eq (r : Registers) : r.tickTimers = r.elapse 1 := by
  rw [tickTimers, countdown_eq, countdown_eq, elapse]

/-- Whether the instruction of a cycle sets a timer. -/
def Step.sets (step : Step) (timer : Timer) : Bool :=
  step.instruction.any fun instruction => instruction.sets timer

namespace Machine

variable {m : Machine} {timer : Timer} {activities : List Activity}

/-! ## One cycle -/

/-- A cycle that does not set a timer leaves it to the tick. -/
theorem timer_fetchExecute (hkept : m.cycle.1.sets timer = false) :
    m.fetchExecute.2.2.registers.timer timer = m.registers.timer timer := by
  cases hfetch : m.fetch.1 with
  | none => rw [fetchExecute_of_none hfetch, registers_fetch]
  | some instruction =>
      have hins : m.cycle.1.instruction = some instruction := by
        rw [cycle_eq, fetchExecute_of_some hfetch]
      rw [Step.sets, hins, Option.any_some] at hkept
      rw [fetchExecute_of_some hfetch, ← m.registers_fetch]
      exact m.fetch.2.timer_effect timer hkept

/-- A cycle takes one from a timer that it does not set, unless it ends the program. -/
theorem timer_cycle (hgoes : m.cycle.1.instruction ≠ some .exit)
    (hkept : m.cycle.1.sets timer = false) :
    (m.cycle.2.registers.timer timer).toNat = (m.registers.timer timer).toNat - 1 := by
  have houtcome : m.cycle.1.outcome ≠ .exit := fun hexit => hgoes (m.exit_iff.2 hexit)
  rw [m.timer_cycle_of_goes timer houtcome, timer_fetchExecute hkept, toNat_countdown]

/-- The cycle that sets the delay timer takes one from it already. -/
theorem delay_cycle_of_setDelay {x : Nat} (h : m.cycle.1.instruction = some (.setDelay x)) :
    m.cycle.2.registers.delay.toNat = (m.registers.v x).toNat - 1 := by
  obtain ⟨word, hword, hdecode⟩ := exists_word_of_instruction h
  rw [registers_cycle hword (by rw [hdecode]; exact Outcome.noConfusion), hdecode]
  exact toNat_countdown (m.registers.v x)

/-- The cycle that reads the delay timer has not taken anything from it yet. -/
theorem v_cycle_of_getDelay {x : Nat} (h : m.cycle.1.instruction = some (.getDelay x)) :
    m.cycle.2.registers.v x = m.registers.delay := by
  obtain ⟨word, hword, hdecode⟩ := exists_word_of_instruction h
  rw [registers_cycle hword (by rw [hdecode]; exact Outcome.noConfusion), hdecode]
  exact m.registers.v_setV_self x m.registers.delay

/-! ## Runs -/

/-- No cycle of a run executes the instruction that ends the program. -/
def GoesOn (m : Machine) (activities : List Activity) : Prop :=
  ∀ step ∈ (m.perform activities).1, step.instruction ≠ some .exit

/-- No cycle of a run executes the instruction that sets a timer. -/
def Keeps (m : Machine) (timer : Timer) (activities : List Activity) : Prop :=
  ∀ step ∈ (m.perform activities).1, step.sets timer = false

/-- A run takes one from a timer for each of its cycles. -/
theorem timer_perform (timer : Timer) (hgoes : m.GoesOn activities)
    (hkept : m.Keeps timer activities) :
    ((m.perform activities).2.registers.timer timer).toNat =
      (m.registers.timer timer).toNat - activities.count .cycle := by
  induction activities generalizing m with
  | nil => rfl
  | cons activity rest ih =>
      cases activity with
      | cycle =>
          obtain ⟨hgoesFirst, hgoesRest⟩ := List.forall_mem_cons.1 hgoes
          obtain ⟨hkeptFirst, hkeptRest⟩ := List.forall_mem_cons.1 hkept
          have hrest := ih hgoesRest hkeptRest
          have hfirst := timer_cycle hgoesFirst hkeptFirst
          rw [List.count_cons_self, Nat.add_comm, ← Nat.sub_sub, ← hfirst]
          exact hrest
      -- neither keys nor the display have to do with the registers
      | key key down => exact ih hgoes hkept
      | render edit => exact ih hgoes hkept

/-- In a run that no cycle ends, a timer that no cycle sets has lost one for each cycle or is zero.
A delay timer that is set in one cycle and read in a later one, and not set in between, has lost one
for each cycle in between and one more. -/
theorem timers_exact (m : Machine) :
    (∀ activities : List Activity, m.GoesOn activities →
      let left := (m.perform activities).2
      (m.Keeps .delay activities → left.registers.delay.toNat =
        m.registers.delay.toNat - activities.count .cycle) ∧
      (m.Keeps .sound activities → left.registers.sound.toNat =
        m.registers.sound.toNat - activities.count .cycle)) ∧
    ∀ (x y : Nat) (between : List Activity), m.cycle.1.instruction = some (.setDelay x) →
      m.cycle.2.GoesOn between → m.cycle.2.Keeps .delay between →
      let reading := (m.cycle.2.perform between).2
      reading.cycle.1.instruction = some (.getDelay y) →
      (reading.cycle.2.registers.v y).toNat =
        (m.registers.v x).toNat - (between.count .cycle + 1) := by
  refine ⟨fun activities hgoes => ⟨?_, ?_⟩, ?_⟩
  · exact timer_perform .delay hgoes
  · exact timer_perform .sound hgoes
  · intro x y between hset hgoes hkept reading hget
    have hcounted : reading.registers.delay.toNat =
        m.cycle.2.registers.delay.toNat - between.count .cycle :=
      timer_perform .delay hgoes hkept
    rw [v_cycle_of_getDelay hget, hcounted, delay_cycle_of_setDelay hset, Nat.sub_sub,
      Nat.add_comm]

/-- A delay timer set to five and, one other cycle and a key that goes down later, read. -/
theorem set_then_read (hfaults : m.faults = []) (hset : m.memory.word 0x200 = .ok 0xFA15)
    (hadd : m.memory.word 0x202 = .ok 0x7B01) (hget : m.memory.word 0x204 = .ok 0xFB07) :
    let start := m.withRegisters ({ Registers.new with sound := 1 }.setV 10 5)
    let between : List Activity := [.cycle, .key 5 true]
    start.cycle.1.instruction = some (.setDelay 10) ∧
      (∀ step ∈ (start.cycle.2.perform between).1, step.instruction = some (.addImm 11 1)) ∧
      (start.cycle.2.perform between).2.cycle.1.instruction = some (.getDelay 11) ∧
      start.cycle.2.registers.sound = 0 := by
  intro start between
  let pressed := m.withKeypad (m.keypad.setKey 5 true)
  let first : Registers := { Registers.new with sound := 1 }.setV 10 5
  let second : Registers := (first.setDelay 5).tickTimers.advance
  let third : Registers := (second.setV 11 1).tickTimers.advance
  obtain ⟨hfirst, harmed⟩ := cycle_withRegisters hfaults first (first.setDelay 5) (.setDelay 10)
    hset (by decide) rfl (by decide)
  obtain ⟨hsecond, hcounted⟩ := cycle_withRegisters hfaults second (second.setV 11 1)
    (.addImm 11 1) hadd (by decide) rfl (by decide)
  obtain ⟨hthird, -⟩ := cycle_withRegisters (m := pressed) hfaults third
    (third.setV 11 third.delay) (.getDelay 11) hget (by decide) rfl (by decide)
  have hreading : ((m.withRegisters second).perform between).2 = pressed.withRegisters third := by
    simp only [between, perform, act, hcounted]
    rfl
  have hentered : start.cycle.2 = m.withRegisters second := harmed
  rw [hentered, hreading]
  refine ⟨hfirst, fun step hstep => ?_, hthird, ?_⟩
  · obtain rfl : step = (m.withRegisters second).cycle.1 := List.mem_singleton.1 hstep
    exact hsecond
  · show second.sound = 0
    decide

/-- A delay timer set to five, one other cycle and a key that goes down, and the timer read: two
taken. The sound timer stood at one and stays at zero. -/
theorem timers_exact_two_later :
    let program : List UInt8 := [0xFA, 0x15, 0x7B, 0x01, 0xFB, 0x07]
    let loaded := ((new {} (RandomSource.ofSeed 1)).loadProgram (.ofBytes program)).2
    let m := loaded.withRegisters ({ Registers.new with sound := 1 }.setV 10 5)
    let between : List Activity := [.cycle, .key 5 true]
    let reading := (m.cycle.2.perform between).2
    m.cycle.1.instruction = some (.setDelay 10) ∧ m.cycle.2.GoesOn between ∧
      m.cycle.2.Keeps .delay between ∧ m.cycle.2.Keeps .sound between ∧
      reading.cycle.1.instruction = some (.getDelay 11) ∧
      (reading.cycle.2.registers.v 11).toNat = 3 ∧ reading.registers.sound.toNat = 0 := by
  intro program loaded
  dsimp only
  have hloaded : loaded = (new {} (RandomSource.ofSeed 1)).loaded program :=
    snd_loadProgram_ofBytes _ (by decide)
  clear_value loaded
  have hword : ∀ i (h : i + 1 < program.length) address word, address = Memory.programBase + i →
      word = program[i].toUInt16 <<< 8 ||| program[i + 1].toUInt16 →
      loaded.memory.word address = .ok word := by
    rintro i h _ _ rfl rfl
    rw [hloaded]
    exact (new {} (RandomSource.ofSeed 1)).word_loaded h (by decide)
  have hfaults : loaded.faults = [] := by rw [hloaded, faults_loaded]
  obtain ⟨hset, hreports, hget, hzero⟩ := set_then_read hfaults
    (hword 0 (by decide) _ _ (by decide) (by decide))
    (hword 2 (by decide) _ _ (by decide) (by decide))
    (hword 4 (by decide) _ _ (by decide) (by decide))
  generalize hstart :
    loaded.withRegisters ({ Registers.new with sound := 1 }.setV 10 5) = start at *
  have hgoes : start.cycle.2.GoesOn [.cycle, .key 5 true] := by
    intro step hstep
    rw [hreports step hstep]
    exact fun h => Instruction.noConfusion (Option.some.inj h)
  have hkept : ∀ timer, start.cycle.2.Keeps timer [.cycle, .key 5 true] := by
    intro timer step hstep
    rw [Step.sets, hreports step hstep]
    rfl
  have hfive : start.registers.v 10 = 5 := by
    rw [← hstart]
    exact Registers.v_setV_self _ 10 5
  have hread := (timers_exact start).2 10 11 _ hset hgoes (hkept .delay) hget
  have hsound := ((timers_exact start.cycle.2).1 _ hgoes).2 (hkept .sound)
  rw [hfive] at hread
  rw [hzero] at hsound
  exact ⟨hset, hgoes, hkept .delay, hkept .sound, hget, hread, hsound⟩

end Machine

end Schip
