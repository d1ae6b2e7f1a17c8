import Schip.Proofs.Machine.Loading
import Schip.Proofs.Machine.Setting
import Schip.Proofs.Scheduler.Operation

/-!
# The loop of the worker

Everything that happens to a scheduler whose worker runs in its loop: slots, control operations,
another user of the machine failing while it holds the lock, and the end. A slot that fails ends the
worker. `work_cases` says what a slot of the loop can do.

A run can also be followed slot by slot: a worker that is `Poised` on known memory and registers
executes the instruction that is known to be there (`Poised.slot`), or finds that there is none
(`Poised.slot_of_miss`).
-/

set_option autoImplicit false

namespace Schip

/-- What can happen to a scheduler whose worker runs. -/
inductive Incident where
  /-- A slot of the worker's loop in which the keypad shows the given keys. -/
  | slot (keys : Keypad)
  | control (control : Control)
  /-- Another user of the machine fails while holding it. -/
  | poison
  | stop
  deriving DecidableEq

namespace Scheduler

section Loop

variable {σ : Type} [Sound σ] {s : Scheduler σ}

/-- Scheduler after an incident. -/
def undergo (s : Scheduler σ) : Incident → Scheduler σ
  | .slot keys => (s.showKeys keys).work
  | .control control => (s.control control).2
  | .poison => s.poison
  | .stop => s.stop.2

/-- Scheduler after incidents in order. -/
def undergoAll (s : Scheduler σ) (incidents : List Incident) : Scheduler σ :=
  incidents.foldl undergo s

theorem undergoAll_cons (s : Scheduler σ) (incident : Incident) (rest : List Incident) :
    s.undergoAll (incident :: rest) = (s.undergo incident).undergoAll rest := rfl

theorem running_stop (s : Scheduler σ) : s.stop.2.running = false := by
  cases hrunning : s.running <;> simp [stop, hrunning]

theorem work_of_sound (hrunning : s.running = true) {report : TickReport} {next : Scheduler σ}
    (htick : s.tick = (.ok report, next)) : s.work = next := by
  simp only [work, hrunning, htick, if_true]

theorem work_of_ended (hended : s.running = false) : s.work = s := by
  simp [work, hended]

theorem work_of_poisoned (hrunning : s.running = true) (hp : s.poisoned = true) :
    s.work = s.stop.2 := by
  simp only [work, hrunning, tick_eq_of_poisoned hp, if_true]

theorem work_of_active (hrunning : s.running = true) (hp : s.poisoned = false)
    (hactive : s.isActive = true) : s.work = s.aged.activeSlot.2 :=
  work_of_sound hrunning (tick_eq_of_active hp hactive)

theorem work_of_idle (hrunning : s.running = true) (hp : s.poisoned = false)
    (hidle : s.isActive = false) : s.work = s.aged.idleSlot.2 :=
  work_of_sound hrunning (tick_eq_of_idle hp hidle)

/-- Everything that a slot of the worker's loop can do. -/
theorem work_cases (s : Scheduler σ) :
    (s.running = false ∧ s.work = s) ∨
      (s.running = true ∧ s.poisoned = true ∧ s.work = s.stop.2) ∨
      (s.running = true ∧ s.poisoned = false ∧ s.isActive = true ∧
        s.tick = (.ok s.aged.activeSlot.1, s.work) ∧ s.work = s.aged.activeSlot.2) ∨
      (s.running = true ∧ s.poisoned = false ∧ s.isActive = false ∧
        s.work = s.aged.idleSlot.2) := by
  cases hrunning : s.running with
  | false => exact Or.inl ⟨rfl, work_of_ended hrunning⟩
  | true =>
      cases hp : s.poisoned with
      | true => exact Or.inr (Or.inl ⟨rfl, rfl, work_of_poisoned hrunning hp⟩)
      | false =>
          cases hactive : s.isActive with
          | true =>
              have hwork := work_of_active hrunning hp hactive
              have htick := tick_eq_of_active hp hactive
              exact Or.inr (Or.inr (Or.inl ⟨rfl, rfl, rfl, by rw [htick, hwork], hwork⟩))
          | false =>
              have hwork := work_of_idle hrunning hp hactive
              exact Or.inr (Or.inr (Or.inr ⟨rfl, rfl, rfl, hwork⟩))

/-- A cycle keeps the stored program, and so does the reset at the end of the program. -/
theorem program_activeSlot (s : Scheduler σ) :
    s.activeSlot.2.machine.program = s.machine.program := by
  rw [activeSlot_eq, ← Machine.program_cycle s.machine]
  show (settle _ s.machine.cycle.2).program = s.machine.cycle.2.program
  rw [settle]
  split
  · rfl
  · rfl

/-- The worker does not outlive a slot that finds the lock poisoned. -/
theorem running_work_of_poisoned (hp : s.poisoned = true) : s.work.running = false := by
  rcases s.work_cases with ⟨hended, heq⟩ | ⟨-, -, heq⟩ | ⟨-, hsound, -⟩ | ⟨-, hsound, -⟩
  · rw [heq]
    exact hended
  · rw [heq]
    exact running_stop s
  · exact absurd (hp.symm.trans hsound) (by decide)
  · exact absurd (hp.symm.trans hsound) (by decide)

end Loop

/-! ## Slots in a known state -/

section Known

variable {σ : Type} {s : Scheduler σ} {mem : Memory} {registers : Registers}

/-- The worker is about to run a cycle on known memory and registers. -/
structure Poised (s : Scheduler σ) (mem : Memory) (registers : Registers) : Prop where
  running : s.running = true
  poisoned : s.poisoned = false
  active : s.isActive = true
  memory : s.machine.memory = mem
  registers : s.machine.registers = registers

/-- Start with a program in place. -/
theorem poised_of_spawn {machine blank : Machine} {program : List UInt8} {sound : σ}
    {speed : Float} (hmachine : machine = blank.loaded program)
    (hspawn : spawn machine false sound speed = .ok s) :
    s.Poised (blank.loaded program).memory Registers.new := by
  rw [eq_started_of_spawn hspawn, hmachine]
  exact ⟨rfl, rfl, rfl, rfl, rfl⟩

theorem Poised.showKeys (h : s.Poised mem registers) (keys : Keypad) :
    (s.showKeys keys).Poised mem registers :=
  ⟨h.running, h.poisoned, h.active, h.memory, h.registers⟩

theorem Poised.aged (h : s.Poised mem registers) : s.aged.Poised mem registers :=
  ⟨h.running, h.poisoned, h.active, h.memory, h.registers⟩

/-- With the word at the program counter known, the cycle executes what it decodes to. -/
theorem Poised.fetchExecute (h : s.Poised mem registers) {word : UInt16}
    (hword : mem.word registers.pc.toNat = .ok word) :
    s.machine.fetchExecute = (some (Instruction.decode word),
      Machine.outcome registers (Instruction.decode word),
      s.machine.effect (Instruction.decode word)) := by
  have hfetch : s.machine.memory.word s.machine.registers.pc.toNat = .ok word := by
    rw [h.memory, h.registers, hword]
  rw [Machine.fetchExecute_of_word hfetch, Machine.execute, h.registers]

variable [Sound σ]

/-- A worker that is about to run a cycle runs it. -/
theorem Poised.work (h : s.Poised mem registers) :
    (∃ tones events, s.tick = (.ok ⟨some s.aged.machine.cycle.1, tones, events⟩, s.work)) ∧
      s.work = s.aged.activeSlot.2 := by
  rcases s.work_cases with ⟨hended, -⟩ | ⟨-, hp, -⟩ | ⟨-, -, -, htick, heq⟩ | ⟨-, -, hidle, -⟩
  · exact absurd (h.running.symm.trans hended) (by decide)
  · exact absurd (h.poisoned.symm.trans hp) (by decide)
  · exact ⟨⟨_, _, htick⟩, heq⟩
  · exact absurd (h.active.symm.trans hidle) (by decide)

/-- A cycle with an instruction that concerns nothing but registers. -/
theorem Poised.activeSlot (h : s.Poised mem registers) {word : UInt16}
    (change : Registers → Registers) (hword : mem.word registers.pc.toNat = .ok word)
    (heffect : ∀ m : Machine, m.effect (Instruction.decode word) =
      m.withRegisters (change m.registers))
    (hgoes : Machine.outcome registers (Instruction.decode word) ≠ .exit) :
    s.activeSlot.2.Poised mem (change registers).tickTimers.advance ∧
      s.activeSlot.2.sound =
        (ToneCall.afterCycle (Machine.outcome registers (Instruction.decode word))
          (change registers).tickTimers.sound s.sound).2 := by
  have hexecute := h.fetchExecute hword
  rw [heffect, h.registers] at hexecute
  have hactive := h.active
  simp only [isActive, Bool.and_eq_true, Bool.not_eq_true'] at hactive
  rw [activeSlot_eq, Machine.cycle_eq, hexecute]
  simp only [settle, if_neg hgoes]
  refine ⟨⟨h.running, h.poisoned, ?_, h.memory, rfl⟩, rfl⟩
  simp [isActive, hactive, hgoes]

theorem Poised.slot (h : s.Poised mem registers) {word : UInt16} (change : Registers → Registers)
    (hword : mem.word registers.pc.toNat = .ok word)
    (heffect : ∀ m : Machine, m.effect (Instruction.decode word) =
      m.withRegisters (change m.registers))
    (hgoes : Machine.outcome registers (Instruction.decode word) ≠ .exit) (keys : Keypad) :
    (s.undergo (.slot keys)).Poised mem (change registers).tickTimers.advance ∧
      (s.undergo (.slot keys)).sound =
        (ToneCall.afterCycle (Machine.outcome registers (Instruction.decode word))
          (change registers).tickTimers.sound s.sound).2 := by
  have hwork : s.undergo (.slot keys) = (s.showKeys keys).aged.activeSlot.2 :=
    (h.showKeys keys).work.2
  rw [hwork]
  exact (h.showKeys keys).aged.activeSlot change hword heffect hgoes

/-- A cycle that ends the program. -/
theorem Poised.activeSlot_of_exit (h : s.Poised mem registers) {word : UInt16}
    (hword : mem.word registers.pc.toNat = .ok word)
    (hexit : Instruction.decode word = .exit) :
    ∃ sent, s.activeSlot.2.events = s.events ++ sent ∧ .exited ∈ sent := by
  have hexecute := h.fetchExecute hword
  rw [hexit] at hexecute
  have houtcome : s.machine.cycle.1.outcome = .exit := by
    rw [Machine.cycle_eq, hexecute]
    rfl
  rw [activeSlot_eq]
  exact ⟨s.machine.cycle.1.events, rfl, by simp [houtcome, Step.events]⟩

/-- The end of the program is among the events of the slot that executes it. -/
theorem Poised.slot_of_exit (h : s.Poised mem registers) {word : UInt16}
    (hword : mem.word registers.pc.toNat = .ok word)
    (hexit : Instruction.decode word = .exit) (keys : Keypad) :
    ∃ sent, (s.undergo (.slot keys)).events = s.events ++ sent ∧ .exited ∈ sent := by
  have hwork : s.undergo (.slot keys) = (s.showKeys keys).aged.activeSlot.2 :=
    (h.showKeys keys).work.2
  rw [hwork]
  exact (h.showKeys keys).aged.activeSlot_of_exit hword hexit

/-- A cycle that finds no whole word at the program counter. -/
theorem Poised.activeSlot_of_miss (h : s.Poised mem registers)
    (hmiss : 4096 < registers.pc.toNat + 2) :
    s.machine.cycle.1.instruction = none ∧ s.activeSlot.2.sound =
      (ToneCall.afterCycle .proceed registers.tickTimers.sound s.sound).2 := by
  have hword : mem.word registers.pc.toNat = .error (Memory.missAt registers.pc.toNat) :=
    dif_neg (by omega)
  have hfetch : s.machine.fetch =
      (none, s.machine.record (Memory.missAt registers.pc.toNat)) := by
    simp only [Machine.fetch, h.memory, h.registers, hword]
  have hexecute := Machine.fetchExecute_of_none (congrArg Prod.fst hfetch)
  rw [hfetch] at hexecute
  rw [activeSlot_eq, Machine.cycle_eq, hexecute]
  refine ⟨rfl, ?_⟩
  rw [← h.registers]
  rfl

/-- A cycle whose fetch fails ticks the timers all the same, and its report names no instruction. -/
theorem Poised.slot_of_miss (h : s.Poised mem registers) (hmiss : 4096 < registers.pc.toNat + 2)
    (keys : Keypad) :
    (s.undergo (.slot keys)).sound =
        (ToneCall.afterCycle .proceed registers.tickTimers.sound s.sound).2 ∧
      ∃ step tones events, (s.showKeys keys).tick =
        (.ok ⟨some step, tones, events⟩, s.undergo (.slot keys)) ∧ step.instruction = none := by
  obtain ⟨hnone, hsound⟩ := (h.showKeys keys).aged.activeSlot_of_miss hmiss
  obtain ⟨⟨tones, events, htick⟩, hwork⟩ := (h.showKeys keys).work
  have hslot : s.undergo (.slot keys) = (s.showKeys keys).aged.activeSlot.2 := hwork
  refine ⟨?_, _, tones, events, htick, hnone⟩
  rw [hslot]
  exact hsound

end Known

end Scheduler

end Schip
