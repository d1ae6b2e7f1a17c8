import Schip.Scheduler.Tick

/-!
# Operations on a scheduler

The alphabet of everything that happens to a scheduler between its start and its end: slots of the
worker and control operations of the application. A slot carries the keys that the keypad shows in
it. Keys are set from outside at any time, and nothing but the instruction of a slot reads them, so
a sequence of these operations covers every order of slots, control operations and key changes.

A scheduler starts as `started`. `tick_cases` says what a slot can do to it; `activeSlot_eq` names
the parts of a slot with a cycle. `reset_of_sound`, `restart_of_sound`, `reload_of_sound` and
`loadFile_of_sound` say the same of the control operations that touch the machine.
-/

set_option autoImplicit false

namespace Schip

/-- Operation on a scheduler. -/
inductive Operation where
  /-- A slot of the worker in which the keypad shows the given keys. -/
  | tick (keys : Keypad)
  | control (control : Control)
  deriving DecidableEq

namespace Scheduler

variable {σ : Type}

/-- Scheduler at its start. -/
def started (machine : Machine) (sound : σ) (speed : Float) : Scheduler σ where
  machine := machine
  poisoned := false
  running := true
  paused := false
  halted := !machine.hasProgram
  pacer := Pacer.new machine.paceScale speed
  sound := sound
  events := []

theorem spawn_started (machine : Machine) (sound : σ) (speed : Float) :
    spawn machine false sound speed = .ok (started machine sound speed) := rfl

/-- Where the worker can be started, the scheduler is at its start. -/
theorem eq_started_of_spawn {machine : Machine} {poisoned : Bool} {sound : σ} {speed : Float}
    {s : Scheduler σ} (h : spawn machine poisoned sound speed = .ok s) :
    s = started machine sound speed := by
  cases poisoned <;> cases h
  rfl

/-- Being halted shows before being paused. -/
theorem state_eq_halted_iff {s : Scheduler σ} : s.state = .halted ↔ s.halted = true := by
  rw [state]
  cases s.halted <;> cases s.paused <;> decide

/-- The state that a user sees as running is the one in which slots run cycles. -/
theorem state_eq_running_iff {s : Scheduler σ} : s.state = .running ↔ s.isActive = true := by
  rw [state, isActive]
  cases s.halted <;> cases s.paused <;> decide

theorem state_eq_paused_iff {s : Scheduler σ} :
    s.state = .paused ↔ s.isActive = false ∧ s.halted = false := by
  rw [state, isActive]
  cases s.halted <;> cases s.paused <;> decide

theorem lock_of_poisoned {s : Scheduler σ} (h : s.poisoned = true) :
    s.lock = .error (.poisoned MachineError.poisonReason) := by
  simp [lock, h]

theorem lock_of_sound {s : Scheduler σ} (h : s.poisoned = false) : s.lock = .ok s.machine := by
  simp [lock, h]

/-! ## Control operations that touch the machine -/

/-- Whether a program runs after a restart with the given answer. -/
def restarted : Except MachineError Bool → Bool
  | .ok again => again
  | .error _ => false

theorem reset_of_sound {s : Scheduler σ} (h : s.poisoned = false) :
    s.reset = (.ok (), { s with machine := s.machine.reset, halted := true }) := by
  rw [reset, lock_of_sound h]

theorem restart_of_sound {s : Scheduler σ} (h : s.poisoned = false) :
    s.restart = (s.machine.restart.1,
      { s with machine := s.machine.restart.2, halted := !restarted s.machine.restart.1 }) := by
  simp only [restart, lock_of_sound h]
  rcases s.machine.restart with ⟨_ | _, _⟩ <;> rfl

/-- After a load the scheduler is halted exactly if the load failed. -/
theorem afterLoad_eq (s : Scheduler σ) (loaded : Except MachineError Nat × Machine) :
    s.afterLoad loaded =
      (loaded.1, { s with machine := loaded.2, halted := !loaded.1.isOk }) := by
  rcases loaded with ⟨_ | _, _⟩ <;> rfl

theorem reload_of_sound {s : Scheduler σ} (h : s.poisoned = false) (program : List UInt8) :
    s.reload program = s.afterLoad (s.machine.loadProgram (.ofBytes program)) := by
  rw [reload, lock_of_sound h]

theorem loadFile_of_sound {s : Scheduler σ} (h : s.poisoned = false) (file : ProgramFile) :
    s.loadFile file = s.afterLoad (s.machine.loadFile file) := by
  rw [loadFile, lock_of_sound h]

theorem snd_reply {α : Type} (wrap : α → Reply) (answer : Except MachineError α × Scheduler σ) :
    (reply wrap answer).2 = answer.2 := by
  rcases answer with ⟨_ | _, _⟩ <;> rfl

end Scheduler

/-- Whether a control operation takes the lock on the machine. -/
def Control.locks : Control → Bool
  | .pause | .resume | .togglePause => false
  | _ => true

namespace Scheduler

variable {σ : Type}

/-- A control operation that needs the lock has no effect when the lock is poisoned. -/
theorem control_of_poisoned {s : Scheduler σ} (h : s.poisoned = true) {control : Control}
    (hlocks : control.locks = true) : (s.control control).2 = s := by
  cases control with
  | pause | resume | togglePause => cases hlocks
  | reset => simp only [Scheduler.control, snd_reply, reset, lock_of_poisoned h]
  | restart => simp only [Scheduler.control, snd_reply, restart, lock_of_poisoned h]
  | reload program => simp only [Scheduler.control, snd_reply, reload, lock_of_poisoned h]
  | loadFile file => simp only [Scheduler.control, snd_reply, loadFile, lock_of_poisoned h]

/-- Control operations leave the lock, the worker and its device alone. -/
theorem control_frame (s : Scheduler σ) (control : Control) :
    (s.control control).2.poisoned = s.poisoned ∧ (s.control control).2.running = s.running ∧
      (s.control control).2.sound = s.sound := by
  cases control with
  | pause | resume | togglePause => exact ⟨rfl, rfl, rfl⟩
  | reset | restart | reload | loadFile =>
      cases hp : s.poisoned with
      | true =>
          rw [control_of_poisoned hp rfl]
          exact ⟨hp, rfl, rfl⟩
      | false =>
          simp only [Scheduler.control, snd_reply, reset_of_sound hp, restart_of_sound hp,
            reload_of_sound hp, loadFile_of_sound hp, afterLoad_eq, hp, and_self]

/-! ## Slots and sequences of operations -/

/-- Scheduler whose machine has the given keys down. -/
def showKeys (s : Scheduler σ) (keys : Keypad) : Scheduler σ :=
  { s with machine := s.machine.withKeypad keys }

/-- Scheduler whose afterglow is one update on. -/
def aged (s : Scheduler σ) : Scheduler σ := { s with machine := faded s.machine }

variable [Sound σ]

/-- Scheduler after an operation. -/
def operate (s : Scheduler σ) : Operation → Scheduler σ
  | .tick keys => (s.showKeys keys).tick.2
  | .control control => (s.control control).2

/-- Scheduler after operations in order. -/
def operateAll (s : Scheduler σ) (operations : List Operation) : Scheduler σ :=
  operations.foldl operate s

theorem operateAll_cons (s : Scheduler σ) (operation : Operation) (rest : List Operation) :
    s.operateAll (operation :: rest) = (s.operate operation).operateAll rest := rfl

theorem operateAll_append (s : Scheduler σ) (operations rest : List Operation) :
    s.operateAll (operations ++ rest) = (s.operateAll operations).operateAll rest :=
  List.foldl_append

theorem operateAll_snoc (s : Scheduler σ) (operations : List Operation) (operation : Operation) :
    s.operateAll (operations ++ [operation]) = (s.operateAll operations).operate operation := by
  rw [operateAll_append]
  rfl

/-- The parts of a slot with a cycle: report of the cycle, machine after it, requests and device. -/
theorem activeSlot_eq (s : Scheduler σ) :
    s.activeSlot.2 =
      { s with
        machine := settle s.machine.cycle.1.outcome s.machine.cycle.2
        halted := s.halted || s.machine.cycle.1.outcome = .exit
        pacer := s.pacer.setPaceScale
          (settle s.machine.cycle.1.outcome s.machine.cycle.2).paceScale
        sound := (ToneCall.afterCycle s.machine.cycle.1.outcome
          (settle s.machine.cycle.1.outcome s.machine.cycle.2).registers.sound s.sound).2
        events := s.events ++ s.machine.cycle.1.events } := rfl

theorem idleSlot_eq (s : Scheduler σ) :
    s.idleSlot.2 = { s with sound := (ToneCall.silence s.sound).2 } := rfl

theorem tick_eq_of_poisoned {s : Scheduler σ} (h : s.poisoned = true) :
    s.tick = (.error (.poisoned MachineError.poisonReason), s) := by
  simp only [tick, lock_of_poisoned h]

/-- A slot of a running scheduler ages the screen and runs one cycle. -/
theorem tick_eq_of_active {s : Scheduler σ} (h : s.poisoned = false)
    (hactive : s.isActive = true) :
    s.tick = (.ok s.aged.activeSlot.1, s.aged.activeSlot.2) := by
  simp only [tick, lock_of_sound h, hactive, if_true, aged]

/-- A slot of a paused or halted scheduler ages the screen and silences the tone. -/
theorem tick_eq_of_idle {s : Scheduler σ} (h : s.poisoned = false) (hidle : s.isActive = false) :
    s.tick = (.ok s.aged.idleSlot.1, s.aged.idleSlot.2) := by
  simp only [tick, lock_of_sound h, hidle, Bool.false_eq_true, if_false, aged]

theorem tick_of_poisoned {s : Scheduler σ} (h : s.poisoned = true) : s.tick.2 = s := by
  rw [tick_eq_of_poisoned h]

theorem tick_of_active {s : Scheduler σ} (h : s.poisoned = false) (hactive : s.isActive = true) :
    s.tick.2 = s.aged.activeSlot.2 := by
  rw [tick_eq_of_active h hactive]

theorem tick_of_idle {s : Scheduler σ} (h : s.poisoned = false) (hidle : s.isActive = false) :
    s.tick.2 = s.aged.idleSlot.2 := by
  rw [tick_eq_of_idle h hidle]

/-- Everything that a slot can do to a scheduler. -/
theorem tick_cases (s : Scheduler σ) :
    (s.poisoned = true ∧ s.tick.2 = s) ∨
      (s.isActive = true ∧ s.tick.2 = s.aged.activeSlot.2) ∨
      (s.isActive = false ∧ s.tick.2 = s.aged.idleSlot.2) := by
  cases hp : s.poisoned with
  | true => exact Or.inl ⟨rfl, tick_of_poisoned hp⟩
  | false =>
      cases hactive : s.isActive with
      | true => exact Or.inr (Or.inl ⟨rfl, tick_of_active hp hactive⟩)
      | false => exact Or.inr (Or.inr ⟨rfl, tick_of_idle hp hactive⟩)

/-- A slot leaves the flag of the pause and the lock alone. -/
theorem tick_frame (s : Scheduler σ) (keys : Keypad) :
    (s.operate (.tick keys)).paused = s.paused ∧
      (s.operate (.tick keys)).poisoned = s.poisoned := by
  show (s.showKeys keys).tick.2.paused = (s.showKeys keys).paused ∧
    (s.showKeys keys).tick.2.poisoned = (s.showKeys keys).poisoned
  rcases (s.showKeys keys).tick_cases with ⟨-, heq⟩ | ⟨-, heq⟩ | ⟨-, heq⟩
  · rw [heq]
    exact ⟨rfl, rfl⟩
  · rw [heq, activeSlot_eq]
    exact ⟨rfl, rfl⟩
  · rw [heq, idleSlot_eq]
    exact ⟨rfl, rfl⟩

/-- No operation poisons the lock or takes the poison away. -/
theorem poisoned_operate (s : Scheduler σ) (operation : Operation) :
    (s.operate operation).poisoned = s.poisoned := by
  cases operation with
  | tick keys => exact (s.tick_frame keys).2
  | control control => exact (control_frame s control).1

/-- No sequence of operations poisons the lock or takes the poison away. -/
theorem poisoned_operateAll (s : Scheduler σ) (operations : List Operation) :
    (s.operateAll operations).poisoned = s.poisoned := by
  induction operations generalizing s with
  | nil => rfl
  | cons operation rest ih => rw [operateAll_cons, ih, poisoned_operate]

end Scheduler

end Schip
