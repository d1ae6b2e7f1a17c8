import Schip.Proofs.Scheduler.Worker
import Schip.Session

/-!
# The end of a session

A session that ends by itself, without a failure and without being asked to, has received the end of
a program. As long as nobody starts the program again in the same iteration, the scheduler is halted
then: the end of a program halts it, and what happens to it up to its receipt lets it run again only
on a reset (`halted_iff_not_reset`). A reset in that very iteration starts the program again but
leaves the news of its end in place, so the session ends although the program runs
(`ends_while_running`).

`Current` is the invariant of the loop. `Current.beforePoll` and `Current.afterPoll` carry it
through an iteration, and the proof for whole sessions follows the turns.
-/

set_option autoImplicit false

namespace Schip

/-- A program is stored that can be loaded again. -/
def Machine.Restartable (m : Machine) : Prop :=
  ∃ program, m.program = some program ∧ program.length ≤ Memory.programLimit

namespace Session

/-- An end of the program that has not been received yet holds the scheduler halted, and there is a
program that can be loaded again. -/
structure Current {σ : Type} (s : Scheduler σ) : Prop where
  exited : .exited ∈ s.events → s.halted = true
  restartable : s.machine.Restartable

/-! ## Events received -/

/-- The end of a program among the events ends the session. -/
theorem receive_of_exited {events : List SchedulerEvent} (h : .exited ∈ events) :
    (receive events).1 = .finished := by
  induction events with
  | nil => cases h
  | cons event rest ih =>
      cases event with
      | fault pc fault => exact ih (by simpa using h)
      | exited => rfl

/-- Without the end of a program among them, all events are taken and the session goes on. -/
theorem receive_of_not_exited {events : List SchedulerEvent} (h : .exited ∉ events) :
    receive events = (.goOn, []) := by
  induction events with
  | nil => rfl
  | cons event rest ih =>
      cases event with
      | fault pc fault => exact ih fun hmem => h (List.mem_cons_of_mem _ hmem)
      | exited => exact absurd List.mem_cons_self h

/-! ## Work beside the loop -/

section Work

variable {σ : Type} [Sound σ] {s : Scheduler σ}

theorem restartable_tick (h : s.machine.Restartable) : s.tick.2.machine.Restartable := by
  rcases s.tick_cases with ⟨-, heq⟩ | ⟨-, heq⟩ | ⟨-, heq⟩
  · rw [heq]
    exact h
  · rw [heq, Machine.Restartable, Scheduler.program_activeSlot]
    exact h
  · rw [heq]
    exact h

/-- A slot keeps the session current: the cycle that sends the end of a program halts the
scheduler. -/
theorem Current.tick (h : Current s) : Current s.tick.2 := by
  refine ⟨?_, restartable_tick h.restartable⟩
  rcases s.tick_cases with ⟨-, heq⟩ | ⟨-, heq⟩ | ⟨-, heq⟩
  · rw [heq]
    exact h.exited
  · rw [heq, Scheduler.activeSlot_eq]
    intro hexited
    rcases List.mem_append.1 hexited with hbefore | hstep
    · simp [h.exited hbefore, Scheduler.aged]
    · have hexit : s.aged.machine.cycle.1.outcome = .exit := by
        simpa [Step.events] using hstep
      simp [hexit]
  · rw [heq]
    exact h.exited

theorem Current.ticks (h : Current s) (n : Nat) : Current (Scheduler.ticks n s) := by
  induction n generalizing s with
  | zero => exact h
  | succ n ih => exact ih h.tick

theorem Current.beforePoll (h : Current s) (turn : Turn) : Current (beforePoll s turn) := by
  rw [Session.beforePoll]
  cases turn.poisons with
  | true => exact ⟨(h.ticks turn.ticks).exited, (h.ticks turn.ticks).restartable⟩
  | false => exact h.ticks turn.ticks

end Work

/-! ## Iterations -/

section Iteration

variable {σ : Type} {s s' : Scheduler σ}

/-- A reset starts the program again. -/
theorem applyEvents_reset (hp : s.poisoned = false) {program : List UInt8}
    (hstored : s.machine.program = some program)
    (hfits : program.length ≤ Memory.programLimit) (rest : List InputEvent) :
    applyEvents s (.reset :: rest) =
      applyEvents { s with machine := s.machine.loaded program, halted := false } rest := by
  have hrestart : s.restart =
      (.ok true, { s with machine := s.machine.loaded program, halted := false }) := by
    rw [Scheduler.restart_of_sound hp, Machine.restart_of_fits hstored hfits]
    rfl
  simp only [applyEvents, hrestart]

/-- What input events that do not end the session leave: the scheduler events as they were, and a
running program if there was a reset among them. -/
theorem applyEvents_of_goOn {events : List InputEvent}
    (h : applyEvents s events = (.ok .goOn, s'))
    (hprogram : s.machine.Restartable) :
    s'.events = s.events ∧ s'.machine.Restartable ∧
      s'.halted = (s.halted && !decide (.reset ∈ events)) := by
  induction events generalizing s with
  | nil =>
      cases h
      exact ⟨rfl, hprogram, by simp⟩
  | cons event rest ih =>
      cases event with
      | keyDown key | keyUp key | togglePause =>
          obtain ⟨hevents, hprogram', hhalted⟩ := ih h hprogram
          exact ⟨hevents, hprogram',
            by simpa [Scheduler.setKey, Scheduler.togglePause] using hhalted⟩
      | reset =>
          cases hp : s.poisoned with
          | true =>
              simp only [applyEvents, Scheduler.restart, Scheduler.lock_of_poisoned hp] at h
              cases h
          | false =>
              obtain ⟨program, hstored, hfits⟩ := hprogram
              rw [applyEvents_reset hp hstored hfits] at h
              obtain ⟨hevents, hprogram', hhalted⟩ := ih h ⟨program, rfl, hfits⟩
              exact ⟨hevents, hprogram', by simpa using hhalted⟩
      | quit => cases h

/-- Inputs end the session only by a quit. -/
theorem quit_mem_of_finished {events : List InputEvent}
    (h : applyEvents s events = (.ok .finished, s')) : .quit ∈ events := by
  induction events generalizing s with
  | nil => cases h
  | cons event rest ih =>
      cases event with
      | keyDown key | keyUp key | togglePause => exact List.mem_cons_of_mem _ (ih h)
      | reset =>
          rw [applyEvents] at h
          split at h
          · cases h
          · exact List.mem_cons_of_mem _ (ih h)
      | quit => exact List.mem_cons_self

/-- Start of a session with a program in place. -/
theorem current_of_spawn {blank machine : Machine} {program : List UInt8} {poisoned : Bool}
    {sound : σ} {speed : Float} (hmachine : machine = blank.loaded program)
    (hfits : program.length ≤ Memory.programLimit)
    (hspawn : Scheduler.spawn machine poisoned sound speed = .ok s) : Current s := by
  rw [Scheduler.eq_started_of_spawn hspawn, hmachine]
  exact ⟨fun hmem => absurd hmem List.not_mem_nil, program, rfl, hfits⟩

variable {δ : Type} [Display δ]

/-- A frame does not end a session. -/
theorem flow_showFrame {display : δ} {flow : Flow} (h : (showFrame s display).1 = .ok flow) :
    flow = .goOn := by
  rw [showFrame] at h
  split at h
  · cases h
  · split at h
    · cases h
    · cases h
      rfl

/-- An iteration that receives the end of the program. -/
theorem afterPoll_of_exited {events : List InputEvent}
    (h : applyEvents s events = (.ok .goOn, s')) (hexited : .exited ∈ s'.events) (display : δ) :
    afterPoll s display (.ok events) =
      (.ok .finished, { s' with events := (receive s'.events).2 }, display) := by
  have hreceive : receive s'.events = (.finished, (receive s'.events).2) :=
    Prod.ext (receive_of_exited hexited) rfl
  simp only [afterPoll, h]
  rw [hreceive]

/-- An iteration that receives nothing of the kind. -/
theorem afterPoll_of_not_exited {events : List InputEvent}
    (h : applyEvents s events = (.ok .goOn, s')) (hexited : .exited ∉ s'.events) (display : δ) :
    afterPoll s display (.ok events) =
      ((showFrame { s' with events := [] } display).1, { s' with events := [] },
        (showFrame { s' with events := [] } display).2) := by
  simp only [afterPoll, h, receive_of_not_exited hexited]

/-- Everything that an iteration without a failure can do. -/
theorem afterPoll_cases {display display' : δ} {poll : Except String (List InputEvent)}
    {flow : Flow} (h : afterPoll s display poll = (.ok flow, s', display')) :
    ∃ events, poll = .ok events ∧
      ((flow = .finished ∧ .quit ∈ events) ∨
        ∃ applied, applyEvents s events = (.ok .goOn, applied) ∧
          ((flow = .finished ∧ .exited ∈ applied.events ∧
              s' = { applied with events := (receive applied.events).2 }) ∨
            (flow = .goOn ∧ s' = { applied with events := [] }))) := by
  cases poll with
  | error reason => cases h
  | ok events =>
      refine ⟨events, rfl, ?_⟩
      rcases happly : applyEvents s events with ⟨error | flow', applied⟩
      · simp only [afterPoll, happly] at h
        cases h
      · cases flow' with
        | finished =>
            simp only [afterPoll, happly] at h
            cases h
            exact Or.inl ⟨rfl, quit_mem_of_finished happly⟩
        | goOn =>
            refine Or.inr ⟨applied, rfl, ?_⟩
            by_cases hexited : .exited ∈ applied.events
            · rw [afterPoll_of_exited happly hexited] at h
              cases h
              exact Or.inl ⟨rfl, hexited, rfl⟩
            · rw [afterPoll_of_not_exited happly hexited, Prod.mk.injEq, Prod.mk.injEq] at h
              exact Or.inr ⟨flow_showFrame h.1, h.2.1.symm⟩

/-- An iteration after which the session goes on leaves nothing unreceived. -/
theorem Current.afterPoll (h : Current s) {display display' : δ}
    {poll : Except String (List InputEvent)}
    (hgoes : afterPoll s display poll = (.ok .goOn, s', display')) : Current s' := by
  obtain ⟨events, -, ⟨hflow, -⟩ | ⟨applied, happly, ⟨hflow, -⟩ | ⟨-, rfl⟩⟩⟩ := afterPoll_cases hgoes
  · cases hflow
  · cases hflow
  · obtain ⟨-, hprogram, -⟩ := applyEvents_of_goOn happly h.restartable
    exact ⟨fun hmem => absurd hmem List.not_mem_nil, hprogram⟩

/-- An iteration that ends the session without being asked to. -/
theorem Current.halted_iff (h : Current s) {display display' : δ} {events : List InputEvent}
    (hends : Session.afterPoll s display (.ok events) = (.ok .finished, s', display'))
    (hquit : .quit ∉ events) : s'.state = .halted ↔ .reset ∉ events := by
  obtain ⟨_, heq, ⟨-, hasked⟩ | ⟨applied, happly, ⟨-, hexited, rfl⟩ | ⟨hflow, -⟩⟩⟩ :=
    afterPoll_cases hends
  · cases heq
    exact absurd hasked hquit
  · cases heq
    obtain ⟨hevents, -, hhalted⟩ := applyEvents_of_goOn happly h.restartable
    rw [hevents] at hexited
    -- the end of the program halted the scheduler before the input answered
    rw [h.exited hexited, Bool.true_and] at hhalted
    rw [Scheduler.state_eq_halted_iff]
    simp [hhalted]
  · cases hflow

/-- A reset that meets the end of the program: the program runs again, but the news of its end is
still there and ends the session. -/
theorem Current.running_of_reset (h : Current s) (hp : s.poisoned = false)
    (hpaused : s.paused = false) (hexited : .exited ∈ s.events) (display : δ) :
    ∃ s', Session.afterPoll s display (.ok [.reset]) = (.ok .finished, s', display) ∧
      s'.state = .running := by
  obtain ⟨program, hstored, hfits⟩ := h.restartable
  have happly := applyEvents_reset hp hstored hfits []
  refine ⟨_, afterPoll_of_exited happly hexited display, ?_⟩
  show (if s.paused then RunState.paused else RunState.running) = .running
  rw [hpaused]
  rfl

end Iteration

/-! ## Sessions -/

section Sessions

variable {σ δ : Type} [Sound σ] [Display δ] {s s' : Scheduler σ} {display : δ}

theorem lt_polls_runFrom (polls : Nat) (s : Scheduler σ) (display : δ) (turns : List Turn) :
    polls < (runFrom polls s display turns).polls := by
  induction turns generalizing polls s display with
  | nil => exact Nat.lt_succ_self polls
  | cons turn rest ih =>
      rw [runFrom]
      rcases afterPoll (beforePoll s turn) display turn.poll with ⟨error | flow, s', display'⟩
      · exact Nat.lt_succ_self polls
      · cases flow with
        | finished => exact Nat.lt_succ_self polls
        | goOn => exact Nat.lt_of_succ_lt (ih (polls + 1) s' display')

/-- A session that is under way and ends without a failure and without being asked to. -/
theorem Current.halted_iff_runFrom (h : Current s) {polls : Nat} {turns : List Turn}
    (hok : (runFrom polls s display turns).ending = .ok ()) {turn : Turn}
    {events : List InputEvent}
    (hlast : turns[(runFrom polls s display turns).polls - (polls + 1)]? = some turn)
    (hpoll : turn.poll = .ok events) (hquit : .quit ∉ events) :
    (runFrom polls s display turns).scheduler.state = .halted ↔ .reset ∉ events := by
  induction turns generalizing polls s display with
  | nil => cases hlast
  | cons first rest ih =>
      have hcurrent := h.beforePoll first
      rcases hpolled : Session.afterPoll (Session.beforePoll s first) display first.poll with
        ⟨error | flow, s', display'⟩
      · simp only [runFrom, hpolled] at hok
        cases hok
      · cases flow with
        | finished =>
            simp only [runFrom, hpolled, Nat.sub_self, List.getElem?_cons_zero] at hlast ⊢
            cases hlast
            rw [hpoll] at hpolled
            exact hcurrent.halted_iff hpolled hquit
        | goOn =>
            simp only [runFrom, hpolled] at hok hlast ⊢
            -- the last poll lies behind the first
            have hlater := lt_polls_runFrom (polls + 1) s' display' rest
            rw [show (runFrom (polls + 1) s' display' rest).polls - (polls + 1) =
              (runFrom (polls + 1) s' display' rest).polls - (polls + 1 + 1) + 1 by omega,
              List.getElem?_cons_succ] at hlast
            exact ih (hcurrent.afterPoll hpolled) hok hlast

/-- A session whose first iteration finishes ends well after one poll. -/
theorem run_of_finished (turn : Turn) (rest : List Turn) {display' : δ}
    (h : afterPoll (beforePoll s turn) display turn.poll = (.ok .finished, s', display')) :
    run s display (turn :: rest) = ⟨.ok (), 1, s', display'⟩ := by
  rw [run, runFrom, h]

/-- A program that starts with its end, after one slot. -/
theorem exited_of_spawn {blank machine : Machine} {rest : List UInt8} {sound : σ} {speed : Float}
    (hmachine : machine = blank.loaded (0x00 :: 0xFD :: rest))
    (hfits : (0x00 :: 0xFD :: rest).length ≤ Memory.programLimit)
    (hspawn : Scheduler.spawn machine false sound speed = .ok s) :
    s.tick.2.poisoned = false ∧ s.tick.2.paused = false ∧ .exited ∈ s.tick.2.events := by
  have hpoised := Scheduler.poised_of_spawn hmachine hspawn
  have hword := blank.word_loaded (Nat.succ_lt_succ (Nat.succ_pos rest.length)) hfits
  have hdecode : Instruction.decode ((0x00 : UInt8).toUInt16 <<< 8 ||| (0xFD : UInt8).toUInt16) =
      .exit := by decide
  obtain ⟨sent, hevents, hexited⟩ := hpoised.aged.activeSlot_of_exit hword hdecode
  rw [Scheduler.tick_of_active hpoised.poisoned hpoised.active]
  refine ⟨hpoised.poisoned, ?_, hevents ▸ List.mem_append_right _ hexited⟩
  rw [Scheduler.activeSlot_eq, Scheduler.eq_started_of_spawn hspawn]
  rfl

/-- A program that starts with its end, and an input that has nothing to say after one slot. -/
theorem run_exit {blank machine : Machine} {rest : List UInt8} {sound : σ} {speed : Float}
    (hmachine : machine = blank.loaded (0x00 :: 0xFD :: rest))
    (hfits : (0x00 :: 0xFD :: rest).length ≤ Memory.programLimit)
    (hspawn : Scheduler.spawn machine false sound speed = .ok s) (display : δ) :
    (run s display [⟨1, false, .ok []⟩]).ending = .ok () ∧
      (run s display [⟨1, false, .ok []⟩]).polls = 1 := by
  obtain ⟨-, -, hexited⟩ := exited_of_spawn hmachine hfits hspawn
  rw [run_of_finished ⟨1, false, .ok []⟩ [] (afterPoll_of_exited rfl hexited display)]
  exact ⟨rfl, rfl⟩

/-- The same program, and an input that asks for a reset. -/
theorem run_exit_reset {blank machine : Machine} {rest : List UInt8} {sound : σ} {speed : Float}
    (hmachine : machine = blank.loaded (0x00 :: 0xFD :: rest))
    (hfits : (0x00 :: 0xFD :: rest).length ≤ Memory.programLimit)
    (hspawn : Scheduler.spawn machine false sound speed = .ok s) (display : δ) :
    (run s display [⟨1, false, .ok [.reset]⟩]).ending = .ok () ∧
      (run s display [⟨1, false, .ok [.reset]⟩]).scheduler.state = .running := by
  have hcurrent := (current_of_spawn hmachine hfits hspawn).tick
  obtain ⟨hpoisoned, hpaused, hexited⟩ := exited_of_spawn hmachine hfits hspawn
  obtain ⟨s', hpolled, hstate⟩ := hcurrent.running_of_reset hpoisoned hpaused hexited display
  rw [run_of_finished ⟨1, false, .ok [.reset]⟩ [] hpolled]
  exact ⟨rfl, hstate⟩

/-- A session over a loaded program that ends without a failure and without being asked to leaves
the scheduler halted, unless there was a reset in the iteration in which it ended. -/
theorem halted_iff_not_reset {config : Config} {random : RandomSource} {source : ByteSource}
    {size : Nat} {machine : Machine}
    (hload : (Machine.new config random).loadProgram source = (.ok size, machine))
    {poisoned : Bool} {sound : σ} {speed : Float}
    (hspawn : Scheduler.spawn machine poisoned sound speed = .ok s) {turns : List Turn}
    (hok : (run s display turns).ending = .ok ()) {turn : Turn} {events : List InputEvent}
    (hlast : turns[(run s display turns).polls - 1]? = some turn)
    (hpoll : turn.poll = .ok events) (hquit : .quit ∉ events) :
    (run s display turns).scheduler.state = .halted ↔ .reset ∉ events := by
  rcases (Machine.new config random).loadProgram_cases source with
    ⟨_, heq⟩ | ⟨program, -, hfits, heq⟩
  · rw [heq] at hload
    cases hload
  · rw [heq] at hload
    cases hload
    exact (current_of_spawn rfl hfits hspawn).halted_iff_runFrom hok hlast hpoll hquit

/-- A program that ends in its first slot. -/
theorem halted_iff_not_reset_exit :
    let machine := ((Machine.new {} (RandomSource.ofSeed 1)).loadProgram
      (.ofBytes [0x00, 0xFD])).2
    let s : Scheduler Mute := Scheduler.started machine {} 1.0
    (Machine.new {} (RandomSource.ofSeed 1)).loadProgram (.ofBytes [0x00, 0xFD]) =
        (.ok 2, machine) ∧
      Scheduler.spawn machine false {} 1.0 = .ok s ∧
      (run s ({} : FrameCounter) [⟨1, false, .ok []⟩]).ending = .ok () ∧
      (run s ({} : FrameCounter) [⟨1, false, .ok []⟩]).polls = 1 ∧
      ((run s ({} : FrameCounter) [⟨1, false, .ok []⟩]).scheduler.state = .halted ↔
        .reset ∉ ([] : List InputEvent)) := by
  intro machine s
  have hload := (Machine.new {} (RandomSource.ofSeed 1)).loadProgram_of_fits
    (Machine.readAll_ofBytes [0x00, 0xFD]) (by decide)
  have hmachine : machine = (Machine.new {} (RandomSource.ofSeed 1)).loaded [0x00, 0xFD] :=
    Machine.snd_loadProgram_ofBytes _ (by decide)
  have hanswer : (Machine.new {} (RandomSource.ofSeed 1)).loadProgram (.ofBytes [0x00, 0xFD]) =
      (.ok 2, machine) := by
    rw [hmachine, hload]
    rfl
  have hspawn : Scheduler.spawn machine false {} 1.0 = .ok s :=
    Scheduler.spawn_started _ _ _
  obtain ⟨hok, hpolls⟩ := run_exit hmachine (by decide) hspawn ({} : FrameCounter)
  have hlast : [(⟨1, false, .ok []⟩ : Turn)][(run s ({} : FrameCounter)
      [⟨1, false, .ok []⟩]).polls - 1]? = some ⟨1, false, .ok []⟩ := by
    rw [hpolls]
    rfl
  exact ⟨hanswer, hspawn, hok, hpolls,
    halted_iff_not_reset hanswer hspawn hok hlast rfl List.not_mem_nil⟩

/-- A program that ends in its first slot and is started again before its end is received: the
session ends although the program runs. -/
theorem ends_while_running :
    let machine := ((Machine.new {} (RandomSource.ofSeed 1)).loadProgram
      (.ofBytes [0x00, 0xFD])).2
    let s : Scheduler Mute := Scheduler.started machine {} 1.0
    Scheduler.spawn machine false {} 1.0 = .ok s ∧
      (run s ({} : FrameCounter) [⟨1, false, .ok [.reset]⟩]).ending = .ok () ∧
      (run s ({} : FrameCounter) [⟨1, false, .ok [.reset]⟩]).scheduler.state = .running := by
  intro machine s
  have hmachine : machine = (Machine.new {} (RandomSource.ofSeed 1)).loaded [0x00, 0xFD] :=
    Machine.snd_loadProgram_ofBytes _ (by decide)
  have hspawn : Scheduler.spawn machine false {} 1.0 = .ok s :=
    Scheduler.spawn_started _ _ _
  exact ⟨hspawn, run_exit_reset hmachine (by decide) hspawn ({} : FrameCounter)⟩

end Sessions

end Session

end Schip
