import Schip.Proofs.Input.Mirror
import Schip.Proofs.Session.Ending

/-!
# Presses that do not reach the keypad

A reset clears the keypad behind the back of the terminal, and so does the end of a program. The
terminal still holds the keys that were down, and the repetition of a held key emits nothing, so the
key stays up on the keypad until the terminal has released it (`held_not_isPressed`).

A `Console` is a terminal whose events are acted on, beside a worker. `Faithful` is its invariant:
the keypad is what everything that was heard makes of it, and the terminal holds a key exactly if
the last level of it that was heard is down. `Faithful.run` carries it through a run, and
`isPressed_iff_not_cleared` draws the line between the presses that arrive and those that are lost.
`Live.run` says that a run over a stored program goes on until a stroke asks for its end.
-/

set_option autoImplicit false

namespace Schip

open HeldKeys (keyNumber)

/-! ## Signals -/

/-- What a keypad may have to do with: an input event that is acted on, or one of the worker. -/
inductive Signal where
  | input (event : InputEvent)
  | sent (event : SchedulerEvent)
  deriving DecidableEq

namespace Signal

/-- Whether a signal resets the machine, and with it the keypad. -/
def clears : Signal → Bool
  | .input .reset | .sent .exited => true
  | _ => false

/-- Level that a signal gives a key. -/
def level? (key : Fin 16) : Signal → Option Bool
  | .input event => event.level? key
  | .sent _ => none

/-- Levels that signals give a key, in order. -/
def levels (key : Fin 16) (signals : List Signal) : List Bool := signals.filterMap (level? key)

/-- The keypad was cleared, and the key has not gone down since. -/
def ClearedSinceDown (key : Fin 16) (signals : List Signal) : Prop :=
  ∃ before signal after, signals = before ++ signal :: after ∧ signal.clears = true ∧
    ∀ later ∈ after, later.level? key ≠ some true

theorem levels_append (key : Fin 16) (signals more : List Signal) :
    levels key (signals ++ more) = levels key signals ++ levels key more :=
  List.filterMap_append

theorem levels_singleton (key : Fin 16) (signal : Signal) :
    levels key [signal] = (signal.level? key).toList := by
  cases hlevel : signal.level? key <;> simp [levels, hlevel]

theorem levels_input (key : Fin 16) (events : List InputEvent) :
    levels key (events.map .input) = InputEvent.levels key events := by
  rw [levels, List.filterMap_map]
  rfl

theorem levels_sent (key : Fin 16) (events : List SchedulerEvent) :
    levels key (events.map .sent) = [] := by
  simp [levels, level?]

/-- A key is cleared since its last press if the last signal clears, or if it was before and the
last signal is no press of it. -/
theorem clearedSinceDown_snoc {key : Fin 16} {signals : List Signal} {signal : Signal} :
    ClearedSinceDown key (signals ++ [signal]) ↔
      signal.clears = true ∨ (ClearedSinceDown key signals ∧ signal.level? key ≠ some true) := by
  constructor
  · rintro ⟨before, cleared, after, hsplit, hclears, hafter⟩
    rcases List.eq_nil_or_concat after with rfl | ⟨between, last, rfl⟩
    · obtain ⟨-, rfl⟩ := List.append_singleton_inj.1 hsplit
      exact Or.inl hclears
    · rw [List.concat_eq_append, ← List.cons_append, ← List.append_assoc] at hsplit
      obtain ⟨rfl, rfl⟩ := List.append_singleton_inj.1 hsplit
      rw [List.concat_eq_append] at hafter
      exact Or.inr ⟨⟨before, cleared, between, rfl, hclears,
        fun later hmem => hafter later (List.mem_append_left _ hmem)⟩,
        hafter signal (List.mem_append_right _ List.mem_cons_self)⟩
  · rintro (hclears | ⟨⟨before, cleared, after, rfl, hclears, hafter⟩, hlevel⟩)
    · exact ⟨signals, signal, [], rfl, hclears, fun _ hmem => absurd hmem List.not_mem_nil⟩
    · refine ⟨before, cleared, after ++ [signal], by simp, hclears, fun later hmem => ?_⟩
      rcases List.mem_append.1 hmem with hbefore | hlast
      · exact hafter later hbefore
      · rwa [List.mem_singleton.1 hlast]

end Signal

/-! ## The keypad -/

namespace Keypad

/-- Keypad after a signal. -/
def hear (k : Keypad) : Signal → Keypad
  | .input .reset | .sent .exited => clear
  | .input event => k.heed event
  | .sent (.fault _ _) => k

/-- Keypad after signals in order. -/
def hearAll (k : Keypad) (signals : List Signal) : Keypad := signals.foldl hear k

theorem hearAll_append (k : Keypad) (signals more : List Signal) :
    k.hearAll (signals ++ more) = (k.hearAll signals).hearAll more :=
  List.foldl_append

/-- Reports of faults leave the keypad alone. -/
theorem hearAll_faults (k : Keypad) (pc : UInt16) (faults : List Fault) :
    k.hearAll ((faults.map (.fault pc)).map .sent) = k := by
  induction faults with
  | nil => rfl
  | cons fault rest ih => exact ih

/-- A signal sets a key to its level, if it has one for it, unless it clears the keypad. -/
theorem isPressed_hear (k : Keypad) (signal : Signal) (key : Fin 16) :
    (k.hear signal).isPressed (keyNumber key) =
      (!signal.clears && (signal.level? key).getD (k.isPressed (keyNumber key))) := by
  cases signal with
  | input event =>
      cases event with
      | reset => exact isPressed_clear _
      | keyDown number => exact isPressed_heed k (.keyDown number) key
      | keyUp number => exact isPressed_heed k (.keyUp number) key
      | togglePause | quit => rfl
  | sent event =>
      cases event with
      | fault pc fault => rfl
      | exited => exact isPressed_clear _

/-- A key whose last level is down shows on a keypad exactly if the keypad has not been cleared
since. -/
theorem isPressed_hearAll_iff {signals : List Signal} {key : Fin 16}
    (hlast : (Signal.levels key signals).getLast?.getD false = true) :
    (clear.hearAll signals).isPressed (keyNumber key) = true ↔
      ¬ Signal.ClearedSinceDown key signals := by
  -- from the end of the history: its last signal decides, unless it leaves the key alone
  induction signals using List.reverseRecOn with
  | nil => cases hlast
  | append_singleton before signal ih =>
      rw [hearAll_append, hearAll, List.foldl_cons, List.foldl_nil, isPressed_hear,
        Signal.clearedSinceDown_snoc]
      rw [Signal.levels_append, Signal.levels_singleton, List.getLast?_append] at hlast
      cases hclears : signal.clears with
      | true => simp
      | false =>
          cases hlevel : signal.level? key with
          | none =>
              have hbefore := ih (by simpa [hlevel] using hlast)
              simp [hbefore]
          | some level =>
              have hdown : level = true := by simpa [hlevel] using hlast
              simp [hdown]

end Keypad

/-! ## What reaches the keypad -/

namespace Session

variable {σ : Type} {s s' : Scheduler σ}

/-- The keypad takes in the events that are acted on. -/
theorem keypad_applyEvents {events : List InputEvent}
    (h : applyEvents s events = (.ok .goOn, s')) :
    s'.machine.keypad = s.machine.keypad.hearAll (events.map .input) := by
  induction events generalizing s with
  | nil =>
      cases h
      rfl
  | cons event rest ih =>
      cases event with
      | keyDown key | keyUp key => exact ih h
      | togglePause => exact ih (s := s.togglePause.2) h
      | reset =>
          cases hp : s.poisoned with
          | true =>
              simp only [applyEvents, Scheduler.restart, Scheduler.lock_of_poisoned hp] at h
              cases h
          | false =>
              rw [applyEvents, Scheduler.restart_of_sound hp] at h
              cases hanswer : s.machine.restart.1 with
              | error error =>
                  rw [hanswer] at h
                  cases h
              | ok again =>
                  rw [hanswer] at h
                  have hkeypad := ih h
                  rw [Machine.keypad_restart] at hkeypad
                  exact hkeypad
      | quit => cases h

/-- Events are acted on one after the other. -/
theorem applyEvents_append {events more : List InputEvent}
    (h : applyEvents s events = (.ok .goOn, s')) :
    applyEvents s (events ++ more) = applyEvents s' more := by
  induction events generalizing s with
  | nil =>
      cases h
      rfl
  | cons event rest ih =>
      cases event with
      | keyDown key | keyUp key | togglePause => exact ih h
      | reset =>
          rw [List.cons_append, applyEvents]
          rw [applyEvents] at h
          rcases hrestart : s.restart with ⟨_ | _, _⟩
          · rw [hrestart] at h
            cases h
          · rw [hrestart] at h
            exact ih h
      | quit => cases h

/-- Events that do not ask for the end are all acted on. -/
theorem exists_applyEvents {events : List InputEvent} (hp : s.poisoned = false)
    (hprogram : s.machine.Restartable) (hquit : .quit ∉ events) :
    ∃ s', applyEvents s events = (.ok .goOn, s') ∧ s'.poisoned = false ∧
      s'.machine.Restartable := by
  induction events generalizing s with
  | nil => exact ⟨s, rfl, hp, hprogram⟩
  | cons event rest ih =>
      have hrest : .quit ∉ rest := fun hmem => hquit (List.mem_cons_of_mem _ hmem)
      cases event with
      | keyDown key => exact ih (s := s.setKey key true) hp hprogram hrest
      | keyUp key => exact ih (s := s.setKey key false) hp hprogram hrest
      | togglePause => exact ih (s := s.togglePause.2) hp hprogram hrest
      | reset =>
          obtain ⟨program, hstored, hfits⟩ := hprogram
          rw [applyEvents_reset hp hstored hfits]
          exact ih hp ⟨program, rfl, hfits⟩ hrest
      | quit => exact absurd List.mem_cons_self hquit

end Session

namespace Scheduler

variable {σ : Type} [Sound σ] {s s' : Scheduler σ}

/-- The keypad changes in a slot as what the slot sends says. -/
theorem keypad_activeSlot (s : Scheduler σ) :
    s.activeSlot.2.machine.keypad =
      s.machine.keypad.hearAll (s.activeSlot.1.events.map .sent) := by
  have hevents : s.activeSlot.1.events = s.machine.cycle.1.events := rfl
  rw [activeSlot_eq, hevents, Step.events, List.map_append, Keypad.hearAll_append,
    Keypad.hearAll_faults, ← s.machine.keypad_cycle]
  dsimp only
  rw [settle]
  split
  · rfl
  · rfl

/-- Events that a slot sends; a slot that fails sends none. -/
def sentBySlot (s : Scheduler σ) : List SchedulerEvent :=
  match s.tick.1 with
  | .ok report => report.events
  | .error _ => []

/-- The keypad takes in what a slot sends. -/
theorem keypad_tick (s : Scheduler σ) :
    s.tick.2.machine.keypad = s.machine.keypad.hearAll (s.sentBySlot.map .sent) := by
  rw [sentBySlot]
  cases hp : s.poisoned with
  | true =>
      rw [tick_eq_of_poisoned hp]
      rfl
  | false =>
      cases hactive : s.isActive with
      | true =>
          rw [tick_eq_of_active hp hactive]
          exact s.aged.keypad_activeSlot
      | false =>
          rw [tick_eq_of_idle hp hactive]
          rfl

end Scheduler

/-! ## A terminal whose events are acted on -/

/-- Whether a stroke asks for the end of the session. -/
def KeyPress.quits (stroke : KeyPress) : Bool :=
  stroke.code = .escape ∨ (stroke.code = .char 'c' ∧ stroke.control)

/-- Whether a call asks for the end of the session. -/
def Terminal.Call.quits : Terminal.Call → Bool
  | .press stroke _ => stroke.quits
  | .expire _ => false

/-- The terminal asks to quit only when it is told to. -/
theorem Terminal.quit_not_mem_answer (t : Terminal) {call : Terminal.Call}
    (h : call.quits = false) : .quit ∉ (t.answer call).1 := by
  cases call with
  | expire now => simp [answer, expire, HeldKeys.expire]
  | press stroke now =>
      rw [Terminal.Call.quits, KeyPress.quits] at h
      rw [answer, press]
      cases hcode : stroke.code with
      | char c =>
          dsimp only
          split
          · rename_i hasks
            simp [hcode, hasks.1, hasks.2] at h
          · split
            · simp
            · rw [pressCharacter]
              cases t.keymap.key? c with
              | none => simp
              | some key => simp only [HeldKeys.press]; split <;> simp
      | escape => simp [hcode] at h
      | backspace | other => simp

/-- Terminal, and the scheduler that its events go to. -/
structure Console (σ : Type) where
  terminal : Terminal
  scheduler : Scheduler σ

namespace Console

variable {σ : Type}

/-- The keypad is what everything that was heard makes of it, and the levels that the terminal gave
each key take turns and end with whether it is held. -/
structure Faithful (keymap : Keymap) (heard : List Signal) (c : Console σ) : Prop where
  keymap_eq : c.terminal.keymap = keymap
  keypad_eq : c.scheduler.machine.keypad = Keypad.clear.hearAll heard
  tracks : ∀ key, Tracks (Signal.levels key heard) (c.terminal.keys.isHeld key)

variable {c c' : Console σ} {keymap : Keymap} {heard more : List Signal}

/-- A fresh console is faithful: no key is held, none is down and nothing was heard. -/
theorem faithful_new (keymap : Keymap) (hold : Nat) {s : Scheduler σ}
    (hclear : s.machine.keypad = Keypad.clear) :
    Faithful keymap [] ⟨Terminal.new keymap hold, s⟩ where
  keymap_eq := rfl
  keypad_eq := hclear
  tracks key := by
    rw [Terminal.new, Terminal.isHeld_new]
    exact tracks_nil

/-- The keypad shows a held key exactly if it has not been cleared since the key went down. -/
theorem Faithful.isPressed_iff (h : Faithful keymap heard c) {key : Fin 16}
    (hheld : c.terminal.keys.isHeld key = true) :
    c.scheduler.machine.keypad.isPressed (keyNumber key) = true ↔
      ¬ Signal.ClearedSinceDown key heard := by
  rw [h.keypad_eq]
  exact Keypad.isPressed_hearAll_iff ((h.tracks key).last.trans hheld)

/-- The lock is sound and there is a program that can be loaded again. -/
structure Live (c : Console σ) : Prop where
  poisoned : c.scheduler.poisoned = false
  restartable : c.scheduler.machine.Restartable

/-- Start with a program in place. -/
theorem live_started {machine blank : Machine} {program : List UInt8}
    (hmachine : machine = blank.loaded program) (hfits : program.length ≤ Memory.programLimit)
    (sound : σ) (speed : Float) (terminal : Terminal) :
    (Scheduler.started machine sound speed).machine.keypad = Keypad.clear ∧
      Live ⟨terminal, Scheduler.started machine sound speed⟩ := by
  rw [hmachine]
  exact ⟨rfl, rfl, program, rfl, hfits⟩

/-! ## Moves -/

/-- A call of the terminal whose events are acted on at once, or a slot of the worker. -/
inductive Move where
  | call (call : Terminal.Call)
  | slot
  deriving DecidableEq

section Moves

variable [Sound σ]

/-- Whether a move asks for the end of the session. -/
def Move.quits : Move → Bool
  | .call made => made.quits
  | .slot => false

/-- What is heard in a move, and the console after it; nothing if the session ends. -/
def step? (c : Console σ) : Move → Option (List Signal × Console σ)
  | .call call =>
    match Session.applyEvents c.scheduler (c.terminal.answer call).1 with
    | (.ok .goOn, scheduler) =>
      some ((c.terminal.answer call).1.map .input, ⟨(c.terminal.answer call).2, scheduler⟩)
    | _ => none
  | .slot => some (c.scheduler.sentBySlot.map .sent, ⟨c.terminal, c.scheduler.tick.2⟩)

/-- What is heard in moves in order, and the console after them. -/
def run? (c : Console σ) : List Move → Option (List Signal × Console σ)
  | [] => some ([], c)
  | move :: rest =>
    match c.step? move with
    | none => none
    | some (heard, next) => (next.run? rest).map fun (more, last) => (heard ++ more, last)

theorem step?_call {call : Terminal.Call} {s : Scheduler σ}
    (h : Session.applyEvents c.scheduler (c.terminal.answer call).1 = (.ok .goOn, s)) :
    c.step? (.call call) =
      some ((c.terminal.answer call).1.map .input, ⟨(c.terminal.answer call).2, s⟩) := by
  simp only [step?, h]

/-- A step that is a call: its events, acted on, and the terminal after it. -/
theorem step?_call_cases {call : Terminal.Call} {heard : List Signal}
    (h : c.step? (.call call) = some (heard, c')) :
    Session.applyEvents c.scheduler (c.terminal.answer call).1 = (.ok .goOn, c'.scheduler) ∧
      heard = (c.terminal.answer call).1.map .input ∧
      c'.terminal = (c.terminal.answer call).2 := by
  rw [step?] at h
  split at h
  · rename_i happly
    cases h
    exact ⟨happly, rfl, rfl⟩
  · cases h

/-- A run that starts with a step goes on with the rest. -/
theorem run?_cons {move : Move} {rest : List Move} {heard more : List Signal} {last : Console σ}
    (hstep : c.step? move = some (heard, c')) (hrest : c'.run? rest = some (more, last)) :
    c.run? (move :: rest) = some (heard ++ more, last) := by
  rw [run?, hstep]
  dsimp only
  rw [hrest]
  rfl

/-- A run of at least one move starts with a step. -/
theorem run?_cons_cases {move : Move} {rest : List Move} {heard : List Signal}
    (h : c.run? (move :: rest) = some (heard, c')) :
    ∃ first next more, c.step? move = some (first, next) ∧ next.run? rest = some (more, c') ∧
      heard = first ++ more := by
  rw [run?] at h
  rcases hstep : c.step? move with _ | ⟨first, next⟩
  · rw [hstep] at h
    cases h
  · simp only [hstep, Option.map_eq_some_iff, Prod.mk.injEq, Prod.exists] at h
    obtain ⟨more, last, hrest, rfl, rfl⟩ := h
    exact ⟨first, next, more, rfl, hrest, rfl⟩

/-- Calls whose events are acted on call by call, or all at once when the last call has answered. -/
theorem run?_calls {calls : List Terminal.Call} {heard : List Signal}
    (h : c.run? (calls.map .call) = some (heard, c')) :
    Session.applyEvents c.scheduler (c.terminal.answerAll calls).1 = (.ok .goOn, c'.scheduler) ∧
      heard = (c.terminal.answerAll calls).1.map .input ∧
      c'.terminal = (c.terminal.answerAll calls).2 := by
  induction calls generalizing c heard with
  | nil =>
      cases h
      exact ⟨rfl, rfl, rfl⟩
  | cons call rest ih =>
      obtain ⟨first, next, more, hstep, hrest, rfl⟩ := run?_cons_cases h
      obtain ⟨happly, rfl, hterminal⟩ := step?_call_cases hstep
      obtain ⟨happly', rfl, hterminal'⟩ := ih hrest
      rw [hterminal] at happly' hterminal' ⊢
      refine ⟨?_, ?_, hterminal'⟩
      · rw [Terminal.answerAll, Session.applyEvents_append happly, happly']
      · rw [Terminal.answerAll, List.map_append]

/-- A poll whose events are acted on is a run: the calls that it makes, one after the other. -/
theorem run?_poll {strokes : List KeyPress} {now : Nat} {heard : List Signal}
    (h : c.run? ((Terminal.pollCalls strokes now).map .call) = some (heard, c')) :
    Session.applyEvents c.scheduler (c.terminal.poll strokes now).1 = (.ok .goOn, c'.scheduler) ∧
      heard = (c.terminal.poll strokes now).1.map .input ∧
      c'.terminal = (c.terminal.poll strokes now).2 := by
  rw [Terminal.poll_eq]
  exact run?_calls h

/-- A call keeps the console faithful. -/
theorem Faithful.call (h : Faithful keymap heard c) {call : Terminal.Call}
    (hstep : c.step? (.call call) = some (more, c')) : Faithful keymap (heard ++ more) c' := by
  obtain ⟨happly, rfl, hterminal⟩ := step?_call_cases hstep
  refine ⟨?_, ?_, fun key => ?_⟩
  · rw [hterminal, (c.terminal.frame_answer call).1, h.keymap_eq]
  · rw [Session.keypad_applyEvents happly, h.keypad_eq, Keypad.hearAll_append]
  · rw [hterminal, Signal.levels_append, Signal.levels_input, Terminal.levels_answer]
    exact (h.tracks key).append _

/-- A slot keeps the console faithful. -/
theorem Faithful.slot (h : Faithful keymap heard c) (hstep : c.step? .slot = some (more, c')) :
    Faithful keymap (heard ++ more) c' := by
  cases hstep
  refine ⟨h.keymap_eq, ?_, fun key => ?_⟩
  · rw [Scheduler.keypad_tick, h.keypad_eq, Keypad.hearAll_append]
  · rw [Signal.levels_append, Signal.levels_sent, List.append_nil]
    exact h.tracks key

/-- Every step keeps the console faithful. -/
theorem Faithful.step (h : Faithful keymap heard c) {move : Move}
    (hstep : c.step? move = some (more, c')) : Faithful keymap (heard ++ more) c' := by
  cases move with
  | call call => exact h.call hstep
  | slot => exact h.slot hstep

/-- A run keeps the console faithful, by induction on its moves. -/
theorem Faithful.run (h : Faithful keymap heard c) {moves : List Move}
    (hrun : c.run? moves = some (more, c')) : Faithful keymap (heard ++ more) c' := by
  induction moves generalizing c heard more with
  | nil =>
      cases hrun
      rw [List.append_nil]
      exact h
  | cons move rest ih =>
      obtain ⟨first, next, later, hstep, hrest, rfl⟩ := run?_cons_cases hrun
      rw [← List.append_assoc]
      exact ih (h.step hstep) hrest

/-! ## Runs that go on -/

/-- Only a stroke that asks for the end of the session ends it. -/
theorem Live.step (h : Live c) {move : Move} (hquits : move.quits = false) :
    ∃ heard c', c.step? move = some (heard, c') ∧ Live c' := by
  cases move with
  | call call =>
      obtain ⟨s, happly, hp, hprogram⟩ := Session.exists_applyEvents h.poisoned h.restartable
        (c.terminal.quit_not_mem_answer hquits)
      exact ⟨_, _, step?_call happly, hp, hprogram⟩
  | slot =>
      exact ⟨_, _, rfl,
        (c.scheduler.poisoned_operate (.tick c.scheduler.machine.keypad)).trans h.poisoned,
        Session.restartable_tick h.restartable⟩

/-- A live console gets through every run that does not quit. -/
theorem Live.run (h : Live c) {moves : List Move} (hquits : ∀ move ∈ moves, move.quits = false) :
    ∃ heard c', c.run? moves = some (heard, c') ∧ Live c' := by
  induction moves generalizing c with
  | nil => exact ⟨[], c, rfl, h⟩
  | cons move rest ih =>
      obtain ⟨first, next, hstep, hnext⟩ := h.step (hquits move List.mem_cons_self)
      obtain ⟨more, last, hrest, hlast⟩ :=
        ih hnext fun later hmem => hquits later (List.mem_cons_of_mem _ hmem)
      exact ⟨first ++ more, last, run?_cons hstep hrest, hlast⟩

/-! ## Presses -/

variable {stroke : KeyPress} {key : Fin 16}

/-- The events of a press of a key are always acted on, and the key is held then. -/
theorem step?_press (hkey : stroke.key? c.terminal.keymap = some key) (now : Nat) :
    ∃ sent c', c.step? (.call (.press stroke now)) = some (sent, c') ∧
      c'.terminal.keys.isHeld key = true := by
  have hgoes : ∃ s, Session.applyEvents c.scheduler (c.terminal.answer (.press stroke now)).1 =
      (.ok .goOn, s) := by
    rw [Terminal.answer, Terminal.press_of_key _ hkey, HeldKeys.press]
    cases c.terminal.keys.isHeld key with
    | true => exact ⟨_, rfl⟩
    | false => exact ⟨_, rfl⟩
  obtain ⟨s, happly⟩ := hgoes
  refine ⟨_, _, step?_call happly, ?_⟩
  rw [Terminal.answer, Terminal.press_of_key _ hkey]
  exact HeldKeys.isHeld_press_self _ key now

/-- From a terminal with nothing held and a keypad with nothing pressed on, after any calls whose
events were acted on and any slots of the worker: a press of a key shows on the keypad, unless a
reset or the end of a program has cleared the keypad and the key has not gone down since. -/
theorem isPressed_iff_not_cleared {hold : Nat} {s : Scheduler σ}
    (hclear : s.machine.keypad = Keypad.clear) {moves : List Move}
    (hrun : run? ⟨Terminal.new keymap hold, s⟩ moves = some (heard, c))
    (hkey : stroke.key? keymap = some key) (now : Nat) :
    ∃ sent c', c.step? (.call (.press stroke now)) = some (sent, c') ∧
      (c'.scheduler.machine.keypad.isPressed (keyNumber key) = true ↔
        ¬ Signal.ClearedSinceDown key (heard ++ sent)) := by
  have hfaithful : Faithful keymap heard c := (faithful_new keymap hold hclear).run hrun
  rw [← hfaithful.keymap_eq] at hkey
  obtain ⟨sent, c', hstep, hheld⟩ := step?_press hkey now
  exact ⟨sent, c', hstep, (hfaithful.step hstep).isPressed_iff hheld⟩

/-- The key `5` is pressed, held through a reset, released, and pressed again. -/
theorem isPressed_iff_not_cleared_released :
    let machine := ((Machine.new {} (RandomSource.ofSeed 1)).loadProgram
      (.ofBytes [0x12, 0x00])).2
    let s : Scheduler Mute := Scheduler.started machine {} 1.0
    let five : KeyPress := ⟨.char '5', false, false, false⟩
    let backspace : KeyPress := ⟨.backspace, false, false, false⟩
    s.machine.keypad = Keypad.clear ∧ five.key? .literal = some 5 ∧
      ∃ heard c, run? ⟨Terminal.new .literal 100, s⟩ [.call (.press five 0),
          .call (.press backspace 10), .slot, .call (.expire 150)] = some (heard, c) ∧
        ∃ sent c', c.step? (.call (.press five 160)) = some (sent, c') ∧
          (c'.scheduler.machine.keypad.isPressed (keyNumber 5) = true ↔
            ¬ Signal.ClearedSinceDown 5 (heard ++ sent)) := by
  intro machine s five backspace
  have hmachine : machine = (Machine.new {} (RandomSource.ofSeed 1)).loaded [0x12, 0x00] :=
    Machine.snd_loadProgram_ofBytes _ (by decide)
  obtain ⟨hclear, hlive⟩ : s.machine.keypad = Keypad.clear ∧ Live ⟨Terminal.new .literal 100, s⟩ :=
    live_started hmachine (by decide) _ _ _
  have hkey : five.key? .literal = some 5 := by decide
  have hquits : ∀ move ∈ [Move.call (.press five 0), .call (.press backspace 10), .slot,
      .call (.expire 150)], move.quits = false := by decide
  obtain ⟨heard, c, hrun, -⟩ := hlive.run hquits
  exact ⟨hclear, hkey, heard, c, hrun, isPressed_iff_not_cleared hclear hrun hkey 160⟩

/-- The key `5` is pressed, and its repetition after a reset does not reach the keypad. -/
theorem held_not_isPressed :
    let machine := ((Machine.new {} (RandomSource.ofSeed 1)).loadProgram
      (.ofBytes [0x12, 0x00])).2
    let s : Scheduler Mute := Scheduler.started machine {} 1.0
    let five : KeyPress := ⟨.char '5', false, false, false⟩
    let backspace : KeyPress := ⟨.backspace, false, false, false⟩
    s.machine.keypad = Keypad.clear ∧ five.key? .literal = some 5 ∧
      ∃ heard c, run? ⟨Terminal.new .literal 100, s⟩ [.call (.press five 0),
          .call (.press backspace 10), .call (.press five 20)] = some (heard, c) ∧
        c.scheduler.machine.keypad.isPressed (keyNumber 5) = false := by
  intro machine s five backspace
  have hmachine : machine = (Machine.new {} (RandomSource.ofSeed 1)).loaded [0x12, 0x00] :=
    Machine.snd_loadProgram_ofBytes _ (by decide)
  obtain ⟨hclear, hlive⟩ : s.machine.keypad = Keypad.clear ∧ Live ⟨Terminal.new .literal 100, s⟩ :=
    live_started hmachine (by decide) _ _ _
  let calls : List Terminal.Call := [.press five 0, .press backspace 10, .press five 20]
  have hquits : ∀ move ∈ calls.map Move.call, move.quits = false := by decide
  obtain ⟨heard, c, hrun, -⟩ := hlive.run hquits
  refine ⟨hclear, by decide, heard, c, hrun, ?_⟩
  obtain ⟨-, hheard, hterminal⟩ := run?_calls hrun
  have hcleared : Signal.ClearedSinceDown 5 heard := by
    rw [hheard]
    exact ⟨[.input (.keyDown 5)], .input .reset, [], by decide, rfl, by simp⟩
  have hheld : c.terminal.keys.isHeld 5 = true := by
    rw [hterminal]
    decide
  have hpressed := ((faithful_new .literal 100 hclear).run hrun).isPressed_iff hheld
  exact Bool.eq_false_iff.2 fun h => hpressed.1 h hcleared

end Moves

end Console

end Schip
