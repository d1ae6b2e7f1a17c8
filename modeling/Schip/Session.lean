import Schip.Display
import Schip.InputEvent
import Schip.Scheduler.Tick

/-!
# Sessions

The loop of the application: poll the input and act on its events, receive the events of the
scheduler, show a frame. It ends when the input asks for it, when the program has ended by itself,
or at the first failure. The worker runs beside the loop; what it does up to the next answer of the
input is part of a `Turn`, so a list of turns determines a whole session.
-/

set_option autoImplicit false

namespace Schip

/-- What happens up to one answer of the input. -/
structure Turn where
  /-- Slots that the worker runs. -/
  ticks : Nat
  /-- Whether the lock is poisoned after them. -/
  poisons : Bool
  /-- Answer of the input: the events since the last one, or the reason of a failure. -/
  poll : Except String (List InputEvent)

/-- Reason why a session failed. -/
inductive SessionError where
  | input (reason : String)
  | control (error : MachineError)
  | lock
  | display (reason : String)
  deriving DecidableEq, Repr

/-- Wording of a failure. -/
def SessionError.message : SessionError → String
  | input reason => reason
  | control error => error.message
  | lock => MachineError.poisonReason
  | display reason => reason

/-- Whether a session goes on. -/
inductive Flow where
  | goOn
  | finished
  deriving DecidableEq, Repr

/-- How a session ended and what it left. -/
structure SessionResult (σ δ : Type) where
  ending : Except SessionError Unit
  /-- Answers of the input that were asked for. -/
  polls : Nat
  scheduler : Scheduler σ
  display : δ

namespace Session

variable {σ δ : Type} [Sound σ] [Display δ]

/-- Effect of input events in order, up to the first that ends the session. -/
def applyEvents (s : Scheduler σ) : List InputEvent → Except SessionError Flow × Scheduler σ
  | [] => (.ok .goOn, s)
  | .keyDown key :: rest => applyEvents (s.setKey key true) rest
  | .keyUp key :: rest => applyEvents (s.setKey key false) rest
  | .togglePause :: rest => applyEvents s.togglePause.2 rest
  | .reset :: rest =>
    match s.restart with
    | (.error error, s') => (.error (.control error), s')
    | (.ok _, s') => applyEvents s' rest
  | .quit :: _ => (.ok .finished, s)

/-- Events received up to the end of the program, and those left behind it. -/
def receive : List SchedulerEvent → Flow × List SchedulerEvent
  | [] => (.goOn, [])
  | .fault _ _ :: rest => receive rest
  | .exited :: rest => (.finished, rest)

/-- Frame of the machine shown on the display. -/
def showFrame (s : Scheduler σ) (display : δ) : Except SessionError Flow × δ :=
  match s.lock with
  | .error _ => (.error .lock, display)
  | .ok machine =>
    match Display.draw display machine.screen s.state with
    | (.error reason, display') => (.error (.display reason), display')
    | (.ok (), display') => (.ok .goOn, display')

/-- Rest of an iteration once the input has answered. -/
def afterPoll (s : Scheduler σ) (display : δ) (poll : Except String (List InputEvent)) :
    Except SessionError Flow × Scheduler σ × δ :=
  match poll with
  | .error reason => (.error (.input reason), s, display)
  | .ok events =>
    match applyEvents s events with
    | (.error error, s') => (.error error, s', display)
    | (.ok .finished, s') => (.ok .finished, s', display)
    | (.ok .goOn, s') =>
      match receive s'.events with
      | (.finished, left) => (.ok .finished, { s' with events := left }, display)
      | (.goOn, left) =>
        let received := { s' with events := left }
        match showFrame received display with
        | (flow, display') => (flow, received, display')

/-- Work beside the loop up to the answer of the input. -/
def beforePoll (s : Scheduler σ) (turn : Turn) : Scheduler σ :=
  let worked := Scheduler.ticks turn.ticks s
  if turn.poisons then worked.poison else worked

/-- Session over a list of turns; when they are over the input ends it. `polls` answers were asked
for before. -/
def runFrom (polls : Nat) (s : Scheduler σ) (display : δ) : List Turn → SessionResult σ δ
  | [] => ⟨.ok (), polls + 1, s, display⟩
  | turn :: rest =>
    match afterPoll (beforePoll s turn) display turn.poll with
    | (.error error, s', display') => ⟨.error error, polls + 1, s', display'⟩
    | (.ok .finished, s', display') => ⟨.ok (), polls + 1, s', display'⟩
    | (.ok .goOn, s', display') => runFrom (polls + 1) s' display' rest

/-- Whole session. -/
def run (s : Scheduler σ) (display : δ) (turns : List Turn) : SessionResult σ δ :=
  runFrom 0 s display turns

end Session

end Schip
