import Schip.Proofs.Machine.Drawing
import Schip.Proofs.Scheduler.Course
import Schip.Proofs.Scheduler.PauseTransparency
import Schip.Proofs.Screen.Ageing

/-!
# Fades finish while nothing runs

A paused or halted scheduler does nothing in a slot but let the afterglow fade. So every countdown
goes down by one with each slot until it is over, and after as many slots as the longest one says
the picture is the logical one and no slot changes the machine any more (`fades_finish`). Nothing
that a program can see changes on the way.

This holds in every state that can be reached (`Reachable`), because the screen stays coherent
whatever happens: a dark pixel that is shown always counts down. The other users of the machine may
do to the screen what they like, by the operations on a frame buffer. A poisoned lock stops the
fading as it stops everything else; `granted` counts the slots that get the lock.
-/

set_option autoImplicit false

namespace Schip

/-- Frame buffer to which operations on a new one lead. -/
def FrameBuffer.Reachable (fb : FrameBuffer) : Prop :=
  ∃ edits, fb = FrameBuffer.new.applyAll edits

/-- Every screen that can be reached is coherent. -/
theorem FrameBuffer.Reachable.satisfiesCoherent {fb : FrameBuffer} (h : fb.Reachable) :
    fb.SatisfiesCoherent := by
  obtain ⟨edits, rfl⟩ := h
  exact satisfiesCoherent_new.applyAll edits

namespace Scheduler

variable {σ : Type} [Sound σ] {s s' : Scheduler σ}

/-- State that a scheduler can come to. The machine is shared: whoever else uses it may leave it in
any state with a screen that can be reached. -/
inductive Reachable : Scheduler σ → Prop where
  | spawn {machine : Machine} (hscreen : machine.screen.Reachable) {poisoned : Bool} {sound : σ}
      {speed : Float} {s : Scheduler σ} (h : spawn machine poisoned sound speed = .ok s) :
      Reachable s
  | undergo {s : Scheduler σ} (h : Reachable s) (incident : Incident) :
      Reachable (s.undergo incident)
  | receive {s : Scheduler σ} (h : Reachable s) : Reachable s.takeEvents.2
  | access {s : Scheduler σ} (h : Reachable s) (machine : Machine)
      (hscreen : machine.screen.Reachable) : Reachable { s with machine := machine }

/-- How many of `n` slots get the lock. -/
def granted (s : Scheduler σ) (n : Nat) : Nat := if s.poisoned then 0 else n

/-! ## Coherence of the screen -/

/-- A reset leaves a coherent screen, since it keeps the options. -/
theorem satisfiesCoherent_reset {machine : Machine} (h : machine.screen.SatisfiesCoherent) :
    machine.reset.screen.SatisfiesCoherent :=
  FrameBuffer.cellInvariant_coherent.setMode .standard h.options

theorem satisfiesCoherent_settle {machine : Machine} (h : machine.screen.SatisfiesCoherent)
    (outcome : Outcome) : (settle outcome machine).screen.SatisfiesCoherent := by
  rw [settle]
  split
  · exact satisfiesCoherent_reset h
  · exact h

/-- Every change keeps the screen coherent. -/
theorem satisfiesCoherent_change {incident : Incident} {ran : Option Machine}
    (h : s.machine.screen.SatisfiesCoherent) (hchange : s.Change incident ran s') :
    s'.machine.screen.SatisfiesCoherent := by
  cases hchange with
  | cycle keys =>
      have haged : (s.showKeys keys).aged.machine.screen.SatisfiesCoherent :=
        FrameBuffer.cellInvariant_coherent.updateDecay h
      have hcycled := (Machine.cycle_drawnFrom (s.showKeys keys).aged.machine).satisfies
        FrameBuffer.cellInvariant_coherent haged
      exact satisfiesCoherent_settle hcycled _
  | idle keys => exact FrameBuffer.cellInvariant_coherent.updateDecay h
  | failed keys =>
      obtain ⟨running, sound, heq⟩ := stop_eq (s.showKeys keys)
      rw [heq]
      exact h
  | stop =>
      obtain ⟨running, sound, heq⟩ := stop_eq s
      rw [heq]
      exact h
  | ended | poison | flag | unopened => exact h
  | reset | emptied | started => exact satisfiesCoherent_reset h

/-- In every state that a scheduler can come to, the screen is coherent. -/
theorem Reachable.satisfiesCoherent (h : s.Reachable) : s.machine.screen.SatisfiesCoherent := by
  induction h with
  | spawn hscreen h =>
      rw [eq_started_of_spawn h]
      exact hscreen.satisfiesCoherent
  | undergo _ incident ih => exact satisfiesCoherent_change ih (undergo_change _ incident)
  | receive _ ih => exact ih
  | access _ _ hscreen => exact hscreen.satisfiesCoherent

/-! ## Slots that run no cycle -/

/-- Slots that run no cycle only let the afterglow fade and silence the tone. -/
theorem ticks_of_idle (hidle : s.isActive = false) (n : Nat) :
    ∃ sound, s.ticks n =
      { s with
        machine := s.machine.withScreen
          (FrameBuffer.repeated FrameBuffer.updateDecay (s.granted n) s.machine.screen)
        sound := sound } := by
  induction n generalizing s with
  | zero =>
      rw [granted, ite_self]
      exact ⟨s.sound, rfl⟩
  | succ n ih =>
      rw [ticks]
      rcases Bool.eq_false_or_eq_true s.poisoned with hp | hp
      · have hnone : s.granted (n + 1) = s.granted n := by
          rw [granted, granted, if_pos hp, if_pos hp]
        rw [tick_of_poisoned hp, hnone]
        exact ih hidle
      -- one update now, and the others in the slots that follow
      · have hall : ∀ k, s.granted k = k := by
          intro k
          rw [granted, hp]
          rfl
        have hrest : s.aged.idleSlot.2.granted n = s.granted n := rfl
        obtain ⟨sound, heq⟩ := ih (s := s.aged.idleSlot.2) hidle
        rw [tick_of_idle hp hidle, heq, hrest, hall, hall]
        exact ⟨sound, rfl⟩

/-- Every slot gets the lock unless it is poisoned. -/
theorem isOk_tick_of_idle (hidle : s.isActive = false) : s.tick.1.isOk = !s.poisoned := by
  cases hp : s.poisoned with
  | true =>
      rw [tick_eq_of_poisoned hp]
      rfl
  | false =>
      rw [tick_eq_of_idle hp hidle]
      rfl

/-- In every state that can be reached in which the scheduler is paused or halted, slots change
nothing that a program can see and send no events. After some slots every countdown of the grid is
the one of before less their number, or over; once all of them are over the picture is the logical
one, and further slots do not change the machine. -/
theorem fades_finish (h : s.Reachable) (hstate : s.state ≠ .running) (n : Nat) :
    let made := s.granted n
    let later := s.ticks n
    (∀ k, (s.ticks k).tick.1.isOk = !s.poisoned) ∧ later.state = s.state ∧
      later.machine.screen.cells.map Cell.timer =
        s.machine.screen.cells.map (fun cell => remaining made cell.timer) ∧
      ((∀ cell ∈ s.machine.screen.cells, ∀ t, cell.timer = some t → t.toNat ≤ made) →
        later.machine.screen.renderData = later.machine.screen.logicalData ∧
          ∀ m, (later.ticks m).machine = later.machine) ∧
      s.machine.Agree later.machine ∧ later.events = s.events := by
  intro made later
  have hidle : s.isActive = false := by
    rw [Ne, state_eq_running_iff, Bool.not_eq_true] at hstate
    exact hstate
  have hscreen := h.satisfiesCoherent
  obtain ⟨sound, hlater⟩ := ticks_of_idle hidle n
  have hfaded : later.machine.screen =
      FrameBuffer.repeated FrameBuffer.updateDecay made s.machine.screen := by
    simp only [later, hlater]
    rfl
  refine ⟨?_, ?_, ?_, ?_, ?_, ?_⟩
  · intro k
    obtain ⟨sound', heq⟩ := ticks_of_idle hidle k
    rw [heq]
    exact isOk_tick_of_idle hidle
  · simp only [later, hlater]
    rfl
  · rw [hfaded]
    exact hscreen.timers_repeated_updateDecay made
  · intro hover
    have hsettled : later.machine.screen.Settled := by
      rw [hfaded]
      exact hscreen.settled hover
    have hcoherent : later.machine.screen.SatisfiesCoherent := by
      rw [hfaded]
      exact hscreen.repeated_updateDecay made
    refine ⟨hcoherent.renderData_eq hsettled, ?_⟩
    intro m
    have hidle' : later.isActive = false := by
      simp only [later, hlater]
      exact hidle
    obtain ⟨sound', heq⟩ := ticks_of_idle hidle' m
    rw [heq, hsettled.repeated_updateDecay]
    rfl
  · simp only [later, hlater]
    exact Machine.agree_withScreen _ (FrameBuffer.sameLogical_repeated_updateDecay _ _)
  · simp only [later, hlater]

/-- A scheduler without a program whose screen shows a pixel for three more slots. Another user of
the machine drew it twice. -/
theorem fades_finish_halted :
    let machine := Machine.new {} (RandomSource.ofSeed 1)
    let place := Mode.standard.index 1 1
    let screen := FrameBuffer.new.applyAll [.setDecayDelay 3, .setPixel 1 1 1, .setPixel 1 1 1]
    let s : Scheduler Mute := { started machine {} 1.0 with machine := machine.withScreen screen }
    s.Reachable ∧ s.state = .halted ∧ (screen.cells.map Cell.timer)[place]? = some (some 3) ∧
      ((s.ticks 2).machine.screen.cells.map Cell.timer)[place]? = some (some 1) ∧
      (s.ticks 3).machine.screen.renderData = (s.ticks 3).machine.screen.logicalData ∧
      ((s.ticks 3).ticks 5).machine = (s.ticks 3).machine := by
  intro machine place screen
  have hscreen : screen.Reachable := ⟨_, rfl⟩
  obtain ⟨hcell, hshort⟩ : screen.cells[place]? = some ⟨0, 1, true, some 3⟩ ∧
      screen.EachCell fun _ cell => ∀ t, cell.timer = some t → t.toNat ≤ 3 := by
    -- the cell is switched on, then off
    let start := FrameBuffer.new.setDecayDelay 3
    have hdark : start.cells[place]? = some Cell.blank :=
      FrameBuffer.getElem?_new ⟨by decide, by decide⟩
    have hblank : start.Hits 1 1 1 Cell.blank := ⟨by decide, by decide, hdark⟩
    let lit := start.setCell place (Cell.absolute 1)
    have hon : (start.setPixel 1 1 1).2 = lit := by
      rw [FrameBuffer.setPixel_of_unlit hblank (by decide)]
      rfl
    have hcell : lit.cells[place]? = some (Cell.absolute 1) := by
      rw [FrameBuffer.getElem?_setCell, if_pos rfl, hdark, Option.map_some]
    have hlit : lit.Hits 1 1 1 (Cell.absolute 1) := ⟨by decide, by decide, hcell⟩
    have hoff : screen = lit.setCell place ⟨0, 1, true, some 3⟩ := by
      show ((start.setPixel 1 1 1).2.setPixel 1 1 1).2 = _
      rw [hon, FrameBuffer.setPixel_of_lit hlit rfl]
      rfl
    have hnone : start.EachCell fun _ cell => ∀ t, cell.timer = some t → t.toNat ≤ 3 := by
      intro i cell hmem t ht
      rw [Array.eq_of_mem_replicate (Array.mem_of_getElem? hmem)] at ht
      cases ht
    rw [hoff]
    refine ⟨?_, (hnone.setCell ?_).setCell ?_⟩
    · rw [FrameBuffer.getElem?_setCell, if_pos rfl, hcell, Option.map_some]
    · intro t ht
      cases ht
    · intro t ht
      cases ht
      decide
  clear_value screen
  intro s
  have hmachine : machine.screen.Reachable :=
    ⟨[.setReduceFlicker true, .setDecayDelay FrameBuffer.blurDelay], rfl⟩
  have hspawn : spawn machine false ({} : Mute) 1.0 = .ok (started machine {} 1.0) :=
    spawn_started _ _ _
  have hreachable : s.Reachable :=
    (Reachable.spawn hmachine hspawn).access (machine.withScreen screen) hscreen
  have hstate : s.state ≠ .running := by
    show RunState.halted ≠ .running
    decide
  have hthree : ∀ cell ∈ s.machine.screen.cells, ∀ t, cell.timer = some t →
      t.toNat ≤ s.granted 3 := by
    intro cell hmem
    obtain ⟨i, hi⟩ := Array.getElem?_of_mem hmem
    exact hshort i cell hi
  obtain ⟨-, -, htimers, -, -, -⟩ := fades_finish hreachable hstate 2
  obtain ⟨-, -, -, hover, -, -⟩ := fades_finish hreachable hstate 3
  obtain ⟨hpicture, hrest⟩ := hover hthree
  refine ⟨hreachable, rfl, ?_, ?_, hpicture, hrest 5⟩
  · rw [Array.getElem?_map, hcell]
    rfl
  · rw [htimers, Array.getElem?_map]
    show (screen.cells[place]?).map _ = _
    rw [hcell]
    rfl

end Scheduler

end Schip
