import Schip.Proofs.Scheduler.Course

/-!
# The pace of the worker

The pacer keeps the period of a batch and computes it again only when the pace scale that it is
given differs from the one that it has. The period is never stale: a pacer whose scale was set is
the pacer made for that scale, whatever scales came before (`Pacer.setPaceScale_new`). Nothing in
this depends on how a period follows from scale and speed.

The worker sets the scale once in every slot with a cycle, after the machine has changed as the
cycle and the end of a program change it, and at no other time (`pacer_change`). So after such a
slot the pace is that of the resolution, and in between it stays (`pace_follows_resolution`).
-/

set_option autoImplicit false

namespace Schip

namespace Pacer

/-- A pacer whose scale is set is the one made for that scale. -/
theorem setPaceScale_new (first next : UInt32) (speed : Float) :
    (new first speed).setPaceScale next = new next speed := by
  rw [setPaceScale]
  split
  · next hsame =>
      rw [hsame]
      rfl
  · rfl

/-- Of the scales that were set, only the last one shows in the pacer. -/
theorem foldl_setPaceScale_new (first : UInt32) (scales : List UInt32) (speed : Float) :
    scales.foldl setPaceScale (new first speed) = new (scales.getLastD first) speed := by
  induction scales generalizing first with
  | nil => rfl
  | cons next rest ih => rw [List.foldl_cons, setPaceScale_new, ih, List.getLastD_cons]

end Pacer

/-- The pace scale depends on the machine by its resolution alone. -/
theorem Machine.paceScale_eq (m : Machine) :
    m.paceScale = if m.screen.mode.resolution = ⟨128, 64⟩ then 250 else 150 := by
  rw [paceScale]
  cases m.screen.mode <;> rfl

namespace Scheduler

variable {σ : Type} [Sound σ] {s s' : Scheduler σ} {incident : Incident} {ran : Option Machine}

/-- A change with a cycle sets the pace scale to that of the machine which it leaves; other changes
do not touch the pacer. -/
theorem pacer_change (hchange : s.Change incident ran s') :
    s'.pacer = if ran.isSome then s.pacer.setPaceScale s'.machine.paceScale else s.pacer := by
  cases hchange with
  | cycle keys =>
      rw [activeSlot_eq]
      rfl
  | failed keys =>
      obtain ⟨running, sound, heq⟩ := (s.showKeys keys).stop_eq
      rw [heq]
      rfl
  | stop =>
      obtain ⟨running, sound, heq⟩ := s.stop_eq
      rw [heq]
      rfl
  | idle | ended | poison | flag | unopened | reset | emptied | started => rfl

/-- The pacer is one made for the speed, for whatever scale. -/
def Paced (s : Scheduler σ) (speed : Float) : Prop := ∃ scale, s.pacer = Pacer.new scale speed

/-- No change leaves a pacer for another speed. -/
theorem Paced.change {speed : Float} (h : s.Paced speed) (hchange : s.Change incident ran s') :
    s'.Paced speed := by
  obtain ⟨scale, hscale⟩ := h
  rw [Paced, pacer_change hchange, hscale]
  split
  · exact ⟨_, Pacer.setPaceScale_new scale _ speed⟩
  · exact ⟨scale, rfl⟩

/-- The pacer stays one for the speed with which the worker was started. -/
theorem paced_undergoAll {machine : Machine} {poisoned : Bool} {sound : σ} {speed : Float}
    (hspawn : spawn machine poisoned sound speed = .ok s) (incidents : List Incident) :
    (s.undergoAll incidents).Paced speed := by
  refine undergoAll_induction (I := (Paced · speed)) Paced.change ?_ incidents
  rw [eq_started_of_spawn hspawn]
  exact ⟨machine.paceScale, rfl⟩

/-- A cycle is run by the slots of a worker that is at work, gets the lock and finds the scheduler
neither paused nor halted. -/
theorem isSome_ran_iff (hchange : s.Change incident ran s') :
    ran.isSome = true ↔ (∃ keys, incident = .slot keys) ∧ s.running = true ∧
      s.poisoned = false ∧ s.state = .running := by
  rw [state_eq_running_iff]
  cases hchange with
  | cycle keys hrunning hp hactive => simp [hrunning, hp, hactive]
  -- slots without a cycle
  | idle keys hidle => simp [hidle]
  | failed keys hp => simp [hp]
  | ended keys hended => simp [hended]
  | stop | poison | flag | unopened | reset | emptied | started => simp

/-- The period of a pacer is that of a new one for the scale that was set last. Whatever happens
from the start of a scheduler on, a slot that runs a cycle leaves the worker with a new pacer for
the resolution of the machine then, and everything else leaves the pacer alone; a cycle is run by
the slots of a worker that is at work, gets the lock and finds the scheduler neither paused nor
halted. -/
theorem pace_follows_resolution :
    (∀ (speed : Float) (first : UInt32) (scales : List UInt32),
      (scales.foldl Pacer.setPaceScale (Pacer.new first speed)).period =
        (Pacer.new (scales.getLastD first) speed).period) ∧
      ∀ {machine : Machine} {poisoned : Bool} {sound : σ} {speed : Float} {s : Scheduler σ},
        spawn machine poisoned sound speed = .ok s →
        ∀ (incidents : List Incident) (incident : Incident),
          let before := s.undergoAll incidents
          let after := before.undergo incident
          after.pacer =
              (if (before.cycled incident).isSome then
                Pacer.new (if after.machine.screen.mode.resolution = ⟨128, 64⟩ then 250 else 150)
                  speed
              else before.pacer) ∧
            ((before.cycled incident).isSome = true ↔ (∃ keys, incident = .slot keys) ∧
              before.running = true ∧ before.poisoned = false ∧ before.state = .running) := by
  refine ⟨fun speed first scales => ?_, fun hspawn incidents incident => ⟨?_, ?_⟩⟩
  · rw [Pacer.foldl_setPaceScale_new]
  · obtain ⟨scale, hscale⟩ := paced_undergoAll hspawn incidents
    rw [pacer_change (undergo_change _ incident), hscale, Pacer.setPaceScale_new,
      Machine.paceScale_eq]
  · exact isSome_ran_iff (undergo_change _ incident)

/-- A slot that switches to the extended mode. -/
theorem Poised.slot_of_highRes {mem : Memory} {registers : Registers}
    (h : s.Poised mem registers) {word : UInt16} (hword : mem.word registers.pc.toNat = .ok word)
    (hdecode : Instruction.decode word = .highRes) (keys : Keypad) :
    (s.undergo (.slot keys)).machine.screen.mode = .extended := by
  have hexecute := (h.showKeys keys).aged.fetchExecute hword
  have hwork : s.undergo (.slot keys) = (s.showKeys keys).aged.activeSlot.2 :=
    (h.showKeys keys).work.2
  rw [hwork, activeSlot_eq, Machine.cycle_eq, hexecute, hdecode]
  rfl

/-- A program that switches to the extended mode, and is paused then. -/
theorem pace_follows_resolution_switched :
    let machine := ((Machine.new {} (RandomSource.ofSeed 1)).loadProgram
      (.ofBytes [0x00, 0xFF, 0x12, 0x00])).2
    let s : Scheduler Mute := started machine {} 1.0
    let slot : Incident := .slot Keypad.clear
    spawn machine false {} 1.0 = .ok s ∧ s.pacer = Pacer.new 150 1.0 ∧
      (s.undergo slot).pacer = Pacer.new 250 1.0 ∧
      ((s.undergo slot).pause.undergo slot).pacer = Pacer.new 250 1.0 := by
  intro machine s slot
  have hspawn : spawn machine false {} 1.0 = .ok s := spawn_started _ _ _
  have hmachine : machine = (Machine.new {} (RandomSource.ofSeed 1)).loaded
      [0x00, 0xFF, 0x12, 0x00] :=
    Machine.snd_loadProgram_ofBytes _ (by decide)
  have hstart : s.pacer = Pacer.new 150 1.0 := by
    show Pacer.new machine.paceScale 1.0 = _
    rw [hmachine]
    rfl
  have hpoised := poised_of_spawn hmachine hspawn
  have hword := @Machine.word_loaded (Machine.new {} (RandomSource.ofSeed 1))
    [0x00, 0xFF, 0x12, 0x00] 0 (by decide) (by decide)
  have hmode := hpoised.slot_of_highRes hword (by decide) Keypad.clear
  -- what is left to say is about any scheduler in that state
  clear_value s machine
  have hswitched : (s.undergo slot).pacer = Pacer.new 250 1.0 := by
    obtain ⟨hpacer, hcycle⟩ := pace_follows_resolution.2 hspawn [] slot
    have hstarted : s.undergoAll [] = s := rfl
    have hextended : (s.undergo slot).machine.screen.mode.resolution = ⟨128, 64⟩ :=
      congrArg Mode.resolution hmode
    rw [hstarted] at hpacer hcycle
    have hran := hcycle.2
      ⟨⟨_, rfl⟩, hpoised.running, hpoised.poisoned, state_eq_running_iff.2 hpoised.active⟩
    rwa [if_pos hran, if_pos hextended] at hpacer
  have hpaused : ((s.undergo slot).pause.undergo slot).pacer = (s.undergo slot).pacer := by
    obtain ⟨hpacer, hcycle⟩ := pace_follows_resolution.2 hspawn [slot, .control .pause] slot
    have hbefore : s.undergoAll [slot, .control .pause] = (s.undergo slot).pause := rfl
    have hidle (t : Scheduler Mute) : t.pause.pacer = t.pacer ∧ t.pause.isActive = false :=
      ⟨rfl, rfl⟩
    rw [hbefore] at hpacer hcycle
    have hnone : ¬((s.undergo slot).pause.cycled slot).isSome = true := by
      rw [hcycle, state_eq_running_iff, (hidle _).2]
      exact fun h => Bool.false_ne_true h.2.2.2
    rw [if_neg hnone, (hidle _).1] at hpacer
    exact hpacer
  exact ⟨hspawn, hstart, hswitched, hpaused.trans hswitched⟩

end Scheduler

end Schip
