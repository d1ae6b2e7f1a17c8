import Mathlib.Data.List.Induction
import Schip.Proofs.Machine.Bookkeeping
import Schip.Proofs.Scheduler.Course
import Schip.Proofs.Sound.Alternation

/-!
# When the tone sounds

A cycle that leaves a sound timer that runs leaves an obedient device sounding, but for one case. A
slot of a pause silences the tone and keeps the timer, and the end of the pause does not bring the
tone back: it stays away until a cycle asks for one. `Hushed` is that case, and
`sounding_iff_not_hushed` says that there is no other; `silent_after_pause` is a run into it.

`Voiced.change` is the step lemma: where a program can go on with a timer that runs, the tone sounds
or was hushed. A halt cannot take a tone away for good, because every start after it begins with a
timer at zero.
-/

set_option autoImplicit false

namespace Schip

/-! ## Devices -/

namespace ToneCall

variable {σ : Type} [Sound σ]

/-- A device that obeys sounds once it was asked to start. -/
theorem isSounding_startIfSilent (hobeys : Sound.Obedient σ) (device : σ) :
    Sound.isSounding (startIfSilent device).2 = true := by
  rw [startIfSilent]
  cases hsounds : Sound.isSounding device with
  | true => exact hsounds
  | false =>
      obtain ⟨device', hstart, hsounding⟩ := hobeys.starts device
      rw [if_neg (by decide), hstart]
      exact hsounding

/-- A device that sounds after a cycle was asked to, or sounded before. -/
theorem sounding_of_afterCycle (hobeys : Sound.Obedient σ) {outcome : Outcome} {timer : UInt8}
    {device : σ} (h : Sound.isSounding (afterCycle outcome timer device).2 = true) :
    outcome = .startTone ∨ Sound.isSounding device = true := by
  have hsilent := isSounding_silence hobeys.isSounding_stopTone device
  cases outcome with
  | startTone => exact Or.inl rfl
  | exit => exact absurd (hsilent.symm.trans h) (by decide)
  | proceed =>
      rw [afterCycle] at h
      split at h
      · exact absurd (hsilent.symm.trans h) (by decide)
      · exact Or.inr h

/-- After a cycle that left a timer that runs, a device sounds if it was asked to or did before. -/
theorem sounds_afterCycle (hobeys : Sound.Obedient σ) {outcome : Outcome} {timer : UInt8}
    {device : σ} (hgoes : outcome ≠ .exit) (htimer : timer ≠ 0)
    (h : outcome = .startTone ∨ Sound.isSounding device = true) :
    Sound.isSounding (afterCycle outcome timer device).2 = true := by
  cases outcome with
  | exit => exact absurd rfl hgoes
  | startTone =>
      simp only [afterCycle, if_neg htimer]
      exact isSounding_startIfSilent hobeys device
  | proceed =>
      rw [afterCycle, if_neg htimer]
      exact h.resolve_left (by decide)

end ToneCall

namespace Scheduler

variable {σ : Type} [Sound σ] {s s' : Scheduler σ} {incident : Incident} {ran : Option Machine}

/-- The afterglow has no part in what a cycle reports. -/
theorem step_faded (m : Machine) : (faded m).cycle.1 = m.cycle.1 :=
  (Machine.agree_withScreen m (FrameBuffer.sameLogical_updateDecay m.screen)).cycle.1.symm

/-! ## Tones taken away by a pause -/

/-- A slot of a pause took the tone away, and no cycle since has asked for one. -/
def Hushed (s : Scheduler σ) (incidents : List Incident) : Prop :=
  ∃ before keys after, incidents = before ++ .slot keys :: after ∧
    (s.undergoAll before).state = .paused ∧
    ∀ m ∈ ((s.undergoAll before).undergo (.slot keys)).cycles after,
      m.cycle.1.outcome ≠ .startTone

theorem hushed_of_paused {incidents : List Incident}
    (hpaused : (s.undergoAll incidents).state = .paused) (keys : Keypad) :
    s.Hushed (incidents ++ [.slot keys]) :=
  ⟨incidents, keys, [], rfl, hpaused, fun _ hm => by cases hm⟩

/-- A hushed tone stays hushed until a cycle asks for one. -/
theorem Hushed.snoc {incidents : List Incident} (h : s.Hushed incidents)
    (hran : ∀ m ∈ (s.undergoAll incidents).cycled incident, m.cycle.1.outcome ≠ .startTone) :
    s.Hushed (incidents ++ [incident]) := by
  obtain ⟨before, keys, after, rfl, hpaused, hnone⟩ := h
  refine ⟨before, keys, after ++ [incident], by simp, hpaused, ?_⟩
  rw [undergoAll_append, undergoAll_cons] at hran
  intro m hm
  rw [cycles_append] at hm
  rcases List.mem_append.1 hm with hbefore | hlast
  · exact hnone m hbefore
  · rw [cycles, cycles, List.append_nil, Option.mem_toList] at hlast
    exact hran m hlast

/-! ## A tone that was taken away does not come back by itself -/

/-- The worker has ended, or the tone is silent. -/
def Quiet (s : Scheduler σ) : Prop := s.running = false ∨ Sound.isSounding s.sound = false

/-- After a slot of a pause there is no tone, or no worker that could play one. -/
theorem quiet_of_paused (hobeys : Sound.Obedient σ) (hpaused : s.state = .paused) (keys : Keypad) :
    (s.undergo (.slot keys)).Quiet := by
  have hidle := (state_eq_paused_iff.1 hpaused).1
  have hchange := s.change_slot keys
  generalize s.cycled (.slot keys) = ran, s.undergo (.slot keys) = next at hchange
  cases hchange with
  | cycle _ _ _ hactive => exact absurd (hidle.symm.trans hactive) (by decide)
  | idle => exact Or.inr (ToneCall.isSounding_silence hobeys.isSounding_stopTone _)
  | failed => exact Or.inl (running_stop _)
  | ended _ hended => exact Or.inl hended

/-- Without a cycle that asks for a tone none starts. -/
theorem Quiet.change (hobeys : Sound.Obedient σ) (h : s.Quiet) (hchange : s.Change incident ran s')
    (hran : ∀ m ∈ ran, m.cycle.1.outcome ≠ .startTone) : s'.Quiet := by
  cases hchange with
  | cycle keys hrunning =>
      have hsilent := h.resolve_left (by simp [hrunning])
      have hnot := hran _ rfl
      rw [← step_faded] at hnot
      refine Or.inr (Bool.eq_false_iff.2 fun hsounds => ?_)
      rcases ToneCall.sounding_of_afterCycle hobeys hsounds with hstart | hbefore
      · exact hnot hstart
      · exact absurd (hsilent.symm.trans hbefore) (by decide)
  | idle => exact Or.inr (ToneCall.isSounding_silence hobeys.isSounding_stopTone _)
  | failed => exact Or.inl (running_stop _)
  | stop => exact Or.inl (running_stop _)
  | ended | poison | flag | unopened | reset | emptied | started => exact h

theorem Quiet.undergoAll (hobeys : Sound.Obedient σ) (h : s.Quiet) {incidents : List Incident}
    (hran : ∀ m ∈ s.cycles incidents, m.cycle.1.outcome ≠ .startTone) :
    (s.undergoAll incidents).Quiet := by
  induction incidents generalizing s with
  | nil => exact h
  | cons incident rest ih =>
      rw [cycles, List.forall_mem_append] at hran
      have hnext := h.change hobeys (s.undergo_change incident)
        fun m hm => hran.1 m (Option.mem_toList.2 hm)
      exact ih hnext hran.2

/-- Where the tone was hushed it is silent. -/
theorem Hushed.quiet (hobeys : Sound.Obedient σ) {incidents : List Incident}
    (h : s.Hushed incidents) : (s.undergoAll incidents).Quiet := by
  obtain ⟨before, keys, after, rfl, hpaused, hnone⟩ := h
  rw [undergoAll_append, undergoAll_cons]
  exact (quiet_of_paused hobeys hpaused keys).undergoAll hobeys hnone

/-! ## Nothing else takes a tone away -/

/-- Where a program can go on with a sound timer that runs, the tone sounds or was hushed. -/
def Voiced (hushed : Prop) (s : Scheduler σ) : Prop :=
  s.running = true → s.halted = false → s.machine.registers.sound ≠ 0 →
    Sound.isSounding s.sound = true ∨ hushed

/-- A tone whose timer runs falls silent only in a slot of a pause. -/
theorem Voiced.change (hobeys : Sound.Obedient σ) {hushed hushed' : Prop} (h : s.Voiced hushed)
    (hchange : s.Change incident ran s')
    (hkept : (∀ m ∈ ran, m.cycle.1.outcome ≠ .startTone) → hushed → hushed')
    (hpaused : ∀ keys, incident = .slot keys → s.state = .paused → hushed') :
    s'.Voiced hushed' := by
  intro hruns hgoes htimer
  cases hchange with
  | cycle keys hrunning =>
      rw [activeSlot_eq] at hgoes htimer ⊢
      obtain ⟨hhalted, hexit⟩ := Bool.or_eq_false_iff.1 hgoes
      have hnotExit := of_decide_eq_false hexit
      simp only [settle, if_neg hnotExit] at htimer ⊢
      have hstep := step_faded (s.showKeys keys).machine
      cases houtcome : (s.showKeys keys).aged.machine.cycle.1.outcome with
      | exit => exact absurd houtcome hnotExit
      | startTone =>
          exact Or.inl (ToneCall.sounds_afterCycle hobeys (by decide) htimer (Or.inl rfl))
      | proceed =>
          -- such a cycle cannot have wound the timer up, so it ran before
          have hbefore := Machine.sound_cycle_of_proceed _ houtcome htimer
          rcases h hrunning hhalted hbefore with hsounds | hhushed
          · exact Or.inl (ToneCall.sounds_afterCycle hobeys (by decide) htimer (Or.inr hsounds))
          · refine Or.inr (hkept ?_ hhushed)
            rintro _ ⟨⟩
            rw [← hstep]
            exact fun hstart => absurd (houtcome.symm.trans hstart) (by decide)
  | idle keys hidle => exact Or.inr (hpaused keys rfl (state_eq_paused_iff.2 ⟨hidle, hgoes⟩))
  | failed keys =>
      rw [running_stop] at hruns
      cases hruns
  | stop =>
      rw [running_stop] at hruns
      cases hruns
  | ended keys hended => exact absurd (hended.symm.trans hruns) (by decide)
  | poison | flag =>
      exact (h hruns hgoes htimer).imp_right
        (hkept fun m hm => absurd hm (Option.not_mem_none m))
  | unopened | reset | emptied => cases hgoes
  -- the only way out of a halt winds the timer back to zero
  | started => exact absurd rfl htimer

/-- From a timer at zero on, the tone sounds or was hushed. -/
theorem voiced_undergoAll (hobeys : Sound.Obedient σ) (hzero : s.machine.registers.sound = 0)
    (incidents : List Incident) : (s.undergoAll incidents).Voiced (s.Hushed incidents) := by
  induction incidents using List.reverseRecOn with
  | nil => exact fun _ _ htimer => absurd hzero htimer
  | append_singleton before incident ih =>
      rw [undergoAll_snoc]
      refine ih.change hobeys ((s.undergoAll before).undergo_change incident) ?_ ?_
      · exact fun hran hhushed => hhushed.snoc hran
      · rintro keys rfl hpaused
        exact hushed_of_paused hpaused keys

/-- A cycle that leaves a timer that runs leaves a worker that runs, and no halt. -/
theorem goes_of_cycle {m : Machine} (hchange : s.Change incident (some m) s')
    (htimer : s'.machine.registers.sound ≠ 0) : s'.running = true ∧ s'.halted = false := by
  cases hchange with
  | cycle keys hrunning hp hactive =>
      rw [activeSlot_eq] at htimer ⊢
      have hgoes : (s.showKeys keys).aged.machine.cycle.1.outcome ≠ .exit := by
        intro hexit
        -- the end of a program resets the timer with the machine
        simp only [hexit, settle, if_pos] at htimer
        exact htimer rfl
      have hhalted : s.halted = false := by
        rw [isActive, Bool.and_eq_true, Bool.not_eq_true', Bool.not_eq_true'] at hactive
        exact hactive.2
      exact ⟨hrunning, Bool.or_eq_false_iff.2 ⟨hhalted, decide_eq_false hgoes⟩⟩

/-! ## A program that hums -/

section Humming

variable {mem : Memory} {registers : Registers}

theorem Poised.cycled (h : s.Poised mem registers) (keys : Keypad) :
    s.cycled (.slot keys) = some (s.showKeys keys).machine := by
  have hshown := h.showKeys keys
  rw [Scheduler.cycled, if_pos h.running, tick_eq_of_active hshown.poisoned hshown.active]
  rfl

/-- A pause of one slot silences the tone and leaves everything else as it was. -/
theorem Poised.interlude (h : s.Poised mem registers) (keys : Keypad) :
    (s.undergoAll [.control .pause, .slot keys, .control .resume]).Poised mem registers ∧
      (s.undergoAll [.control .pause, .slot keys, .control .resume]).sound =
        (ToneCall.silence s.sound).2 := by
  have hactive := h.active
  simp only [isActive, Bool.and_eq_true, Bool.not_eq_true'] at hactive
  have hslot : s.pause.undergo (.slot keys) = (s.pause.showKeys keys).aged.idleSlot.2 :=
    work_of_idle h.running h.poisoned rfl
  have hcourse : s.undergoAll [.control .pause, .slot keys, .control .resume] =
      (s.pause.showKeys keys).aged.idleSlot.2.resume := by
    rw [← hslot]
    rfl
  rw [hcourse, idleSlot_eq]
  refine ⟨⟨h.running, h.poisoned, ?_, h.memory, h.registers⟩, rfl⟩
  show (!false && !s.halted) = true
  rw [hactive.2]
  rfl

/-- Program that sets the sound timer to five and jumps on the spot from then on. -/
def hum : List UInt8 := [0x60, 0x05, 0xF0, 0x18, 0x12, 0x04]

/-- Registers of that program at its jump, with the timer at four. -/
def hummed : Registers :=
  ((Registers.new.setV 0 5).tickTimers.advance.setSound 5).tickTimers.advance

theorem word_hum (blank : Machine) (i : Nat) (h : i + 1 < hum.length) :
    (blank.loaded hum).memory.word (Memory.programBase + i) =
      .ok (hum[i].toUInt16 <<< 8 ||| hum[i + 1].toUInt16) :=
  blank.word_loaded h (by decide)

/-- After its first two slots the tone sounds. -/
theorem poised_hummed {blank machine : Machine} {speed : Float} {s : Scheduler Mute}
    (hmachine : machine = blank.loaded hum) (hspawn : spawn machine false {} speed = .ok s)
    (keys : Keypad) :
    (s.undergoAll [.slot keys, .slot keys]).Poised (blank.loaded hum).memory hummed ∧
      (s.undergoAll [.slot keys, .slot keys]).sound = ⟨true⟩ := by
  have hdevice : s.sound = {} := by
    rw [eq_started_of_spawn hspawn]
    rfl
  obtain ⟨hset, hsilent⟩ := (poised_of_spawn hmachine hspawn).slot (fun r => r.setV 0 5)
    (word_hum blank 0 (by decide)) (fun _ => rfl) (by decide) keys
  obtain ⟨hsounded, htone⟩ := hset.slot (fun r => r.setSound (r.v 0))
    (word_hum blank 2 (by decide)) (fun _ => rfl) (by decide) keys
  refine ⟨hsounded, ?_⟩
  rw [hsilent, hdevice] at htone
  exact htone

/-- At the jump another slot runs a cycle, leaves the timer running and the device as it was. -/
theorem Poised.slot_of_hummed {blank : Machine} (h : s.Poised (blank.loaded hum).memory hummed)
    (keys : Keypad) :
    s.cycled (.slot keys) ≠ none ∧ (s.undergo (.slot keys)).machine.registers.sound ≠ 0 ∧
      (s.undergo (.slot keys)).sound = s.sound := by
  obtain ⟨hnext, hdevice⟩ := h.slot (fun r => r.jump 0x204)
    (word_hum blank 4 (by decide)) (fun _ => rfl) (by decide) keys
  refine ⟨?_, ?_, hdevice⟩
  · rw [h.cycled keys]
    exact Option.some_ne_none _
  · rw [hnext.registers]
    decide

end Humming

/-! ## The tone -/

/-- From the start of a scheduler with an obedient device over a machine with its sound timer at
zero on, a slot that ran a cycle and left the timer running leaves the tone sounding, unless it was
hushed. -/
theorem sounding_iff_not_hushed (hobeys : Sound.Obedient σ) {machine : Machine} {poisoned : Bool}
    {sound : σ} {speed : Float} (hzero : machine.registers.sound = 0)
    (hspawn : spawn machine poisoned sound speed = .ok s) (incidents : List Incident)
    (keys : Keypad) (hcycled : (s.undergoAll incidents).cycled (.slot keys) ≠ none)
    (htimer : ((s.undergoAll incidents).undergo (.slot keys)).machine.registers.sound ≠ 0) :
    Sound.isSounding ((s.undergoAll incidents).undergo (.slot keys)).sound = true ↔
      ¬ s.Hushed (incidents ++ [.slot keys]) := by
  have hstart : s.machine.registers.sound = 0 := by
    rw [eq_started_of_spawn hspawn]
    exact hzero
  have hchange := (s.undergoAll incidents).undergo_change (.slot keys)
  obtain ⟨m, hm⟩ := Option.ne_none_iff_exists'.1 hcycled
  rw [hm] at hchange
  obtain ⟨hruns, hgoes⟩ := goes_of_cycle hchange htimer
  have hvoiced := voiced_undergoAll hobeys hstart (incidents ++ [.slot keys])
  rw [undergoAll_snoc] at hvoiced
  constructor
  · intro hsounds hhushed
    have hquiet := hhushed.quiet hobeys
    rw [undergoAll_snoc] at hquiet
    rcases hquiet with hended | hsilent
    · exact absurd (hended.symm.trans hruns) (by decide)
    · exact absurd (hsilent.symm.trans hsounds) (by decide)
  · intro hnot
    exact (hvoiced hruns hgoes htimer).resolve_right hnot

/-- A tone in its second cycle. -/
theorem sounding_iff_not_hushed_hum :
    let machine := ((Machine.new {} (RandomSource.ofSeed 1)).loadProgram (.ofBytes hum)).2
    let s : Scheduler Mute := started machine {} 1.0
    let slot : Incident := .slot Keypad.clear
    let reached := s.undergoAll [slot, slot]
    Sound.Obedient Mute ∧ machine.registers.sound = 0 ∧ spawn machine false {} 1.0 = .ok s ∧
      reached.cycled slot ≠ none ∧ (reached.undergo slot).machine.registers.sound ≠ 0 ∧
      (Sound.isSounding (reached.undergo slot).sound = true ↔
        ¬ s.Hushed ([slot, slot] ++ [slot])) := by
  intro machine s slot reached
  have hspawn : spawn machine false {} 1.0 = .ok s := spawn_started _ _ _
  have hmachine : machine = (Machine.new {} (RandomSource.ofSeed 1)).loaded hum :=
    Machine.snd_loadProgram_ofBytes _ (by decide)
  have hzero : machine.registers.sound = 0 := by
    rw [hmachine]
    rfl
  obtain ⟨hcycled, htimer, -⟩ :=
    (poised_hummed hmachine hspawn Keypad.clear).1.slot_of_hummed Keypad.clear
  exact ⟨Sound.obedient_mute, hzero, hspawn, hcycled, htimer,
    sounding_iff_not_hushed Sound.obedient_mute hzero hspawn _ _ hcycled htimer⟩

/-- The same tone after a pause of one slot: the timer runs again, and the tone is silent. -/
theorem silent_after_pause :
    let machine := ((Machine.new {} (RandomSource.ofSeed 1)).loadProgram (.ofBytes hum)).2
    let s : Scheduler Mute := started machine {} 1.0
    let slot : Incident := .slot Keypad.clear
    let reached := s.undergoAll
      ([slot, slot] ++ [.control .pause, slot, .control .resume])
    Sound.Obedient Mute ∧ Sound.isSounding ({} : Mute) = false ∧ machine.registers.sound = 0 ∧
      spawn machine false {} 1.0 = .ok s ∧ reached.cycled slot ≠ none ∧
      (reached.undergo slot).machine.registers.sound ≠ 0 ∧
      Sound.isSounding (reached.undergo slot).sound = false := by
  intro machine s slot reached
  have hspawn : spawn machine false {} 1.0 = .ok s := spawn_started _ _ _
  have hmachine : machine = (Machine.new {} (RandomSource.ofSeed 1)).loaded hum :=
    Machine.snd_loadProgram_ofBytes _ (by decide)
  have hzero : machine.registers.sound = 0 := by
    rw [hmachine]
    rfl
  obtain ⟨hsounding, hdevice⟩ := poised_hummed hmachine hspawn Keypad.clear
  obtain ⟨hpaused, hsilenced⟩ := hsounding.interlude Keypad.clear
  have hreached : reached = (s.undergoAll [slot, slot]).undergoAll
      [.control .pause, slot, .control .resume] := undergoAll_append s _ _
  rw [← hreached] at hpaused hsilenced
  obtain ⟨hcycled, htimer, hkept⟩ := hpaused.slot_of_hummed Keypad.clear
  refine ⟨Sound.obedient_mute, rfl, hzero, hspawn, hcycled, htimer, ?_⟩
  rw [hkept, hsilenced, hdevice]
  rfl

end Scheduler

end Schip
