import Schip.Proofs.Scheduler.Worker
import Schip.Proofs.Sound.Alternation

/-!
# Tone safety

The worker never leaves a tone behind. Whatever happens to a scheduler with an obedient device, the
requests on the device alternate, a tone that sounds at the end of a slot has a sound timer that
runs, and a worker that has ended has stopped the tone as often as it started it.

`Tuned` is the invariant, `Tuned.undergo` its step lemma, and `tone_safe` says what follows from it
for every state that can be reached. The tone outlives a cycle without an instruction: a fetch past
the end of memory leaves a running timer running, and the tone with it
(`sounding_without_instruction`).
-/

set_option autoImplicit false

namespace Schip.Scheduler

variable {σ : Type} [Sound σ]

/-- The device is orderly, and silent once the worker has ended. -/
structure Tuned (s : Scheduler (Recorded σ)) : Prop where
  orderly : s.sound.Orderly
  ended : s.running = false → Sound.isSounding s.sound = false

/-- What holds of the tone in a state, and after one more slot or the end of the worker. -/
structure ToneSafe (s : Scheduler (Recorded σ)) : Prop where
  /-- Requests so far alternate, a start first. -/
  alternating : ToneRequest.Alternating s.sound.requests
  /-- A slot that leaves the tone sounding has run a cycle, which was not the end of the program and
  left a sound timer that runs. -/
  sounding : ∀ keys, Sound.isSounding (s.undergo (.slot keys)).sound = true →
    ∃ step cycled tones events, (s.showKeys keys).aged.machine.cycle = (step, cycled) ∧
      (s.showKeys keys).tick = (.ok ⟨some step, tones, events⟩, s.undergo (.slot keys)) ∧
      step.instruction ≠ some .exit ∧ cycled.registers.sound ≠ 0
  /-- A slot of a paused or halted scheduler leaves the tone silent. -/
  idle : s.isActive = false → ∀ keys, Sound.isSounding (s.undergo (.slot keys)).sound = false
  /-- A slot that cannot take the lock ends the worker. -/
  failed : s.poisoned = true → ∀ keys, (s.undergo (.slot keys)).running = false
  /-- So does a stop. -/
  stopped : (s.undergo .stop).running = false
  /-- A worker that has ended leaves the tone silent, stopped as often as it was started. -/
  ended : s.running = false → Sound.isSounding s.sound = false ∧
    s.sound.requests.count .start = s.sound.requests.count .stop

variable {s : Scheduler (Recorded σ)}

/-- The end of the worker leaves the tone silent. -/
theorem Tuned.stop (hobeys : Sound.Obedient σ) (h : s.Tuned) :
    s.stop.2.Tuned ∧ Sound.isSounding s.stop.2.sound = false := by
  cases hrunning : s.running with
  | false =>
      have hsame : s.stop.2 = s := by simp [Scheduler.stop, hrunning]
      rw [hsame]
      exact ⟨h, h.ended hrunning⟩
  | true =>
      have hstop : s.stop.2.sound = (ToneCall.silence s.sound).2 := by
        simp [Scheduler.stop, hrunning]
      obtain ⟨horderly, hsilent⟩ := h.orderly.silence hobeys
      rw [← hstop] at horderly hsilent
      exact ⟨⟨horderly, fun _ => hsilent⟩, hsilent⟩

/-- A slot without a cycle leaves the tone silent. -/
theorem Tuned.idleSlot (hobeys : Sound.Obedient σ) (h : s.Tuned) :
    s.idleSlot.2.Tuned ∧ Sound.isSounding s.idleSlot.2.sound = false := by
  obtain ⟨horderly, hsilent⟩ := h.orderly.silence hobeys
  exact ⟨⟨horderly, fun _ => hsilent⟩, hsilent⟩

/-- A slot with a cycle leaves the tone on only with a sound timer that runs, and not at the end of
a program. -/
theorem Tuned.activeSlot (hobeys : Sound.Obedient σ) (h : s.Tuned) (hrunning : s.running = true) :
    s.activeSlot.2.Tuned ∧ (Sound.isSounding s.activeSlot.2.sound = true →
      s.machine.cycle.1.instruction ≠ some .exit ∧ s.machine.cycle.2.registers.sound ≠ 0) := by
  rw [activeSlot_eq]
  obtain ⟨horderly, hsounding⟩ := h.orderly.afterCycle hobeys s.machine.cycle.1.outcome
    (settle s.machine.cycle.1.outcome s.machine.cycle.2).registers.sound
  refine ⟨⟨horderly, fun hended => absurd (hrunning.symm.trans hended) (by decide)⟩,
    fun hsounds => ?_⟩
  obtain ⟨houtcome, htimer⟩ := hsounding hsounds
  -- without the end of the program nothing was reset, so the timer is the cycle's own
  rw [settle, if_neg houtcome] at htimer
  exact ⟨fun hexit => houtcome (s.machine.exit_iff.1 hexit), htimer⟩

theorem Tuned.showKeys (h : s.Tuned) (keys : Keypad) : (s.showKeys keys).Tuned :=
  ⟨h.orderly, h.ended⟩

theorem Tuned.aged (h : s.Tuned) : s.aged.Tuned := ⟨h.orderly, h.ended⟩

theorem Tuned.work (hobeys : Sound.Obedient σ) (h : s.Tuned) : s.work.Tuned := by
  rcases s.work_cases with ⟨-, heq⟩ | ⟨-, -, heq⟩ | ⟨hrunning, -, -, -, heq⟩ | ⟨-, -, -, heq⟩
  · rw [heq]
    exact h
  · rw [heq]
    exact (h.stop hobeys).1
  · rw [heq]
    exact (h.aged.activeSlot hobeys hrunning).1
  · rw [heq]
    exact (h.aged.idleSlot hobeys).1

/-- Every incident keeps the device orderly. -/
theorem Tuned.undergo (hobeys : Sound.Obedient σ) (h : s.Tuned) (incident : Incident) :
    (s.undergo incident).Tuned := by
  cases incident with
  | slot keys => exact (h.showKeys keys).work hobeys
  | control control =>
      obtain ⟨-, hrunning, hsound⟩ := control_frame s control
      constructor
      · show (s.control control).2.sound.Orderly
        rw [hsound]
        exact h.orderly
      · show (s.control control).2.running = false →
          Sound.isSounding (s.control control).2.sound = false
        rw [hsound, hrunning]
        exact h.ended
  | poison => exact ⟨h.orderly, h.ended⟩
  | stop => exact (h.stop hobeys).1

theorem Tuned.undergoAll (hobeys : Sound.Obedient σ) (h : s.Tuned) (incidents : List Incident) :
    (s.undergoAll incidents).Tuned := by
  induction incidents generalizing s with
  | nil => exact h
  | cons incident rest ih => exact ih (h.undergo hobeys incident)

/-! ## What follows from it -/

/-- A tone that sounds after the work of a slot comes with a cycle that was run and left the sound
timer running. -/
theorem Tuned.sounding (hobeys : Sound.Obedient σ) (h : s.Tuned)
    (hsounds : Sound.isSounding s.work.sound = true) :
    ∃ step cycled tones events, s.aged.machine.cycle = (step, cycled) ∧
      s.tick = (.ok ⟨some step, tones, events⟩, s.work) ∧
      step.instruction ≠ some .exit ∧ cycled.registers.sound ≠ 0 := by
  have hsilent : Sound.isSounding s.work.sound ≠ false := by
    rw [hsounds]
    decide
  rcases s.work_cases with ⟨hended, heq⟩ | ⟨-, -, heq⟩ | ⟨hrunning, -, -, htick, heq⟩ |
    ⟨-, -, -, heq⟩
  · rw [heq] at hsilent
    exact absurd (h.ended hended) hsilent
  · rw [heq] at hsilent
    exact absurd (h.stop hobeys).2 hsilent
  · rw [heq] at hsounds
    obtain ⟨hinstruction, htimer⟩ := (h.aged.activeSlot hobeys hrunning).2 hsounds
    exact ⟨_, _, _, _, rfl, htick, hinstruction, htimer⟩
  · rw [heq] at hsilent
    exact absurd (h.aged.idleSlot hobeys).2 hsilent

/-- While the scheduler is paused or halted the work of a slot leaves the tone silent. -/
theorem Tuned.silent_of_idle (hobeys : Sound.Obedient σ) (h : s.Tuned)
    (hidle : s.isActive = false) : Sound.isSounding s.work.sound = false := by
  rcases s.work_cases with ⟨hended, heq⟩ | ⟨-, -, heq⟩ | ⟨-, -, hactive, -⟩ | ⟨-, -, -, heq⟩
  · rw [heq]
    exact h.ended hended
  · rw [heq]
    exact (h.stop hobeys).2
  · exact absurd (hidle.symm.trans hactive) (by decide)
  · rw [heq]
    exact (h.aged.idleSlot hobeys).2

theorem Tuned.toneSafe (hobeys : Sound.Obedient σ) (h : s.Tuned) : s.ToneSafe where
  alternating := h.orderly.alternating
  sounding keys := (h.showKeys keys).sounding hobeys
  idle hidle keys := (h.showKeys keys).silent_of_idle hobeys hidle
  failed hp _ := running_work_of_poisoned hp
  stopped := running_stop s
  ended hended := ⟨h.ended hended, h.orderly.count_eq (h.ended hended)⟩

/-- From a silent start with an obedient device on, the tone is safe whatever happens. -/
theorem tone_safe (hobeys : Sound.Obedient σ) {machine : Machine} {poisoned : Bool} {sound : σ}
    {speed : Float} (hsilent : Sound.isSounding sound = false)
    (hspawn : spawn machine poisoned ⟨sound, []⟩ speed = .ok s) (incidents : List Incident) :
    (s.undergoAll incidents).ToneSafe := by
  have hs := eq_started_of_spawn hspawn
  have htuned : s.Tuned := by
    rw [hs]
    exact ⟨Recorded.orderly_of_silent hsilent, fun _ => hsilent⟩
  exact (htuned.undergoAll hobeys incidents).toneSafe hobeys

/-- A tone that is paused, resumed and then cut off by a poisoned lock. -/
theorem tone_safe_cut_off :
    let machine := ((Machine.new {} (RandomSource.ofSeed 1)).loadProgram
      (.ofBytes [0x61, 0x03, 0xF1, 0x18, 0x12, 0x04])).2
    let s : Scheduler (Recorded Mute) := started machine ⟨{}, []⟩ 1.0
    let incidents : List Incident := [.slot Keypad.clear, .slot Keypad.clear, .control .pause,
      .slot Keypad.clear, .control .resume, .slot Keypad.clear, .poison, .slot Keypad.clear]
    Sound.Obedient Mute ∧ Sound.isSounding ({} : Mute) = false ∧
      spawn machine false ⟨{}, []⟩ 1.0 = .ok s ∧ (s.undergoAll incidents).ToneSafe := by
  intro machine s incidents
  have hspawn : spawn machine false ⟨{}, []⟩ 1.0 = .ok s := spawn_started _ _ _
  exact ⟨Sound.obedient_mute, rfl, hspawn,
    tone_safe Sound.obedient_mute rfl hspawn incidents⟩

/-- A tone of five cycles that is still sounding when the program counter runs past the end of
memory: the slot that fails to fetch leaves it sounding. -/
theorem sounding_without_instruction :
    let machine := ((Machine.new {} (RandomSource.ofSeed 1)).loadProgram
      (.ofBytes [0x60, 0x05, 0xF0, 0x18, 0x1F, 0xFF])).2
    let s : Scheduler (Recorded Mute) := started machine ⟨{}, []⟩ 1.0
    let slot : Incident := .slot Keypad.clear
    let reached := s.undergoAll [slot, slot, slot]
    Sound.Obedient Mute ∧ Sound.isSounding ({} : Mute) = false ∧
      spawn machine false ⟨{}, []⟩ 1.0 = .ok s ∧
      Sound.isSounding (reached.undergo slot).sound = true ∧
      ∃ step tones events, (reached.showKeys Keypad.clear).tick =
        (.ok ⟨some step, tones, events⟩, reached.undergo slot) ∧ step.instruction = none := by
  intro machine s slot reached
  have hspawn : spawn machine false ⟨{}, []⟩ 1.0 = .ok s := spawn_started _ _ _
  refine ⟨Sound.obedient_mute, rfl, hspawn, ?_⟩
  have hmachine : machine = (Machine.new {} (RandomSource.ofSeed 1)).loaded
      [0x60, 0x05, 0xF0, 0x18, 0x1F, 0xFF] :=
    Machine.snd_loadProgram_ofBytes _ (by decide)
  have hword (i : Nat) (h : i + 1 < 6) :=
    @Machine.word_loaded (Machine.new {} (RandomSource.ofSeed 1))
      [0x60, 0x05, 0xF0, 0x18, 0x1F, 0xFF] i h (by decide)
  have hstart := poised_of_spawn hmachine hspawn
  obtain ⟨hloaded, hsilent⟩ := hstart.slot (fun r => r.setV 0 5)
    (hword 0 (by decide)) (fun _ => rfl) (by decide) Keypad.clear
  obtain ⟨hset, hstarted⟩ := hloaded.slot (fun r => r.setSound (r.v 0))
    (hword 2 (by decide)) (fun _ => rfl) (by decide) Keypad.clear
  obtain ⟨hjumped, hkept⟩ := hset.slot (fun r => r.jump 0xFFF)
    (hword 4 (by decide)) (fun _ => rfl) (by decide) Keypad.clear
  have hreached : reached = ((s.undergo slot).undergo slot).undergo slot := by
    simp only [reached, undergoAll_cons]
    rw [undergoAll, List.foldl_nil]
  rw [hreached]
  have hrecorded : (((s.undergo slot).undergo slot).undergo slot).sound = ⟨⟨true⟩, [.start]⟩ := by
    rw [hkept, hstarted, hsilent]
    rfl
  -- what is left to say is about any scheduler in that state
  generalize ((s.undergo slot).undergo slot).undergo slot = last at hjumped hrecorded ⊢
  obtain ⟨hsound, hreport⟩ := hjumped.slot_of_miss (by decide) Keypad.clear
  refine ⟨?_, hreport⟩
  rw [hsound, hrecorded]
  rfl

end Schip.Scheduler
