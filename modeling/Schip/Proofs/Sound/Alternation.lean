import Mathlib.Data.List.Induction
import Schip.Scheduler.Tick

/-!
# Alternating requests

A device that does what it is asked is asked in turns: start, stop, start, stop. The tone is started
only on a silent device and stopped only on a sounding one, so whether the device sounds is the
parity of the number of requests so far. That is the invariant `Recorded.Orderly`;
`Orderly.silence`, `Orderly.startIfSilent` and `Orderly.afterCycle` are its step lemmas, and
`Alternating.count` says what it means for the number of starts and stops.
-/

set_option autoImplicit false

namespace Schip

/-- Device that does what it is asked: it refuses nothing, and each request switches the tone. -/
structure Sound.Obedient (σ : Type) [Sound σ] : Prop where
  starts (device : σ) : ∃ device' : σ,
    Sound.startTone device = (.ok (), device') ∧ Sound.isSounding device' = true
  stops (device : σ) : ∃ device' : σ,
    Sound.stopTone device = (.ok (), device') ∧ Sound.isSounding device' = false

/-- A device without a loudspeaker does as it is asked. -/
theorem Sound.obedient_mute : Sound.Obedient Mute where
  starts _ := ⟨⟨true⟩, rfl, rfl⟩
  stops _ := ⟨⟨false⟩, rfl, rfl⟩

theorem Sound.Obedient.isSounding_stopTone {σ : Type} [Sound σ] (h : Sound.Obedient σ)
    (device : σ) : Sound.isSounding (Sound.stopTone device).2 = false := by
  obtain ⟨device', hstop, hsilent⟩ := h.stops device
  rw [hstop]
  exact hsilent

/-- A device whose tone can be stopped is silent once it was silenced. -/
theorem ToneCall.isSounding_silence {σ : Type} [Sound σ]
    (hstops : ∀ device : σ, Sound.isSounding (Sound.stopTone device).2 = false) (device : σ) :
    Sound.isSounding (silence device).2 = false := by
  rw [silence]
  cases hsounds : Sound.isSounding device with
  | false => exact hsounds
  | true => exact hstops device

/-! ## Sequences of requests -/

namespace ToneRequest

/-- Request whose turn it is after `i` requests. -/
def turn (i : Nat) : ToneRequest := if i % 2 = 0 then .start else .stop

/-- Requests that take turns, a start first. -/
def Alternating (requests : List ToneRequest) : Prop :=
  ∀ i (h : i < requests.length), requests[i] = turn i

variable {requests : List ToneRequest}

theorem alternating_nil : Alternating [] := fun _ h => absurd h (Nat.not_lt_zero _)

/-- Requests go on alternating exactly with the request whose turn it is. -/
theorem alternating_append_singleton {request : ToneRequest} :
    Alternating (requests ++ [request]) ↔
      Alternating requests ∧ request = turn requests.length := by
  constructor
  · intro h
    constructor
    · intro i hi
      have hread := h i (by simp only [List.length_append]; omega)
      rwa [List.getElem_append_left hi] at hread
    · have hread := h requests.length (by simp)
      rwa [List.getElem_concat_length rfl] at hread
  · rintro ⟨h, rfl⟩ i hi
    rw [List.length_append, List.length_singleton] at hi
    rcases Nat.lt_or_eq_of_le (Nat.le_of_lt_succ hi) with hlt | rfl
    · rw [List.getElem_append_left hlt, h i hlt]
    · rw [List.getElem_concat_length rfl]

/-- Of alternating requests half are starts and half are stops, rounded in favour of the starts. -/
theorem Alternating.count (h : Alternating requests) :
    requests.count .start = (requests.length + 1) / 2 ∧
      requests.count .stop = requests.length / 2 := by
  induction requests using List.reverseRecOn with
  | nil => exact ⟨rfl, rfl⟩
  | append_singleton before request ih =>
      obtain ⟨hbefore, rfl⟩ := alternating_append_singleton.1 h
      obtain ⟨hstart, hstop⟩ := ih hbefore
      rw [List.count_append, List.count_append, hstart, hstop, List.length_append,
        List.length_singleton, turn]
      rcases Nat.mod_two_eq_zero_or_one before.length with heven | hodd
      · rw [if_pos heven, List.count_singleton_self, List.count_singleton]
        simp only [reduceCtorEq, beq_iff_eq, if_false]
        omega
      · rw [if_neg (by omega), List.count_singleton_self, List.count_singleton]
        simp only [reduceCtorEq, beq_iff_eq, if_false]
        omega

end ToneRequest

/-! ## Devices with their requests -/

namespace Recorded

open ToneRequest (Alternating turn alternating_append_singleton)

variable {σ : Type} [Sound σ]

/-- Requests alternate, and the device sounds if the last one was a start. -/
structure Orderly (recorded : Recorded σ) : Prop where
  alternating : Alternating recorded.requests
  sounding : Sound.isSounding recorded = true ↔ recorded.requests.length % 2 = 1

variable {recorded : Recorded σ}

/-- A silent device without requests is orderly. -/
theorem orderly_of_silent {device : σ} (h : Sound.isSounding device = false) :
    Orderly ⟨device, []⟩ where
  alternating := ToneRequest.alternating_nil
  sounding := by
    show Sound.isSounding device = true ↔ 0 % 2 = 1
    rw [h]
    decide

theorem startTone_eq (recorded : Recorded σ) :
    Sound.startTone recorded = ((Sound.startTone recorded.device).1,
      ⟨(Sound.startTone recorded.device).2, recorded.requests ++ [.start]⟩) := rfl

theorem stopTone_eq (recorded : Recorded σ) :
    Sound.stopTone recorded = ((Sound.stopTone recorded.device).1,
      ⟨(Sound.stopTone recorded.device).2, recorded.requests ++ [.stop]⟩) := rfl

theorem Orderly.even_of_silent (h : recorded.Orderly)
    (hsilent : Sound.isSounding recorded = false) : recorded.requests.length % 2 = 0 := by
  rcases Nat.mod_two_eq_zero_or_one recorded.requests.length with heven | hodd
  · exact heven
  · rw [h.sounding.2 hodd] at hsilent
    cases hsilent

/-- A silent device has been stopped as often as it has been started. -/
theorem Orderly.count_eq (h : recorded.Orderly) (hsilent : Sound.isSounding recorded = false) :
    recorded.requests.count .start = recorded.requests.count .stop := by
  obtain ⟨hstart, hstop⟩ := h.alternating.count
  have heven := h.even_of_silent hsilent
  rw [hstart, hstop]
  omega

/-- A request in its turn keeps a device orderly if it does what it is for. -/
theorem Orderly.request (h : recorded.Orderly) {request : ToneRequest} {device : σ}
    (hturn : request = turn recorded.requests.length)
    (hdevice : Sound.isSounding device = decide (request = .start)) :
    Orderly ⟨device, recorded.requests ++ [request]⟩ where
  alternating := alternating_append_singleton.2 ⟨h.alternating, hturn⟩
  sounding := by
    show Sound.isSounding device = true ↔ (recorded.requests ++ [request]).length % 2 = 1
    rw [hdevice, hturn, turn, List.length_append, List.length_singleton]
    rcases Nat.mod_two_eq_zero_or_one recorded.requests.length with heven | hodd
    · simp [heven]
      omega
    · simp [hodd]
      omega

/-- Silencing keeps a device orderly and leaves it silent. -/
theorem Orderly.silence (hobeys : Sound.Obedient σ) (h : recorded.Orderly) :
    (ToneCall.silence recorded).2.Orderly ∧
      Sound.isSounding (ToneCall.silence recorded).2 = false := by
  rw [ToneCall.silence]
  cases hsounds : Sound.isSounding recorded with
  | false => exact ⟨h, hsounds⟩
  | true =>
      obtain ⟨device, hstop, hsilent⟩ := hobeys.stops recorded.device
      have hodd := h.sounding.1 hsounds
      have hturn : ToneRequest.stop = turn recorded.requests.length := by
        rw [turn, if_neg (by omega)]
      rw [if_pos rfl, stopTone_eq, hstop]
      exact ⟨h.request hturn hsilent, hsilent⟩

/-- A start that is asked for only in silence keeps a device orderly. -/
theorem Orderly.startIfSilent (hobeys : Sound.Obedient σ) (h : recorded.Orderly) :
    (ToneCall.startIfSilent recorded).2.Orderly := by
  rw [ToneCall.startIfSilent]
  cases hsounds : Sound.isSounding recorded with
  | true => exact h
  | false =>
      obtain ⟨device, hstart, hsounding⟩ := hobeys.starts recorded.device
      have heven := h.even_of_silent hsounds
      have hturn : ToneRequest.start = turn recorded.requests.length := by
        rw [turn, if_pos heven]
      rw [if_neg (by decide), startTone_eq, hstart]
      exact h.request hturn hsounding

/-- After a cycle a device sounds only if the program goes on and its sound timer runs. -/
theorem Orderly.afterCycle (hobeys : Sound.Obedient σ) (h : recorded.Orderly) (outcome : Outcome)
    (timer : UInt8) :
    (ToneCall.afterCycle outcome timer recorded).2.Orderly ∧
      (Sound.isSounding (ToneCall.afterCycle outcome timer recorded).2 = true →
        outcome ≠ .exit ∧ timer ≠ 0) := by
  have hsilence : ∀ device : Recorded σ, device.Orderly →
      (ToneCall.silence device).2.Orderly ∧
        (Sound.isSounding (ToneCall.silence device).2 = true → outcome ≠ .exit ∧ timer ≠ 0) := by
    intro device hdevice
    obtain ⟨horderly, hsilent⟩ := hdevice.silence hobeys
    exact ⟨horderly, fun hsounds => absurd (hsilent.symm.trans hsounds) (by decide)⟩
  have hstarted := h.startIfSilent hobeys
  cases outcome with
  | exit => exact hsilence recorded h
  | proceed =>
      rw [ToneCall.afterCycle]
      by_cases htimer : timer = 0
      · rw [if_pos htimer]
        exact hsilence recorded h
      · rw [if_neg htimer]
        exact ⟨h, fun _ => ⟨by decide, htimer⟩⟩
  | startTone =>
      simp only [ToneCall.afterCycle]
      by_cases htimer : timer = 0
      -- a timer of one has run out by the end of the cycle that set it
      · rw [if_pos htimer]
        exact hsilence _ hstarted
      · rw [if_neg htimer]
        exact ⟨hstarted, fun _ => ⟨by decide, htimer⟩⟩

end Recorded

end Schip
