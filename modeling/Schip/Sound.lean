/-!
# Sound

The audio side hears two requests: start a sustained tone, stop it. Any type of device will do; a
device may refuse a request, with or without changing whether it sounds.
-/

set_option autoImplicit false

namespace Schip

/-- Device that can sound one tone. -/
class Sound (σ : Type) where
  /-- Request to start the tone. -/
  startTone : σ → Except String Unit × σ
  /-- Request to stop the tone. -/
  stopTone : σ → Except String Unit × σ
  /-- Whether the tone sounds. -/
  isSounding : σ → Bool

/-- Device without a voice: it only remembers whether it would be sounding. -/
structure Mute where
  sounding : Bool := false
  deriving DecidableEq, Repr

instance : Sound Mute where
  startTone _ := (.ok (), ⟨true⟩)
  stopTone _ := (.ok (), ⟨false⟩)
  isSounding device := device.sounding

/-- Device that may refuse to start or to stop, for a reason of its own; a refusal changes
nothing. -/
structure Speaker where
  sounding : Bool := false
  startRefusal : Option String := none
  stopRefusal : Option String := none
  deriving DecidableEq, Repr

instance : Sound Speaker where
  startTone device :=
    match device.startRefusal with
    | some reason => (.error reason, device)
    | none => (.ok (), { device with sounding := true })
  stopTone device :=
    match device.stopRefusal with
    | some reason => (.error reason, device)
    | none => (.ok (), { device with sounding := false })
  isSounding device := device.sounding

/-- Request made on a device. -/
inductive ToneRequest where
  | start
  | stop
  deriving DecidableEq, Repr

/-- Device that also keeps the requests made on it, the oldest first. -/
structure Recorded (σ : Type) where
  device : σ
  requests : List ToneRequest := []

instance {σ : Type} [Sound σ] : Sound (Recorded σ) where
  startTone recorded :=
    match Sound.startTone recorded.device with
    | (answer, device) => (answer, ⟨device, recorded.requests ++ [.start]⟩)
  stopTone recorded :=
    match Sound.stopTone recorded.device with
    | (answer, device) => (answer, ⟨device, recorded.requests ++ [.stop]⟩)
  isSounding recorded := Sound.isSounding recorded.device

/-- Request with the device's answer. -/
structure ToneCall where
  request : ToneRequest
  /-- Reason of a refusal. -/
  refusal : Option String
  deriving DecidableEq, Repr

namespace ToneCall

/-- Reason of a refusal, if there was one. -/
def refusalOf : Except String Unit → Option String
  | .ok () => none
  | .error reason => some reason

variable {σ : Type} [Sound σ]

/-- Tone started on a device that is silent; a sounding one is left alone. -/
def startIfSilent (device : σ) : List ToneCall × σ :=
  if Sound.isSounding device then ([], device)
  else
    match Sound.startTone device with
    | (answer, device') => ([⟨.start, refusalOf answer⟩], device')

/-- Tone stopped on a device that sounds; a silent one is left alone. -/
def silence (device : σ) : List ToneCall × σ :=
  if Sound.isSounding device then
    match Sound.stopTone device with
    | (answer, device') => ([⟨.stop, refusalOf answer⟩], device')
  else ([], device)

end ToneCall

end Schip
