import Schip.Proofs.Guarded.Execution
import Schip.Proofs.Machine.Invariant

/-!
# No program aborts the machine

The guarded machine runs without an abort from any machine with a loaded program: for every program,
all random bytes, every number of cycles and every change of keys, or of the display, between
them. In each state that it reaches the arrays have their sizes, every pixel is zero or one and the
pointer of the stack is in range; and from that state a cycle does not abort whatever bytes lie in
memory. The run is that of the machine, step by step. `never_aborts` is the statement.
-/

set_option autoImplicit false

namespace Schip.Guarded

/-- Dimensions, sizes and pixels of a screen that may be reached. -/
structure Screen.Safe (s : Screen) : Prop where
  dimensions : (s.width = 64 ∧ s.height = 32 ∧ s.extended = false) ∨
    (s.width = 128 ∧ s.height = 64 ∧ s.extended = true)
  data_size : s.data.size = s.width * (s.height + 1)
  render_size : s.render.size = s.width * (s.height + 1)
  pending_size : s.pending.size = s.width * (s.height + 1)
  timers_size : s.timers.size = s.width * (s.height + 1)
  data_binary : ∀ pixel ∈ s.data, pixel = 0 ∨ pixel = 1
  render_binary : ∀ pixel ∈ s.render, pixel = 0 ∨ pixel = 1

/-- The layout of a well-formed grid of zeros and ones is safe. -/
theorem Screen.safe_of {fb : FrameBuffer} (h : fb.WellFormed)
    (hpixels : fb.EachCell fun _ cell => cell.Binary) : (Screen.of fb).Safe where
  dimensions := by
    show (fb.mode.width = 64 ∧ fb.mode.height = 32 ∧ (fb.mode == .extended) = false) ∨
      (fb.mode.width = 128 ∧ fb.mode.height = 64 ∧ (fb.mode == .extended) = true)
    cases fb.mode <;> decide
  data_size := Array.size_map.trans h
  render_size := Array.size_map.trans h
  pending_size := Array.size_map.trans h
  timers_size := Array.size_map.trans h
  data_binary := by
    intro pixel hpixel
    obtain ⟨cell, hcell, rfl⟩ := Array.mem_map.1 hpixel
    obtain ⟨i, hi⟩ := Array.mem_iff_getElem?.1 hcell
    exact (hpixels i cell hi).logical
  render_binary := by
    intro pixel hpixel
    obtain ⟨cell, hcell, rfl⟩ := Array.mem_map.1 hpixel
    obtain ⟨i, hi⟩ := Array.mem_iff_getElem?.1 hcell
    exact (hpixels i cell hi).render

namespace Machine

/-- Screen, memory and stack of a machine that may be reached. -/
structure Safe (g : Machine) : Prop where
  screen : g.screen.Safe
  memory : g.memory.size = 4096
  pointer_low : -1 ≤ g.pointer
  pointer_high : g.pointer ≤ 15

/-- One activity, with the report of the cycle if it is one. -/
def act? (g : Machine) : Activity → Option (List Step × Machine)
  | .cycle => do
    let (step, g) ← g.cycle?
    return ([step], g)
  | .key key down => do return ([], ← g.setKey? key down)
  | .render .fade => do return ([], { g with screen := ← g.screen.updateDecay? })
  | .render (.reduceFlicker on) =>
    some ([], { g with screen := { g.screen with reduceFlicker := on } })
  | .render (.decayDelay delay) =>
    some ([], { g with screen := { g.screen with decayDelay := max delay 1 } })

/-- Activities in order, with the reports of all cycles. -/
def perform? (g : Machine) : List Activity → Option (List Step × Machine)
  | [] => some ([], g)
  | activity :: rest => do
    let (steps, g) ← g.act? activity
    let (more, g) ← g.perform? rest
    return (steps ++ more, g)

variable {m : Schip.Machine}

/-- Safety is more than the steps of a machine ask for. -/
theorem sound_of_safe (h : m.Safe) : Sound m := ⟨h.grid, h.stack⟩

theorem safe_of (h : m.Safe) : (of m).Safe where
  screen := Screen.safe_of h.grid h.pixels
  memory := size_memory_of m
  pointer_low := h.stack.1
  pointer_high := h.stack.2

/-- One activity of a safe machine does not abort. -/
theorem act?_of (h : m.Safe) (activity : Activity) :
    (of m).act? activity = some ((m.act activity).1, of (m.act activity).2) := by
  cases activity with
  | cycle =>
      rw [act?, cycle?_of (sound_of_safe h)]
      rfl
  | key key down =>
      rw [act?, setKey?_of]
      rfl
  | render edit =>
      cases edit with
      | fade =>
          rw [act?, show (of m).screen = Screen.of m.screen from rfl, Screen.updateDecay?_of]
          rfl
      | reduceFlicker on => rfl
      | decayDelay delay => rfl

/-- No list of activities of a safe machine aborts, by induction with safety as the invariant. -/
theorem perform?_of (h : m.Safe) (activities : List Activity) :
    (of m).perform? activities = some ((m.perform activities).1, of (m.perform activities).2) := by
  induction activities generalizing m with
  | nil => rfl
  | cons activity rest ih =>
      rw [perform?, act?_of h activity]
      simp only [Option.bind_eq_bind, Option.bind_some, ih (h.act activity)]
      rfl

/-- No program aborts the machine. -/
theorem never_aborts (config : Config) (random : RandomSource) (source : ByteSource)
    (activities : List Activity) :
    let loaded := ((Schip.Machine.new config random).loadProgram source).2
    let reached := (loaded.perform activities).2
    (of loaded).perform? activities = some ((loaded.perform activities).1, of reached) ∧
      (of reached).Safe ∧
      ∀ memory : Memory,
        (of { reached with memory := memory }).cycle? =
          some ({ reached with memory := memory }.cycle.1,
            of { reached with memory := memory }.cycle.2) := by
  intro loaded reached
  have hloaded : loaded.Safe := Schip.Machine.safe_loadProgram _ source
  have hreached : reached.Safe := hloaded.perform activities
  refine ⟨perform?_of hloaded activities, safe_of hreached, fun memory => ?_⟩
  exact cycle?_of ⟨hreached.grid, hreached.stack⟩

end Machine

end Schip.Guarded
