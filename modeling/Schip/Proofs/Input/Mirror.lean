import Mathlib.Data.List.Chain
import Mathlib.Data.List.Induction
import Mathlib.Data.List.Sort
import Schip.Keypad
import Schip.Terminal

/-!
# The keypad mirrors the held keys

A terminal and a keypad keep their own account of the keys, and only changes travel between them: an
event for a key that goes down, an event for one that goes up. What the keypad shows is the last
level that the events gave a key (`isPressed_heedAll`). A call of the terminal emits a level for a
key exactly if it changes whether the key is held (`levels_answer`), so the levels alternate and the
last one says whether the key is held.

Which keys an expiry releases does not depend on the order in which the held keys are visited
(`expireInOrder_eq`). `keypad_mirrors_held_keys` puts everything together.
-/

set_option autoImplicit false

namespace Schip

open HeldKeys (keyNumber)

/-! ## Levels of a key -/

/-- Level that an event gives a key: down, up, or none if it is about something else. -/
def InputEvent.level? (key : Fin 16) : InputEvent → Option Bool
  | .keyDown number => if Keypad.select number = key then some true else none
  | .keyUp number => if Keypad.select number = key then some false else none
  | .togglePause | .reset | .quit => none

/-- Levels that events give a key, in order. -/
def InputEvent.levels (key : Fin 16) (events : List InputEvent) : List Bool :=
  events.filterMap (InputEvent.level? key)

/-- Levels of a key that was up at first take turns, and the last one is `held`. -/
structure Tracks (levels : List Bool) (held : Bool) : Prop where
  alternating : (false :: levels).IsChain (· ≠ ·)
  last : levels.getLast?.getD false = held

theorem tracks_nil : Tracks [] false := ⟨.singleton false, rfl⟩

/-- A level is added exactly if it is another one. -/
theorem Tracks.append {levels : List Bool} {held : Bool} (h : Tracks levels held) (next : Bool) :
    Tracks (levels ++ if next = held then [] else [next]) next := by
  by_cases hsame : next = held
  · rw [if_pos hsame, List.append_nil, hsame]
    exact h
  · rw [if_neg hsame]
    refine ⟨?_, by simp⟩
    rw [← List.cons_append, List.isChain_append]
    refine ⟨h.alternating, .singleton next, ?_⟩
    intro last hlast first hfirst
    rw [List.getLast?_cons, h.last, Option.mem_some_iff] at hlast
    rw [List.head?_cons, Option.mem_some_iff] at hfirst
    rw [← hlast, ← hfirst]
    exact Ne.symm hsame

/-! ## The keypad -/

namespace Keypad

/-- Keypad after an event; only those of keys concern it. -/
def heed (k : Keypad) : InputEvent → Keypad
  | .keyDown number => k.press number
  | .keyUp number => k.release number
  | .togglePause | .reset | .quit => k

/-- Keypad after events in order. -/
def heedAll (k : Keypad) (events : List InputEvent) : Keypad := events.foldl heed k

theorem select_keyNumber (key : Fin 16) : select (keyNumber key) = key := by
  revert key
  decide

theorem isPressed_clear (number : UInt8) : clear.isPressed number = false := by
  simp [isPressed, clear]

/-- An event sets the key that it is about to its level. -/
theorem isPressed_heed (k : Keypad) (event : InputEvent) (key : Fin 16) :
    (k.heed event).isPressed (keyNumber key) =
      (event.level? key).getD (k.isPressed (keyNumber key)) := by
  cases event with
  | keyDown number | keyUp number =>
      rw [heed, InputEvent.level?, ← select_keyNumber key]
      simp only [press, release, isPressed_setKey, select_keyNumber]
      split <;> rfl
  | togglePause | reset | quit => rfl

/-- The keypad shows the last level that the events gave a key. -/
theorem isPressed_heedAll (k : Keypad) (events : List InputEvent) (key : Fin 16) :
    (k.heedAll events).isPressed (keyNumber key) =
      (InputEvent.levels key events).getLast?.getD (k.isPressed (keyNumber key)) := by
  induction events using List.reverseRecOn with
  | nil => rfl
  | append_singleton before event ih =>
      rw [heedAll, List.foldl_append, List.foldl_cons, List.foldl_nil, isPressed_heed,
        InputEvent.levels, List.filterMap_append, List.getLast?_append]
      rw [heedAll, InputEvent.levels] at ih
      cases hlevel : event.level? key with
      | none => simp [hlevel, ih]
      | some level => simp [hlevel]

end Keypad

/-! ## Held keys -/

namespace HeldKeys

open InputEvent (levels)

/-- Time of the last press of a key, as long as it is held. -/
def time? (h : HeldKeys) (key : Fin 16) : Option Nat := h.pressedAt.get key

variable (h : HeldKeys)

theorem isHeld_eq_isSome (key : Fin 16) : h.isHeld key = (h.time? key).isSome := rfl

/-- A press notes the time for its key and for no other. -/
theorem time?_press (pressed : Fin 16) (now : Nat) (key : Fin 16) :
    (h.press pressed now).2.time? key = if pressed = key then some now else h.time? key := by
  show (h.pressedAt.set pressed.val (some now))[key.val] = _
  rw [Vector.getElem_set]
  simp only [Fin.ext_iff]
  rfl

/-- An expiry forgets the keys whose time is over. -/
theorem time?_expire (now : Nat) (key : Fin 16) :
    (h.expire now).2.time? key = if h.isOver now key then none else h.time? key := by
  show (Vector.ofFn fun key => if h.isOver now key then none else h.pressedAt[key])[key.val] = _
  rw [Vector.getElem_ofFn]
  rfl

/-- The held keys are known by how long they are held and when each was pressed. -/
theorem ext_time? {h h' : HeldKeys} (hhold : h.hold = h'.hold)
    (htime : ∀ key, h.time? key = h'.time? key) : h = h' :=
  HeldKeys.ext hhold (Vector.ext fun i hi => htime ⟨i, hi⟩)

theorem isHeld_press_self (key : Fin 16) (now : Nat) : (h.press key now).2.isHeld key = true := by
  rw [isHeld_press, decide_eq_true rfl, Bool.true_or]

/-- A press sends a level for a key exactly if it changes whether the key is held. -/
theorem levels_press (pressed : Fin 16) (now : Nat) (key : Fin 16) :
    levels key (h.press pressed now).1 =
      if (h.press pressed now).2.isHeld key = h.isHeld key then []
      else [(h.press pressed now).2.isHeld key] := by
  rw [isHeld_press, press]
  by_cases hkey : pressed = key
  · subst hkey
    cases hheld : h.isHeld pressed with
    | true => simp [levels]
    | false => simp [levels, InputEvent.level?, Keypad.select_keyNumber]
  · cases hheld : h.isHeld pressed with
    | true => simp [levels, hkey]
    | false => simp [levels, InputEvent.level?, Keypad.select_keyNumber, hkey]

/-- Events of keys that go up one after the other. -/
def releases (keys : List (Fin 16)) : List InputEvent := keys.map fun key => .keyUp (keyNumber key)

/-- Releases send each key on the list once. -/
theorem levels_releases {keys : List (Fin 16)} (hnodup : keys.Nodup) (key : Fin 16) :
    levels key (releases keys) = if key ∈ keys then [false] else [] := by
  induction keys with
  | nil => rfl
  | cons first rest ih =>
      obtain ⟨hfirst, hrest⟩ := List.nodup_cons.1 hnodup
      have hlevels := ih hrest
      rw [releases, levels] at hlevels ⊢
      rw [List.map_cons, List.filterMap_cons, InputEvent.level?, Keypad.select_keyNumber, hlevels]
      by_cases hkey : first = key
      · subst hkey
        simp [hfirst]
      · simp [hkey, Ne.symm hkey]

/-- The time of a key is over if it was pressed long enough ago. -/
theorem isOver_iff {now : Nat} {key : Fin 16} :
    h.isOver now key = true ↔ ∃ time, h.time? key = some time ∧ h.hold ≤ now - time := by
  have hread : h.pressedAt[key] = h.time? key := rfl
  rw [isOver, hread]
  cases h.time? key with
  | none => simp
  | some time => simp

/-- Only the time of a held key can be over. -/
theorem isHeld_of_isOver {now : Nat} {key : Fin 16} (hover : h.isOver now key = true) :
    h.isHeld key = true := by
  obtain ⟨time, hpressed, -⟩ := h.isOver_iff.1 hover
  rw [isHeld_eq_isSome, hpressed, Option.isSome_some]

/-- An expiry sends a level for a key exactly if it changes whether the key is held. -/
theorem levels_expire (now : Nat) (key : Fin 16) :
    levels key (h.expire now).1 =
      if (h.expire now).2.isHeld key = h.isHeld key then []
      else [(h.expire now).2.isHeld key] := by
  have hnodup : ((List.finRange 16).filter (h.isOver now)).Nodup := (List.nodup_finRange 16).filter _
  have hevents : levels key (h.expire now).1 =
      if key ∈ (List.finRange 16).filter (h.isOver now) then [false] else [] :=
    levels_releases hnodup key
  rw [hevents, isHeld_expire]
  cases hover : h.isOver now key with
  | true => simp [hover, h.isHeld_of_isOver hover]
  | false => simp [hover]

/-! ## Expiry in any order -/

/-- The order visits every held key once. -/
structure Enumerates (order : List (Fin 16)) : Prop where
  nodup : order.Nodup
  mem_iff : ∀ key, key ∈ order ↔ h.isHeld key = true

/-- Keys whose time is over, collected in some order and sorted. -/
def overdue (order : List (Fin 16)) (now : Nat) : List (Fin 16) :=
  (order.filter (h.isOver now)).mergeSort (· ≤ ·)

/-- Key that is held no longer. -/
def drop (key : Fin 16) : HeldKeys :=
  { h with pressedAt := Vector.ofFn fun other => if key = other then none else h.time? other }

/-- Expiry as a loop: the keys whose time is over are collected in some order, sorted, and released
one after the other. -/
def expireInOrder (order : List (Fin 16)) (now : Nat) : List InputEvent × HeldKeys :=
  (releases (h.overdue order now), (h.overdue order now).foldl drop h)

variable {h} {order : List (Fin 16)}

/-- In whatever order the keys are enumerated, those that are overdue come out in ascending
order. -/
theorem overdue_eq (horder : h.Enumerates order) (now : Nat) :
    h.overdue order now = (List.finRange 16).filter (h.isOver now) := by
  have hsorted : (h.overdue order now).Pairwise (· ≤ ·) :=
    List.pairwise_mergeSort' (· ≤ ·) _
  have hascending : ((List.finRange 16).filter (h.isOver now)).Pairwise (· ≤ ·) :=
    (List.sortedLT_finRange 16).sortedLE.pairwise.filter _
  have hperm : (h.overdue order now).Perm ((List.finRange 16).filter (h.isOver now)) := by
    refine (List.mergeSort_perm _ _).trans ?_
    rw [List.perm_ext_iff_of_nodup (horder.nodup.filter _) ((List.nodup_finRange 16).filter _)]
    intro key
    simp only [List.mem_filter, horder.mem_iff, List.mem_finRange, true_and]
    exact and_iff_right_of_imp h.isHeld_of_isOver
  exact hperm.eq_of_pairwise' hsorted hascending

theorem time?_drop (h : HeldKeys) (dropped key : Fin 16) :
    (h.drop dropped).time? key = if dropped = key then none else h.time? key :=
  Vector.getElem_ofFn key.isLt

/-- Dropped keys have no time; the others keep theirs. -/
theorem time?_foldl_drop (h : HeldKeys) (keys : List (Fin 16)) (key : Fin 16) :
    (keys.foldl drop h).time? key = if key ∈ keys then none else h.time? key := by
  induction keys generalizing h with
  | nil => simp
  | cons first rest ih =>
      rw [List.foldl_cons, ih, time?_drop]
      by_cases hrest : key ∈ rest
      · simp [hrest]
      · simp [hrest, eq_comm]

theorem hold_foldl_drop (h : HeldKeys) (keys : List (Fin 16)) :
    (keys.foldl drop h).hold = h.hold := by
  induction keys generalizing h with
  | nil => rfl
  | cons first rest ih => rw [List.foldl_cons, ih, drop]

/-- In whatever order the held keys are visited, an expiry does the same. -/
theorem expireInOrder_eq (horder : h.Enumerates order) (now : Nat) :
    h.expireInOrder order now = h.expire now := by
  rw [expireInOrder, overdue_eq horder]
  apply Prod.ext
  · rfl
  · apply ext_time?
    · rw [hold_foldl_drop, expire]
    · intro key
      rw [time?_foldl_drop, time?_expire]
      simp

end HeldKeys

/-! ## Calls of a terminal -/

/-- Key that a stroke stands for. Control with `c`, space and `p` mean something else. -/
def KeyPress.key? (keymap : Keymap) (stroke : KeyPress) : Option (Fin 16) :=
  match stroke.code with
  | .char c =>
    if c = 'c' ∧ stroke.control then none
    else if c = ' ' ∨ c = 'p' then none
    else keymap.key? c
  | .backspace | .escape | .other => none

namespace Terminal

open InputEvent (levels)

/-- Call of a terminal: a key is pressed, or the keys whose time is over are released. -/
inductive Call where
  | press (stroke : KeyPress) (now : Nat)
  | expire (now : Nat)
  deriving DecidableEq

/-- Events of a call, and the terminal after it. -/
def answer (t : Terminal) : Call → List InputEvent × Terminal
  | .press stroke now => t.press stroke now
  | .expire now => t.expire now

/-- Events of calls in order, and the terminal after them. -/
def answerAll (t : Terminal) : List Call → List InputEvent × Terminal
  | [] => ([], t)
  | call :: rest =>
    ((t.answer call).1 ++ ((t.answer call).2.answerAll rest).1,
      ((t.answer call).2.answerAll rest).2)

/-- Time of a call that presses a certain key. -/
def Call.pressTime? (keymap : Keymap) (key : Fin 16) : Call → Option Nat
  | .press stroke now => if stroke.key? keymap = some key then some now else none
  | .expire _ => none

/-- Time of the last press of a key. -/
def lastPress? (keymap : Keymap) (key : Fin 16) (calls : List Call) : Option Nat :=
  (calls.filterMap (Call.pressTime? keymap key)).getLast?

variable (t : Terminal)

/-- The last call is answered by the terminal that the others leave. -/
theorem answerAll_snoc (calls : List Call) (call : Call) :
    t.answerAll (calls ++ [call]) =
      ((t.answerAll calls).1 ++ ((t.answerAll calls).2.answer call).1,
        ((t.answerAll calls).2.answer call).2) := by
  induction calls generalizing t with
  | nil => simp [answerAll]
  | cons first rest ih => simp only [List.cons_append, answerAll, ih, List.append_assoc]

/-- Strokes in order are calls in order. -/
theorem pressAll_eq (now : Nat) (strokes : List KeyPress) :
    t.pressAll now strokes = t.answerAll (strokes.map (.press · now)) := by
  induction strokes generalizing t with
  | nil => rfl
  | cons stroke rest ih => simp only [pressAll, ih, List.map_cons, answerAll, answer]

/-- Calls that a poll makes: one for every stroke since the last poll, and an expiry at the end. -/
def pollCalls (strokes : List KeyPress) (now : Nat) : List Call :=
  strokes.map (.press · now) ++ [.expire now]

/-- A poll is the answer to its calls in order. -/
theorem poll_eq (strokes : List KeyPress) (now : Nat) :
    t.poll strokes now = t.answerAll (pollCalls strokes now) := by
  rw [poll, pressAll_eq, pollCalls, answerAll_snoc]
  rfl

/-- Everything that a stroke can do: press a key, or ask for something that concerns no key. -/
theorem press_cases (stroke : KeyPress) (now : Nat) :
    (∃ key, stroke.key? t.keymap = some key ∧
      t.press stroke now =
        ((t.keys.press key now).1, { t with keys := (t.keys.press key now).2 })) ∨
      (stroke.key? t.keymap = none ∧ (t.press stroke now).2 = t ∧
        (t.press stroke now).1 ∈ [[], [.togglePause], [.reset], [.quit]]) := by
  rw [press, KeyPress.key?]
  cases stroke.code with
  | char c =>
      dsimp only
      split
      · exact Or.inr ⟨rfl, rfl, by simp⟩
      · split
        · exact Or.inr ⟨rfl, rfl, by simp⟩
        · rw [pressCharacter]
          cases t.keymap.key? c with
          | none => exact Or.inr ⟨rfl, rfl, by simp⟩
          | some key => exact Or.inl ⟨key, rfl, rfl⟩
  | backspace | escape | other => exact Or.inr ⟨rfl, rfl, by simp⟩

/-- A stroke that means a key is a press of it. -/
theorem press_of_key {stroke : KeyPress} {key : Fin 16} (hkey : stroke.key? t.keymap = some key)
    (now : Nat) :
    t.press stroke now =
      ((t.keys.press key now).1, { t with keys := (t.keys.press key now).2 }) := by
  rcases t.press_cases stroke now with ⟨pressed, hpressed, heq⟩ | ⟨hnone, -⟩
  · obtain rfl : pressed = key := Option.some.inj (hpressed.symm.trans hkey)
    exact heq
  · rw [hkey] at hnone
    cases hnone

/-- A call emits a level for a key exactly if it changes whether the key is held. -/
theorem levels_answer (call : Call) (key : Fin 16) :
    levels key (t.answer call).1 =
      if (t.answer call).2.keys.isHeld key = t.keys.isHeld key then []
      else [(t.answer call).2.keys.isHeld key] := by
  cases call with
  | expire now => exact t.keys.levels_expire now key
  | press stroke now =>
      rw [answer]
      rcases t.press_cases stroke now with ⟨pressed, -, heq⟩ | ⟨-, hsame, hevents⟩
      · rw [heq]
        exact t.keys.levels_press pressed now key
      · rw [hsame, if_pos rfl]
        revert hevents
        generalize (t.press stroke now).1 = events
        simp only [List.mem_cons, List.not_mem_nil, or_false]
        rintro (rfl | rfl | rfl | rfl) <;> rfl

/-- A call leaves the keymap and the time after which keys are released alone. -/
theorem frame_answer (call : Call) :
    (t.answer call).2.keymap = t.keymap ∧ (t.answer call).2.keys.hold = t.keys.hold := by
  cases call with
  | expire now =>
      rw [answer, expire, HeldKeys.expire]
      exact ⟨rfl, rfl⟩
  | press stroke now =>
      rw [answer]
      rcases t.press_cases stroke now with ⟨pressed, -, heq⟩ | ⟨-, hsame, -⟩
      · rw [heq]
        exact ⟨rfl, rfl⟩
      · rw [hsame]
        exact ⟨rfl, rfl⟩

/-- No calls change the keymap or the time for which a key is held. -/
theorem frame_answerAll (calls : List Call) :
    (t.answerAll calls).2.keymap = t.keymap ∧ (t.answerAll calls).2.keys.hold = t.keys.hold := by
  induction calls generalizing t with
  | nil => exact ⟨rfl, rfl⟩
  | cons call rest ih =>
      obtain ⟨hkeymap, hhold⟩ := t.frame_answer call
      obtain ⟨hkeymap', hhold'⟩ := ih (t.answer call).2
      exact ⟨hkeymap'.trans hkeymap, hhold'.trans hhold⟩

/-- The time of a held key is the one of this call, or was there before it. -/
theorem time?_answer (call : Call) {key : Fin 16} {time : Nat}
    (h : (t.answer call).2.keys.time? key = some time) :
    call.pressTime? t.keymap key = some time ∨
      (call.pressTime? t.keymap key = none ∧ t.keys.time? key = some time) := by
  cases call with
  | expire now =>
      refine Or.inr ⟨rfl, ?_⟩
      simp only [answer, expire, HeldKeys.time?_expire] at h
      split at h
      · cases h
      · exact h
  | press stroke now =>
      rw [answer] at h
      rw [Call.pressTime?]
      rcases t.press_cases stroke now with ⟨pressed, hkey, heq⟩ | ⟨hkey, hsame, -⟩
      · rw [heq] at h
        simp only [HeldKeys.time?_press] at h
        rw [hkey]
        by_cases hpressed : pressed = key
        · rw [if_pos hpressed] at h
          exact Or.inl (by rw [if_pos (congrArg some hpressed), h])
        · rw [if_neg hpressed] at h
          exact Or.inr ⟨if_neg fun hsome => hpressed (Option.some.inj hsome), h⟩
      · rw [hsame] at h
        exact Or.inr ⟨by rw [hkey]; rfl, h⟩

/-! ## From a terminal with nothing held on -/

theorem time?_new (hold : Nat) (key : Fin 16) : (HeldKeys.new hold).time? key = none :=
  Vector.getElem_replicate key.isLt

theorem isHeld_new (hold : Nat) (key : Fin 16) : (HeldKeys.new hold).isHeld key = false := by
  rw [HeldKeys.isHeld_eq_isSome, time?_new, Option.isSome_none]

/-- The levels of a key alternate and end with whether it is held. -/
theorem tracks_answerAll (keymap : Keymap) (hold : Nat) (calls : List Call) (key : Fin 16) :
    Tracks (levels key ((new keymap hold).answerAll calls).1)
      (((new keymap hold).answerAll calls).2.keys.isHeld key) := by
  induction calls using List.reverseRecOn with
  | nil =>
      rw [answerAll, new, isHeld_new]
      exact tracks_nil
  | append_singleton before call ih =>
      rw [answerAll_snoc, levels, List.filterMap_append, ← levels, ← levels, levels_answer]
      exact ih.append _

/-- The time of a held key is the one of its last press. -/
theorem lastPress_of_time? {keymap : Keymap} {hold : Nat} {calls : List Call} {key : Fin 16}
    {time : Nat}
    (h : ((new keymap hold).answerAll calls).2.keys.time? key = some time) :
    lastPress? keymap key calls = some time := by
  induction calls using List.reverseRecOn with
  | nil =>
      rw [answerAll, new, time?_new] at h
      cases h
  | append_singleton before call ih =>
      rw [answerAll_snoc] at h
      have hkeymap : ((new keymap hold).answerAll before).2.keymap = keymap :=
        ((new keymap hold).frame_answerAll before).1
      rw [lastPress?, List.filterMap_append, List.getLast?_append]
      rcases time?_answer _ call h with hpress | ⟨hnone, hbefore⟩
      · rw [hkeymap] at hpress
        simp [hpress]
      · rw [hkeymap] at hnone
        rw [lastPress?] at ih
        simp [hnone, ih hbefore]

/-- From a terminal with nothing held and a keypad with nothing pressed on, after any calls at any
times: the keypad that took the events in order shows exactly the held keys, and the levels of each
key took turns, down first. An expiry then, in whatever order it visits the held keys, releases
those whose last press lies back at least the hold time, in ascending order. -/
theorem keypad_mirrors_held_keys (keymap : Keymap) (hold : Nat) (calls : List Call) :
    let reached := (new keymap hold).answerAll calls
    (∀ key, (Keypad.clear.heedAll reached.1).isPressed (keyNumber key) =
      reached.2.keys.isHeld key) ∧
    (∀ key, (false :: levels key reached.1).IsChain (· ≠ ·)) ∧
    ∀ now order, reached.2.keys.Enumerates order →
      reached.2.keys.expireInOrder order now = reached.2.keys.expire now ∧
      ∃ released : List (Fin 16),
        (reached.2.answer (.expire now)).1 =
          released.map (fun key => .keyUp (keyNumber key)) ∧
        released.Pairwise (· < ·) ∧
        ∀ key, key ∈ released ↔ reached.2.keys.isHeld key = true ∧
          ∃ time, lastPress? keymap key calls = some time ∧ hold ≤ now - time := by
  intro reached
  refine ⟨?_, ?_, ?_⟩
  · intro key
    rw [Keypad.isPressed_heedAll, Keypad.isPressed_clear]
    exact (tracks_answerAll keymap hold calls key).last
  · exact fun key => (tracks_answerAll keymap hold calls key).alternating
  · intro now order horder
    refine ⟨HeldKeys.expireInOrder_eq horder now,
      (List.finRange 16).filter (reached.2.keys.isOver now), rfl,
      (List.sortedLT_finRange 16).pairwise.filter _, ?_⟩
    intro key
    have hhold : reached.2.keys.hold = hold := ((new keymap hold).frame_answerAll calls).2
    rw [List.mem_filter, HeldKeys.isOver_iff, hhold]
    constructor
    · rintro ⟨-, time, hpressed, helapsed⟩
      refine ⟨?_, time, lastPress_of_time? hpressed, helapsed⟩
      rw [HeldKeys.isHeld_eq_isSome, hpressed, Option.isSome_some]
    · rintro ⟨hheld, time, hlast, helapsed⟩
      obtain ⟨time', hpressed⟩ := Option.isSome_iff_exists.1 hheld
      have hsame : time' = time :=
        Option.some.inj ((lastPress_of_time? hpressed).symm.trans hlast)
      exact ⟨List.mem_finRange key, time, hsame ▸ hpressed, helapsed⟩

/-- Two keys held, one of them by repetition, visited in descending order when both are over. -/
theorem keypad_mirrors_held_keys_repeated :
    let calls : List Call := [.press ⟨.char 'b', false, false, false⟩ 5,
      .press ⟨.char '2', false, false, false⟩ 50, .press ⟨.char 'B', false, true, false⟩ 60,
      .expire 30]
    let reached := (new .literal 100).answerAll calls
    reached.2.keys.Enumerates [0xB, 0x2] ∧
      reached.2.keys.expireInOrder [0xB, 0x2] 160 = reached.2.keys.expire 160 ∧
      ∃ released : List (Fin 16),
        (reached.2.answer (.expire 160)).1 =
          released.map (fun key => .keyUp (keyNumber key)) ∧
        released.Pairwise (· < ·) ∧
        ∀ key, key ∈ released ↔ reached.2.keys.isHeld key = true ∧
          ∃ time, lastPress? .literal key calls = some time ∧ 100 ≤ 160 - time := by
  intro calls reached
  have horder : reached.2.keys.Enumerates [0xB, 0x2] := ⟨by decide, by decide⟩
  obtain ⟨-, -, hexpiry⟩ := keypad_mirrors_held_keys .literal 100 calls
  exact ⟨horder, hexpiry 160 [0xB, 0x2] horder⟩

end Terminal

end Schip
