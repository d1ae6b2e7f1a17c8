import Schip.Proofs.Machine.Anomalies
import Schip.Proofs.Machine.Invariant
import Schip.Proofs.Machine.Loading

/-!
# Subroutines

A call puts the address of its own instruction on top of the call stack, and a return takes the top
off and goes on behind that instruction. As long as the stack stays deeper than it was at the call,
the address lies where the call put it, whatever runs in between (`Framed.perform`), so the return
that uncovers it leads back to the caller (`returns_to_caller`).

There is one way to lose it. A call that finds the stack full writes over the top, and if the stack
is full of frames of which the last is the one in question, that is the address.
-/

set_option autoImplicit false

namespace Schip

namespace CallStack

variable {s : CallStack} {frame : List UInt16}

/-- A full stack has sixteen addresses. -/
theorem depth_of_full (hfull : s.pointer = fullPointer) : s.depth = 16 := by
  rw [depth, hfull]
  rfl

/-- A push leaves what lies below it; on a full stack it replaces the top. -/
theorem suffix_push (hvalid : s.Valid) (h : frame <:+ s.toList) (value : UInt16)
    (hroom : s.pointer = fullPointer → frame.length ≠ s.toList.length) :
    frame <:+ (s.push value).2.toList := by
  by_cases hfull : s.pointer = fullPointer
  · rw [toList_push_full hfull]
    have hshort := hroom hfull
    cases htop : s.toList with
    | nil =>
        rw [htop, List.suffix_nil] at h
        exact absurd (by rw [h, htop]) hshort
    | cons top rest =>
        rw [htop] at h hshort
        rcases List.suffix_cons_iff.1 h with rfl | hrest
        · exact absurd rfl hshort
        · exact hrest.trans (List.suffix_cons value rest)
  · rw [toList_push hvalid hfull]
    exact h.trans (List.suffix_cons value s.toList)

/-- A pop leaves what lies below the top. -/
theorem suffix_pop (hvalid : s.Valid) (h : frame <:+ s.toList)
    (hdeep : frame.length ≤ s.pop.2.toList.length) : frame <:+ s.pop.2.toList := by
  by_cases hempty : s.pointer = emptyPointer
  · rw [pop, if_pos hempty]
    exact h
  · obtain ⟨value, -, htop⟩ := toList_pop hvalid hempty
    rw [htop] at h
    rcases List.suffix_cons_iff.1 h with rfl | hrest
    · exact absurd hdeep (by simp)
    · exact hrest

end CallStack

namespace Machine

variable {m : Machine} {frame : List UInt16}

/-- Addresses lie at the bottom of the call stack, below whatever was pushed since. -/
structure Framed (frame : List UInt16) (m : Machine) : Prop where
  valid : m.registers.stack.Valid
  suffix : frame <:+ m.registers.stack.toList

/-- In every state of a run, the first and the last included, more than `d` calls are open. -/
def StaysAbove (d : Nat) (m : Machine) : List Activity → Prop
  | [] => d < m.registers.stack.depth
  | activity :: rest => d < m.registers.stack.depth ∧ (m.act activity).2.StaysAbove d rest

theorem StaysAbove.lt_depth {d : Nat} {body : List Activity} (h : m.StaysAbove d body) :
    d < m.registers.stack.depth := by
  cases body with
  | nil => exact h
  | cons activity rest => exact h.1

/-! ## A frame stays in place -/

/-- An instruction leaves a frame in place if it neither pops it nor overflows onto it. -/
theorem Framed.effect (h : m.Framed frame) (instruction : Instruction)
    (hdeep : frame.length ≤ (m.effect instruction).registers.stack.toList.length)
    (hroom : frame.length = 16 → .stackOverflow ∉ instruction.faults m.registers) :
    (m.effect instruction).Framed frame := by
  refine ⟨valid_effect h.valid instruction, ?_⟩
  cases instruction with
  | call target =>
      rw [Machine.effect, stack_call]
      refine CallStack.suffix_push h.valid h.suffix _ fun hfull hwhole => ?_
      -- a frame that takes up the whole of a full stack would be written over
      rw [CallStack.length_toList h.valid, CallStack.depth_of_full hfull] at hwhole
      exact hroom hwhole (by simp [Instruction.faults, hfull])
  | ret =>
      rw [Machine.effect, stack_ret] at hdeep ⊢
      exact CallStack.suffix_pop h.valid h.suffix hdeep
  | _ =>
      rw [stack_effect m (by simp) (by simp)]
      exact h.suffix

/-- A cycle leaves a frame in place, under the same conditions. -/
theorem Framed.cycle (h : m.Framed frame)
    (hdeep : frame.length ≤ m.cycle.2.registers.stack.toList.length)
    (hroom : frame.length = 16 → .stackOverflow ∉ m.cycle.1.faults) :
    m.cycle.2.Framed frame := by
  refine ⟨valid_cycle h.valid, ?_⟩
  rw [m.faults_cycle.1, cycleFaults] at hroom
  rw [stack_cycle] at hdeep ⊢
  cases hword : m.memory.word m.registers.pc.toNat with
  | error fault =>
      have hnone : m.fetch.1 = none := by simp only [fetch, hword]
      rw [fetchExecute_of_none hnone, registers_fetch]
      exact h.suffix
  | ok word =>
      rw [hword] at hroom
      rw [fetchExecute_of_word hword] at hdeep ⊢
      exact (h.effect _ hdeep fun hwhole hmem =>
        hroom hwhole (List.mem_append_right _ hmem)).suffix

/-- An activity leaves a frame in place, under the same conditions. -/
theorem Framed.act (h : m.Framed frame) {activity : Activity}
    (hdeep : frame.length ≤ (m.act activity).2.registers.stack.toList.length)
    (hroom : frame.length = 16 →
      ∀ step ∈ (m.act activity).1, .stackOverflow ∉ step.faults) :
    (m.act activity).2.Framed frame := by
  cases activity with
  | cycle => exact h.cycle hdeep fun hwhole => hroom hwhole _ (List.mem_singleton_self _)
  | key key down => exact ⟨h.valid, h.suffix⟩
  | render edit => exact ⟨h.valid, h.suffix⟩

/-- A frame stays in place while the stack stays as deep, unless it fills the stack and a call
overflows. -/
theorem Framed.perform (h : m.Framed frame) {body : List Activity} {d : Nat}
    (hlength : frame.length = d + 1) (hdeep : m.StaysAbove d body)
    (hroom : d = 15 → ∀ step ∈ (m.perform body).1, .stackOverflow ∉ step.faults) :
    (m.perform body).2.Framed frame := by
  induction body generalizing m with
  | nil => exact h
  | cons activity rest ih =>
      rw [Machine.perform] at hroom ⊢
      obtain ⟨-, hrest⟩ := hdeep
      have hvalid : (m.act activity).2.registers.stack.Valid := valid_act h.valid activity
      have hnext : (m.act activity).2.Framed frame := by
        refine h.act ?_ fun hwhole step hstep => ?_
        · rw [CallStack.length_toList hvalid, hlength]
          exact hrest.lt_depth
        · exact hroom (by omega) step (List.mem_append_left _ hstep)
      exact ih hnext hrest fun hwhole step hstep =>
        hroom hwhole step (List.mem_append_right _ hstep)

/-! ## Calls and returns -/

theorem decode_of_group_two {word : UInt16} (h : Word.group word = 2) :
    Instruction.decode word = .call (Word.nnn word) := by
  simp only [Instruction.decode, h]

/-- Registers after a cycle whose instruction does not end the program. -/
theorem registers_cycle {word : UInt16} (hword : m.memory.word m.registers.pc.toNat = .ok word)
    (hgoes : outcome m.registers (Instruction.decode word) ≠ .exit) :
    m.cycle.2.registers =
      (m.effect (Instruction.decode word)).registers.tickTimers.advance := by
  rw [cycle_eq, fetchExecute_of_word hword, execute, if_neg hgoes]
  rfl

/-- A call lands on its target, whether there is room on the stack or not. -/
theorem pc_call_advance (m : Machine) (target : UInt16) :
    (m.call target).registers.tickTimers.advance.pc = target := by
  rw [call]
  rcases m.registers.push m.registers.pc with ⟨_ | _, registers⟩
  · exact UInt16.sub_add_cancel target 2
  · exact UInt16.sub_add_cancel target 2

/-- A return to the address on top. -/
theorem ret_of_toList (hvalid : m.registers.stack.Valid) {address : UInt16}
    {below : List UInt16} (h : m.registers.stack.toList = address :: below) :
    m.ret.registers.pc = address ∧ m.ret.registers.stack.toList = below := by
  have hopen : m.registers.stack.pointer ≠ CallStack.emptyPointer := by
    intro hempty
    have hlength := CallStack.length_toList hvalid
    rw [h, CallStack.depth, hempty, Int.sub_self] at hlength
    cases hlength
  obtain ⟨value, hpop, htop⟩ := CallStack.toList_pop hvalid hopen
  rw [h] at htop
  obtain ⟨rfl, rfl⟩ := List.cons.inj htop
  have hpair : m.registers.stack.pop = (.ok address, m.registers.stack.pop.2) :=
    Prod.ext hpop rfl
  rw [ret, Registers.pop, hpair]
  exact ⟨rfl, rfl⟩

/-- A call with room on the stack leaves its own address on top of those of the callers. -/
theorem toList_cycle_of_call {word : UInt16} (hvalid : m.registers.stack.Valid)
    (hroom : m.registers.stack.depth ≤ 15)
    (hword : m.memory.word m.registers.pc.toNat = .ok word) (hcall : Word.group word = 2) :
    m.cycle.2.registers.pc = Word.nnn word ∧ m.cycle.2.registers.stack.Valid ∧
      m.cycle.2.registers.stack.toList = m.registers.pc :: m.registers.stack.toList := by
  have hfull : m.registers.stack.pointer ≠ CallStack.fullPointer := by
    intro hfull
    rw [CallStack.depth_of_full hfull] at hroom
    omega
  have hdecode := decode_of_group_two hcall
  have hregisters := registers_cycle hword (by rw [hdecode]; exact Outcome.noConfusion)
  rw [hdecode, effect] at hregisters
  refine ⟨?_, valid_cycle hvalid, ?_⟩
  · rw [hregisters, pc_call_advance]
  · rw [hregisters]
    show (m.call (Word.nnn word)).registers.stack.toList = _
    rw [stack_call, CallStack.toList_push hvalid hfull]

/-- A cycle that executes a return to the address on top. -/
theorem cycle_of_ret (hvalid : m.registers.stack.Valid) {address : UInt16}
    {below : List UInt16} (h : m.registers.stack.toList = address :: below)
    (hret : m.cycle.1.instruction = some .ret) :
    m.cycle.2.registers.pc = address + 2 ∧ m.cycle.2.registers.stack.toList = below := by
  obtain ⟨word, hword, hdecode⟩ := exists_word_of_instruction hret
  obtain ⟨hpc, hbelow⟩ := ret_of_toList hvalid h
  rw [registers_cycle hword (by rw [hdecode]; exact Outcome.noConfusion), hdecode]
  exact ⟨congrArg (· + 2) hpc, hbelow⟩

/-- A call with `d` calls open lands on its target with one more. Whatever runs then as long as more
than `d` stay open, the return that is executed with `d + 1` open goes on behind the call, and leaves
the stack that the call found. Where the call fills the stack, no call in between may overflow. The
stack has to be sound, which it is in every state of a run (`valid_act`). -/
theorem returns_to_caller {word : UInt16} {d : Nat} (hvalid : m.registers.stack.Valid)
    (hdepth : m.registers.stack.depth = d) (hd : d ≤ 15)
    (hword : m.memory.word m.registers.pc.toNat = .ok word) (hcall : Word.group word = 2) :
    let called := m.cycle.2
    called.registers.pc = Word.nnn word ∧ called.registers.stack.depth = d + 1 ∧
      ∀ body : List Activity, called.StaysAbove d body →
        (d = 15 → ∀ step ∈ (called.perform body).1, .stackOverflow ∉ step.faults) →
        (called.perform body).2.registers.stack.depth = d + 1 →
        (called.perform body).2.cycle.1.instruction = some .ret →
        let returned := (called.perform body).2.cycle.2
        returned.registers.pc = m.registers.pc + 2 ∧ returned.registers.stack.depth = d ∧
          returned.registers.stack.toList = m.registers.stack.toList := by
  intro called
  obtain ⟨hpc, hvalidCalled, hlist⟩ := toList_cycle_of_call hvalid (hdepth ▸ hd) hword hcall
  have hframe : (m.registers.pc :: m.registers.stack.toList).length = d + 1 := by
    rw [List.length_cons, CallStack.length_toList hvalid, hdepth]
  have hcalled : called.Framed (m.registers.pc :: m.registers.stack.toList) :=
    ⟨hvalidCalled, hlist ▸ List.suffix_rfl⟩
  refine ⟨hpc, ?_, ?_⟩
  · rw [← CallStack.length_toList hvalidCalled, hlist, hframe]
  · intro body hdeep hroom hlast hret
    obtain ⟨hvalidLast, hsuffix⟩ := hcalled.perform hframe hdeep hroom
    -- nothing is left above the frame
    have hbottom : m.registers.pc :: m.registers.stack.toList =
        (called.perform body).2.registers.stack.toList :=
      hsuffix.eq_of_length (by rw [hframe, CallStack.length_toList hvalidLast, hlast])
    obtain ⟨hback, hbelow⟩ := cycle_of_ret hvalidLast hbottom.symm hret
    refine ⟨hback, ?_, hbelow⟩
    rw [← CallStack.length_toList (valid_cycle hvalidLast), hbelow,
      CallStack.length_toList hvalid, hdepth]

/-- A cycle whose instruction concerns nothing but registers. -/
theorem cycle_withRegisters (hfaults : m.faults = []) (registers changed : Registers)
    (instruction : Instruction) {word : UInt16}
    (hword : m.memory.word registers.pc.toNat = .ok word)
    (hdecode : Instruction.decode word = instruction)
    (heffect : (m.withRegisters registers).effect instruction = m.withRegisters changed)
    (hgoes : outcome registers instruction ≠ .exit) :
    (m.withRegisters registers).cycle.1.instruction = some instruction ∧
      (m.withRegisters registers).cycle.2 = m.withRegisters changed.tickTimers.advance := by
  have hexecute : (m.withRegisters registers).fetchExecute =
      (some instruction, outcome registers instruction, m.withRegisters changed) := by
    rw [fetchExecute_of_word (m := m.withRegisters registers) hword, execute, hdecode, heffect]
    rfl
  rw [cycle_eq, hexecute]
  refine ⟨rfl, ?_⟩
  rw [if_neg hgoes]
  cases m
  cases hfaults
  rfl

/-- A subroutine at 0x204 whose first instruction calls the one at 0x208, which returns at once, run
up to its own return. -/
theorem nested_calls (hfaults : m.faults = []) (hregisters : m.registers = Registers.new)
    (hcall : m.memory.word 0x200 = .ok 0x2204) (hinner : m.memory.word 0x204 = .ok 0x2208)
    (hleave : m.memory.word 0x208 = .ok 0x00EE) (hreturn : m.memory.word 0x206 = .ok 0x00EE) :
    m.cycle.2.StaysAbove 0 [.key 5 true, .cycle, .cycle] ∧
      (m.cycle.2.perform [.key 5 true, .cycle, .cycle]).2.registers.stack.depth = 1 ∧
      (m.cycle.2.perform [.key 5 true, .cycle, .cycle]).2.cycle.1.instruction = some .ret := by
  let pressed := m.withKeypad (m.keypad.setKey 5 true)
  have hpressed : pressed.faults = [] := hfaults
  -- registers in the outer subroutine, in the inner one and behind the inner call
  let outer : Registers :=
    { Registers.new with pc := 0x204, stack := (CallStack.empty.push 0x200).2 }
  let inner : Registers :=
    { Registers.new with pc := 0x208, stack := (outer.stack.push 0x204).2 }
  let behind : Registers := { inner with pc := 0x206, stack := inner.stack.pop.2 }
  have hstart : m.withRegisters Registers.new = m := by
    rw [← hregisters]
    rfl
  have hentered : (m.withRegisters Registers.new).cycle.2 = m.withRegisters outer :=
    (cycle_withRegisters hfaults Registers.new { outer with pc := 0x202 } (.call 0x204) hcall
      (by decide) rfl (by decide)).2
  have hnested : (pressed.withRegisters outer).cycle.2 = pressed.withRegisters inner :=
    (cycle_withRegisters hpressed outer { inner with pc := 0x206 } (.call 0x208) hinner
      (by decide) rfl (by decide)).2
  have hleft : (pressed.withRegisters inner).cycle.2 = pressed.withRegisters behind :=
    (cycle_withRegisters hpressed inner { behind with pc := 0x204 } .ret hleave
      (by decide) rfl (by decide)).2
  have hreturns := (cycle_withRegisters hpressed behind
    { behind with pc := 0x200, stack := behind.stack.pop.2 } .ret hreturn
    (by decide) rfl (by decide)).1
  rw [hstart] at hentered
  have hlast : (m.cycle.2.perform [.key 5 true, .cycle, .cycle]).2 =
      pressed.withRegisters behind := by
    simp only [perform, act, hentered]
    rw [← hleft, ← hnested]
    rfl
  refine ⟨?_, ?_, ?_⟩
  · simp only [StaysAbove, act, hentered]
    show 0 < outer.stack.depth ∧ 0 < outer.stack.depth ∧
      0 < (pressed.withRegisters outer).cycle.2.registers.stack.depth ∧
      0 < (pressed.withRegisters outer).cycle.2.cycle.2.registers.stack.depth
    rw [hnested, hleft]
    show 0 < outer.stack.depth ∧ 0 < outer.stack.depth ∧ 0 < inner.stack.depth ∧
      0 < behind.stack.depth
    decide
  · rw [hlast]
    show behind.stack.depth = 1
    decide
  · rw [hlast]
    exact hreturns

/-- A subroutine that calls another one while a key goes down. -/
theorem returns_to_caller_nested :
    let program : List UInt8 :=
      [0x22, 0x04, 0x12, 0x02, 0x22, 0x08, 0x00, 0xEE, 0x00, 0xEE]
    let m := ((new {} (RandomSource.ofSeed 1)).loadProgram (.ofBytes program)).2
    let body : List Activity := [.key 5 true, .cycle, .cycle]
    let last := (m.cycle.2.perform body).2
    m.registers.stack.Valid ∧ m.registers.stack.depth = 0 ∧
      m.memory.word m.registers.pc.toNat = .ok 0x2204 ∧ Word.group 0x2204 = 2 ∧
      m.cycle.2.StaysAbove 0 body ∧ last.registers.stack.depth = 1 ∧
      last.cycle.1.instruction = some .ret ∧
      last.cycle.2.registers.pc = m.registers.pc + 2 ∧
      last.cycle.2.registers.stack.depth = 0 := by
  intro program m
  dsimp only
  have hm : m = (new {} (RandomSource.ofSeed 1)).loaded program :=
    snd_loadProgram_ofBytes _ (by decide)
  clear_value m
  have hword : ∀ i (h : i + 1 < program.length) address word, address = Memory.programBase + i →
      word = program[i].toUInt16 <<< 8 ||| program[i + 1].toUInt16 →
      m.memory.word address = .ok word := by
    rintro i h _ _ rfl rfl
    rw [hm]
    exact (new {} (RandomSource.ofSeed 1)).word_loaded h (by decide)
  have hfaults : m.faults = [] := by rw [hm, faults_loaded]
  have hregisters : m.registers = Registers.new := by rw [hm, registers_loaded]
  have hvalid : m.registers.stack.Valid := by
    rw [hregisters]
    exact CallStack.valid_empty
  have hdepth : m.registers.stack.depth = 0 := by
    rw [hregisters]
    decide
  have hcall : m.memory.word m.registers.pc.toNat = .ok 0x2204 := by
    rw [hregisters]
    exact hword 0 (by decide) _ _ (by decide) (by decide)
  obtain ⟨hdeep, hlast, hret⟩ := nested_calls hfaults hregisters
    (hword 0 (by decide) _ _ (by decide) (by decide))
    (hword 4 (by decide) _ _ (by decide) (by decide))
    (hword 8 (by decide) _ _ (by decide) (by decide))
    (hword 6 (by decide) _ _ (by decide) (by decide))
  have hreturns := (returns_to_caller hvalid hdepth (Nat.zero_le 15) hcall (by decide)).2.2
  obtain ⟨hback, hdepth', -⟩ := hreturns _ hdeep (fun h => absurd h (by decide)) hlast hret
  exact ⟨hvalid, hdepth, hcall, by decide, hdeep, hlast, hret, hback, hdepth'⟩

end Machine

end Schip
