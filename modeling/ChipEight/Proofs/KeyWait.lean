import ChipEight.Proofs.Moments
import ChipEight.Proofs.Pattern
import Mathlib.Data.List.Forall2
import Mathlib.Data.List.Induction

/-!
# Waiting for a key

The instruction `Fx0A` makes the machine wait. That it waits is a bit of its own, and nothing in
the state ties this bit to the program counter; but in every machine that can be reached, a waiting
machine has `Fx0A` before it (`Reachable.awaits`). So a cycle of a waiting machine either finds a
press, takes it and goes on, or changes nothing at all (`cycle_of_waiting`).

`waiting_frozen` says what follows for a machine that is left alone by the keys: nothing of its
program moves, and it answers as if the same instruction were executed again and again.
`wait_ends_by_press` says what ends a wait: a key that went from up to down since the wait began,
the last one if there are several (`LastPress`). The invariant behind it is that, while the
machine waits, what the keypad remembers is the last press since then (`latched_perform`).
-/

namespace ChipEight

open List

namespace Machine

/-- All that a program works on is as it was. -/
structure Frozen (m n : Machine) : Prop where
  /-- The program counter. -/
  pc : n.pc = m.pc
  /-- The registers. -/
  registers : n.registers = m.registers
  /-- The index. -/
  index : n.index = m.index
  /-- The stack. -/
  stack : n.stack = m.stack
  /-- The memory. -/
  memory : n.memory = m.memory
  /-- The display. -/
  display : n.display = m.display
  /-- The random words. -/
  generator : n.generator = m.generator

theorem Frozen.refl (m : Machine) : m.Frozen m := ⟨rfl, rfl, rfl, rfl, rfl, rfl, rfl⟩

theorem Frozen.trans {m n k : Machine} (h₁ : m.Frozen n) (h₂ : n.Frozen k) : m.Frozen k :=
  ⟨h₂.pc.trans h₁.pc, h₂.registers.trans h₁.registers, h₂.index.trans h₁.index,
    h₂.stack.trans h₁.stack, h₂.memory.trans h₁.memory, h₂.display.trans h₁.display,
    h₂.generator.trans h₁.generator⟩

theorem Frozen.next? {m n : Machine} (h : m.Frozen n) : n.next? = m.next? := by
  rw [Machine.next?, Machine.next?, h.pc, h.memory]

/-! ### A cycle at `Fx0A` -/

/-- The word of an instruction that waits. -/
theorem next?_eq_awaitKey_iff {m : Machine} {x : Register} :
    m.next? = some (.awaitKey x) ↔
      (m.memory.fetch m.pc).toNat = 0xF000 + 0x100 * x + 0x0A := by
  rw [next?, Op.decode_eq_some_iff_pattern (show Op.Listed (.awaitKey x) from trivial)]
  exact eq_comm

/-- The instruction that a machine has before it, with its address and word. -/
def here (m : Machine) (op : Op) : Instruction := ⟨m.pc, m.memory.fetch m.pc, op⟩

/-- The cycle that begins a wait forgets every earlier press. -/
theorem cycle_of_not_waiting {m : Machine} {x : Register} (hx : m.next? = some (.awaitKey x))
    (hw : m.waiting = false) :
    m.cycle =
      ⟨{ m with keypad := m.keypad.forget, waiting := true }, [.waiting m.pc],
        .ok (some (m.here (.awaitKey x)))⟩ := by
  rw [next?] at hx
  simp [cycle, hx, execute, awaitKey_eq, goto, hw, here]

/-- **A cycle of a waiting machine** takes the press that is remembered, or changes nothing. -/
theorem cycle_of_waiting {m : Machine} {x : Register} (hx : m.next? = some (.awaitKey x))
    (hw : m.waiting = true) :
    m.cycle =
      match m.keypad.latched with
      | some k =>
        ⟨{ m with
            registers := m.registers.set x k.toByte
            pc := Address.next m.pc
            keypad := m.keypad.forget
            waiting := false }, [.resumed k], .ok (some (m.here (.awaitKey x)))⟩
      | none => ⟨m, [], .ok (some (m.here (.awaitKey x)))⟩ := by
  rw [next?] at hx
  cases hl : m.keypad.latched with
  | some k => simp [cycle, hx, execute, awaitKey_eq, goto, hw, hl, here]
  | none =>
    have same : { m with waiting := true } = m := by rw [← hw]
    simp [cycle, hx, execute, awaitKey_eq, goto, hw, hl, here, same]

/-! ### A waiting machine has `Fx0A` before it -/

/-- A machine that waits has an instruction before it that waits. -/
def Awaits (m : Machine) : Prop := m.waiting = true → ∃ x, m.next? = some (.awaitKey x)

theorem awaits_cycle {m : Machine} (h : m.Awaits) : m.cycle.machine.Awaits := by
  cases hw : m.waiting with
  | true =>
    obtain ⟨x, hx⟩ := h hw
    rw [cycle_of_waiting hx hw]
    cases m.keypad.latched with
    | some k => exact fun hk => nomatch hk
    | none => exact h
  | false =>
    rcases m.cycle_cases with ⟨-, hc⟩ | ⟨op, n, records, hop, he, hc⟩ | ⟨op, fault, -, -, hc⟩
    · rw [hc]
      exact h
    · by_cases ha : ∃ x, op = .awaitKey x
      · obtain ⟨x, rfl⟩ := ha
        rw [cycle_of_not_waiting hop hw]
        exact fun _ => ⟨x, hop⟩
      · -- no other instruction moves the bit
        have kept : n.waiting = m.waiting := by
          refine execute_frame (p := .waiting) he ?_
          cases op <;> first | rfl | exact absurd ⟨_, rfl⟩ ha
        rw [hc]
        intro hn
        rw [kept, hw] at hn
        cases hn
    · rw [hc]
      exact h

theorem awaits_make {m : Machine} (h : m.Awaits) (move : Move) : (m.make move).Awaits := by
  cases hr : move.reloads with
  | true =>
    obtain ⟨program, -, hl⟩ := make_of_reloads (m := m) hr
    rw [hl]
    exact fun hw => nomatch hw
  | false =>
    cases move with
    | load program =>
      rw [make_load hr]
      exact h
    | cycle => exact awaits_cycle h
    | _ => exact h

/-- **In every reachable machine, a wait is a wait at `Fx0A`.** -/
theorem Reachable.awaits {m : Machine} (h : m.Reachable) : m.Awaits :=
  h.induction (P := Awaits) (fun _ _ hw => nomatch hw) fun _ move hm => awaits_make hm move

/-! ### As long as the machine waits, nothing moves -/

/-- A machine does not wait when it starts anew. -/
theorem reloads_of_waiting {m : Machine} {move : Move} (h : (m.make move).waiting = true) :
    move.reloads = false := by
  cases hr : move.reloads with
  | true =>
    obtain ⟨program, -, hl⟩ := make_of_reloads (m := m) hr
    rw [hl] at h
    cases h
  | false => rfl

/-- A cycle of a waiting machine that goes on waiting found no press and changed nothing. -/
theorem make_cycle_of_still {m : Machine} {x : Register} (hx : m.next? = some (.awaitKey x))
    (hw : m.waiting = true) (hn : (m.make .cycle).waiting = true) : m.make .cycle = m := by
  rw [make, cycle_of_waiting hx hw] at hn ⊢
  cases hl : m.keypad.latched with
  | some k =>
    rw [hl] at hn
    cases hn
  | none => rfl

/-- A move that leaves the machine waiting moves nothing of its program. -/
theorem frozen_make {m : Machine} {move : Move} {x : Register} (hx : m.next? = some (.awaitKey x))
    (hw : m.waiting = true) (hn : (m.make move).waiting = true) : m.Frozen (m.make move) := by
  cases move with
  | load program =>
    rw [make_load (reloads_of_waiting hn)]
    exact Frozen.refl m
  | cycle =>
    rw [make_cycle_of_still hx hw hn]
    exact Frozen.refl m
  | _ => exact ⟨rfl, rfl, rfl, rfl, rfl, rfl, rfl⟩

/-- As long as the machine waits, nothing of its program moves. -/
theorem frozen_path {m : Machine} {moves : List Move} {x : Register}
    (hx : m.next? = some (.awaitKey x)) (hw : m.waiting = true)
    (still : ∀ t ∈ m.path moves, t.after.waiting = true) :
    (∀ t ∈ m.path moves, m.Frozen t.after) ∧ m.Frozen (m.perform moves) ∧
      (m.perform moves).waiting = true := by
  induction moves generalizing m with
  | nil => exact ⟨fun _ ht => absurd ht not_mem_nil, Frozen.refl m, hw⟩
  | cons move rest ih =>
    simp only [path, mem_cons, forall_eq_or_imp] at still ⊢
    have first : m.Frozen (m.make move) := frozen_make hx hw still.1
    have hx' : (m.make move).next? = some (.awaitKey x) := by rw [first.next?, hx]
    obtain ⟨later, last, hl⟩ := ih hx' still.1 still.2
    exact ⟨⟨first, fun t ht => first.trans (later t ht)⟩, first.trans last, hl⟩

end Machine

/-- No program is loaded, and no cycle finds a press. -/
def Moment.Quiet (t : Moment) : Prop :=
  t.move.reloads = false ∧ (t.move = .cycle → t.before.keypad.latched = none)

instance (t : Moment) : Decidable t.Quiet := inferInstanceAs (Decidable (_ ∧ (_ → _)))

/-- What comes back from an event while a machine waits at an instruction: the instruction from a
single cycle, and from a run that it waits, or that it was asked to stop. -/
def Reply.Stalled (i : Instruction) : Event → Reply → Prop
  | .step, reply => reply = .stepped (.ok (some i))
  | .run 0, reply => reply = .ran (.ok .done)
  | .run (_ + 1), reply => reply = .ran (.ok .waiting) ∨ reply = .ran (.ok .interrupted)
  | _, _ => True

namespace Machine

/-- Only a load or a press ends a wait. -/
theorem waiting_make {m : Machine} {move : Move} {x : Register} (hx : m.next? = some (.awaitKey x))
    (hw : m.waiting = true) (quiet : Moment.Quiet ⟨m, move⟩) : (m.make move).waiting = true := by
  obtain ⟨hr, hl⟩ := quiet
  cases move with
  | load program =>
    rw [make_load hr]
    exact hw
  | cycle =>
    have none_latched : m.keypad.latched = none := hl rfl
    rw [make, cycle_of_waiting hx hw, none_latched]
    exact hw
  | _ => exact hw

theorem waiting_path {m : Machine} {moves : List Move} {x : Register}
    (hx : m.next? = some (.awaitKey x)) (hw : m.waiting = true)
    (quiet : ∀ t ∈ m.path moves, t.Quiet) : ∀ t ∈ m.path moves, t.after.waiting = true := by
  induction moves generalizing m with
  | nil => exact fun _ ht => absurd ht not_mem_nil
  | cons move rest ih =>
    simp only [path, mem_cons, forall_eq_or_imp] at quiet ⊢
    have first : (m.make move).waiting = true := waiting_make hx hw quiet.1
    have hx' : (m.make move).next? = some (.awaitKey x) := by
      rw [(frozen_make hx hw first).next?, hx]
    exact ⟨first, ih hx' first quiet.2⟩

/-- What an event brings back, and what it notes, while the machine waits. -/
theorem stalled_apply {m : Machine} {e : Event} {x : Register} (hx : m.next? = some (.awaitKey x))
    (hw : m.waiting = true) (quiet : ∀ t ∈ m.path (m.movesOf e), t.Quiet) :
    Reply.Stalled (m.here (.awaitKey x)) e (m.apply e).answer ∧
      ∀ a, Record.waiting a ∉ (m.apply e).records := by
  cases e with
  | load program =>
    refine ⟨trivial, fun a => ?_⟩
    rw [apply, load]
    split <;> simp [Outcome.map]
  | step =>
    have latched : m.keypad.latched = none :=
      (quiet ⟨m.resume, .cycle⟩ (by simp [movesOf, path, make])).2 rfl
    have hc : m.resume.cycle = ⟨m.resume, [], .ok (some (m.here (.awaitKey x)))⟩ := by
      rw [cycle_of_waiting (m := m.resume) hx hw, show m.resume.keypad.latched = none from latched]
      rfl
    refine ⟨?_, fun a => ?_⟩
    · change Reply.stepped m.step.answer = _
      rw [answer_step, hc]
    · change _ ∉ m.step.records
      rw [step, hc]
      split <;> simp
  | run n =>
    cases n with
    | zero => exact ⟨rfl, fun a => not_mem_nil⟩
    | succ n =>
      change Reply.Stalled _ _ (.ran (m.run (n + 1)).answer) ∧ ∀ a, _ ∉ (m.run (n + 1)).records
      rw [run_succ]
      cases hi : m.interrupted with
      | true => exact ⟨Or.inr rfl, fun a => not_mem_nil⟩
      | false =>
        have latched : m.keypad.latched = none :=
          (quiet ⟨m, .cycle⟩ (by simp [movesOf, runMoves, hi, path])).2 rfl
        rw [cycle_of_waiting hx hw, latched]
        simp [hw, Reply.Stalled]
  | _ => exact ⟨trivial, fun a => not_mem_nil⟩

/-- **A waiting machine that no key disturbs is frozen.** If a reachable machine waits, the word
before it is `Fx0A`. And through every history in which no program is loaded and no cycle finds a
press, it keeps waiting, nothing of its program moves, every step brings back that same
instruction, every run says that the machine waits or was asked to stop, and no wait begins. -/
theorem waiting_frozen (m : Machine) (reachable : m.Reachable) (waiting : m.waiting = true) :
    ∃ x : Register, (m.memory.fetch m.pc).toNat = 0xF000 + 0x100 * x + 0x0A ∧
      ∀ history, (∀ t ∈ m.moments history, t.Quiet) →
        (∀ t ∈ m.moments history, t.after.waiting = true ∧ m.Frozen t.after) ∧
          (m.after history).waiting = true ∧ m.Frozen (m.after history) ∧
          Forall₂ (Reply.Stalled ⟨m.pc, m.memory.fetch m.pc, .awaitKey x⟩) history
            (m.replay history).answer ∧
          ∀ a, Record.waiting a ∉ (m.replay history).records := by
  obtain ⟨x, hx⟩ := reachable.awaits waiting
  refine ⟨x, next?_eq_awaitKey_iff.1 hx, fun history quiet => ?_⟩
  have still := waiting_path hx waiting quiet
  obtain ⟨frozen, last, hl⟩ := frozen_path hx waiting still
  rw [perform_moves] at last hl
  refine ⟨fun t ht => ⟨still t ht, frozen t ht⟩, hl, last, ?_⟩
  clear reachable still frozen last hl
  induction history generalizing m with
  | nil => exact ⟨Forall₂.nil, fun a => not_mem_nil⟩
  | cons e rest ih =>
    rw [moments, moves, path_append, perform_movesOf] at quiet
    have quiet₁ : ∀ t ∈ m.path (m.movesOf e), t.Quiet := fun t ht => quiet t (mem_append_left _ ht)
    obtain ⟨-, first, hw⟩ := frozen_path hx waiting (waiting_path hx waiting quiet₁)
    rw [perform_movesOf] at first hw
    obtain ⟨replies, silent⟩ := ih (m.apply e).machine hw (by rw [first.next?, hx])
      fun t ht => quiet t (mem_append_right _ ht)
    obtain ⟨reply, silent₁⟩ := stalled_apply hx waiting quiet₁
    rw [first.pc, first.memory] at replies
    exact ⟨Forall₂.cons reply replies, fun a ha => (mem_append.1 ha).elim (silent₁ a) (silent a)⟩

/-- A machine that waits at `0x200` and is left alone. -/
theorem waiting_frozen_alone :
    let m := (create {} 0).after [.load [0xF3, 0x0A], .key 7 true, .step]
    let history : List Event := [.tick, .key 7 false, .interrupt, .run 5, .run 5, .step, .run 0]
    m.Reachable ∧ m.waiting = true ∧ (∀ t ∈ m.moments history, t.Quiet) ∧
      (m.after history).waiting = true ∧ m.Frozen (m.after history) := by
  intro m history
  have reachable : m.Reachable := ⟨{}, 0, _, rfl⟩
  have waiting : m.waiting = true := by decide +kernel
  have quiet : ∀ t ∈ m.moments history, t.Quiet := by decide +kernel
  obtain ⟨x, -, h⟩ := waiting_frozen m reachable waiting
  obtain ⟨-, hw, frozen, -⟩ := h history quiet
  exact ⟨reachable, waiting, quiet, hw, frozen⟩

end Machine

/-! ### What ends a wait -/

/-- A key goes from up to down. -/
def Moment.Presses (t : Moment) (k : Key) : Prop :=
  t.before.keypad.isHeld k = false ∧ t.after.keypad.isHeld k = true

instance (t : Moment) (k : Key) : Decidable (t.Presses k) := inferInstanceAs (Decidable (_ ∧ _))

/-- The last key to go from up to down in some moments, unless all keys went up since. -/
def LastPress (ms : List Moment) (k : Key) : Prop :=
  ∃ old t new, ms = old ++ t :: new ∧ t.Presses k ∧
    ∀ u ∈ new, u.move ≠ .clearKeys ∧ ∀ j, ¬ u.Presses j

theorem lastPress_concat {ms : List Moment} {t : Moment} {k : Key} :
    LastPress (ms ++ [t]) k ↔
      t.Presses k ∨ (t.move ≠ .clearKeys ∧ (∀ j, ¬ t.Presses j) ∧ LastPress ms k) := by
  rw [← and_assoc]
  exact since_concat

namespace Machine

/-- No cycle moves a key. -/
theorem held_cycle (m : Machine) : m.cycle.machine.keypad.held = m.keypad.held := by
  rcases m.cycle_cases with ⟨-, hc⟩ | ⟨op, n, records, -, he, hc⟩ | ⟨op, fault, -, -, hc⟩
  · rw [hc]
  · rw [hc]
    cases op with
    | awaitKey x =>
      simp only [execute, awaitKey_eq] at he
      split at he <;> cases he <;> rfl
    | _ => exact congrArg Keypad.held (execute_frame (p := .keypad) he rfl)
  · rw [hc]

/-- The keys move only when they are moved from outside. -/
theorem isHeld_make (m : Machine) (move : Move) (k : Key) :
    (m.make move).keypad.isHeld k =
      match move with
      | .key j down => if k = j then down else m.keypad.isHeld k
      | .clearKeys => false
      | _ => m.keypad.isHeld k := by
  cases move with
  | key j down => exact Keypad.isHeld_set _ _ _ _
  | clearKeys => exact Keypad.isHeld_clear k
  | cycle => rw [make, Keypad.isHeld, held_cycle]; rfl
  | load program =>
    rw [make, load]
    split <;> rfl
  | _ => rfl

/-- A press is a key put down that was up: no other move is one, nor is a key put down again. -/
theorem presses_iff {t : Moment} {k : Key} :
    t.Presses k ↔ t.move = .key k true ∧ t.before.keypad.isHeld k = false := by
  obtain ⟨m, move⟩ := t
  rw [Moment.Presses, Moment.after, isHeld_make]
  cases move with
  | key j down =>
    by_cases h : k = j
    · subst h
      cases down <;> simp
    · have : j ≠ k := fun e => h e.symm
      simp [h, this]
  | _ => simp

/-- What is remembered after a move that leaves the machine waiting. -/
theorem latched_make {m : Machine} {move : Move} {x : Register} (hx : m.next? = some (.awaitKey x))
    (hw : m.waiting = true) (hn : (m.make move).waiting = true) (k : Key) :
    (m.make move).keypad.latched = some k ↔
      Moment.Presses ⟨m, move⟩ k ∨
        (move ≠ .clearKeys ∧ (∀ j, ¬ Moment.Presses ⟨m, move⟩ j) ∧ m.keypad.latched = some k) := by
  simp only [presses_iff]
  cases move with
  | load program => simp [make_load (reloads_of_waiting hn)]
  | cycle => simp [make_cycle_of_still hx hw hn]
  | key j down =>
    change (m.keypad.set j down).latched = some k ↔ _
    rw [Keypad.latched_set]
    split
    · next pressed =>
      obtain ⟨rfl, up⟩ := pressed
      constructor
      · intro h
        cases h
        exact Or.inl ⟨rfl, up⟩
      · rintro (⟨h, -⟩ | ⟨-, none_pressed, -⟩)
        · cases h
          rfl
        · exact absurd ⟨rfl, up⟩ (none_pressed j)
    · next idle =>
      have none_pressed : ∀ i, ¬ (Move.key j down = .key i true ∧ m.keypad.isHeld i = false) := by
        rintro i ⟨h, up⟩
        cases h
        exact idle ⟨rfl, up⟩
      constructor
      · exact fun h => Or.inr ⟨nofun, none_pressed, h⟩
      · rintro (h | ⟨-, -, h⟩)
        · exact absurd h (none_pressed k)
        · exact h
  | clearKeys => simp [make, clearKeys, Keypad.clear]
  | _ => simp [make, tick, interrupt, resume]

/-- **While the machine waits, the last press is remembered.** -/
theorem latched_perform {m : Machine} {moves : List Move} {x : Register}
    (hx : m.next? = some (.awaitKey x)) (hw : m.waiting = true) (hl : m.keypad.latched = none)
    (still : ∀ t ∈ m.path moves, t.after.waiting = true) (k : Key) :
    (m.perform moves).keypad.latched = some k ↔ LastPress (m.path moves) k := by
  induction moves using List.reverseRecOn with
  | nil =>
    refine ⟨fun h => ?_, fun ⟨_, _, _, split, _⟩ => ?_⟩
    · rw [perform, hl] at h
      cases h
    · simp [path] at split
  | append_singleton moves move ih =>
    rw [path_concat] at still ⊢
    have before : ∀ t ∈ m.path moves, t.after.waiting = true := fun t ht => still t (mem_append_left _ ht)
    obtain ⟨-, frozen, hw'⟩ := frozen_path hx hw before
    rw [perform_concat, lastPress_concat, ← ih before]
    exact latched_make (by rw [frozen.next?, hx]) hw' (still ⟨_, move⟩ (by simp)) k

/-- **A wait ends by a new press, and by the last one.** Take any history, and in it a cycle that
comes to `Fx0A` while the machine does not wait. Whatever is held and whatever was pressed before,
it begins to wait and stays where it is. Take then any later cycle up to which it goes on waiting.
That cycle ends the wait just when a key went from up to down in between and not all keys were put
up afterwards. Then `Vx` takes the number of the last such key and the program goes on at the next
instruction; otherwise nothing of the program moves. Only putting a key down that was up is a
press. -/
theorem wait_ends_by_press (m : Machine) (history : List Event) {past rest : List Moment}
    {start : Moment} {x : Register} (split : m.moments history = past ++ start :: rest)
    (begins : start.move = .cycle) (idle : start.before.waiting = false)
    (word : (start.before.memory.fetch start.before.pc).toNat = 0xF000 + 0x100 * x + 0x0A) :
    start.after.waiting = true ∧ start.after.pc = start.before.pc ∧
      ∀ during next future, rest = during ++ next :: future → next.move = .cycle →
        (∀ t ∈ during, t.after.waiting = true) →
          (∀ t ∈ during, ∀ k, t.Presses k ↔
            t.move = .key k true ∧ t.before.keypad.isHeld k = false) ∧
          (next.after.waiting = false ↔ ∃ k, LastPress during k) ∧
          (∀ k, LastPress during k →
            next.after.pc = (start.before.pc + 2) % 4096 ∧
              ∀ y, (next.after.registers.get y).toNat =
                if y = x then (k : Nat) else (start.before.registers.get y).toNat) ∧
          ((¬ ∃ k, LastPress during k) → start.before.Frozen next.after) := by
  have hx := next?_eq_awaitKey_iff.2 word
  have first : start.after =
      { start.before with keypad := start.before.keypad.forget, waiting := true } := by
    rw [Moment.after, begins, make, cycle_of_not_waiting hx idle]
  have frozen₀ : start.before.Frozen start.after := by
    rw [first]
    exact ⟨rfl, rfl, rfl, rfl, rfl, rfl, rfl⟩
  have waits : start.after.waiting = true := by rw [first]
  refine ⟨waits, frozen₀.pc, ?_⟩
  rintro during next future rfl cycles still
  -- the moves between the two cycles, and what they leave for the second one
  obtain ⟨_, new, -, -, -, later⟩ := exists_of_path_eq split
  obtain ⟨old, _, -, rfl, arrived, -⟩ := exists_of_path_eq later.symm
  have hx₁ : start.after.next? = some (.awaitKey x) := by rw [frozen₀.next?, hx]
  obtain ⟨-, frozen₁, hw⟩ := frozen_path hx₁ waits still
  have remembered := latched_perform hx₁ waits (by rw [first]; rfl) still
  rw [← arrived] at frozen₁ hw remembered
  have frozen := frozen₀.trans frozen₁
  have hc := cycle_of_waiting (by rw [frozen.next?, hx]) hw
  refine ⟨fun t _ k => presses_iff, ?_⟩
  rw [Moment.after, cycles, make, hc]
  cases hl : next.before.keypad.latched with
  | none =>
    have no_press : ¬ ∃ k, LastPress (start.after.path old) k := by
      rintro ⟨k, hk⟩
      rw [← remembered, hl] at hk
      cases hk
    refine ⟨?_, fun k hk => absurd ⟨k, hk⟩ no_press, fun _ => frozen⟩
    simp [hw, no_press]
  | some j =>
    have pressed : LastPress (start.after.path old) j := (remembered j).1 hl
    refine ⟨?_, ?_, fun h => absurd ⟨j, pressed⟩ h⟩
    · simp only [true_iff]
      exact ⟨j, pressed⟩
    · intro k hk
      rw [← remembered, hl, Option.some.injEq] at hk
      subst hk
      refine ⟨by rw [frozen.pc]; rfl, fun y => ?_⟩
      rw [Registers.get_set, frozen.registers]
      by_cases hy : x = y
      · rw [if_pos hy, if_pos hy.symm, Key.toNat_toByte]
      · rw [if_neg hy, if_neg fun e => hy e.symm]

/-- A wait for a key at `0x200`, through which a held key is put down again, two keys are pressed, the
second one is let go, and a request to stop comes in between: the second one ends the wait. -/
theorem wait_ends_by_press_second :
    let m := create {} 0
    let history : List Event :=
      [.load [0xF3, 0x0A], .key 7 true, .step, .key 7 true, .key 2 true, .key 9 true, .key 9 false,
        .interrupt, .run 1, .step]
    ∃ past start during next, m.moments history = past ++ start :: (during ++ [next]) ∧
      start.move = .cycle ∧ start.before.waiting = false ∧
      (start.before.memory.fetch start.before.pc).toNat = 0xF000 + 0x100 * 3 + 0x0A ∧
      next.move = .cycle ∧ (∀ t ∈ during, t.after.waiting = true) ∧ LastPress during 9 ∧
      next.after.waiting = false ∧ next.after.pc = 0x202 ∧
      (next.after.registers.get 3).toNat = 9 := by
  intro m history
  let s := m.perform [.load [0xF3, 0x0A], .key 7 true, .drop]
  let w := s.make .cycle
  let during := w.path [.key 7 true, .key 2 true, .key 9 true, .key 9 false, .interrupt, .resume, .drop]
  let next : Moment :=
    ⟨w.perform [.key 7 true, .key 2 true, .key 9 true, .key 9 false, .interrupt, .resume, .drop], .cycle⟩
  have split : m.moments history =
      m.path [.load [0xF3, 0x0A], .key 7 true, .drop] ++ ⟨s, .cycle⟩ :: (during ++ [next]) := by
    rfl
  have idle : s.waiting = false := by decide +kernel
  have word : (s.memory.fetch s.pc).toNat = 0xF000 + 0x100 * (3 : Register).val + 0x0A := by
    decide +kernel
  have still : ∀ t ∈ during, t.after.waiting = true := by decide +kernel
  have pressed : LastPress during 9 :=
    ⟨w.path [.key 7 true, .key 2 true], ⟨w.perform [.key 7 true, .key 2 true], .key 9 true⟩,
      (w.perform [.key 7 true, .key 2 true, .key 9 true]).path [.key 9 false, .interrupt, .resume, .drop],
      rfl, by decide +kernel, by decide +kernel⟩
  obtain ⟨-, -, h⟩ := wait_ends_by_press m history split rfl idle word
  obtain ⟨-, ends, takes, -⟩ := h during next [] rfl rfl still
  obtain ⟨hpc, hv⟩ := takes 9 pressed
  refine ⟨_, _, during, next, split, rfl, idle, word, rfl, still, pressed, ends.2 ⟨9, pressed⟩, ?_, ?_⟩
  · rw [hpc]
    decide +kernel
  · rw [hv 3]
    rfl

end Machine

end ChipEight
