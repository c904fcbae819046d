import ChipEight.Machine.Event
import ChipEight.Proofs.Execution
import ChipEight.Proofs.Pattern
import Mathlib.Data.List.DropRight

/-!
# Moments of a history

An event may do a lot: a run is any number of cycles. Here a history is taken apart into its
smallest pieces, the `Move`s, each noted with the machine that it finds: a `Moment`. Whatever is
said about "every cycle of a history" is said about its moments.

`perform_moves` and `records_moments` say that nothing is lost: the moves of a history lead to the
machine that the history leads to, and they note what it notes. So a property that no move breaks
holds of every machine that can be reached (`Reachable.induction`).
-/

namespace ChipEight

/-- The smallest things that happen to a machine. -/
inductive Move
  /-- A program is offered; it may be too long. -/
  | load (program : List UInt8)
  /-- A cycle. -/
  | cycle
  /-- A tick of the timer clock. -/
  | tick
  /-- A key goes down or up. -/
  | key (key : Key) (down : Bool)
  /-- All keys go up. -/
  | clearKeys
  /-- The machine is asked to stop. -/
  | interrupt
  /-- A request to stop is taken. -/
  | resume
  /-- A request to stop is dropped, because a step was asked for. -/
  | drop
  deriving DecidableEq, Repr

/-- A program is offered that fits, so that the machine starts anew. -/
def Move.reloads : Move → Bool
  | .load program => program.length ≤ programLimit
  | _ => false

/-- A machine, and what happens to it next. -/
structure Moment where
  /-- The machine. -/
  before : Machine
  /-- What happens to it. -/
  move : Move

namespace Machine

/-- The machine after a move. -/
def make (m : Machine) : Move → Machine
  | .load program => (m.load program).machine
  | .cycle => m.cycle.machine
  | .tick => m.tick
  | .key k down => m.setKey k down
  | .clearKeys => m.clearKeys
  | .interrupt => m.interrupt
  | .resume => m.resume
  | .drop => m.resume

/-- What a machine notes during a move. -/
def noted (m : Machine) : Move → List Record
  | .load program => (m.load program).records
  | .cycle => m.cycle.records
  | .drop => if m.interrupted then [.interruptDropped] else []
  | _ => []

/-- The machine after some moves. -/
def perform (m : Machine) : List Move → Machine
  | [] => m
  | move :: rest => (m.make move).perform rest

/-- Moves, each with the machine that it finds. -/
def path (m : Machine) : List Move → List Moment
  | [] => []
  | move :: rest => ⟨m, move⟩ :: (m.make move).path rest

/-- The moves of a run: cycles, until one fails, ends the program or begins to wait, or until a
request to stop is found. -/
def runMoves : Nat → Machine → List Move
  | 0, _ => []
  | n + 1, m =>
    if m.interrupted then [.resume]
    else
      .cycle ::
        match m.cycle with
        | ⟨after, _, .ok (some _)⟩ => if after.waiting then [] else runMoves n after
        | _ => []

/-- The moves that an event consists of. -/
def movesOf (m : Machine) : Event → List Move
  | .load program => [.load program]
  | .step => [.drop, .cycle]
  | .run n => runMoves n m
  | .tick => [.tick]
  | .key k down => [.key k down]
  | .clearKeys => [.clearKeys]
  | .interrupt => [.interrupt]
  | .takeInterrupt => [.resume]

/-- The moves that a history consists of. -/
def moves (m : Machine) : List Event → List Move
  | [] => []
  | e :: rest => m.movesOf e ++ (m.apply e).machine.moves rest

/-- The moments of a history. -/
def moments (m : Machine) (history : List Event) : List Moment := m.path (m.moves history)

end Machine

namespace Moment

/-- The machine after the move. -/
def after (t : Moment) : Machine := t.before.make t.move

/-- What is noted during the move. -/
def records (t : Moment) : List Record := t.before.noted t.move

/-- The moments since a program was last loaded: all of them, if none ever was. -/
def sinceLoad (past : List Moment) : List Moment := past.rtakeWhile fun t => !t.move.reloads

theorem sinceLoad_concat (past : List Moment) (t : Moment) :
    sinceLoad (past ++ [t]) = if t.move.reloads then [] else sinceLoad past ++ [t] := by
  rw [sinceLoad, List.rtakeWhile_concat]
  cases t.move.reloads <;> rfl

/-- The instruction that the move executes, if it is a cycle that comes to one and does not fail. -/
def executed? (t : Moment) : Option Instruction :=
  match t.move with
  | .cycle =>
    match t.before.cycle.answer with
    | .ok instruction => instruction
    | .error _ => none
  | _ => none

/-- The register `x`, if the move executes a word whose first digit is `F`, whose second one is `x`, and whose
last two are given. -/
def register? (digits : UInt8) (t : Moment) : Option Register :=
  match t.executed? with
  | some i => if i.word.family = 0xF ∧ i.word.byte = digits then some i.word.x else none
  | none => none

/-- What it means that a moment executes an instruction: the move is a cycle, the instruction is the
one at the program counter, and the machine after the move is what executing it gives. -/
theorem exists_of_executed {t : Moment} {i : Instruction} (h : t.executed? = some i) :
    t.move = .cycle ∧ i = ⟨t.before.pc, t.before.memory.fetch t.before.pc, i.op⟩ ∧
      t.before.next? = some i.op ∧
      ∃ records, (t.before.goto (Address.next t.before.pc)).execute t.before.pc i.op =
        ⟨t.after, records, .ok ()⟩ := by
  obtain ⟨m, move⟩ := t
  cases move with
  | cycle =>
    rcases m.cycle_cases with ⟨-, hc⟩ | ⟨op, n, records, hop, he, hc⟩ | ⟨op, fault, -, -, hc⟩
    · simp [executed?, hc] at h
    · simp only [executed?, hc, Option.some.injEq] at h
      subst h
      exact ⟨rfl, rfl, hop, records, by simpa [after, Machine.make, hc] using he⟩
    · simp [executed?, hc] at h
  | _ => simp [executed?] at h

/-- Executing the instruction gives what the move notes, too. -/
theorem execute_of_executed {t : Moment} {i : Instruction} (h : t.executed? = some i) :
    (t.before.goto (Address.next t.before.pc)).execute t.before.pc i.op = ⟨t.after, t.records, .ok ()⟩ := by
  obtain ⟨m, move⟩ := t
  obtain ⟨rfl, -, next, records, executed⟩ := exists_of_executed h
  have noted : Moment.records ⟨m, .cycle⟩ = records :=
    congrArg Outcome.records (Machine.cycle_of_execute_ok next executed)
  rw [noted]
  exact executed

/-- An instruction is executed just if its word has the pattern of its row. -/
theorem op_eq_iff {t : Moment} {i : Instruction} (h : t.executed? = some i) {op : Op}
    (listed : op.Listed) : i.op = op ↔ i.word.toNat = op.pattern := by
  obtain ⟨-, hi, next, -⟩ := exists_of_executed h
  have word : i.word = t.before.memory.fetch t.before.pc := by rw [hi]
  have decoded : Op.decode i.word = some i.op := by rw [word]; exact next
  have row := Op.decode_eq_some_iff_pattern (w := i.word) listed
  rw [decoded, Option.some.injEq] at row
  exact row.trans eq_comm

/-- A move executes such a word just if it executes the instruction that has it as its pattern. -/
theorem register?_eq_some_iff {t : Moment} {digits : UInt8} {x : Register} {op : Op} (listed : op.Listed)
    (hp : op.pattern = 0xF000 + 0x100 * (x : Nat) + digits.toNat) :
    t.register? digits = some x ↔ ∃ i, t.executed? = some i ∧ i.op = op := by
  rw [register?]
  cases he : t.executed? with
  | none => simp
  | some i =>
    simp only [Option.some.injEq, exists_eq_left', Option.ite_none_right_eq_some, op_eq_iff he listed, hp]
    constructor
    · rintro ⟨⟨family, byte⟩, rfl⟩
      rw [← byte, Op.toNat_eq_byte i.word, family]
    · intro word
      obtain ⟨family, same, byte⟩ := Op.fields_of_byte (c := 0xF) word
      exact ⟨⟨family, byte⟩, same⟩

/-- What it means that a move executes such a word. -/
theorem execute_of_register? {t : Moment} {digits : UInt8} {x : Register} {op : Op} (listed : op.Listed)
    (hp : op.pattern = 0xF000 + 0x100 * (x : Nat) + digits.toNat) (h : t.register? digits = some x) :
    t.move = .cycle ∧ ∃ records,
      (t.before.goto (Address.next t.before.pc)).execute t.before.pc op = ⟨t.after, records, .ok ()⟩ := by
  obtain ⟨i, executed, rfl⟩ := (register?_eq_some_iff listed hp).1 h
  obtain ⟨cycle, -, -, done⟩ := exists_of_executed executed
  exact ⟨cycle, done⟩

/-- A cycle executes the instruction that the machine has before it, unless this is a call or a return, which may
fail. -/
theorem executed_of_fetch {t : Moment} {op : Op} (listed : op.Listed) (hm : t.move = .cycle)
    (word : (t.before.memory.fetch t.before.pc).toNat = op.pattern) (ret : op ≠ .ret) (call : ∀ a, op ≠ .call a) :
    t.executed? = some ⟨t.before.pc, t.before.memory.fetch t.before.pc, op⟩ := by
  obtain ⟨m, move⟩ := t
  cases hm
  have next : m.next? = some op := (Op.decode_eq_some_iff_pattern listed).2 word.symm
  rcases he : (m.goto (Address.next m.pc)).execute m.pc op with ⟨n, records, fault | ⟨⟩⟩
  · rcases Machine.answer_execute_eq_error_iff.1 (congrArg Outcome.answer he) with
      ⟨op_ret, -⟩ | ⟨⟨a, op_call⟩, -⟩
    · exact absurd op_ret ret
    · exact absurd op_call (call a)
  · simp only [executed?, Machine.cycle_of_execute_ok next he]

/-- A cycle that executes nothing changes nothing and notes nothing. -/
theorem cycle_of_executed_none {m : Machine} (h : executed? ⟨m, .cycle⟩ = none) :
    m.cycle.machine = m ∧ m.cycle.records = [] := by
  rcases m.cycle_cases with ⟨-, hc⟩ | ⟨op, n, records, hop, he, hc⟩ | ⟨op, fault, -, -, hc⟩
  · simp [hc]
  · simp [executed?, hc] at h
  · simp [hc]

theorem after_of_executed_none {t : Moment} (hm : t.move = .cycle) (h : t.executed? = none) :
    t.after = t.before := by
  obtain ⟨m, move⟩ := t
  cases hm
  exact (cycle_of_executed_none h).1

theorem records_of_executed_none {t : Moment} (hm : t.move = .cycle) (h : t.executed? = none) :
    t.records = [] := by
  obtain ⟨m, move⟩ := t
  cases hm
  exact (cycle_of_executed_none h).2

end Moment

/-! ### Since something happened -/

/-- Something happened, and nothing else has happened since than what is allowed. -/
def Since {α : Type} (happened allowed : α → Prop) (past : List α) : Prop :=
  ∃ old a new, past = old ++ a :: new ∧ happened a ∧ ∀ b ∈ new, allowed b

/-- It happened last, or it happened before and what came last is allowed. -/
theorem since_concat {α : Type} {happened allowed : α → Prop} {past : List α} {a : α} :
    Since happened allowed (past ++ [a]) ↔ happened a ∨ allowed a ∧ Since happened allowed past := by
  constructor
  · rintro ⟨old, b, new, split, h, since⟩
    rcases List.eq_nil_or_concat new with rfl | ⟨new, c, rfl⟩
    · obtain ⟨-, hb⟩ := List.append_inj' split rfl
      rw [List.cons.injEq] at hb
      exact Or.inl (hb.1 ▸ h)
    · rw [List.concat_eq_append] at since
      rw [List.concat_eq_append, ← List.cons_append, ← List.append_assoc] at split
      obtain ⟨rfl, hc⟩ := List.append_inj' split rfl
      rw [List.cons.injEq] at hc
      refine Or.inr ⟨hc.1 ▸ since c (by simp), old, b, new, rfl, h, fun d hd => ?_⟩
      exact since d (List.mem_append_left _ hd)
  · rintro (h | ⟨last, old, b, new, rfl, h, since⟩)
    · exact ⟨past, a, [], rfl, h, fun b hb => absurd hb List.not_mem_nil⟩
    · refine ⟨old, b, new ++ [a], by simp, h, fun c hc => ?_⟩
      rcases List.mem_append.1 hc with hc | hc
      · exact since c hc
      · rwa [List.mem_singleton.1 hc]

theorem not_since_nil {α : Type} {happened allowed : α → Prop} : ¬ Since happened allowed [] := by
  rintro ⟨old, a, new, split, -⟩
  simp at split

namespace Machine

/-! ### Loading -/

/-- A program that fits makes the machine start anew. -/
theorem make_of_reloads {m : Machine} {move : Move} (h : move.reloads = true) :
    ∃ program, move = .load program ∧ m.make move = m.restart program := by
  cases move with
  | load program =>
    have fits : ¬ programLimit < program.length := by simpa [Move.reloads] using h
    exact ⟨program, rfl, by rw [make, load, if_neg fits]⟩
  | _ => cases h

/-- A program that does not fit changes nothing. -/
theorem make_load {m : Machine} {program : List UInt8} (h : (Move.load program).reloads = false) :
    m.make (.load program) = m := by
  have big : programLimit < program.length := by simpa [Move.reloads] using h
  rw [make, load, if_pos big]

/-! ### Cutting paths -/

theorem perform_append (m : Machine) (past future : List Move) :
    m.perform (past ++ future) = (m.perform past).perform future := by
  induction past generalizing m with
  | nil => rfl
  | cons move past ih => exact ih (m.make move)

theorem perform_append_cons (m : Machine) (past : List Move) (move : Move) (future : List Move) :
    m.perform (past ++ move :: future) = (Moment.after ⟨m.perform past, move⟩).perform future :=
  perform_append m past (move :: future)

theorem path_append (m : Machine) (past future : List Move) :
    m.path (past ++ future) = m.path past ++ (m.perform past).path future := by
  induction past generalizing m with
  | nil => rfl
  | cons move past ih => exact congrArg (⟨m, move⟩ :: ·) (ih (m.make move))

theorem perform_concat (m : Machine) (moves : List Move) (move : Move) :
    m.perform (moves ++ [move]) = Moment.after ⟨m.perform moves, move⟩ :=
  perform_append m moves [move]

theorem path_concat (m : Machine) (moves : List Move) (move : Move) :
    m.path (moves ++ [move]) = m.path moves ++ [⟨m.perform moves, move⟩] :=
  path_append m moves [move]

/-- A path cut at one of its moments is a cut of its moves. -/
theorem exists_of_path_eq {m : Machine} {moves : List Move} {past future : List Moment} {t : Moment}
    (h : m.path moves = past ++ t :: future) :
    ∃ old new, moves = old ++ t.move :: new ∧ past = m.path old ∧ t.before = m.perform old ∧
      future = t.after.path new := by
  induction past generalizing m moves with
  | nil =>
    cases moves with
    | nil => simp [path] at h
    | cons move rest =>
      simp only [path, List.nil_append, List.cons.injEq] at h
      obtain ⟨rfl, rfl⟩ := h
      exact ⟨[], rest, rfl, rfl, rfl, rfl⟩
  | cons s past ih =>
    cases moves with
    | nil => simp [path] at h
    | cons move rest =>
      simp only [path, List.cons_append, List.cons.injEq] at h
      obtain ⟨rfl, h⟩ := h
      obtain ⟨old, new, rfl, rfl, hb, hf⟩ := ih h
      exact ⟨move :: old, new, rfl, rfl, hb, hf⟩

/-! ### Nothing is lost -/

theorem perform_runMoves (n : Nat) (m : Machine) :
    m.perform (runMoves n m) = (m.run n).machine := by
  induction n generalizing m with
  | zero => rfl
  | succ n ih =>
    rw [run_succ, runMoves]
    split
    · rfl
    · rw [perform, make]
      split
      · next after _ _ hc =>
        rw [hc]
        dsimp only
        split
        · rfl
        · exact ih after
      · next hc =>
        rcases h : m.cycle with ⟨after, records, _ | _ | i⟩
        · rfl
        · rfl
        · exact absurd h (hc _ _ _)

theorem records_runMoves (n : Nat) (m : Machine) :
    (m.path (runMoves n m)).flatMap Moment.records = (m.run n).records := by
  induction n generalizing m with
  | zero => rfl
  | succ n ih =>
    rw [run_succ, runMoves]
    split
    · rfl
    · rw [path, List.flatMap_cons, Moment.records, noted, make]
      split
      · next after _ _ hc =>
        rw [hc]
        dsimp only
        split
        · simp [path]
        · rw [ih after]
      · next hc =>
        rcases h : m.cycle with ⟨after, records, _ | _ | i⟩
        · simp [path]
        · simp [path]
        · exact absurd h (hc _ _ _)

theorem perform_movesOf (m : Machine) (e : Event) : m.perform (m.movesOf e) = (m.apply e).machine := by
  cases e with
  | step => exact (machine_step m).symm
  | run n => exact perform_runMoves n m
  | _ => rfl

theorem records_movesOf (m : Machine) (e : Event) :
    (m.path (m.movesOf e)).flatMap Moment.records = (m.apply e).records := by
  cases e with
  | step =>
    simp only [movesOf, path, List.flatMap_cons, List.flatMap_nil, List.append_nil, Moment.records,
      noted, make, apply, Outcome.map, step]
    split <;> rfl
  | run n => exact records_runMoves n m
  | load program => simp [movesOf, path, Moment.records, noted, apply, Outcome.map]
  | _ => rfl

/-- The moments of a history are those of its first event, and then those of the rest. -/
theorem moments_cons (m : Machine) (e : Event) (rest : List Event) :
    m.moments (e :: rest) = m.path (m.movesOf e) ++ (m.apply e).machine.moments rest := by
  rw [moments, moves, path_append, perform_movesOf]
  rfl

/-- A cut of the moves of a history is a cut of its moments. -/
theorem moments_of_moves {m : Machine} {history : List Event} {past future : List Move} {move : Move}
    (h : m.moves history = past ++ move :: future) :
    m.moments history =
      m.path past ++ ⟨m.perform past, move⟩ :: (Moment.after ⟨m.perform past, move⟩).path future := by
  rw [moments, h, path_append]
  rfl

/-- The moves of a history lead where the history leads. -/
theorem perform_moves (m : Machine) (history : List Event) :
    m.perform (m.moves history) = m.after history := by
  induction history generalizing m with
  | nil => rfl
  | cons e rest ih => rw [moves, perform_append, perform_movesOf, ih, after_cons]

/-- What the moments of a history note is what the history notes. -/
theorem records_moments (m : Machine) (history : List Event) :
    (m.moments history).flatMap Moment.records = (m.replay history).records := by
  induction history generalizing m with
  | nil => rfl
  | cons e rest ih =>
    rw [moments, moves, path_append, List.flatMap_append, records_movesOf, perform_movesOf]
    exact congrArg ((m.apply e).records ++ ·) (ih (m.apply e).machine)

/-! ### Machines that can be reached -/

/-- A machine that was switched on and has a history. -/
def Reachable (m : Machine) : Prop :=
  ∃ config chance history, m = (create config chance).after history

/-- What is done to a reachable machine leads to a reachable one. -/
theorem Reachable.apply {m : Machine} (h : m.Reachable) (e : Event) : (m.apply e).machine.Reachable := by
  obtain ⟨config, chance, history, rfl⟩ := h
  exact ⟨config, chance, history ++ [e], by rw [after_append]; rfl⟩

/-- What no move of a path breaks is not broken by the path. -/
theorem path_induction {P : Machine → Prop} {m : Machine} {moves : List Move} (h : P m)
    (kept : ∀ t ∈ m.path moves, P t.before → P t.after) : P (m.perform moves) := by
  induction moves generalizing m with
  | nil => exact h
  | cons move rest ih =>
    rw [path, List.forall_mem_cons] at kept
    exact ih (kept.1 h) kept.2

/-- What every move of a path leaves as it is, is at the end as it was. -/
theorem path_frame {α : Type} (f : Machine → α) {m : Machine} {moves : List Move}
    (kept : ∀ t ∈ m.path moves, f t.after = f t.before) : f (m.perform moves) = f m :=
  path_induction (P := fun n => f n = f m) rfl fun t ht same => (kept t ht).trans same

/-- What no move breaks is not broken by many. -/
theorem perform_induction {P : Machine → Prop} (kept : ∀ m move, P m → P (m.make move)) {m : Machine}
    (h : P m) (moves : List Move) : P (m.perform moves) :=
  path_induction h fun t _ => kept t.before t.move

/-- **What holds of every new machine, and no move breaks, holds of every reachable one.** -/
theorem Reachable.induction {P : Machine → Prop} (created : ∀ config chance, P (create config chance))
    (kept : ∀ m move, P m → P (m.make move)) {m : Machine} (h : m.Reachable) : P m := by
  obtain ⟨config, chance, history, rfl⟩ := h
  rw [← perform_moves]
  exact perform_induction kept (created config chance) _

end Machine

end ChipEight
