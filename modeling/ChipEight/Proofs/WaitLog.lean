import ChipEight.Proofs.Countdown
import ChipEight.Proofs.Hexadecimal
import ChipEight.Proofs.KeyWait

/-!
# The log brackets the waits

A machine notes where a wait for a key begins, and which key ends it. The two notes come from different cycles of one
and the same instruction, and in between there may be any number of cycles, key events, ticks, runs and requests to
stop. A move begins a wait, ends one, or does neither, and it notes just that (`Moment.wait_cases`). So, from the
last load on, the notes take turns, the last one tells whether the machine waits, and the address in it is where the
program counter stands (`Bracketed`).

The other thing that a cycle may note is a word outside the instruction set, and it is the only one that is logged as
a warning. There is one such warning for each cycle that passes over such a word (`warnings_notedSinceLoad`).
-/

namespace ChipEight

open List

/-- A program was loaded. -/
def Record.isLoad : Record → Bool
  | loaded _ => true
  | _ => false

/-- A wait began or ended. -/
def Record.isWait : Record → Bool
  | waiting _ | resumed _ => true
  | _ => false

theorem Key.text_inj {j k : Key} (h : j.text = k.text) : j = k := by
  revert j k
  decide

/-- What is logged when a wait begins or ends tells what was noted. -/
theorem Record.eq_of_entry {r s : Record} (wait : r.isWait = true) (h : s.entry = r.entry) : s = r := by
  -- no two kinds of records begin with the same letter
  have letter := congrArg (fun e => e.message.toList.head?) h
  cases r with
  | waiting a =>
    cases s with
    | waiting b =>
      rw [entry, entry, Entry.mk.injEq, String.append_right_inj] at h
      rw [Hex.numeral_inj h.2]
    | _ => simp [entry] at letter
  | resumed k =>
    cases s with
    | resumed j =>
      rw [entry, entry, Entry.mk.injEq, String.append_left_inj, String.append_right_inj] at h
      rw [Key.text_inj h.2]
    | _ => simp [entry] at letter
  | _ => cases wait

/-- What was noted since the last load. -/
def notedSinceLoad (past : List Moment) : List Record := (Moment.sinceLoad past).flatMap Moment.records

/-- What was noted about waits since the last load. -/
def waitsNoted (past : List Moment) : List Record := (notedSinceLoad past).filter Record.isWait

/-- Notes about waits take turns: a wait begins, a key ends it, and so on. -/
def TakeTurns (notes : List Record) : Prop :=
  ∀ i r, notes[i]? = some r → if i % 2 = 0 then ∃ a, r = .waiting a else ∃ k, r = .resumed k

theorem takeTurns_concat {notes : List Record} {r : Record} (h : TakeTurns notes)
    (turn : if notes.length % 2 = 0 then ∃ a, r = .waiting a else ∃ k, r = .resumed k) :
    TakeTurns (notes ++ [r]) := by
  intro i s hs
  rcases Nat.lt_trichotomy i notes.length with inside | rfl | outside
  · rw [getElem?_append_left inside] at hs
    exact h i s hs
  · rw [getElem?_concat_length, Option.some.injEq] at hs
    exact hs ▸ turn
  · rw [getElem?_eq_none (by rw [length_append]; exact outside)] at hs
    cases hs

/-- What a machine has noted about waits is right. -/
structure Machine.Bracketed (m : Machine) (past : List Moment) : Prop where
  /-- The notes take turns, and the first one says that a wait began. -/
  turns : TakeTurns (waitsNoted past)
  /-- The machine waits just if the last one says that a wait began. -/
  waiting : m.waiting = true ↔ ∃ a, (waitsNoted past).getLast? = some (.waiting a)
  /-- While it waits, the program counter is at the address in that note. -/
  address : m.waiting = true → (waitsNoted past).getLast? = some (.waiting m.pc)

/-- An even number of notes means that the machine does not wait. -/
theorem Machine.Bracketed.idle_iff {m : Machine} {past : List Moment} (h : m.Bracketed past) :
    m.waiting = false ↔ (waitsNoted past).length % 2 = 0 := by
  have waits := h.waiting
  rcases eq_nil_or_concat (waitsNoted past) with empty | ⟨notes, r, ends⟩
  · simpa [empty] using waits
  · rw [concat_eq_append] at ends
    have turn := h.turns notes.length r (by rw [ends, getElem?_concat_length])
    rw [ends, getLast?_concat] at waits
    rw [ends, length_append, length_singleton]
    split at turn
    · next even =>
      obtain ⟨a, rfl⟩ := turn
      simp only [waits.2 ⟨a, rfl⟩, Bool.true_eq_false, false_iff]
      omega
    · next odd =>
      obtain ⟨k, rfl⟩ := turn
      have idle : ¬ m.waiting = true := fun on => by
        obtain ⟨a, same⟩ := waits.1 on
        cases same
      simp only [Bool.eq_false_iff.2 idle, true_iff]
      omega

/-! ### One more moment -/

theorem notedSinceLoad_concat (past : List Moment) (t : Moment) :
    notedSinceLoad (past ++ [t]) = if t.move.reloads then [] else notedSinceLoad past ++ t.records := by
  rw [notedSinceLoad, Moment.sinceLoad_concat]
  split
  · rfl
  · rw [flatMap_append, flatMap_singleton]
    rfl

theorem waitsNoted_concat (past : List Moment) (t : Moment) :
    waitsNoted (past ++ [t]) =
      if t.move.reloads then [] else waitsNoted past ++ t.records.filter Record.isWait := by
  rw [waitsNoted, notedSinceLoad_concat]
  split
  · rfl
  · exact filter_append _ _

/-- What an instruction notes, unless it waits. -/
def Op.remarks (address : Address) : Op → List Record
  | unknown w => [.unknown w address]
  | _ => []

theorem Op.isWait_of_remarks {op : Op} {a : Address} {r : Record} (h : r ∈ op.remarks a) : r.isWait = false := by
  cases op with
  | unknown w =>
    rw [mem_singleton.1 h]
    rfl
  | _ => cases h

theorem Machine.records_of_execute {m n : Machine} {a : Address} {op : Op} {records : List Record}
    (h : m.execute a op = ⟨n, records, .ok ()⟩) (other : ∀ x, op ≠ .awaitKey x) : records = op.remarks a := by
  cases op with
  | awaitKey x => exact absurd rfl (other x)
  | ret | call _ =>
    simp only [execute] at h
    split at h <;> cases h
    rfl
  | _ =>
    cases h
    rfl

/-- An instruction that waits notes only that a wait began or ended. -/
theorem Machine.isWait_of_awaitKey {m n : Machine} {a : Address} {x : Register} {records : List Record}
    (h : m.execute a (.awaitKey x) = ⟨n, records, .ok ()⟩) : ∀ r ∈ records, r.isWait = true := by
  simp only [execute, awaitKey_eq] at h
  split at h <;> cases h <;> simp [Record.isWait]

namespace Moment

/-- The move begins a wait. -/
structure BeginsWait (t : Moment) : Prop where
  idle : t.before.waiting = false
  waits : t.after.waiting = true
  stays : t.after.pc = t.before.pc
  noted : t.records = [.waiting t.before.pc]

/-- The move ends a wait by the press of a key, whose number goes into the register that the instruction names. -/
structure EndsWait (t : Moment) (k : Key) : Prop where
  waited : t.before.waiting = true
  goesOn : t.after.waiting = false
  stored : ∃ x, t.register? 0x0A = some x ∧ (t.after.registers.get x).toNat = k
  noted : t.records = [.resumed k]

/-- The move neither begins nor ends a wait. -/
structure KeepsWait (t : Moment) : Prop where
  same : t.after.waiting = t.before.waiting
  stays : t.before.waiting = true → t.after.pc = t.before.pc
  silent : ∀ r ∈ t.records, r.isWait = false

theorem records_of_reloads {t : Moment} (h : t.move.reloads = true) : ∃ n, t.records = [.loaded n] := by
  obtain ⟨m, move⟩ := t
  cases move with
  | load program =>
    have fits : program.length ≤ programLimit := by simpa [Move.reloads] using h
    exact ⟨program.length, congrArg Outcome.records (m.load_of_fits fits)⟩
  | _ => cases h

/-- **What a move notes**: a load that is not refused, a request to stop that is dropped, what an instruction notes, or
nothing. -/
theorem records_cases (t : Moment) :
    (∃ n, t.move.reloads = true ∧ t.records = [.loaded n]) ∨
      (t.move = .drop ∧ t.records = [.interruptDropped]) ∨
      (∃ i, t.executed? = some i) ∨ t.records = [] := by
  obtain ⟨m, move⟩ := t
  cases move with
  | load program =>
    cases reloads : (Move.load program).reloads with
    | true =>
      obtain ⟨n, loaded⟩ := records_of_reloads (t := ⟨m, .load program⟩) reloads
      exact Or.inl ⟨n, rfl, loaded⟩
    | false =>
      have big : programLimit < program.length := by simpa [Move.reloads] using reloads
      exact Or.inr (Or.inr (Or.inr (congrArg Outcome.records (if_pos big))))
  | cycle =>
    cases he : executed? ⟨m, .cycle⟩ with
    | none => exact Or.inr (Or.inr (Or.inr (records_of_executed_none rfl he)))
    | some i => exact Or.inr (Or.inr (Or.inl ⟨i, rfl⟩))
  | drop =>
    cases asked : m.interrupted with
    | true => exact Or.inr (Or.inl ⟨rfl, by simp [records, Machine.noted, asked]⟩)
    | false => exact Or.inr (Or.inr (Or.inr (by simp [records, Machine.noted, asked])))
  | _ => exact Or.inr (Or.inr (Or.inr rfl))

/-- Only a cycle notes anything about waits. -/
theorem isWait_of_not_cycle {t : Moment} (other : t.move ≠ .cycle) : ∀ r ∈ t.records, r.isWait = false := by
  rcases t.records_cases with ⟨n, -, loaded⟩ | ⟨-, dropped⟩ | ⟨i, executed⟩ | silent
  · simp [loaded, Record.isWait]
  · simp [dropped, Record.isWait]
  · exact absurd (exists_of_executed executed).1 other
  · simp [silent]

/-- A cycle of a machine that waits ends the wait or keeps it. -/
theorem wait_cases_of_waiting {m : Machine} (awaits : m.Awaits) (waiting : m.waiting = true) :
    (∃ k, EndsWait ⟨m, .cycle⟩ k) ∨ KeepsWait ⟨m, .cycle⟩ := by
  obtain ⟨x, hx⟩ := awaits waiting
  have hc := Machine.cycle_of_waiting hx waiting
  cases latched : m.keypad.latched with
  | none =>
    rw [latched] at hc
    have same : after ⟨m, .cycle⟩ = m := congrArg Outcome.machine hc
    have silent : records ⟨m, .cycle⟩ = [] := congrArg Outcome.records hc
    exact Or.inr ⟨by rw [same], fun _ => by rw [same], by simp [silent]⟩
  | some k =>
    rw [latched] at hc
    have executed : executed? ⟨m, .cycle⟩ = some (m.here (.awaitKey x)) := by simp only [executed?, hc]
    have register : register? 0x0A ⟨m, .cycle⟩ = some x :=
      (register?_eq_some_iff (show (Op.awaitKey x).Listed from trivial) rfl).2 ⟨_, executed, rfl⟩
    refine Or.inl ⟨k, waiting, ?_, ⟨x, register, ?_⟩, congrArg Outcome.records hc⟩
    · rw [after, Machine.make, hc]
    · rw [after, Machine.make, hc, Registers.get_set, if_pos rfl, Key.toNat_toByte]

/-- A cycle of a machine that does not wait begins a wait or does not. -/
theorem wait_cases_of_idle {m : Machine} (idle : m.waiting = false) :
    BeginsWait ⟨m, .cycle⟩ ∨ KeepsWait ⟨m, .cycle⟩ := by
  cases he : executed? ⟨m, .cycle⟩ with
  | none =>
    have same := after_of_executed_none rfl he
    exact Or.inr ⟨by rw [same], fun _ => by rw [same], by simp [records_of_executed_none rfl he]⟩
  | some i =>
    by_cases await : ∃ x, i.op = .awaitKey x
    · obtain ⟨x, op⟩ := await
      obtain ⟨-, -, next, -⟩ := exists_of_executed he
      rw [op] at next
      have hc := Machine.cycle_of_not_waiting next idle
      exact Or.inl ⟨idle, congrArg (·.machine.waiting) hc, congrArg (·.machine.pc) hc,
        congrArg Outcome.records hc⟩
    · have other : ∀ x, i.op ≠ .awaitKey x := fun x op => await ⟨x, op⟩
      have executed := execute_of_executed he
      have same : (after ⟨m, .cycle⟩).waiting = m.waiting := by
        refine Machine.execute_frame (p := .waiting) executed ?_
        cases op : i.op <;> first | rfl | exact absurd op (other _)
      refine Or.inr ⟨same, fun waiting => ?_, ?_⟩
      · rw [idle] at waiting
        cases waiting
      · rw [Machine.records_of_execute executed other]
        exact fun r => Op.isWait_of_remarks

/-- **A move begins a wait, ends one, or does neither**, unless it makes the machine start anew. -/
theorem wait_cases {t : Moment} (awaits : t.before.Awaits) (quiet : t.move.reloads = false) :
    t.BeginsWait ∨ (∃ k, t.EndsWait k) ∨ t.KeepsWait := by
  obtain ⟨m, move⟩ := t
  cases move with
  | cycle =>
    cases waiting : m.waiting with
    | true => exact Or.inr (wait_cases_of_waiting awaits waiting)
    | false => exact (wait_cases_of_idle waiting).imp_right Or.inr
  | load program =>
    have same : after ⟨m, .load program⟩ = m := Machine.make_load quiet
    exact Or.inr (Or.inr ⟨by rw [same], fun _ => by rw [same], isWait_of_not_cycle (by simp)⟩)
  | _ => exact Or.inr (Or.inr ⟨rfl, fun _ => rfl, isWait_of_not_cycle (by simp)⟩)

/-- Only a move that ends a wait notes a key. -/
theorem endsWait_of_mem {t : Moment} {k : Key} (awaits : t.before.Awaits) (noted : .resumed k ∈ t.records) :
    t.EndsWait k := by
  cases reloads : t.move.reloads with
  | true =>
    obtain ⟨n, loaded⟩ := records_of_reloads reloads
    simp [loaded] at noted
  | false =>
    rcases wait_cases awaits reloads with begins | ⟨j, ends⟩ | keeps
    · simp [begins.noted] at noted
    · rw [ends.noted, mem_singleton, Record.resumed.injEq] at noted
      exact noted ▸ ends
    · cases keeps.silent _ noted

end Moment

namespace Machine

section

variable {t : Moment} {past : List Moment}

/-- After a load, nothing is noted about waits. -/
theorem bracketed_of_reloads (reloads : t.move.reloads = true) : t.after.Bracketed (past ++ [t]) := by
  obtain ⟨program, -, restarted⟩ := make_of_reloads (m := t.before) reloads
  have empty : waitsNoted (past ++ [t]) = [] := by rw [waitsNoted_concat, if_pos reloads]
  have idle : t.after.waiting = false := congrArg Machine.waiting restarted
  refine ⟨fun i r hr => ?_, by simp [idle, empty], by simp [idle]⟩
  rw [empty] at hr
  cases hr

theorem waitsNoted_of_quiet (past : List Moment) (quiet : t.move.reloads = false) :
    waitsNoted (past ++ [t]) = waitsNoted past ++ t.records.filter Record.isWait := by
  rw [waitsNoted_concat, quiet, if_neg Bool.false_ne_true]

theorem Bracketed.begins (h : t.before.Bracketed past) (quiet : t.move.reloads = false) (begins : t.BeginsWait) :
    t.after.Bracketed (past ++ [t]) := by
  have noted : waitsNoted (past ++ [t]) = waitsNoted past ++ [.waiting t.before.pc] := by
    rw [waitsNoted_of_quiet past quiet, begins.noted]
    rfl
  have last : (waitsNoted (past ++ [t])).getLast? = some (.waiting t.before.pc) := by
    rw [noted, getLast?_concat]
  refine ⟨?_, ⟨fun _ => ⟨_, last⟩, fun _ => begins.waits⟩, fun _ => by rw [last, begins.stays]⟩
  rw [noted]
  exact takeTurns_concat h.turns (by rw [if_pos (h.idle_iff.1 begins.idle)]; exact ⟨_, rfl⟩)

theorem Bracketed.ends {k : Key} (h : t.before.Bracketed past) (quiet : t.move.reloads = false)
    (ends : t.EndsWait k) : t.after.Bracketed (past ++ [t]) := by
  have noted : waitsNoted (past ++ [t]) = waitsNoted past ++ [.resumed k] := by
    rw [waitsNoted_of_quiet past quiet, ends.noted]
    rfl
  have odd : ¬ (waitsNoted past).length % 2 = 0 := by simp [← h.idle_iff, ends.waited]
  refine ⟨?_, by simp [noted, ends.goesOn], by simp [ends.goesOn]⟩
  rw [noted]
  exact takeTurns_concat h.turns (by rw [if_neg odd]; exact ⟨_, rfl⟩)

theorem Bracketed.keeps (h : t.before.Bracketed past) (quiet : t.move.reloads = false) (keeps : t.KeepsWait) :
    t.after.Bracketed (past ++ [t]) := by
  have silent : t.records.filter Record.isWait = [] :=
    filter_eq_nil_iff.2 fun r hr => by simp [keeps.silent r hr]
  have same : waitsNoted (past ++ [t]) = waitsNoted past := by
    rw [waitsNoted_of_quiet past quiet, silent, append_nil]
  refine ⟨?_, ?_, fun waits => ?_⟩ <;> rw [same]
  · exact h.turns
  · rw [keeps.same]
    exact h.waiting
  · rw [keeps.same] at waits
    rw [keeps.stays waits]
    exact h.address waits

/-- What a machine notes about waits stays right with every move. -/
theorem Bracketed.after (h : t.before.Bracketed past) (awaits : t.before.Awaits) :
    t.after.Bracketed (past ++ [t]) := by
  cases reloads : t.move.reloads with
  | true => exact bracketed_of_reloads reloads
  | false =>
    rcases Moment.wait_cases awaits reloads with begins | ⟨k, ends⟩ | keeps
    · exact h.begins reloads begins
    · exact h.ends reloads ends
    · exact h.keeps reloads keeps

end

/-- A machine that does not wait when it is switched on waits only at `Fx0A`. -/
theorem awaits_perform {m : Machine} (idle : m.waiting = false) (moves : List Move) :
    (m.perform moves).Awaits := by
  refine perform_induction (P := Awaits) (fun _ move hm => awaits_make hm move) (fun waits => ?_) moves
  rw [idle] at waits
  cases waits

/-- **What a machine has noted about waits is right**, if it did not wait when it was switched on. -/
theorem bracketed_perform {m : Machine} (idle : m.waiting = false) (moves : List Move) :
    (m.perform moves).Bracketed (m.path moves) := by
  induction moves using List.reverseRecOn with
  | nil =>
    refine ⟨fun i r hr => ?_, ?_, ?_⟩
    · cases hr
    · simp [perform, idle, path, waitsNoted, notedSinceLoad, Moment.sinceLoad]
    · simp [perform, idle]
  | append_singleton moves move ih =>
    rw [perform_concat, path_concat]
    exact Bracketed.after (t := ⟨m.perform moves, move⟩) ih (awaits_perform idle moves)

end Machine

/-! ### Words outside the instruction set -/

/-- The word stands for no instruction. -/
def Instruction.isOutside (i : Instruction) : Bool := (Op.decode i.word).any Op.isUnknown

/-- What is logged when such a word is passed over. -/
def Instruction.warning (i : Instruction) : Entry :=
  ⟨.warn, "unknown opcode 0x" ++ String.ofList (Hex.digits 4 i.word.toNat) ++ " at 0x" ++
    Hex.numeral 3 i.address ++ ", skipping"⟩

/-- The words outside the instruction set that cycles passed over since the last load, with their addresses. -/
def passedOver (past : List Moment) : List Instruction :=
  ((Moment.sinceLoad past).filterMap Moment.executed?).filter Instruction.isOutside

/-- The warnings among what is logged. -/
def warnings (noted : List Record) : List Entry := (noted.map Record.entry).filter fun e => e.level = .warn

/-- Only a word outside the instruction set is a warning. -/
theorem Record.level_eq_warn_iff {r : Record} : r.entry.level = .warn ↔ ∃ w a, r = .unknown w a := by
  cases r <;> simp [entry]

theorem warnings_eq_nil {noted : List Record} (h : ∀ r ∈ noted, ∀ w a, r ≠ .unknown w a) :
    warnings noted = [] := by
  refine filter_eq_nil_iff.2 fun e he warn => ?_
  obtain ⟨r, hr, rfl⟩ := mem_map.1 he
  obtain ⟨w, a, unknown⟩ := Record.level_eq_warn_iff.1 (of_decide_eq_true warn)
  exact h r hr w a unknown

namespace Moment

/-- A move that executes nothing warns of nothing. -/
theorem warnings_of_executed_none {t : Moment} (h : t.executed? = none) : warnings t.records = [] := by
  rcases t.records_cases with ⟨n, -, loaded⟩ | ⟨-, dropped⟩ | ⟨i, executed⟩ | silent
  · simp [loaded, warnings, Record.entry]
  · simp [dropped, warnings, Record.entry]
  · rw [h] at executed
    cases executed
  · simp [silent, warnings]

/-- **A move warns just if it passes over a word outside the instruction set**, and it names the word and its
address. -/
theorem warnings_records (t : Moment) :
    warnings t.records = (t.executed?.toList.filter Instruction.isOutside).map Instruction.warning := by
  cases he : t.executed? with
  | none => exact warnings_of_executed_none he
  | some i =>
    obtain ⟨-, fetched, next, -⟩ := exists_of_executed he
    have executed := execute_of_executed he
    have decoded : Op.decode i.word = some i.op := by rw [fetched]; exact next
    have address : i.address = t.before.pc := by rw [fetched]
    have outside : i.isOutside = i.op.isUnknown := by rw [Instruction.isOutside, decoded, Option.any_some]
    cases op : i.op with
    | awaitKey x =>
      rw [op] at executed outside
      have silent : warnings t.records = [] := warnings_eq_nil fun r hr w a unknown => by
        have wait := Machine.isWait_of_awaitKey executed r hr
        simp [unknown, Record.isWait] at wait
      simp [silent, outside, Op.isUnknown]
    | unknown w =>
      have word : w = i.word := by
        rw [op] at decoded
        exact UInt16.toNat_inj.1 (Op.pattern_of_decode decoded)
      have noted : t.records = [.unknown i.word i.address] := by
        rw [Machine.records_of_execute executed (by simp [op]), op, word, address]
        rfl
      rw [op] at outside
      simp [noted, outside, Op.isUnknown, warnings, Record.entry, Instruction.warning]
    | _ =>
      have silent : t.records = [] := by
        rw [Machine.records_of_execute executed (by simp [op]), op]
        rfl
      rw [op] at outside
      simp [silent, outside, Op.isUnknown, warnings]

end Moment

/-- **There is a warning for each word outside the instruction set that is passed over**, in the same order. -/
theorem warnings_notedSinceLoad (past : List Moment) :
    warnings (notedSinceLoad past) = (passedOver past).map Instruction.warning := by
  calc warnings (notedSinceLoad past)
      = (Moment.sinceLoad past).flatMap fun t => warnings t.records := by
        rw [notedSinceLoad, warnings, map_flatMap, filter_flatMap]
        rfl
    _ = (Moment.sinceLoad past).flatMap fun t =>
          (t.executed?.toList.filter Instruction.isOutside).map Instruction.warning :=
        flatMap_congr fun t _ => t.warnings_records
    _ = (passedOver past).map Instruction.warning := by
        rw [passedOver, filterMap_eq_flatMap_toList, filter_flatMap, map_flatMap]

/-! ### The log of a history -/

theorem Machine.isLoad_of_execute {m n : Machine} {a : Address} {op : Op} {records : List Record}
    (h : m.execute a op = ⟨n, records, .ok ()⟩) : ∀ r ∈ records, r.isLoad = false := by
  intro r hr
  cases op with
  | awaitKey x =>
    have wait := isWait_of_awaitKey h r hr
    cases r <;> first | rfl | cases wait
  | unknown w =>
    rw [records_of_execute h (by simp)] at hr
    rw [mem_singleton.1 hr]
    rfl
  | _ =>
    rw [records_of_execute h (by simp)] at hr
    cases hr

/-- Only a load that is not refused is noted as one. -/
theorem Moment.isLoad_of_quiet {t : Moment} (quiet : t.move.reloads = false) :
    ∀ r ∈ t.records, r.isLoad = false := by
  rcases t.records_cases with ⟨n, reloads, -⟩ | ⟨-, dropped⟩ | ⟨i, executed⟩ | silent
  · rw [quiet] at reloads
    cases reloads
  · simp [dropped, Record.isLoad]
  · exact Machine.isLoad_of_execute (execute_of_executed executed)
  · simp [silent]

/-- What was noted since the last load stands in the log behind the last note of a load. -/
theorem notedSinceLoad_eq (past : List Moment) :
    notedSinceLoad past = (past.flatMap Moment.records).rtakeWhile fun r => !r.isLoad := by
  induction past using List.reverseRecOn with
  | nil => rfl
  | append_singleton past t ih =>
    rw [notedSinceLoad_concat, flatMap_append, flatMap_singleton]
    cases reloads : t.move.reloads with
    | true =>
      obtain ⟨n, loaded⟩ := Moment.records_of_reloads reloads
      rw [loaded, rtakeWhile_concat_neg _ _ _ (by simp [Record.isLoad])]
      rfl
    | false =>
      have quiet : ∀ r ∈ t.records.reverse, (!r.isLoad) = true := by simpa using Moment.isLoad_of_quiet reloads
      rw [ih, rtakeWhile, rtakeWhile, reverse_append, takeWhile_append_of_pos quiet, reverse_append,
        reverse_reverse, if_neg Bool.false_ne_true]

namespace Machine

/-- **The log brackets the waits.** Take any machine, any history of it, and what it has noted since a program was
loaded, or since it was switched on. At every moment, and at the end, the notes of waits take turns, beginning with
one that a wait began; the machine waits just if the last of them says that a wait began; and then the program counter
is at the address in it. A move that notes that a key was pressed executes `Fx0A` at the address where the wait began,
and leaves the number of this key in `Vx`. The warnings are those of the words outside the instruction set that cycles
passed over, in the same order, each with the word and its address. All this stands in the log behind the last note of
a load, where the text of a note of a wait tells it from all others. -/
theorem log_brackets_waits (config : Config) (chance : StreamKey) (history : List Event) :
    let m := create config chance
    (∀ past t future, m.moments history = past ++ t :: future →
        t.before.Bracketed past ∧
          ∀ k : Key, .resumed k ∈ t.records →
            (waitsNoted past).getLast? = some (.waiting t.before.pc) ∧
              ∃ x, t.register? 0x0A = some x ∧ (t.after.registers.get x).toNat = (k : Nat)) ∧
      (m.after history).Bracketed (m.moments history) ∧
      warnings (notedSinceLoad (m.moments history)) =
        (passedOver (m.moments history)).map Instruction.warning ∧
      notedSinceLoad (m.moments history) = ((m.replay history).records.rtakeWhile fun r => !r.isLoad) ∧
      ∀ r s : Record, r.isWait = true → s.entry = r.entry → s = r := by
  intro m
  refine ⟨fun past t future split => ?_, ?_, warnings_notedSinceLoad _, ?_, fun r s => Record.eq_of_entry⟩
  · obtain ⟨old, new, -, rfl, before, -⟩ := exists_of_path_eq split
    have bracketed : t.before.Bracketed (m.path old) := by
      rw [before]
      exact bracketed_perform rfl old
    have awaits : t.before.Awaits := by
      rw [before]
      exact awaits_perform rfl old
    refine ⟨bracketed, fun k noted => ?_⟩
    have ends := Moment.endsWait_of_mem awaits noted
    exact ⟨bracketed.address ends.waited, ends.stored⟩
  · rw [← perform_moves]
    exact bracketed_perform rfl _
  · rw [notedSinceLoad_eq, records_moments]

/-- A program with two waits and a word between them that is outside the instruction set. -/
def waitTwice : List UInt8 := [0xF3, 0x0A, 0xFF, 0xFF, 0xF4, 0x0A]

/-- It is loaded while another program waits, and a key that is held before its first wait does not end it. The second
run, which follows a request to stop, goes through the rest of it. -/
theorem log_brackets_waits_waitTwice :
    let m := create {} 0
    let history := [.load [0xF1, 0x0A], .step, .load waitTwice, .key 7 true, .step, .interrupt, .key 9 true, .run 5,
      .run 5]
    ∃ past t future, m.moments history = past ++ t :: future ∧
      .resumed 9 ∈ t.records ∧ (waitsNoted past).getLast? = some (.waiting t.before.pc) ∧ t.before.pc = 0x200 ∧
      t.register? 0x0A = some 3 ∧ (t.after.registers.get 3).toNat = 9 ∧
      waitsNoted (m.moments history) = [.waiting 0x200, .resumed 9, .waiting 0x204] ∧
      (m.after history).waiting = true ∧ (m.after history).pc = 0x204 ∧
      warnings (notedSinceLoad (m.moments history)) = [⟨.warn, "unknown opcode 0xFFFF at 0x202, skipping"⟩] := by
  intro m history
  let old : List Move := [.load [0xF1, 0x0A], .drop, .cycle, .load waitTwice, .key 7 true, .drop, .cycle, .interrupt,
    .key 9 true, .resume]
  have moved : m.moves history = old ++ .cycle :: [.cycle, .cycle] := by decide +kernel
  have split := moments_of_moves moved
  have noted : .resumed 9 ∈ Moment.records ⟨m.perform old, .cycle⟩ := by decide +kernel
  have register : Moment.register? 0x0A ⟨m.perform old, .cycle⟩ = some 3 := by decide +kernel
  have start : (m.perform old).pc = 0x200 := by decide +kernel
  have waits : waitsNoted (m.moments history) = [.waiting 0x200, .resumed 9, .waiting 0x204] := by decide +kernel
  have passed : passedOver (m.moments history) = [⟨0x202, 0xFFFF, .unknown 0xFFFF⟩] := by decide +kernel
  obtain ⟨each, bracketed, warned, -⟩ := log_brackets_waits {} 0 history
  obtain ⟨-, resumes⟩ := each _ _ _ split
  obtain ⟨began, x, names, stored⟩ := resumes 9 noted
  rw [register, Option.some.injEq] at names
  subst names
  have waiting : (m.after history).waiting = true := bracketed.waiting.2 ⟨0x204, by rw [waits]; rfl⟩
  have address := bracketed.address waiting
  rw [waits, getLast?_cons_cons, getLast?_cons_cons, getLast?_singleton, Option.some.injEq,
    Record.waiting.injEq] at address
  refine ⟨_, _, _, split, noted, began, start, register, stored, waits, waiting, address.symm, ?_⟩
  rw [warned, passed]
  decide +kernel

end Machine

end ChipEight
