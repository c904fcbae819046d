import ChipEight.Proofs.Batches
import ChipEight.Proofs.Pattern
import ChipEight.Proofs.Surroundings

/-!
# Steps and events from outside

Ticks and keys come from outside while a program goes on step by step. A tick is the concern of the words
`Fx07`, `Fx15` and `Fx18` only, a key that of `Ex9E`, `ExA1` and `Fx0A`. With any other word before the
machine it makes no difference whether the event comes before the step or after it.

So if none of some steps comes to a word that is concerned, then it does not matter where in the row of
them the events from outside come, as long as they keep their order (`outline_woven`): what the steps do
and bring back is what they do and bring back alone, and what becomes of the timers and the keys is what
becomes of them if all events come after the last step.
-/

namespace ChipEight

/-- The words `Fx07`, `Fx15` and `Fx18`, which are about the timers. -/
def Word.isTimed (w : Word) : Bool :=
  w.toNat / 0x1000 = 0xF ∧ w.toNat % 0x100 ∈ [0x07, 0x15, 0x18]

/-- The words `Ex9E`, `ExA1` and `Fx0A`, which are about the keys. -/
def Word.isKeyed (w : Word) : Bool :=
  w.toNat / 0x1000 = 0xE ∧ w.toNat % 0x100 ∈ [0x9E, 0xA1] ∨
    w.toNat / 0x1000 = 0xF ∧ w.toNat % 0x100 = 0x0A

namespace Event

/-- A tick, or something that happens to the keys. -/
def isOutside : Event → Bool
  | .tick | .key _ _ | .clearKeys => true
  | _ => false

/-- A word is about that what an event from outside changes. -/
def concerns : Event → Word → Bool
  | .tick, w => w.isTimed
  | _, w => w.isKeyed

/-- What an event from outside changes. -/
def change : Event → Change
  | .tick => { timers := Timers.tick }
  | .key k down => { keypad := fun p => p.set k down }
  | .clearKeys => { keypad := fun _ => Keypad.clear }
  | _ => {}

/-- `Woven k outside history`: the history consists of `k` steps and of some events from outside, the
latter in their order. -/
inductive Woven : Nat → List Event → List Event → Prop
  /-- Nothing happens. -/
  | nil : Woven 0 [] []
  /-- A step comes next. -/
  | step {k : Nat} {outside history : List Event} :
    Woven k outside history → Woven (k + 1) outside (.step :: history)
  /-- An event from outside comes next. -/
  | event {k : Nat} {outside history : List Event} {e : Event} :
    Woven k outside history → Woven k (e :: outside) (e :: history)

/-- An event from outside changes the surroundings, and nothing is noted. -/
theorem apply_of_outside {e : Event} (outside : e.isOutside = true) (m : Machine) :
    m.apply e = ⟨m.change e.change, [], .none⟩ := by
  cases e with
  | tick | key | clearKeys => rfl
  | _ => cases outside

/-- The first and the last two digits of a word, from its pattern. -/
theorem digits_of_pattern (family : Nat) {w : Word} {low : Nat} {x : Register}
    (h : 0x1000 * family + 0x100 * x + low = w.toNat) (fits : low < 0x100) :
    w.toNat / 0x1000 = family ∧ w.toNat % 0x100 = low := by
  have bound : (x : Nat) < 16 := x.isLt
  omega

/-- An instruction does not see an event from outside that is not the concern of its word. -/
theorem unseen_of_concerns {e : Event} (outside : e.isOutside = true) {w : Word} {op : Op}
    (h : Op.decode w = some op) (other : e.concerns w = false) : e.change.Unseen op := by
  have word := Op.pattern_of_decode h
  cases op with
  | readDelay x | setDelay x | setSound x =>
    cases e with
    | tick =>
      obtain ⟨family, low⟩ := digits_of_pattern 0xF word (by decide)
      simp [concerns, Word.isTimed, family, low] at other
    | key | clearKeys => exact fun _ => rfl
    | _ => cases outside
  | skipHeld x | skipFree x =>
    cases e with
    | tick => exact fun _ => rfl
    | key | clearKeys =>
      obtain ⟨family, low⟩ := digits_of_pattern 0xE word (by decide)
      simp [concerns, Word.isKeyed, family, low] at other
    | _ => cases outside
  | awaitKey x =>
    cases e with
    | tick => exact fun _ => rfl
    | key | clearKeys =>
      obtain ⟨family, low⟩ := digits_of_pattern 0xF word (by decide)
      simp [concerns, Word.isKeyed, family, low] at other
    | _ => cases outside
  | random x mask => cases e <;> exact fun _ => ⟨rfl, rfl⟩
  | _ => trivial

end Event

/-- What came back, if it came back from a single cycle. -/
def Reply.stepped? : Reply → Option (Except Fault (Option Instruction))
  | .stepped result => some result
  | _ => Option.none

namespace Machine

/-- The machine after a history, all that was noted, and what came back from the steps. -/
def outline (m : Machine) (history : List Event) :
    Outcome (List (Except Fault (Option Instruction))) :=
  (m.replay history).map (List.filterMap Reply.stepped?)

theorem outline_step (m : Machine) (rest : List Event) :
    m.outline (.step :: rest) =
      ⟨(m.step.machine.outline rest).machine, m.step.records ++ (m.step.machine.outline rest).records,
        m.step.answer :: (m.step.machine.outline rest).answer⟩ := rfl

theorem outline_outside {e : Event} (outside : e.isOutside = true) (m : Machine) (rest : List Event) :
    m.outline (e :: rest) = (m.change e.change).outline rest := by
  simp only [outline, replay, Event.apply_of_outside outside]
  rfl

theorem machine_outline (m : Machine) (history : List Event) :
    (m.outline history).machine = m.after history := rfl

/-! ### One event and one step -/

/-- **A step and an event from outside come in any order**, unless the event is the concern of the word
before the machine. -/
theorem step_apply_of_outside {e : Event} (outside : e.isOutside = true) {m : Machine}
    (other : e.concerns (m.memory.fetch m.pc) = false) :
    (m.apply e).machine.step = { m.step with machine := (m.step.machine.apply e).machine } := by
  simp only [Event.apply_of_outside outside]
  exact step_change fun op hop => Event.unseen_of_concerns outside hop other

/-! ### One event and some steps -/

/-- Steps that do not see a change go alike before and after it. -/
theorem outline_steps_change {c : Change} {k : Nat} {m : Machine}
    (unseen : ∀ i < k, c.UnseenBy (m.after (steps i))) :
    (m.change c).outline (steps k) =
      { m.outline (steps k) with machine := (m.after (steps k)).change c } := by
  induction k generalizing m with
  | zero => rfl
  | succ k ih =>
    have first := step_change (m := m) (unseen 0 (Nat.succ_pos k))
    have others := ih (m := m.step.machine) fun i hi => unseen (i + 1) (Nat.succ_lt_succ hi)
    rw [steps_succ, outline_step, outline_step, first, others]
    rfl

/-- What steps do not see after one of some changes, they do not see before it. -/
theorem unseen_of_change {cs : List Change} {c : Change} (hc : c ∈ cs) {k : Nat} {m : Machine}
    (unseen : ∀ i < k, ∀ d ∈ cs, d.UnseenBy ((m.change c).after (steps i))) :
    ∀ i < k, ∀ d ∈ cs, d.UnseenBy (m.after (steps i)) := by
  induction k generalizing m with
  | zero => exact fun i hi => absurd hi (Nat.not_lt_zero i)
  | succ k ih =>
    have first : ∀ d ∈ cs, d.UnseenBy m := unseen 0 (Nat.succ_pos k)
    have moved : (m.change c).step.machine = m.step.machine.change c := by
      rw [step_change (first c hc)]
    intro i hi
    cases i with
    | zero => exact first
    | succ i =>
      refine ih (m := m.step.machine) (fun j hj => ?_) i (Nat.lt_of_succ_lt_succ hi)
      rw [← moved]
      exact unseen (j + 1) (Nat.succ_lt_succ hj)

/-! ### Some events and some steps -/

/-- What is not seen in a history that is woven of steps and events from outside is not seen by the steps
alone. -/
theorem unseen_of_woven {k : Nat} {outside history : List Event} (woven : Event.Woven k outside history)
    (all : ∀ e ∈ outside, e.isOutside = true) {cs : List Change} (among : ∀ e ∈ outside, e.change ∈ cs)
    {m : Machine} (unseen : ∀ t ∈ m.moments history, ∀ c ∈ cs, c.UnseenAt t) :
    ∀ i < k, ∀ c ∈ cs, c.UnseenBy (m.after (steps i)) := by
  induction woven generalizing m with
  | nil => exact fun i hi => absurd hi (Nat.not_lt_zero i)
  | step _ ih =>
    rw [moments_cons, List.forall_mem_append] at unseen
    obtain ⟨first, later⟩ := unseen
    intro i hi
    cases i with
    | zero => exact fun c hc => first ⟨m.resume, .cycle⟩ (by simp [movesOf, path, make]) c hc rfl
    | succ i => exact ih all among later i (Nat.lt_of_succ_lt_succ hi)
  | event _ ih =>
    obtain ⟨isOutside, all⟩ := List.forall_mem_cons.1 all
    obtain ⟨isAmong, among⟩ := List.forall_mem_cons.1 among
    rw [moments_cons, List.forall_mem_append, Event.apply_of_outside isOutside] at unseen
    exact unseen_of_change isAmong (ih all among unseen.2)

/-- **A history that is woven of steps and events from outside** does what the steps do alone, and then the
events, if the steps see none of them. -/
theorem outline_woven {k : Nat} {outside history : List Event} (woven : Event.Woven k outside history)
    (all : ∀ e ∈ outside, e.isOutside = true) {m : Machine}
    (unseen : ∀ i < k, ∀ e ∈ outside, e.change.UnseenBy (m.after (steps i))) :
    m.outline history =
      { m.outline (steps k) with machine := (m.after (steps k)).after outside } := by
  induction woven generalizing m with
  | nil => rfl
  | step _ ih =>
    have later := ih all (m := m.step.machine) fun i hi => unseen (i + 1) (Nat.succ_lt_succ hi)
    rw [outline_step, later, steps_succ, outline_step]
    rfl
  | @event k outside history e _ ih =>
    obtain ⟨isOutside, all⟩ := List.forall_mem_cons.1 all
    have moved {i : Nat} (hi : i ≤ k) :
        (m.change e.change).outline (steps i) =
          { m.outline (steps i) with machine := (m.after (steps i)).change e.change } :=
      outline_steps_change fun j hj => unseen j (Nat.lt_of_lt_of_le hj hi) e List.mem_cons_self
    have arrived {i : Nat} (hi : i ≤ k) :
        (m.change e.change).after (steps i) = (m.after (steps i)).change e.change := by
      rw [← machine_outline, moved hi]
    have later := ih all (m := m.change e.change) fun i hi d hd => by
      rw [arrived (Nat.le_of_lt hi)]
      exact unseen i hi d (List.mem_cons_of_mem _ hd)
    rw [outline_outside isOutside, later, arrived (Nat.le_refl k), moved (Nat.le_refl k), after_cons,
      Event.apply_of_outside isOutside]

/-- **The order of steps and of what comes from outside makes no difference.** A tick comes before or
after a step with the same outcome, unless the word before the machine is `Fx07`, `Fx15` or `Fx18`, and
whatever happens to a key does, or to all of them, unless the word is `Ex9E`, `ExA1` or `Fx0A`. And take
some steps and some events from outside, and let the events come between the steps in any way, but in
their order. If no step executes a word that is the concern of one of these events, then any other way
leads to the same machine with the same notes, and the same comes back from the steps. -/
theorem order_indifferent (m : Machine) :
    let word := m.memory.fetch m.pc
    (word.isTimed = false → m.tick.step = { m.step with machine := m.step.machine.tick }) ∧
      (word.isKeyed = false →
        (∀ k down,
          (m.setKey k down).step = { m.step with machine := m.step.machine.setKey k down }) ∧
        m.clearKeys.step = { m.step with machine := m.step.machine.clearKeys }) ∧
      ∀ k outside history history',
        Event.Woven k outside history → Event.Woven k outside history' →
        (∀ e ∈ outside, e.isOutside = true) →
        (∀ t ∈ m.moments history, ∀ i, t.executed? = some i →
          ∀ e ∈ outside, e.concerns i.word = false) →
        m.outline history' = m.outline history := by
  intro word
  refine ⟨fun other => ?_, fun other => ⟨fun k down => ?_, ?_⟩, ?_⟩
  · exact step_apply_of_outside (e := .tick) rfl other
  · exact step_apply_of_outside (e := .key k down) rfl other
  · exact step_apply_of_outside (e := .clearKeys) rfl other
  · intro k outside history history' woven woven' all other
    have unseen : ∀ i < k, ∀ c ∈ outside.map Event.change, c.UnseenBy (m.after (steps i)) := by
      refine unseen_of_woven woven all (fun e he => List.mem_map_of_mem he) fun t ht c hc => ?_
      obtain ⟨e, he, rfl⟩ := List.mem_map.1 hc
      refine Change.unseenAt_of_executed fun i executed => ?_
      obtain ⟨-, fetched, next, -⟩ := Moment.exists_of_executed executed
      have decoded : Op.decode i.word = some i.op := by
        rw [fetched]
        exact next
      exact Event.unseen_of_concerns (all e he) decoded (other t ht i executed e he)
    have unseen' (i : Nat) (hi : i < k) (e : Event) (he : e ∈ outside) :=
      unseen i hi e.change (List.mem_map_of_mem he)
    rw [outline_woven woven all unseen', outline_woven woven' all unseen']

/-- A program that starts the delay timer, draws something and returns from no call. -/
def timedDraw : List UInt8 := [0x60, 0x07, 0xF0, 0x15, 0x70, 0x01, 0xD0, 0x05, 0x00, 0xEE]

/-- Two ticks and a key come between the last three steps of it, or after them: the timer falls to five,
the press is remembered, and the third step fails. -/
theorem order_indifferent_timedDraw :
    let m := (create {} 0).after [.load timedDraw, .run 2, .interrupt]
    let outside : List Event := [.tick, .key 3 true, .tick]
    let between : List Event := [.tick, .step, .key 3 true, .step, .tick, .step]
    let behind : List Event := [.step, .step, .step, .tick, .key 3 true, .tick]
    (m.memory.fetch m.pc).isTimed = false ∧ (m.memory.fetch m.pc).isKeyed = false ∧
      m.tick.step = { m.step with machine := m.step.machine.tick } ∧
      m.clearKeys.step = { m.step with machine := m.step.machine.clearKeys } ∧
      Event.Woven 3 outside between ∧ Event.Woven 3 outside behind ∧
      (∀ e ∈ outside, e.isOutside = true) ∧
      (∀ t ∈ m.moments between, ∀ i, t.executed? = some i →
        ∀ e ∈ outside, e.concerns i.word = false) ∧
      m.outline behind = m.outline between ∧ (m.after between).timers.delay = 5 ∧
      (m.after between).keypad.latched = some 3 ∧
      (m.outline between).answer.getLast? = some (.error (.stackUnderflow 0x208)) := by
  intro m outside between behind
  have untimed : (m.memory.fetch m.pc).isTimed = false := by decide +kernel
  have unkeyed : (m.memory.fetch m.pc).isKeyed = false := by decide +kernel
  have all : ∀ e ∈ outside, e.isOutside = true := by decide
  have other : ∀ t ∈ m.moments between, ∀ i, t.executed? = some i →
      ∀ e ∈ outside, e.concerns i.word = false := by
    have none_concerned : ∀ t ∈ m.moments between,
        (t.executed?.all fun i => outside.all fun e => !e.concerns i.word) = true := by decide +kernel
    intro t ht i executed e he
    have at_t := none_concerned t ht
    rw [executed, Option.all_some, List.all_eq_true] at at_t
    simpa using at_t e he
  have woven : Event.Woven 3 outside between := .event (.step (.event (.step (.event (.step .nil)))))
  have woven' : Event.Woven 3 outside behind := .step (.step (.step (.event (.event (.event .nil)))))
  obtain ⟨ticks, keys, orders⟩ := order_indifferent m
  exact ⟨untimed, unkeyed, ticks untimed, (keys unkeyed).2, woven, woven', all, other,
    orders 3 outside between behind woven woven' all other, by decide +kernel, by decide +kernel,
    by decide +kernel⟩

end Machine

end ChipEight
