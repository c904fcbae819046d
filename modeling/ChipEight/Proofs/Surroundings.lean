import ChipEight.Proofs.Moments

/-!
# What surrounds a program

The configuration of a machine, the random words that are to come, the timers and the keypad are not
the program's own, and few instructions look at them. A `Change` puts anything else in the place of these
parts. For an instruction that does not see it (`Change.Unseen`) it makes no difference whether the
change is made before or after (`execute_change`), and so it is with cycles, with steps, and with runs
that come to no other instruction (`run_change`).
-/

namespace ChipEight

/-- A change of what surrounds a program. -/
structure Change where
  /-- What becomes of the configuration. -/
  config : Config → Config := id
  /-- What becomes of the random words. -/
  generator : Generator → Generator := id
  /-- What becomes of the timers. -/
  timers : Timers → Timers := id
  /-- What becomes of the keypad. -/
  keypad : Keypad → Keypad := id

/-- The machine with its surroundings changed. -/
def Machine.change (m : Machine) (c : Change) : Machine :=
  { m with
    config := c.config m.config
    generator := c.generator m.generator
    timers := c.timers m.timers
    keypad := c.keypad m.keypad }

namespace Change

variable (c : Change)

/-- An instruction neither looks at what is changed nor changes it itself. A random byte may come from
other words, as long as the mask hides all that is different about it. -/
def Unseen : Op → Prop
  | .readDelay _ | .setDelay _ | .setSound _ => ∀ t, c.timers t = t
  | .skipHeld _ | .skipFree _ | .awaitKey _ => ∀ p, c.keypad p = p
  | .random _ mask => ∀ g, mask &&& (c.generator g).peek = mask &&& g.peek ∧
      (c.generator g).advanced = c.generator g.advanced
  | _ => True

/-- The instruction that a machine has before it does not see the change. -/
def UnseenBy (m : Machine) : Prop := ∀ op, m.next? = some op → c.Unseen op

/-- The move is not a cycle that sees the change. -/
def UnseenAt (t : Moment) : Prop := t.move = .cycle → c.UnseenBy t.before

end Change

namespace Machine

/-- **An instruction that does not see a change is executed alike before and after it.** -/
theorem execute_change {c : Change} {op : Op} (unseen : c.Unseen op) (m : Machine) (a : Address) :
    (m.change c).execute a op =
      { m.execute a op with machine := (m.execute a op).machine.change c } := by
  cases op with
  | readDelay x | setDelay x | setSound x =>
    have same : c.timers = id := funext unseen
    simp [execute, change, same, put]
  | skipHeld x | skipFree x =>
    have same : c.keypad = id := funext unseen
    simp [execute, change, same, skipIf_eq]
  | awaitKey x =>
    have same : c.keypad = id := funext unseen
    cases hw : m.waiting <;> cases hl : m.keypad.latched <;>
      simp [execute, awaitKey_eq, change, same, hw, hl]
  | random x mask =>
    obtain ⟨masked, advanced⟩ := unseen m.generator
    simp [execute, randomize, change, put, masked, advanced]
  | ret =>
    cases hs : m.stack <;> simp [execute, change, hs]
  | call target =>
    change (if m.stack.length < stackLimit then _ else _) = _
    simp only [execute]
    split <;> rfl
  | skipEqByte | skipNeByte | skipEq | skipNe =>
    simp only [execute, skipIf_eq]
    rfl
  | arith =>
    simp only [execute, compute_eq]
    rfl
  | _ => rfl

/-- **A cycle that does not see a change goes alike before and after it.** -/
theorem cycle_change {c : Change} {m : Machine} (unseen : c.UnseenBy m) :
    (m.change c).cycle = { m.cycle with machine := m.cycle.machine.change c } := by
  have fetched : (m.change c).next? = m.next? := rfl
  rcases m.cycle_cases with ⟨ended, hc⟩ | ⟨op, n, records, hop, he, hc⟩ | ⟨op, fault, hop, he, hc⟩
  · rw [cycle_of_next?_none (fetched.trans ended), hc]
  all_goals have executed := execute_change (unseen op hop) (m.goto (Address.next m.pc)) m.pc
  · rw [he] at executed
    rw [cycle_of_execute_ok (fetched.trans hop) executed, hc]
    rfl
  · have failed := (congrArg Outcome.answer executed).trans he
    rw [cycle_of_execute_error (fetched.trans hop) failed, hc]

/-- So does a step. -/
theorem step_change {c : Change} {m : Machine} (unseen : c.UnseenBy m) :
    (m.change c).step = { m.step with machine := m.step.machine.change c } := by
  have resumed : (m.change c).resume.cycle =
      { m.resume.cycle with machine := m.resume.cycle.machine.change c } :=
    cycle_change (m := m.resume) unseen
  have asked : (m.change c).interrupted = m.interrupted := rfl
  rw [step, step, resumed, asked]
  cases m.interrupted with
  | true => rfl
  | false => rfl

/-- **A run none of whose cycles sees a change goes alike before and after it.** -/
theorem run_change {c : Change} {n : Nat} {m : Machine}
    (unseen : ∀ t ∈ m.path (runMoves n m), c.UnseenAt t) :
    (m.change c).run n = { m.run n with machine := (m.run n).machine.change c } := by
  induction n generalizing m with
  | zero => rfl
  | succ n ih =>
    have asked : (m.change c).interrupted = m.interrupted := rfl
    rw [run_succ, run_succ, asked]
    rw [runMoves] at unseen
    cases hi : m.interrupted with
    | true => rfl
    | false =>
      simp only [hi, Bool.false_eq_true, if_false, path, List.mem_cons, forall_eq_or_imp] at unseen
      obtain ⟨first, others⟩ := unseen
      rw [cycle_change (first rfl)]
      rcases hc : m.cycle with ⟨after, records, fault | _ | i⟩
      · rfl
      · rfl
      · have still : (after.change c).waiting = after.waiting := rfl
        simp only [Bool.false_eq_true, if_false, still]
        cases hw : after.waiting with
        | true => rfl
        | false =>
          simp only [make, hc, hw, Bool.false_eq_true, if_false] at others
          simp [ih others]

end Machine

/-- A cycle that executes nothing comes to the end of the program, to a call or to a return, and none of
these sees a change. -/
theorem Change.unseenAt_of_executed {c : Change} {t : Moment}
    (unseen : ∀ i, t.executed? = some i → c.Unseen i.op) : c.UnseenAt t := by
  obtain ⟨m, move⟩ := t
  rintro rfl op hop
  change m.next? = some op at hop
  rcases m.cycle_cases with ⟨ended, -⟩ | ⟨op', n, records, hop', -, hc⟩ | ⟨op', fault, hop', he, -⟩
  · rw [ended] at hop
    cases hop
  · rw [hop', Option.some.injEq] at hop
    subst hop
    exact unseen _ (by rw [Moment.executed?, hc])
  · rw [hop', Option.some.injEq] at hop
    subst hop
    rcases Machine.answer_execute_eq_error_iff.1 he with ⟨rfl, -⟩ | ⟨⟨target, rfl⟩, -⟩
    · trivial
    · trivial

end ChipEight
