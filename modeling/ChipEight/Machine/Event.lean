import ChipEight.Machine.Cycle

/-!
# Events

All that can be done to a machine after it was switched on. A history is a list of events, and
`Machine.replay` lets it happen: it gives the machine afterwards, all that was noted, and a reply
to each event. A replay can be cut anywhere (`replay_append`).
-/

namespace ChipEight

/-- Something done to a machine. -/
inductive Event
  /-- Load a program. -/
  | load (program : List UInt8)
  /-- A single cycle. -/
  | step
  /-- Up to `n` cycles. -/
  | run (n : Nat)
  /-- A tick of the timer clock. -/
  | tick
  /-- A key goes down or up. -/
  | key (key : Key) (down : Bool)
  /-- All keys go up. -/
  | clearKeys
  /-- Ask the machine to stop. -/
  | interrupt
  /-- Take back the request to stop. -/
  | takeInterrupt
  deriving DecidableEq, Repr

/-- What comes back from an event. -/
inductive Reply
  /-- Nothing. -/
  | none
  /-- From loading. -/
  | loaded (result : Except Oversize Unit)
  /-- From a single cycle. -/
  | stepped (result : Except Fault (Option Instruction))
  /-- From a run. -/
  | ran (result : Except Fault Stop)
  /-- Whether the machine had been asked to stop. -/
  | interrupt (pending : Bool)

namespace Outcome

/-- The outcome with another answer. -/
def map {α β : Type} (f : α → β) (o : Outcome α) : Outcome β := ⟨o.machine, o.records, f o.answer⟩

end Outcome

namespace Machine

/-- Do something to a machine. -/
def apply (m : Machine) : Event → Outcome Reply
  | .load program => (m.load program).map .loaded
  | .step => m.step.map .stepped
  | .run n => (m.run n).map .ran
  | .tick => ⟨m.tick, [], .none⟩
  | .key k down => ⟨m.setKey k down, [], .none⟩
  | .clearKeys => ⟨m.clearKeys, [], .none⟩
  | .interrupt => ⟨m.interrupt, [], .none⟩
  | .takeInterrupt => m.takeInterrupt.map .interrupt

/-- Let the events of a history happen one after the other. -/
def replay (m : Machine) : List Event → Outcome (List Reply)
  | [] => ⟨m, [], []⟩
  | e :: rest =>
    let first := m.apply e
    let later := first.machine.replay rest
    ⟨later.machine, first.records ++ later.records, first.answer :: later.answer⟩

/-- The machine after a history. -/
def after (m : Machine) (history : List Event) : Machine := (m.replay history).machine

@[simp] theorem after_nil (m : Machine) : m.after [] = m := rfl

@[simp] theorem after_cons (m : Machine) (e : Event) (rest : List Event) :
    m.after (e :: rest) = (m.apply e).machine.after rest := rfl

/-- A longer history is the shorter one and then the rest of it. -/
theorem replay_append (m : Machine) (past future : List Event) :
    m.replay (past ++ future) =
      ⟨((m.after past).replay future).machine,
        (m.replay past).records ++ ((m.after past).replay future).records,
        (m.replay past).answer ++ ((m.after past).replay future).answer⟩ := by
  induction past generalizing m with
  | nil => rfl
  | cons e past ih => simp [replay, ih, after]

theorem after_append (m : Machine) (past future : List Event) :
    m.after (past ++ future) = (m.after past).after future := by
  rw [after, replay_append]
  rfl

end Machine

end ChipEight
