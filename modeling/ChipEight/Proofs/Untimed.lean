import ChipEight.Proofs.Surroundings

/-!
# Machines that do not look at their timers

A program learns about the timers from one instruction only, `Fx07`. Machines that differ in nothing
but the timers therefore do the same until one of them comes to it: the same instructions, the same
notes, the same answers (`cycle_withTimers`).
-/

namespace ChipEight

/-- The move executes `Fx07`. -/
def Moment.readsDelay (t : Moment) : Bool :=
  match t.executed? with
  | some ⟨_, _, .readDelay _⟩ => true
  | _ => false

namespace Machine

/-- The machine with other timers. -/
def withTimers (m : Machine) (t : Timers) : Machine := { m with timers := t }

/-- No instruction but `Fx07` looks at the timers. -/
theorem execute_withTimers {op : Op} (unread : ∀ x, op ≠ .readDelay x) (m : Machine) (t : Timers)
    (a : Address) :
    ∃ u, (m.withTimers t).execute a op =
      { m.execute a op with machine := (m.execute a op).machine.withTimers u } := by
  cases op with
  | readDelay x => exact absurd rfl (unread x)
  | setDelay x => exact ⟨{ t with delay := m.registers.get x }, rfl⟩
  | setSound x => exact ⟨{ t with sound := m.registers.get x }, rfl⟩
  | _ =>
    -- no other instruction sees a change of the timers
    refine ⟨t, execute_change (c := { timers := fun _ => t }) ?_ m a⟩
    simp [Change.Unseen]

/-- **A cycle does not look at the timers**, unless it comes to `Fx07`. -/
theorem cycle_withTimers {m : Machine} (unread : ∀ x, m.next? ≠ some (.readDelay x)) (t : Timers) :
    ∃ u, (m.withTimers t).cycle = { m.cycle with machine := m.cycle.machine.withTimers u } := by
  have fetched : (m.withTimers t).next? = m.next? := rfl
  rcases m.cycle_cases with ⟨ended, hc⟩ | ⟨op, n, records, hop, he, hc⟩ | ⟨op, fault, hop, he, hc⟩
  · refine ⟨t, ?_⟩
    rw [cycle_of_next?_none (fetched.trans ended), hc]
  all_goals
    obtain ⟨u, hu⟩ := execute_withTimers (fun x hx => unread x (hx ▸ hop))
      (m.goto (Address.next m.pc)) t m.pc
  · rw [he] at hu
    exact ⟨u, by rw [cycle_of_execute_ok (fetched.trans hop) hu, hc]; rfl⟩
  · have failed := (congrArg Outcome.answer hu).trans he
    exact ⟨t, by rw [cycle_of_execute_error (fetched.trans hop) failed, hc]⟩

end Machine

end ChipEight
