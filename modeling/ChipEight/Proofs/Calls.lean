import ChipEight.Proofs.Bounds

/-!
# Calls nest

A call keeps the address behind it on the stack and a return goes back to the last address kept.
Over whole histories this makes calls nest: as long as the stack stays deeper than it was before a
call, the addresses kept up to that call lie untouched at the bottom of it (`suffix_perform`), so
the return that ends the call goes on behind it, whatever happened in between, and leaves the
stack as the call found it. The depth of the stack counts the calls that are still open
(`depth_perform`).
-/

namespace ChipEight

open List

namespace Moment

/-- The move executes a call. -/
def calls (t : Moment) : Bool :=
  match t.executed? with
  | some ⟨_, _, .call _⟩ => true
  | _ => false

/-- The move executes a return. -/
def returns (t : Moment) : Bool :=
  match t.executed? with
  | some ⟨_, _, .ret⟩ => true
  | _ => false

end Moment

namespace Machine

theorem stack_of_call {m n : Machine} {a target : Address} {records : List Record}
    (h : m.execute a (.call target) = ⟨n, records, .ok ()⟩) :
    m.stack.length < stackLimit ∧ n.stack = m.pc :: m.stack := by
  simp only [execute] at h
  split at h
  · next room =>
    cases h
    exact ⟨room, rfl⟩
  · cases h

theorem stack_of_ret {m n : Machine} {a : Address} {records : List Record}
    (h : m.execute a .ret = ⟨n, records, .ok ()⟩) : m.stack = n.pc :: n.stack := by
  simp only [execute] at h
  split at h
  · cases h
  · next hs =>
    cases h
    exact hs

/-- **What a move does to the stack**, unless it loads a program: a call puts the address behind it
on top, a return takes the top to go on there, and all else leaves the stack alone. -/
theorem stack_cases (t : Moment) (h : t.move.reloads = false) :
    (t.calls = true ∧ t.returns = false ∧ t.before.stack.length < stackLimit ∧
        t.after.stack = Address.next t.before.pc :: t.before.stack) ∨
      (t.calls = false ∧ t.returns = true ∧ t.before.stack = t.after.pc :: t.after.stack) ∨
      (t.calls = false ∧ t.returns = false ∧ t.after.stack = t.before.stack) := by
  cases he : t.executed? with
  | some i =>
    obtain ⟨-, -, -, records, hx⟩ := Moment.exists_of_executed he
    obtain ⟨a, w, op⟩ := i
    cases op with
    | call target =>
      exact Or.inl ⟨by simp [Moment.calls, he], by simp [Moment.returns, he], stack_of_call hx⟩
    | ret =>
      have popped := stack_of_ret hx
      exact Or.inr (Or.inl ⟨by simp [Moment.calls, he], by simp [Moment.returns, he], popped⟩)
    | _ =>
      refine Or.inr (Or.inr ⟨by simp [Moment.calls, he], by simp [Moment.returns, he], ?_⟩)
      exact execute_frame (p := .stack) hx rfl
  | none =>
    refine Or.inr (Or.inr ⟨by simp [Moment.calls, he], by simp [Moment.returns, he], ?_⟩)
    obtain ⟨m, move⟩ := t
    cases move with
    | cycle => rw [Moment.after_of_executed_none rfl he]
    | load program => rw [Moment.after, make_load h]
    | _ => rfl

/-! ### The bottom of the stack -/

/-- A move that leaves the stack as deep as `base` leaves `base` at the bottom of it. -/
theorem suffix_after {t : Moment} {base : List Address} (h : t.move.reloads = false)
    (hb : base <:+ t.before.stack) (deep : base.length ≤ t.after.stack.length) :
    base <:+ t.after.stack := by
  rcases stack_cases t h with ⟨-, -, -, hs⟩ | ⟨-, -, hs⟩ | ⟨-, -, hs⟩
  · rw [hs]
    exact hb.trans (suffix_cons _ _)
  · rw [hs] at hb
    rcases suffix_cons_iff.1 hb with rfl | hb
    · rw [length_cons] at deep
      omega
    · exact hb
  · rwa [hs]

/-- As long as the stack stays as deep as `base`, it keeps `base` at the bottom. -/
theorem suffix_perform {m : Machine} {moves : List Move} {base : List Address}
    (quiet : ∀ t ∈ m.path moves, t.move.reloads = false)
    (deep : ∀ t ∈ m.path moves, base.length ≤ t.after.stack.length) (hb : base <:+ m.stack) :
    base <:+ (m.perform moves).stack :=
  path_induction (P := fun n => base <:+ n.stack) hb fun t ht bottom => suffix_after (quiet t ht) bottom (deep t ht)

/-- The move that first makes the stack less deep than `base` is a return to the top of `base`. -/
theorem returns_of_shallow {t : Moment} {a : Address} {base : List Address}
    (h : t.move.reloads = false) (hb : a :: base <:+ t.before.stack)
    (shallow : t.after.stack.length = base.length) :
    t.returns = true ∧ t.after.pc = a ∧ t.after.stack = base := by
  have deep := hb.length_le
  rw [length_cons] at deep
  rcases stack_cases t h with ⟨-, -, -, hs⟩ | ⟨-, hr, hs⟩ | ⟨-, -, hs⟩
  · rw [hs, length_cons] at shallow
    omega
  · rw [hs] at hb
    have same : a :: base = t.after.pc :: t.after.stack :=
      hb.eq_of_length (by rw [length_cons, length_cons, shallow])
    rw [cons.injEq] at same
    exact ⟨hr, same.1.symm, same.2.symm⟩
  · rw [hs] at shallow
    omega

/-! ### The depth of the stack -/

theorem stack_of_reloads {t : Moment} (h : t.move.reloads = true) : t.after.stack = [] := by
  obtain ⟨program, -, hm⟩ := make_of_reloads (m := t.before) h
  rw [Moment.after, hm]
  rfl

/-- The calls since the last load are the returns since then and those that are still open. -/
theorem depth_perform {m : Machine} (h : m.stack = []) (moves : List Move) :
    (m.perform moves).stack.length + (Moment.sinceLoad (m.path moves)).countP Moment.returns =
      (Moment.sinceLoad (m.path moves)).countP Moment.calls := by
  induction moves using List.reverseRecOn with
  | nil => simp [perform, path, Moment.sinceLoad, h]
  | append_singleton moves move ih =>
    rw [path_concat, perform_concat, Moment.sinceLoad_concat]
    cases hr : move.reloads with
    | true => simp [stack_of_reloads (t := ⟨m.perform moves, move⟩) hr]
    | false =>
      rcases stack_cases ⟨m.perform moves, move⟩ hr with
        ⟨hc, ht, -, hs⟩ | ⟨hc, ht, hs⟩ | ⟨hc, ht, hs⟩
      · simp [hc, ht, hs]
        omega
      · have := congrArg length hs
        simp [hc, ht] at this ⊢
        omega
      · simp [hc, ht, hs, ih]

/-- **Calls nest.** Take any history of a machine, and in it a call at an address `a` and the first
later move, with no load up to it, that makes the stack as shallow as it was before the call. That
move is a return, it goes on at `a + 2`, and it leaves the stack as the call found it. And at the
end of every history the depth of the stack is the number of calls less the number of returns
since the last load, and at most 16. -/
theorem calls_nest (config : Config) (chance : StreamKey) (history : List Event) :
    let m := create config chance
    (∀ past call inside back future a w target,
      m.moments history = past ++ call :: (inside ++ back :: future) →
      call.executed? = some ⟨a, w, .call target⟩ →
      (∀ t ∈ inside ++ [back], t.move.reloads = false) →
      (∀ t ∈ inside, call.before.stack.length < t.after.stack.length) →
      back.after.stack.length = call.before.stack.length →
        call.before.stack.length < 16 ∧ back.returns = true ∧ back.after.pc = (a + 2) % 4096 ∧
          back.after.stack = call.before.stack) ∧
      (m.after history).stack.length + (Moment.sinceLoad (m.moments history)).countP Moment.returns =
        (Moment.sinceLoad (m.moments history)).countP Moment.calls ∧
      (m.after history).stack.length ≤ 16 := by
  intro m
  refine ⟨?_, ?_, Reachable.depth_le ⟨config, chance, history, rfl⟩⟩
  · intro past call inside back future a w target split called quiet deep shallow
    obtain ⟨-, hi, -, records, hx⟩ := Moment.exists_of_executed called
    obtain ⟨room, hs⟩ := stack_of_call hx
    rw [Instruction.mk.injEq] at hi
    -- the path from the call on, and in it the path up to the return
    obtain ⟨_, new, -, -, -, hnew⟩ := exists_of_path_eq split
    obtain ⟨old, _, -, rfl, hback, -⟩ := exists_of_path_eq hnew.symm
    have bottom : Address.next call.before.pc :: call.before.stack <:+ back.before.stack := by
      rw [hback]
      refine suffix_perform (fun t ht => quiet t (mem_append_left _ ht)) (fun t ht => deep t ht) ?_
      rw [hs]
      exact suffix_refl _
    obtain ⟨hr, hpc, hst⟩ := returns_of_shallow (quiet back (by simp)) bottom shallow
    exact ⟨room, hr, by rw [hpc, hi.1]; rfl, hst⟩
  · rw [← perform_moves]
    exact depth_perform rfl _

/-- A call at `0x200` to a routine that calls another one, which returns at once. -/
def nestedCalls : List UInt8 := [0x22, 0x04, 0x00, 0x00, 0x22, 0x08, 0x00, 0xEE, 0x00, 0xEE]

/-- The outer of the two calls comes back to `0x202` after the inner one has come and gone. -/
theorem calls_nest_nestedCalls :
    let m := create {} 0
    ∃ past call inside back,
      m.moments [.load nestedCalls, .step, .step, .step, .step] = past ++ call :: (inside ++ [back]) ∧
        call.executed? = some ⟨0x200, 0x2204, .call 0x204⟩ ∧
        (∀ t ∈ inside ++ [back], t.move.reloads = false) ∧
        (∀ t ∈ inside, call.before.stack.length < t.after.stack.length) ∧
        back.after.stack.length = call.before.stack.length ∧
        inside.countP Moment.calls = 1 ∧ back.returns = true ∧ back.after.pc = 0x202 := by
  intro m
  let start := m.perform [.load nestedCalls, .drop]
  let inner := start.perform [.cycle, .drop, .cycle, .drop, .cycle, .drop]
  let past := m.path [.load nestedCalls, .drop]
  let inside := (start.make .cycle).path [.drop, .cycle, .drop, .cycle, .drop]
  have split : m.moments [.load nestedCalls, .step, .step, .step, .step] =
      past ++ ⟨start, .cycle⟩ :: (inside ++ [⟨inner, .cycle⟩]) := rfl
  have called : Moment.executed? ⟨start, .cycle⟩ = some ⟨0x200, 0x2204, .call 0x204⟩ := by
    decide +kernel
  have quiet : ∀ t ∈ inside ++ [⟨inner, .cycle⟩], t.move.reloads = false := by decide +kernel
  have deep : ∀ t ∈ inside, start.stack.length < t.after.stack.length := by decide +kernel
  have shallow : (Moment.after ⟨inner, .cycle⟩).stack.length = start.stack.length := by
    decide +kernel
  obtain ⟨-, hr, hpc, -⟩ := (calls_nest {} 0 _).1 _ _ _ _ _ _ _ _ split called quiet deep shallow
  exact ⟨_, _, _, _, split, called, quiet, deep, shallow, by decide +kernel, hr, hpc⟩

end Machine

end ChipEight
