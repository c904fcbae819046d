import ChipEight.Isa.Word
import ChipEight.Keypad
import Mathlib.Data.Finset.Sort
import Mathlib.Data.List.DropRight
import Mathlib.Data.List.Induction

/-!
# A keypad is what was done to it

A keypad keeps sixteen bits and one key. Both can be told from the past alone: a key is held if its last move
since the last clear was down (`heldBy`), and the key that is remembered is the last one that went from released
to held since the last clear and since a press was last taken or forgotten (`lastPressed`). All that a keypad
shows is told by the set of the keys that are held: the number that its bits make, whether there are any, and the lowest
one (`history_tells_keypad`).
-/

namespace ChipEight.Keypad

/-- Something done to a keypad. -/
inductive Act
  /-- A key goes down or up. -/
  | set (key : Key) (down : Bool)
  /-- All keys go up. -/
  | clear
  /-- The press that is remembered is taken. -/
  | take
  /-- The press that is remembered is forgotten. -/
  | forget
  deriving DecidableEq, Repr

/-- Take the press that is remembered: what it was, and the keypad without it. -/
def take (p : Keypad) : Option Key × Keypad := (p.latched, p.forget)

/-- The keypad after an act. -/
def act (p : Keypad) : Act → Keypad
  | .set k down => p.set k down
  | .clear => Keypad.clear
  | .take => p.take.2
  | .forget => p.forget

/-- The keypad after some acts, one after the other. -/
def after (p : Keypad) (acts : List Act) : Keypad := acts.foldl act p

/-- Where an act moves a key, if it moves this key by itself: down or up. -/
def Act.moves? (k : Key) : Act → Option Bool
  | set j down => if j = k then some down else none
  | _ => none

/-- No press is remembered after the act. -/
def Act.forgets : Act → Bool
  | set _ _ => false
  | _ => true

/-- What was done after the last clear. -/
def sinceClear (past : List Act) : List Act := past.rtakeWhile fun a => a ≠ .clear

/-- The keys that a past leaves held: those whose last move since the last clear was down. -/
def heldBy (past : List Act) : Finset Key :=
  {k | ((sinceClear past).filterMap (Act.moves? k)).getLast? = some true}

/-- Some acts, each with all that was done before it. -/
def occasions (past : List Act) : List Act → List (List Act × Act)
  | [] => []
  | a :: rest => (past, a) :: occasions (past ++ [a]) rest

/-- The key that goes from released to held by an act, after what was done before. -/
def pressed? : List Act × Act → Option Key
  | (past, .set k true) => if k ∈ heldBy past then none else some k
  | _ => none

/-- The last key that went from released to held since all keys went up and since a press was taken or
forgotten. -/
def lastPressed (past : List Act) : Option Key :=
  (((occasions [] past).rtakeWhile fun o => !o.2.forgets).filterMap pressed?).getLast?

/-! ### One more act -/

theorem after_append (p : Keypad) (first rest : List Act) :
    p.after (first ++ rest) = (p.after first).after rest :=
  List.foldl_append

theorem after_concat (p : Keypad) (past : List Act) (a : Act) : p.after (past ++ [a]) = (p.after past).act a :=
  after_append p past [a]

theorem occasions_concat (old past : List Act) (a : Act) :
    occasions old (past ++ [a]) = occasions old past ++ [(old ++ past, a)] := by
  induction past generalizing old with
  | nil => simp [occasions]
  | cons b rest ih =>
    rw [List.cons_append, occasions, ih, occasions, List.append_assoc]
    rfl

/-- A move of the key is its last one, a clear leaves none, and other acts are no moves of it. -/
theorem mem_heldBy_concat (past : List Act) (a : Act) (k : Key) :
    k ∈ heldBy (past ++ [a]) ↔
      match a with
      | .set j down => if k = j then down = true else k ∈ heldBy past
      | .clear => False
      | _ => k ∈ heldBy past := by
  cases a with
  | set j down =>
    by_cases same : k = j
    · simp [heldBy, sinceClear, Act.moves?, same]
    · simp [heldBy, sinceClear, Act.moves?, same, Ne.symm same]
  | _ => simp [heldBy, sinceClear, Act.moves?]

/-- What is pressed is the last press, and nothing is remembered of the time before an act that forgets. -/
theorem lastPressed_concat (past : List Act) (a : Act) :
    lastPressed (past ++ [a]) = if a.forgets then none else (pressed? (past, a)).or (lastPressed past) := by
  rw [lastPressed, occasions_concat, List.rtakeWhile_concat, List.nil_append]
  cases hf : a.forgets with
  | true => rfl
  | false =>
    cases hp : pressed? (past, a) <;> simp [hp, lastPressed]

/-! ### The keypad after a past -/

/-- **The keys that are held** are those whose last move was down. -/
theorem isHeld_after (past : List Act) (k : Key) :
    (({} : Keypad).after past).isHeld k = true ↔ k ∈ heldBy past := by
  induction past using List.reverseRecOn with
  | nil => simp [after, isHeld, heldBy, sinceClear]
  | append_singleton past a ih =>
    rw [after_concat, mem_heldBy_concat, ← ih]
    cases a with
    | set j down =>
      rw [act, isHeld_set]
      by_cases same : k = j <;> simp [same]
    | clear => simp [act]
    | _ => rfl

/-- **The key that is remembered** is the last one that was pressed. -/
theorem latched_after (past : List Act) : (({} : Keypad).after past).latched = lastPressed past := by
  induction past using List.reverseRecOn with
  | nil => rfl
  | append_singleton past a ih =>
    rw [after_concat, lastPressed_concat, ← ih]
    cases a with
    | set j down =>
      have released : (({} : Keypad).after past).isHeld j = false ↔ j ∉ heldBy past := by
        rw [← isHeld_after, Bool.not_eq_true]
      rw [act, latched_set]
      simp only [released]
      cases down with
      | false => rfl
      | true => by_cases held : j ∈ heldBy past <;> simp [held, pressed?, Act.forgets]
    | _ => rfl

/-! ### What a keypad shows -/

/-- The number of the bits has a bit for each key that is held. -/
theorem testBit_bits (p : Keypad) (i : Nat) :
    p.bits.testBit i = true ↔ ∃ k, p.isHeld k = true ∧ (k : Nat) = i := by
  rw [bits, BitVec.testBit_toNat]
  constructor
  · intro set
    exact ⟨⟨i, BitVec.lt_of_getLsbD set⟩, set, rfl⟩
  · rintro ⟨k, held, rfl⟩
    exact held

theorem any_iff (p : Keypad) : p.any = true ↔ ∃ k, p.isHeld k = true := by
  rw [any, decide_eq_true_eq, ← not_iff_not, not_not, not_exists]
  simp only [Bool.not_eq_true]
  constructor
  · intro none k
    rw [isHeld, none]
    exact BitVec.getLsbD_zero
  · intro released
    exact held_ext (q := {}) fun k => (released k).trans BitVec.getLsbD_zero.symm

/-- The first key is the least one that is held. -/
theorem first?_eq_some_iff (p : Keypad) (k : Key) :
    p.first? = some k ↔ IsLeast {j | p.isHeld j = true} k := by
  rw [first?, Key.all, List.find?_eq_some_iff_getElem]
  constructor
  · rintro ⟨held, i, inside, found, before⟩
    refine ⟨held, fun j hj => ?_⟩
    by_contra below
    have place : (k : Nat) = i := by simp [← found]
    have released := before j (place ▸ Fin.not_le.1 below)
    simp [show p.isHeld j = true from hj] at released
  · rintro ⟨held, least⟩
    refine ⟨held, k, by simp, by simp, fun j hj => ?_⟩
    rw [List.getElem_finRange, Bool.not_eq_true', Bool.eq_false_iff]
    intro down
    exact absurd (least down) (Fin.not_le.2 hj)

theorem first?_eq_none_iff (p : Keypad) : p.first? = none ↔ ∀ k, p.isHeld k = false := by
  simp [first?, Key.all]

/-! ### The order of moves -/

/-- Two keys may be moved in either order. -/
theorem held_set_comm (p : Keypad) {j k : Key} (other : j ≠ k) (down down' : Bool) :
    ((p.set k down').set j down).held = ((p.set j down).set k down').held := by
  refine held_ext fun i => ?_
  simp only [isHeld_set]
  by_cases hi : i = j
  · subst hi
    simp [other]
  · simp [hi]

/-- What is remembered has no influence on the keys that are held. -/
theorem held_after_congr {p q : Keypad} (same : q.held = p.held) (acts : List Act) :
    (q.after acts).held = (p.after acts).held := by
  induction acts generalizing p q with
  | nil => exact same
  | cons a rest ih =>
    refine ih ?_
    cases a with
    | set k down => cases down <;> simp [act, set, same]
    | clear => rfl
    | _ => exact same

/-- **The past tells all that a keypad shows.** Take a new keypad and anything that was done to it: keys that
went down and up, clears, and presses that were taken or forgotten. A byte names a key that is held just if the
last move of this key since the last clear was down; only the low four bits of the byte count. The bits of the
keypad are these keys, there are any just if there is such a key, and the first one is the least of them. The
press that could be taken is the last one of a key that was released before, since the last clear and since
a press was taken or forgotten. And when two moves in a row are of different keys, their order makes no
difference to the bits. -/
theorem history_tells_keypad (history : List Act) :
    let p := ({} : Keypad).after history
    (∀ b : UInt8, p.isHeld (Key.ofByte b) = true ↔ ∃ k ∈ heldBy history, (k : Nat) = b.toNat % 16) ∧
      (∀ i, p.bits.testBit i = true ↔ ∃ k ∈ heldBy history, (k : Nat) = i) ∧
      (p.any = true ↔ (heldBy history).Nonempty) ∧
      (∀ k, p.first? = some k ↔ IsLeast (heldBy history : Set Key) k) ∧
      (p.first? = none ↔ heldBy history = ∅) ∧
      p.take.1 = lastPressed history ∧
      ∀ before j down k down' rest, j ≠ k → history = before ++ .set j down :: .set k down' :: rest →
        (({} : Keypad).after (before ++ .set k down' :: .set j down :: rest)).bits = p.bits := by
  intro p
  have held (k : Key) : p.isHeld k = true ↔ k ∈ heldBy history := isHeld_after history k
  refine ⟨fun b => ?_, fun i => ?_, ?_, fun k => ?_, ?_, latched_after history, ?_⟩
  · rw [held]
    constructor
    · exact fun down => ⟨_, down, rfl⟩
    · rintro ⟨k, down, named⟩
      rwa [show Key.ofByte b = k from Fin.ext named.symm]
  · simp only [testBit_bits, held]
  · simp only [any_iff, held]
    rfl
  · simp only [first?_eq_some_iff, held]
    rfl
  · simp only [first?_eq_none_iff, ← Bool.not_eq_true, held, Finset.eq_empty_iff_forall_notMem]
  · rintro before j down k down' rest other rfl
    have moved := held_set_comm (({} : Keypad).after before) other down down'
    have later := held_after_congr moved rest
    refine congrArg BitVec.toNat ?_
    simp only [p, after_append]
    exact later

/-- Of the keys that went down since the last clear, one went up again and one was put down twice; the press of
the one that went up last is remembered. -/
theorem history_tells_keypad_putDownTwice :
    let history : List Act := [.set 3 true, .clear, .set 12 true, .set 7 true, .take, .set 12 true, .set 4 true,
      .set 12 false, .set 7 true, .set 4 false]
    let p := ({} : Keypad).after history
    heldBy history = {7} ∧ p.isHeld (Key.ofByte 0x47) = true ∧ p.any = true ∧ p.first? = some 7 ∧
      p.take.1 = some 4 ∧
      (({} : Keypad).after [.set 3 true, .clear, .set 7 true, .set 12 true, .take, .set 12 true, .set 4 true,
        .set 12 false, .set 7 true, .set 4 false]).bits = p.bits := by
  intro history p
  have seven : heldBy history = {7} := by decide +kernel
  obtain ⟨named, -, any, first, -, taken, swapped⟩ := history_tells_keypad history
  refine ⟨seven, (named 0x47).2 ⟨7, by simp [seven], rfl⟩, any.2 ⟨7, by simp [seven]⟩,
    (first 7).2 (by simp [seven]), taken.trans (by decide +kernel),
    swapped [.set 3 true, .clear] 12 true 7 true _ (by decide) rfl⟩

end ChipEight.Keypad
