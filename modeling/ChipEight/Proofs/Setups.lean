import ChipEight.Proofs.RandomWords
import ChipEight.Proofs.Surroundings

/-!
# What shows of a setup

A machine is set up with two frequencies and a seed. Nothing that it does depends on the frequencies, and
the seed comes to light only where an instruction `Cxkk` lets bits of a random word through its mask
(`Moment.showsWord`). Until then machines of any two setups do the same (`setup_hidden`): what the one has
more than the other is a change of its surroundings that no instruction sees.
-/

namespace ChipEight

/-- The move executes a word `Cxkk` whose mask `kk` is not zero. -/
def Moment.showsWord (t : Moment) : Bool :=
  match t.executed? with
  | some i => i.word.toNat / 0x1000 = 0xC ∧ i.word.toNat % 0x100 ≠ 0
  | none => false

/-- A change of the setup leaves the timers and the keypad alone. -/
structure Change.OfSetup (c : Change) : Prop where
  /-- The timers stay. -/
  timers : c.timers = id
  /-- The keypad stays. -/
  keypad : c.keypad = id

/-- Only an instruction that takes a random word may see a change of the setup. -/
theorem Change.OfSetup.unseen {c : Change} (h : c.OfSetup) {op : Op}
    (masked : ∀ x mask, op = .random x mask → c.Unseen (.random x mask)) : c.Unseen op := by
  cases op with
  | random x mask => exact masked x mask rfl
  | readDelay x | setDelay x | setSound x => exact congrFun h.timers
  | skipHeld x | skipFree x | awaitKey x => exact congrFun h.keypad
  | _ => trivial

/-- Another configuration, and the words of another stream from the same place on. -/
def Change.setup (config : Config) (key : StreamKey) : Change where
  config := fun _ => config
  generator := fun g => { g with key := key }

/-- Another setup is not seen until a word shows. -/
theorem Change.unseenAt_setup {t : Moment} (hidden : t.showsWord = false) (config : Config)
    (key : StreamKey) : (setup config key).UnseenAt t := by
  refine unseenAt_of_executed fun i executed => OfSetup.unseen ⟨rfl, rfl⟩ ?_
  intro x mask op
  have word := (Machine.op_eq_random_iff executed).1 op
  have bounds : (x : Nat) < 16 ∧ mask.toNat < 256 := ⟨x.isLt, mask.toNat_lt⟩
  simp only [Moment.showsWord, executed, decide_eq_false_iff_not, not_and, Decidable.not_not] at hidden
  have low : i.word.toNat % 0x100 = 0 := hidden (by omega)
  obtain rfl : mask = 0 := UInt8.toNat_inj.1 (show mask.toNat = 0 by omega)
  exact fun g => ⟨by rw [UInt8.zero_and, UInt8.zero_and], rfl⟩

/-- Another configuration alone is never seen. -/
theorem Change.unseenAt_config (t : Moment) (config : Config) :
    UnseenAt { config := fun _ => config } t :=
  fun _ _ _ => OfSetup.unseen ⟨rfl, rfl⟩ fun _ _ _ _ => ⟨rfl, rfl⟩

namespace Machine

/-- An event that does not see a change of the setup goes alike before and after it. -/
theorem apply_change {c : Change} (setup : c.OfSetup) {m : Machine} {e : Event}
    (unseen : ∀ t ∈ m.path (m.movesOf e), c.UnseenAt t) :
    (m.change c).apply e = { m.apply e with machine := (m.apply e).machine.change c } := by
  obtain ⟨timers, keypad⟩ := setup
  cases e with
  | load program =>
    simp only [apply, load, Outcome.map]
    split
    · rfl
    · simp only [restart, change, timers, keypad, id_eq]
  | step =>
    have cycle : c.UnseenBy m.resume := unseen ⟨m.resume, .cycle⟩ (by simp [movesOf, path, make]) rfl
    simp only [apply, step_change (m := m) cycle, Outcome.map]
  | run n => simp only [apply, run_change unseen, Outcome.map]
  | tick => simp only [apply, tick, change, timers, id_eq]
  | key k down => simp only [apply, setKey, change, keypad, id_eq]
  | clearKeys => simp only [apply, clearKeys, change, keypad, id_eq]
  | interrupt | takeInterrupt => rfl

/-- **A history that does not see a change of the setup goes alike before and after it.** -/
theorem replay_change {c : Change} (setup : c.OfSetup) {m : Machine} {history : List Event}
    (unseen : ∀ t ∈ m.moments history, c.UnseenAt t) :
    (m.change c).replay history =
      { m.replay history with machine := (m.after history).change c } := by
  induction history generalizing m with
  | nil => rfl
  | cons e rest ih =>
    rw [moments_cons, List.forall_mem_append] at unseen
    obtain ⟨first, later⟩ := unseen
    simp only [replay, apply_change setup first, ih later]
    rfl

/-- **The setup of a machine stays hidden.** Take two machines, each set up with any frequencies and any
seed or with none, and any history. As long as the one executes no `Cxkk` with a mask other than zero, the
other one answers and notes the same all along, and it ends as the same machine, but for its
configuration and the stream of its random words, of which it has taken as many. And if the two have the
same random words, then they can be told apart by nothing but the configuration itself. -/
theorem setup_hidden (config config' : Config) (chance chance' : StreamKey) (history : List Event) :
    let m := create config chance
    let n := create config' chance'
    ((∀ t ∈ m.moments history, t.showsWord = false) →
      n.replay history =
        { m.replay history with
          machine :=
            { m.after history with
              config := config'
              generator := ⟨n.generator.key, (m.after history).generator.taken⟩ } }) ∧
      (config'.streamKey chance' = config.streamKey chance →
        n.replay history =
          { m.replay history with machine := { m.after history with config := config' } }) := by
  intro m n
  constructor
  · intro hidden
    have other : n = m.change (.setup config' n.generator.key) := rfl
    rw [other]
    exact replay_change ⟨rfl, rfl⟩ fun t ht => Change.unseenAt_setup (hidden t ht) _ _
  · intro key
    have other : n = m.change { config := fun _ => config' } := by
      simp only [n, m, create, change, key, id_eq]
    rw [other]
    exact replay_change ⟨rfl, rfl⟩ fun t _ => Change.unseenAt_config t config'

/-- A program that takes a random word of which it lets nothing through, waits for a key, and returns from
no call. -/
def maskedDraw : List UInt8 := [0xC0, 0x00, 0xF1, 0x0A, 0x00, 0xEE]

/-- With other frequencies and another seed, whose first word has another low byte, the program waits at
the same place, takes the same key and fails alike. -/
theorem setup_hidden_maskedDraw :
    let m := create { clockFrequency := some 500, seed := some 1 } 0
    let n := create { timerFrequency := 50, seed := some 2 } 0
    let history := [.load maskedDraw, .run 3, .key 5 true, .tick, .interrupt, .step, .run 2]
    n.generator.peek ≠ m.generator.peek ∧ (∀ t ∈ m.moments history, t.showsWord = false) ∧
      (n.replay history).answer = (m.replay history).answer ∧
      (n.replay history).records = (m.replay history).records ∧
      (m.replay history).records = [.loaded 6, .waiting 0x202, .interruptDropped, .resumed 5] ∧
      (n.after history).pc = 0x204 ∧ (n.after history).generator.taken = 1 := by
  intro m n history
  have hidden : ∀ t ∈ m.moments history, t.showsWord = false := by decide +kernel
  obtain ⟨alike, -⟩ := setup_hidden { clockFrequency := some 500, seed := some 1 }
    { timerFrequency := 50, seed := some 2 } 0 0 history
  have same := alike hidden
  have machine : n.after history = _ := congrArg (fun o => o.machine) same
  refine ⟨by decide +kernel, hidden, by rw [same], by rw [same], by decide +kernel, ?_, ?_⟩
  · rw [machine]
    decide +kernel
  · rw [machine]
    decide +kernel

end Machine

end ChipEight
