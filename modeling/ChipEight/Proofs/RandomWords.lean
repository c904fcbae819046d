import ChipEight.Proofs.Moments
import ChipEight.Proofs.Pattern

/-!
# Where a machine is in its stream

The instruction `Cxkk` takes a word from the generator, and nothing else does: no other instruction, no
cycle that fails or comes to the end of the program, and no load (`generator_after`). So a machine has
taken as many words as it has executed such instructions since it was switched on, and the one with the
number `j` gets word number `j` of the stream of the seed (`draws_follow_stream`).
-/

namespace ChipEight

/-- The move executes a word `Cxkk`. -/
def Moment.draws (t : Moment) : Bool :=
  match t.executed? with
  | some i => i.word.toNat / 0x1000 = 0xC
  | none => false

namespace Machine

/-- The words of the instruction that takes a random word. -/
theorem op_eq_random_iff {t : Moment} {i : Instruction} (h : t.executed? = some i) {x : Register}
    {mask : UInt8} :
    i.op = .random x mask ↔ i.word.toNat = 0xC000 + 0x100 * x + mask.toNat :=
  Moment.op_eq_iff h (show (Op.random x mask).Listed from trivial)

/-- A move draws just if it executes this instruction. -/
theorem draws_iff {t : Moment} {i : Instruction} (h : t.executed? = some i) :
    t.draws = true ↔ ∃ x mask, i.op = .random x mask := by
  simp only [Moment.draws, h, decide_eq_true_eq, op_eq_random_iff h]
  have byByte := Op.toNat_eq_byte i.word
  constructor
  · intro family
    exact ⟨i.word.x, i.word.byte, by rw [byByte, Word.family, family]⟩
  · rintro ⟨x, mask, row⟩
    exact (Op.fields_of_byte (c := 0xC) row).1

/-- What `Cxkk` does: the byte is stored under the mask, and the generator has one word less. -/
theorem execute_random {m n : Machine} {a : Address} {x : Register} {mask : UInt8}
    {records : List Record} (h : m.execute a (.random x mask) = ⟨n, records, .ok ()⟩) :
    n.registers.get x = mask &&& m.generator.peek ∧ n.generator = m.generator.advanced := by
  cases h
  exact ⟨(Registers.get_set ..).trans (if_pos rfl), rfl⟩

/-- **What a move does to the generator**: it takes one word if it executes `Cxkk`, and none
otherwise. -/
theorem generator_after (t : Moment) :
    t.after.generator = if t.draws then t.before.generator.advanced else t.before.generator := by
  cases he : t.executed? with
  | some i =>
    obtain ⟨-, -, -, records, hx⟩ := Moment.exists_of_executed he
    by_cases random : ∃ x mask, i.op = .random x mask
    · rw [if_pos ((draws_iff he).2 random)]
      obtain ⟨x, mask, op⟩ := random
      rw [op] at hx
      exact (execute_random hx).2
    · rw [if_neg fun draws => random ((draws_iff he).1 draws)]
      refine execute_frame (p := .generator) hx ?_
      cases op : i.op with
      | random x mask => exact absurd ⟨x, mask, op⟩ random
      | _ => rfl
  | none =>
    have draws : t.draws = false := by rw [Moment.draws, he]
    rw [draws, if_neg Bool.false_ne_true]
    obtain ⟨m, move⟩ := t
    cases move with
    | cycle => rw [Moment.after_of_executed_none rfl he]
    | load program =>
      cases hr : (Move.load program).reloads with
      | true =>
        obtain ⟨_, -, restarted⟩ := make_of_reloads (m := m) hr
        rw [Moment.after, restarted]
        rfl
      | false => rw [Moment.after, make_load hr]
    | _ => rfl

/-- **A machine has taken one word for each `Cxkk`** that it has executed. -/
theorem generator_perform (m : Machine) (moves : List Move) :
    (m.perform moves).generator =
      ⟨m.generator.key, m.generator.taken + (m.path moves).countP Moment.draws⟩ := by
  induction moves generalizing m with
  | nil => rfl
  | cons move rest ih =>
    have first := generator_after ⟨m, move⟩
    rw [Moment.after] at first
    rw [perform, ih, first, path, List.countP_cons]
    cases Moment.draws ⟨m, move⟩ with
    | true => simp [Generator.advanced, Nat.add_assoc, Nat.add_comm 1]
    | false => simp

/-- **The random words come one after the other.** Take any machine that is set up with a seed, and any
history of it. At every moment, the number of words that were taken from the stream is the number of
`Cxkk` executed before, whatever was loaded, refused, failed or waited for in between, and the move takes
one just if it executes such an instruction. The one that comes after `j` others stores in `Vx` the low
eight bits of word number `j` of the stream of the seed, under the mask `kk`. -/
theorem draws_follow_stream (config : Config) (seed : UInt64) (chance : StreamKey) (history : List Event) :
    let m := create { config with seed := some seed } chance
    let stream := Generator.keyOfSeed seed
    (∀ past t future, m.moments history = past ++ t :: future →
      t.before.generator = ⟨stream, past.countP Moment.draws⟩ ∧
        t.after.generator = (if t.draws then t.before.generator.advanced else t.before.generator) ∧
        ∀ i, t.executed? = some i → ∀ (x : Register) (kk : UInt8),
          i.word.toNat = 0xC000 + 0x100 * x + kk.toNat →
            (t.after.registers.get x).toNat =
              ((Generator.word stream (past.countP Moment.draws)).toNat % 256) &&& kk.toNat) ∧
      (m.after history).generator = ⟨stream, (m.moments history).countP Moment.draws⟩ := by
  intro m stream
  have taken (moves : List Move) :
      (m.perform moves).generator = ⟨stream, (m.path moves).countP Moment.draws⟩ := by
    rw [generator_perform, show m.generator = ⟨stream, 0⟩ from rfl, Nat.zero_add]
  refine ⟨fun past t future split => ?_, ?_⟩
  · obtain ⟨old, new, -, hpast, hbefore, -⟩ := exists_of_path_eq split
    have before : t.before.generator = ⟨stream, past.countP Moment.draws⟩ := by
      rw [hbefore, hpast]
      exact taken old
    refine ⟨before, generator_after t, fun i executed x kk word => ?_⟩
    obtain ⟨-, -, -, records, hx⟩ := Moment.exists_of_executed executed
    rw [(op_eq_random_iff executed).2 word] at hx
    have peeked : (t.before.goto (Address.next t.before.pc)).generator.peek =
        (Generator.word stream (past.countP Moment.draws)).toUInt8 := by
      change t.before.generator.peek = _
      rw [before, Generator.peek]
    rw [(execute_random hx).1, peeked, UInt8.toNat_and, UInt32.toNat_toUInt8, Nat.and_comm]
  · rw [← perform_moves]
    exact taken _

/-- A program that takes two random words, the first of which it masks out, and comes to its end. -/
def twoDraws : List UInt8 := [0xC0, 0x00, 0xC1, 0xFF]

/-- A program that takes a random word. -/
def oneDraw : List UInt8 := [0xC2, 0x7F]

/-- After two words taken by a program that has ended, and a load that is refused, another program gets
the third word of the stream. -/
theorem draws_follow_stream_oneDraw :
    let m := create { seed := some 7 } 0
    let history := [.load twoDraws, .step, .step, .step, .load (List.replicate 3585 0), .load oneDraw, .step]
    ∃ past t, m.moments history = past ++ t :: [] ∧
      t.executed? = some ⟨0x200, 0xC27F, .random 2 0x7F⟩ ∧ past.countP Moment.draws = 2 ∧
      (t.after.registers.get 2).toNat = ((Generator.word (Generator.keyOfSeed 7) 2).toNat % 256) &&& 0x7F ∧
      (m.after history).generator.taken = 3 := by
  intro m history
  let old : List Move := [.load twoDraws, .drop, .cycle, .drop, .cycle, .drop, .cycle,
    .load (List.replicate 3585 0), .load oneDraw, .drop]
  have split : m.moments history = m.path old ++ ⟨m.perform old, .cycle⟩ :: [] := rfl
  have executed : Moment.executed? ⟨m.perform old, .cycle⟩ = some ⟨0x200, 0xC27F, .random 2 0x7F⟩ := by
    decide +kernel
  have before : (m.path old).countP Moment.draws = 2 := by decide +kernel
  obtain ⟨each, end_of_history⟩ := draws_follow_stream {} 7 0 history
  obtain ⟨-, -, stored⟩ := each _ _ _ split
  have third := stored _ executed 2 0x7F (by decide)
  rw [before] at third
  refine ⟨_, _, split, executed, before, third, ?_⟩
  change (m.after history).generator = _ at end_of_history
  rw [end_of_history, split, List.countP_append, before]
  decide +kernel

end Machine

end ChipEight
