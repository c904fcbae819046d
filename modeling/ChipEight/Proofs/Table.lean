import ChipEight.Proofs.Drawing
import ChipEight.Proofs.Execution
import ChipEight.Proofs.Pattern
import ChipEight.Proofs.Window

/-!
# The table of effects

The instruction set once more, as the table that programmers read: for each row, what it makes of
the registers, of memory and of the rest, computed in plain numbers from the values before it.
`Plain` is the state of a machine in plain numbers, without words of fixed width, vectors and bit
masks; `Op.row` is the table.

`plain_execute` says that executing an instruction is following its row, and
`step_follows_table` that a step reads its instruction by the bit patterns and then follows its
row, and nothing else: a machine is determined by its state in plain numbers
(`plain_injective`).
-/

namespace ChipEight

/-- The state of a machine in plain numbers. -/
structure Plain where
  /-- What it was set up with. -/
  config : Config
  /-- Where its random words come from. -/
  generator : Generator
  /-- The contents of memory; addresses count modulo 4096. -/
  memory : Nat → Nat
  /-- The contents of the registers. -/
  v : Register → Nat
  /-- The index. -/
  i : Nat
  /-- The address of the next instruction. -/
  pc : Nat
  /-- The addresses to return to, the last call first. -/
  stack : List Nat
  /-- The delay timer. -/
  delay : Nat
  /-- The sound timer. -/
  sound : Nat
  /-- The pixels; columns count modulo 64 and lines modulo 32. -/
  lit : Nat → Nat → Bool
  /-- The held keys. -/
  held : Key → Bool
  /-- The last key that went down. -/
  latched : Option Key
  /-- The machine waits for a key. -/
  waiting : Bool
  /-- The machine was asked to stop. -/
  interrupted : Bool

namespace Plain

variable (s : Plain)

/-! ### The parts of rows -/

/-- On to the next instruction. -/
def next : Plain := { s with pc := (s.pc + 2) % 4096 }

/-- On to the next instruction, or past it. -/
def skip (c : Bool) : Plain := { s with pc := (s.pc + if c then 4 else 2) % 4096 }

/-- A number into a register. -/
def load (x : Register) (n : Nat) : Plain := { s with v := fun y => if x = y then n else s.v y }

/-- Numbers into memory, from the index on. -/
def write (numbers : List Nat) : Plain :=
  { s with memory := fun c => numbers.getD (Address.offset s.i c) (s.memory c) }

/-- The result of an arithmetic rule on two numbers, and the flag where the rule has one. -/
def combine (rule : Arith) (a b : Nat) : Nat × Option Nat :=
  match rule with
  | .copy => (b, none)
  | .or => (a ||| b, none)
  | .and => (a &&& b, none)
  | .xor => (a ^^^ b, none)
  | .add => ((a + b) % 256, some (if 255 < a + b then 1 else 0))
  | .sub => ((a + 256 - b) % 256, some (if b ≤ a then 1 else 0))
  | .shiftRight => (a / 2, some (a % 2))
  | .subFrom => ((b + 256 - a) % 256, some (if a ≤ b then 1 else 0))
  | .shiftLeft => (2 * a % 256, some (a / 128))

/-- The result of an arithmetic rule into `x`, and then the flag into `VF`. -/
def arith (rule : Arith) (x y : Register) : Plain :=
  match combine rule (s.v x) (s.v y) with
  | (result, none) => s.load x result
  | (result, some flag) => (s.load x result).load 15 flag

/-- The bit in a row and a column of the sprite at the index. -/
def spriteBit (r c : Nat) : Bool := (s.memory (s.i + r)).testBit (7 - c)

/-- The sprite of `n` rows at the index, drawn at a place, covers a pixel. -/
def Covers (x y n px py : Nat) : Prop :=
  ∃ r < n, ∃ c < 8, s.spriteBit r c = true ∧ (x + c) % 64 = px % 64 ∧ (y + r) % 32 = py % 32

instance (x y n px py : Nat) : Decidable (s.Covers x y n px py) := by
  unfold Covers
  infer_instance

/-- A set bit of the sprite is over a pixel that is lit. -/
def Hits (x y n : Nat) : Prop :=
  ∃ r < n, ∃ c < 8, s.spriteBit r c = true ∧ s.lit (x + c) (y + r) = true

instance (x y n : Nat) : Decidable (s.Hits x y n) := by
  unfold Hits
  infer_instance

/-- The sprite of `n` rows at the index turns over the pixels that it covers; `VF` is the
collision. -/
def draw (x y n : Nat) : Plain :=
  { s.load 15 (if s.Hits x y n then 1 else 0) with
    lit := fun px py => xor (s.lit px py) (decide (s.Covers x y n px py)) }

/-- The wait for a key: it begins, it goes on, or a press ends it. -/
def await (x : Register) : Plain :=
  match s.waiting, s.latched with
  | false, _ => { s with latched := none, waiting := true }
  | true, none => s
  | true, some k => { s.next.load x k with latched := none, waiting := false }

/-- The hundreds, the tens and the units of a byte. -/
def decimals (n : Nat) : List Nat := [n / 100, n / 10 % 10, n % 10]

end Plain

/-! ### The table -/

/-- What the row of an instruction makes of a state. There is nothing where it cannot be
executed. -/
def Op.row (s : Plain) : Op → Option Plain
  | system _ => some s.next
  | clear => some { s.next with lit := fun _ _ => false }
  | ret =>
    match s.stack with
    | [] => none
    | a :: rest => some { s with pc := a, stack := rest }
  | jump a => some { s with pc := a }
  | call a =>
    if s.stack.length < 16 then some { s with pc := a, stack := s.next.pc :: s.stack } else none
  | skipEqByte x b => some (s.skip (s.v x = b.toNat))
  | skipNeByte x b => some (s.skip (s.v x ≠ b.toNat))
  | skipEq x y => some (s.skip (s.v x = s.v y))
  | loadByte x b => some (s.next.load x b.toNat)
  | addByte x b => some (s.next.load x ((s.v x + b.toNat) % 256))
  | arith rule x y => some (s.next.arith rule x y)
  | skipNe x y => some (s.skip (s.v x ≠ s.v y))
  | loadIndex a => some { s.next with i := a }
  | jumpOffset a => some { s with pc := (a + s.v 0) % 4096 }
  | random x mask =>
    some { s.next.load x ((Generator.word s.generator.key s.generator.taken).toNat % 256 &&& mask.toNat) with
      generator := ⟨s.generator.key, s.generator.taken + 1⟩ }
  | draw x y n => some (s.next.draw (s.v x) (s.v y) n)
  | skipHeld x => some (s.skip (s.held (Fin.ofNat 16 (s.v x))))
  | skipFree x => some (s.skip (!s.held (Fin.ofNat 16 (s.v x))))
  | readDelay x => some (s.next.load x s.delay)
  | awaitKey x => some (s.await x)
  | setDelay x => some { s.next with delay := s.v x }
  | setSound x => some { s.next with sound := s.v x }
  | addIndex x => some { s.next with i := (s.i + s.v x) % 4096 }
  | glyph x => some { s.next with i := 5 * (s.v x % 16) }
  | decimal x => some (s.next.write (Plain.decimals (s.v x)))
  | save x => some (s.next.write (((List.finRange 16).take (x + 1)).map s.v))
  | restore x => some { s.next with v := fun y => if y ≤ x then s.memory (s.i + y) else s.v y }
  | unknown _ => some s.next

namespace Machine

/-- The state of a machine in plain numbers. -/
def plain (m : Machine) : Plain where
  config := m.config
  generator := m.generator
  memory a := (m.memory.get a).toNat
  v x := (m.registers.get x).toNat
  i := m.index
  pc := m.pc
  stack := m.stack
  delay := m.timers.delay.toNat
  sound := m.timers.sound.toNat
  lit := m.display.get
  held := m.keypad.isHeld
  latched := m.keypad.latched
  waiting := m.waiting
  interrupted := m.interrupted

/-- **A machine is determined by its state in plain numbers.** -/
theorem plain_injective {m n : Machine} (h : m.plain = n.plain) : m = n := by
  simp only [plain, Plain.mk.injEq] at h
  obtain ⟨config, generator, memory, registers, index, pc, stack, delay, sound, display, held,
    latched, waiting, interrupted⟩ := h
  have memory : m.memory = n.memory :=
    Memory.ext fun a _ => UInt8.toNat_inj.1 (congrFun memory a)
  have registers : m.registers = n.registers :=
    Registers.ext fun x => UInt8.toNat_inj.1 (congrFun registers x)
  have timers : m.timers = n.timers := by
    cases hm : m.timers
    cases hn : n.timers
    rw [hm, hn] at delay sound
    rw [Timers.mk.injEq]
    exact ⟨UInt8.toNat_inj.1 delay, UInt8.toNat_inj.1 sound⟩
  have display : m.display = n.display :=
    Display.ext fun x _ y _ => congrFun (congrFun display x) y
  have keypad : m.keypad = n.keypad := by
    cases hm : m.keypad
    cases hn : n.keypad
    rw [hm, hn] at held latched
    rw [Keypad.mk.injEq]
    exact ⟨BitVec.eq_of_getLsbD_eq fun k hk => congrFun held ⟨k, hk⟩, latched⟩
  cases m
  cases n
  simp only [mk.injEq]
  exact ⟨config, generator, memory, registers, index, pc, stack, timers, display, keypad, waiting,
    interrupted⟩

/-! ### What the parts of instructions are in plain numbers -/

theorem plain_next (m : Machine) : (m.goto (Address.next m.pc)).plain = m.plain.next := rfl

theorem plain_skipIf (m : Machine) (c : Bool) :
    ((m.goto (Address.next m.pc)).skipIf c).plain = m.plain.skip c := by
  cases c
  · rfl
  · have twice (a : Nat) : ((a + 2) % 4096 + 2) % 4096 = (a + 4) % 4096 := by omega
    exact congrArg (fun a => { m.plain with pc := a }) (twice m.pc)

theorem plain_put (m : Machine) (x : Register) (b : UInt8) :
    (m.put x b).plain = m.plain.load x b.toNat := by
  unfold put plain Plain.load
  simp only [Registers.get_set, apply_ite UInt8.toNat]

theorem toNat_flag (p : Prop) [Decidable p] : (decide p).toUInt8.toNat = if p then 1 else 0 := by
  by_cases hp : p
  · rw [if_pos hp, decide_eq_true hp]
    rfl
  · rw [if_neg hp, decide_eq_false hp]
    rfl

/-- The arithmetic rules compute on bytes what they say on numbers. -/
theorem toNat_eval (rule : Arith) (a b : UInt8) :
    ((rule.eval a b).1.toNat, (rule.eval a b).2.map UInt8.toNat) =
      Plain.combine rule a.toNat b.toNat := by
  have ha := a.toNat_lt
  have hb := b.toNat_lt
  cases rule with
  | copy => rfl
  | or => simp [Arith.eval, Plain.combine]
  | and => simp [Arith.eval, Plain.combine]
  | xor => simp [Arith.eval, Plain.combine]
  | add => simp [Arith.eval, Plain.combine, toNat_flag]
  | sub =>
    have difference : (2 ^ 8 - b.toNat + a.toNat) % 2 ^ 8 = (a.toNat + 256 - b.toNat) % 256 := by
      omega
    simp only [Arith.eval, Plain.combine, Option.map_some, toNat_flag, UInt8.toNat_sub, difference,
      UInt8.le_iff_toNat_le]
  | shiftRight => simp [Arith.eval, Plain.combine]
  | subFrom =>
    have difference : (2 ^ 8 - a.toNat + b.toNat) % 2 ^ 8 = (b.toNat + 256 - a.toNat) % 256 := by
      omega
    simp only [Arith.eval, Plain.combine, Option.map_some, toNat_flag, UInt8.toNat_sub, difference,
      UInt8.le_iff_toNat_le]
  | shiftLeft => simp [Arith.eval, Plain.combine, Nat.two_mul]

theorem plain_compute (m : Machine) (rule : Arith) (x y : Register) :
    (m.compute rule x y).plain = m.plain.arith rule x y := by
  have both := toNat_eval rule (m.registers.get x) (m.registers.get y)
  unfold compute Plain.arith
  change _ = match Plain.combine rule (m.registers.get x).toNat (m.registers.get y).toNat with
    | (result, none) => m.plain.load x result
    | (result, some flag) => (m.plain.load x result).load 15 flag
  rw [← both]
  obtain ⟨result, flag⟩ := rule.eval (m.registers.get x) (m.registers.get y)
  cases flag with
  | none => exact plain_put m x result
  | some f =>
    dsimp only [Option.map_some]
    rw [plain_put, plain_put]
    rfl

theorem plain_randomize (m : Machine) (x : Register) (mask : UInt8) :
    (m.randomize x mask).plain =
      { m.plain.load x ((Generator.word m.generator.key m.generator.taken).toNat % 256 &&&
          mask.toNat) with
        generator := ⟨m.generator.key, m.generator.taken + 1⟩ } := by
  have value : (mask &&& m.generator.peek).toNat =
      (Generator.word m.generator.key m.generator.taken).toNat % 256 &&& mask.toNat := by
    rw [UInt8.toNat_and, Nat.and_comm, Generator.peek, UInt32.toNat_toUInt8]
  rw [← value, ← plain_put]
  rfl

/-- What is stored from the index on. -/
theorem plain_storeAtIndex (m : Machine) {bytes : List UInt8} (h : bytes.length ≤ memorySize) :
    (m.storeAtIndex bytes).plain = m.plain.write (bytes.map UInt8.toNat) := by
  unfold storeAtIndex plain Plain.write
  simp only [Memory.get_store _ _ _ h, List.getD_map]

theorem bit_read (m : Machine) {n r : Nat} (h : r < n) (c : Nat) :
    Display.bit (m.memory.read m.index n) r c = m.plain.spriteBit r c := by
  unfold Display.bit
  rw [Memory.getD_read _ _ h]
  rfl

theorem covers_read (m : Machine) (x y n u v : Nat) :
    Display.Covers x y (m.memory.read m.index n) u v ↔ m.plain.Covers x y n u v := by
  unfold Display.Covers Plain.Covers
  rw [Memory.length_read]
  refine exists_congr fun r => and_congr_right fun hr => ?_
  simp only [m.bit_read hr]
  exact Iff.rfl

/-- Drawing, for a sprite that is not higher than the display. -/
theorem plain_drawSprite (m : Machine) (x y : Register) {n : Nat} (h : n ≤ Display.height) :
    (m.drawSprite x y n).plain = m.plain.draw (m.plain.v x) (m.plain.v y) n := by
  have fits : (m.memory.read m.index n).length ≤ Display.height := by
    rw [Memory.length_read]
    exact h
  have pixels := Display.get_draw m.display (m.plain.v x) (m.plain.v y) fits
  have collision := Display.draw_hit_iff m.display (m.plain.v x) (m.plain.v y) fits
  simp only [covers_read] at pixels
  rw [Memory.length_read] at collision
  unfold Plain.draw
  change
    let drawn := m.display.draw (m.plain.v x) (m.plain.v y) (m.memory.read m.index n)
    { (m.put Registers.flag drawn.2.toUInt8).plain with lit := drawn.1.get } = _
  intro drawn
  have hits : drawn.2 = decide (m.plain.Hits (m.plain.v x) (m.plain.v y) n) := by
    rw [Bool.eq_iff_iff, decide_eq_true_iff, collision]
    refine exists_congr fun r => and_congr_right fun hr => ?_
    simp only [m.bit_read hr]
    exact Iff.rfl
  have turned : drawn.1.get = fun u v =>
      xor (m.plain.lit u v) (decide (m.plain.Covers (m.plain.v x) (m.plain.v y) n u v)) := by
    funext u v
    exact pixels u v
  rw [plain_put, hits, toNat_flag, turned]
  rfl

theorem plain_awaitKey (m : Machine) (x : Register) :
    ((m.goto (Address.next m.pc)).awaitKey m.pc x).machine.plain = m.plain.await x := by
  have waits : (m.goto (Address.next m.pc)).waiting = m.plain.waiting := rfl
  have latch : (m.goto (Address.next m.pc)).keypad.latched = m.plain.latched := rfl
  rw [awaitKey_eq, waits, latch]
  unfold Plain.await
  cases hw : m.plain.waiting with
  | false => rfl
  | true =>
    cases m.plain.latched with
    | none => exact congrArg (fun w => { m.plain with waiting := w }) hw.symm
    | some k =>
      dsimp only
      rw [← plain_next, ← Key.toNat_toByte, ← plain_put]
      rfl

theorem map_decimalDigits (b : UInt8) :
    (decimalDigits b).map UInt8.toNat = Plain.decimals b.toNat := by
  simp [decimalDigits, Plain.decimals]

theorem map_upTo (m : Machine) (x : Register) :
    (m.registers.upTo x).map UInt8.toNat = ((List.finRange 16).take (x + 1)).map m.plain.v := by
  rw [Registers.upTo, Registers.bytes, ← List.map_take, List.map_map]
  rfl

theorem decide_eq_toNat (a b : UInt8) : decide (a = b) = decide (a.toNat = b.toNat) :=
  decide_eq_decide.2 UInt8.toNat_inj.symm

theorem decide_ne_toNat (a b : UInt8) : decide (a ≠ b) = decide (a.toNat ≠ b.toNat) :=
  decide_eq_decide.2 (not_congr UInt8.toNat_inj.symm)

/-! ### Executing is following the table -/

/-- **Executing an instruction is following its row**, and it fails where the row has nothing. -/
theorem plain_execute (m : Machine) {op : Op}
    (h : ∀ x y n, op = .draw x y n → n ≤ Display.height) :
    let o := (m.goto (Address.next m.pc)).execute m.pc op
    (o.answer.toOption.map fun _ => o.machine.plain) = op.row m.plain := by
  cases op with
  | system a => rfl
  | clear =>
    have dark : Display.dark.get = fun _ _ => false := by
      funext x y
      exact Display.get_dark x y
    exact congrArg (fun lit => some { m.plain.next with lit := lit }) dark
  | ret =>
    have stack : (m.goto (Address.next m.pc)).stack = m.plain.stack := rfl
    simp only [execute, Op.row, stack]
    cases m.plain.stack with
    | nil => rfl
    | cons a rest => rfl
  | jump a => rfl
  | call a =>
    have stack : (m.goto (Address.next m.pc)).stack = m.plain.stack := rfl
    simp only [execute, Op.row, stack, stackLimit]
    by_cases room : m.plain.stack.length < 16
    · rw [if_pos room, if_pos room]
      rfl
    · rw [if_neg room, if_neg room]
      rfl
  | skipEqByte x b =>
    refine congrArg some ?_
    dsimp only [execute]
    rw [plain_skipIf, decide_eq_toNat]
    rfl
  | skipNeByte x b =>
    refine congrArg some ?_
    dsimp only [execute]
    rw [plain_skipIf, decide_ne_toNat]
    rfl
  | skipEq x y =>
    refine congrArg some ?_
    dsimp only [execute]
    rw [plain_skipIf, decide_eq_toNat]
    rfl
  | loadByte x b => exact congrArg some (plain_put _ x b)
  | addByte x b =>
    refine congrArg some ?_
    dsimp only [execute]
    rw [plain_put, UInt8.toNat_add]
    rfl
  | arith rule x y => exact congrArg some (plain_compute _ rule x y)
  | skipNe x y =>
    refine congrArg some ?_
    dsimp only [execute]
    rw [plain_skipIf, decide_ne_toNat]
    rfl
  | loadIndex a => rfl
  | jumpOffset a => rfl
  | random x mask => exact congrArg some (plain_randomize _ x mask)
  | draw x y n => exact congrArg some (plain_drawSprite _ x y (h x y n rfl))
  | skipHeld x => exact congrArg some (plain_skipIf m _)
  | skipFree x => exact congrArg some (plain_skipIf m _)
  | readDelay x => exact congrArg some (plain_put _ x m.timers.delay)
  | awaitKey x =>
    dsimp only [execute]
    rw [answer_awaitKey]
    exact congrArg some (plain_awaitKey m x)
  | setDelay x => rfl
  | setSound x => rfl
  | addIndex x => rfl
  | glyph x =>
    have place : 0 + m.plain.v x % 16 * 5 = 5 * (m.plain.v x % 16) := by omega
    exact congrArg (fun i => some { m.plain.next with i := i }) place
  | decimal x =>
    refine congrArg some ?_
    have short : (decimalDigits (m.registers.get x)).length ≤ memorySize := by
      change 3 ≤ 4096
      decide
    have written := plain_storeAtIndex (m.goto (Address.next m.pc)) short
    rw [map_decimalDigits] at written
    exact written
  | save x =>
    refine congrArg some ?_
    have short : (m.registers.upTo x).length ≤ memorySize := by
      rw [Registers.upTo, List.length_take, Registers.length_bytes]
      exact Nat.le_trans (Nat.min_le_right _ _) (by decide)
    have written := plain_storeAtIndex (m.goto (Address.next m.pc)) short
    rw [map_upTo] at written
    exact written
  | restore x =>
    refine congrArg some ?_
    simp only [execute, plain, Registers.get_replaceUpTo, apply_ite UInt8.toNat]
    rfl
  | unknown w => rfl

/-! ### A step follows the table -/

/-- The word that is fetched has its high byte first; the low one may be around the end. -/
theorem fetch_eq {m : Machine} {w : Word}
    (h : w.toNat = m.plain.memory m.pc * 256 + m.plain.memory ((m.pc + 1) % 4096)) :
    m.memory.fetch m.pc = w := by
  have low : m.plain.memory ((m.pc + 1) % 4096) = m.plain.memory (m.pc + 1) :=
    congrArg UInt8.toNat (m.memory.get_wrap (m.pc + 1))
  refine UInt16.toNat_inj.1 ?_
  rw [h, low]
  exact Word.toNat_ofBytes _ _

theorem height_of_stands {w : Word} {x y : Register} {n : Nat} (h : Op.Stands w (.draw x y n)) :
    n < 16 := by
  rcases h with ⟨listed, -⟩ | ⟨unlisted, -⟩
  · exact listed
  · cases unlisted

/-- The digits of a byte make it up again. -/
theorem decimals_eq {n : Nat} (h : n < 256) :
    ∃ a b c, Plain.decimals n = [a, b, c] ∧ a ≤ 9 ∧ b ≤ 9 ∧ c ≤ 9 ∧ 100 * a + 10 * b + c = n :=
  ⟨n / 100, n / 10 % 10, n % 10, rfl, by omega, by omega, by omega, by omega⟩

/-- What is in the window after numbers were written. -/
theorem write_memory (s : Plain) (numbers : List Nat) {j : Nat} (h : j < memorySize) :
    (s.write numbers).memory (s.i + j) = numbers.getD j (s.memory (s.i + j)) := by
  unfold Plain.write
  dsimp only
  rw [Address.offset_add s.i h]

/-- What `Fx33` stores are the decimal digits of the register, the hundreds first. -/
theorem digits_of_row {s t : Plain} {x : Register} (h : Op.row s (.decimal x) = some t)
    (byte : s.v x < 256) :
    ∃ a b c, a ≤ 9 ∧ b ≤ 9 ∧ c ≤ 9 ∧ 100 * a + 10 * b + c = s.v x ∧
      t.memory s.i = a ∧ t.memory (s.i + 1) = b ∧ t.memory (s.i + 2) = c := by
  obtain ⟨a, b, c, digits, ha, hb, hc, value⟩ := decimals_eq byte
  have written : s.next.write [a, b, c] = t := by
    rw [← digits]
    exact Option.some.inj h
  have cell : ∀ j < memorySize, t.memory (s.i + j) = [a, b, c].getD j (s.memory (s.i + j)) := by
    intro j hj
    rw [← written]
    exact write_memory s.next _ hj
  exact ⟨a, b, c, ha, hb, hc, value, cell 0 (by decide), cell 1 (by decide), cell 2 (by decide)⟩

/-- **A step follows the table.** If the word at the program counter is not zero and the step does
not fail, then one row has its bit pattern. The step answers with the instruction of that row, the
one that the word is decoded to, and the machine after it is the one that the row makes of the old
one, in which a request to stop is dropped. The digits of `Fx33` are those of the decimal
system. -/
theorem step_follows_table {m : Machine} {w : Word}
    (fetched : w.toNat = m.plain.memory m.pc * 256 + m.plain.memory ((m.pc + 1) % 4096))
    (more : w ≠ 0) (fine : ∀ fault, m.step.answer ≠ .error fault) :
    ∃ op, (∀ row, Op.Stands w row ↔ row = op) ∧ Op.decode w = some op ∧
      m.step.answer = .ok (some ⟨m.pc, w, op⟩) ∧
      (∀ n : Machine,
        op.row { m.plain with interrupted := false } = some n.plain ↔ n = m.step.machine) ∧
      ∀ x, op = .decimal x →
        ∃ a b c, a ≤ 9 ∧ b ≤ 9 ∧ c ≤ 9 ∧ 100 * a + 10 * b + c = m.plain.v x ∧
          m.step.machine.plain.memory m.index = a ∧
          m.step.machine.plain.memory (m.index + 1) = b ∧
          m.step.machine.plain.memory (m.index + 2) = c := by
  have fetch : m.resume.memory.fetch m.resume.pc = w := fetch_eq fetched
  rcases m.resume.cycle_cases with ⟨ended, -⟩ | ⟨op, n, records, decoded, executed, done⟩ |
      ⟨op, fault, -, -, failed⟩
  · rw [next?, fetch, Op.decode_eq_none_iff] at ended
    exact absurd ended more
  · rw [next?, fetch] at decoded
    rw [fetch] at done
    have stands := (Op.decode_eq_some_iff.1 decoded).2
    have after : m.step.machine = n := by rw [machine_step, done]
    -- the row has a machine, and this one is the only one that it fits
    have follows : op.row { m.plain with interrupted := false } = some m.step.machine.plain := by
      have height : ∀ x y k, op = .draw x y k → k ≤ Display.height := by
        rintro x y k rfl
        exact Nat.le_trans (Nat.le_of_lt (height_of_stands stands)) (by decide)
      have execution := plain_execute m.resume height
      rw [executed] at execution
      rw [after]
      exact execution.symm
    refine ⟨op, fun row => ⟨fun hr => ?_, fun hr => hr ▸ stands⟩, decoded, ?_, fun n' => ?_, ?_⟩
    · exact Option.some.inj
        ((Op.decode_eq_some_iff.2 ⟨more, hr⟩).symm.trans decoded)
    · rw [answer_step, done]
      rfl
    · constructor
      · intro hn
        exact plain_injective (Option.some.inj (hn.symm.trans follows))
      · rintro rfl
        exact follows
    · rintro x rfl
      exact digits_of_row (s := m.resume.plain) follows (m.registers.get x).toNat_lt
  · have failing := fine fault
    rw [answer_step, failed] at failing
    exact absurd rfl failing

/-- `VF` is doubled, from 200: the sum is 144, but what stays is the carry, since `VF` is written
last. -/
theorem step_follows_table_doubled :
    let m := ((create {} 0).load [0x6F, 0xC8, 0x8F, 0xF4]).machine.step.machine
    m.plain.v 15 = 200 ∧ m.step.answer = .ok (some ⟨0x202, 0x8FF4, .arith .add 15 15⟩) ∧
      m.step.machine.plain.v 15 = 1 := by
  intro m
  have fetched : (0x8FF4 : Word).toNat =
      m.plain.memory m.pc * 256 + m.plain.memory ((m.pc + 1) % 4096) := by decide +kernel
  have fine : ∀ fault, m.step.answer ≠ .error fault := by
    intro fault failed
    have ok : m.step.answer.isOk = true := by decide +kernel
    rw [failed] at ok
    cases ok
  obtain ⟨op, -, decoded, answer, follows, -⟩ := step_follows_table fetched (by decide) fine
  obtain rfl : op = .arith .add 15 15 := Option.some.inj (decoded.symm.trans rfl)
  have row := (follows m.step.machine).2 rfl
  have carry : (Op.row { m.plain with interrupted := false } (.arith .add 15 15)).map
      (fun s => s.v 15) = some 1 := by decide +kernel
  have place : m.pc = 0x202 := by decide +kernel
  rw [row] at carry
  rw [place] at answer
  exact ⟨by decide +kernel, answer, Option.some.inj carry⟩

end Machine

end ChipEight
