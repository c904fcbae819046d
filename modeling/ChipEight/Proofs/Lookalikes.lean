import ChipEight.Proofs.Restart
import ChipEight.Proofs.Rows

/-!
# Words that are written alike

The text of an instruction hides one thing only, the second register of a shift. So listings that say
the same in every row are those of programs that differ in nothing but such registers, and since a shift
does not read its second register, a machine does not see the difference either (`text_faithful`).
-/

namespace ChipEight

/-! ### The bytes of words that are written alike -/

/-- The bytes of two words that are the same, or are shifts `8xy6` or `8xyE` that differ only in `y`. -/
def SameButShift (high low high' low' : UInt8) : Prop :=
  high = high' ∧
    (low = low' ∨
      high.toNat / 16 = 8 ∧ (low.toNat % 16 = 0x6 ∨ low.toNat % 16 = 0xE) ∧
        low'.toNat % 16 = low.toNat % 16)

theorem SameButShift.of_eq {high low high' low' : UInt8}
    (h : Word.ofBytes high low = Word.ofBytes high' low') : SameButShift high low high' low' :=
  (Word.ofBytes_inj h).imp_right Or.inl

theorem SameButShift.of_shift {high low high' low' : UInt8} {rule : Arith} {x y z : Register}
    (shift : rule.IsShift) (h : Op.decode (Word.ofBytes high low) = some (.arith rule x y))
    (h' : Op.decode (Word.ofBytes high' low') = some (.arith rule x z)) :
    SameButShift high low high' low' := by
  have word := Op.pattern_of_decode h
  have word' := Op.pattern_of_decode h'
  rw [Word.toNat_ofBytes, Op.pattern] at word word'
  have code : rule.code = 0x6 ∨ rule.code = 0xE := by
    rcases shift with rfl | rfl
    · exact Or.inl rfl
    · exact Or.inr rfl
  have bounds : (x : Nat) < 16 ∧ (y : Nat) < 16 ∧ (z : Nat) < 16 := ⟨x.isLt, y.isLt, z.isLt⟩
  have bound := low.toNat_lt
  have bound' := low'.toNat_lt
  exact ⟨UInt8.toNat_inj.1 (by omega), Or.inr ⟨by omega, by omega, by omega⟩⟩

/-- Lines that say the same show the same words, up to the second register of a shift. -/
theorem ListingLine.sameButShift {a : Address} {high low high' low' : UInt8}
    (h : (ofWord a (Word.ofBytes high low)).remark = (ofWord a (Word.ofBytes high' low')).remark) :
    SameButShift high low high' low' := by
  obtain ⟨zero, -⟩ := remark_ofWord a (Word.ofBytes high low)
  obtain ⟨zero', -⟩ := remark_ofWord a (Word.ofBytes high' low')
  cases hp : Op.decode (Word.ofBytes high low) with
  | none =>
    have first := Op.decode_eq_none_iff.1 hp
    have second := zero'.1 (h ▸ zero.2 first)
    exact .of_eq (first.trans second.symm)
  | some p =>
    cases hq : Op.decode (Word.ofBytes high' low') with
    | none =>
      have second := Op.decode_eq_none_iff.1 hq
      have first := zero.1 (h.trans (zero'.2 second))
      exact .of_eq (first.trans second.symm)
    | some q =>
      have texts : p.assembly.text = q.assembly.text := by
        simp only [ofWord, hp, hq] at h
        exact h
      rcases Op.eq_or_shift_of_text_eq hp hq texts with same | ⟨rule, x, y, z, shift, rfl, rfl⟩
      · exact .of_eq same
      · exact .of_shift shift hp hq

/-- What the rows say about their bytes is what the lines say. -/
theorem Listing.map_assembly (program : List UInt8) :
    (rows (text program)).map assemblyColumn = (ofProgram program).map fun l => l.remark.toList := by
  rw [rows_text, List.map_map]
  exact List.map_congr_left fun l hl => ListingLine.assemblyColumn_text (address_lt_of_mem_lines hl)

/-- Programs whose listings say the same have the same words, up to the second registers of shifts. -/
theorem Listing.sameButShift {a b : List UInt8} {i : Nat}
    (h : (rows (text a)).map assemblyColumn = (rows (text b)).map assemblyColumn)
    (ha : 2 * i + 1 < a.length) (hb : 2 * i + 1 < b.length) :
    SameButShift a[2 * i] a[2 * i + 1] b[2 * i] b[2 * i + 1] := by
  rw [map_assembly, map_assembly] at h
  have row := congrArg (fun column => column[i]?) h
  simp only [List.getElem?_map, ofProgram, getElem?_lines, lineAt?, List.getElem?_eq_getElem ha,
    List.getElem?_eq_getElem hb, List.getElem?_eq_getElem (Nat.lt_of_succ_lt ha),
    List.getElem?_eq_getElem (Nat.lt_of_succ_lt hb), Option.map_some, Option.some.injEq,
    String.toList_inj] at row
  exact ListingLine.sameButShift row

/-! ### Machines that find them -/

namespace Machine

/-- Two machines that differ at most in the two bytes of memory at an address. -/
structure AgreeOutside (a : Address) (m n : Machine) : Prop where
  /-- They differ only in memory. -/
  rest : n = { m with memory := n.memory }
  /-- They differ in no other cell. -/
  cells : ∀ c, Address.wrap c ≠ Address.wrap a → Address.wrap c ≠ Address.wrap (a + 1) →
    n.memory.get c = m.memory.get c

/-- They do not differ at all if they have the same word there. -/
theorem AgreeOutside.eq_of_fetch_eq {a : Address} {m n : Machine} (h : AgreeOutside a m n)
    (word : n.memory.fetch a = m.memory.fetch a) : n = m := by
  have bytes := Word.ofBytes_inj word
  have memory : n.memory = m.memory := by
    refine Memory.ext fun c _ => ?_
    by_cases high : Address.wrap c = Address.wrap a
    · rw [n.memory.get_congr high, m.memory.get_congr high, bytes.1]
    · by_cases low : Address.wrap c = Address.wrap (a + 1)
      · rw [n.memory.get_congr low, m.memory.get_congr low, bytes.2]
      · exact h.cells c high low
  rw [h.rest, memory]

theorem AgreeOutside.goto {a : Address} {m n : Machine} (h : AgreeOutside a m n) (b : Address) :
    AgreeOutside a (m.goto b) (n.goto b) := by
  refine ⟨?_, h.cells⟩
  rw [h.rest]
  rfl

theorem AgreeOutside.put {a : Address} {m n : Machine} (h : AgreeOutside a m n) (x : Register)
    (b : UInt8) : AgreeOutside a (m.put x b) (n.put x b) := by
  refine ⟨?_, h.cells⟩
  rw [h.rest]
  rfl

/-- Programs that differ in one word. -/
theorem AgreeOutside.restart {p q : List UInt8} {i : Nat} (hp : p.length ≤ programLimit)
    (hq : q.length ≤ programLimit)
    (same : ∀ j, j ≠ 2 * i → j ≠ 2 * i + 1 → q.getD j 0 = p.getD j 0) (m : Machine) :
    AgreeOutside (0x200 + 2 * i) (m.restart p) (m.restart q) := by
  refine ⟨rfl, fun c high low => ?_⟩
  change (Memory.ofProgram q).get c = (Memory.ofProgram p).get c
  rw [← Memory.get_wrap, ← Memory.get_wrap _ c, Guarded.get_ofProgram_eq hq (Address.wrap_lt c),
    Guarded.get_ofProgram_eq hp (Address.wrap_lt c)]
  split
  · rfl
  · next inside =>
    have place {j : Nat} (h : Address.wrap c - programStart = j) :
        Address.wrap c = Address.wrap (programStart + j) := by
      rw [← h, Nat.add_sub_cancel' (Nat.not_lt.1 inside), Address.wrap_wrap]
    exact same _ (fun h => high (place h)) (fun h => low (place h))

/-- A shift does not read its second register. -/
theorem compute_shift {rule : Arith} (shift : rule.IsShift) (m : Machine) (x y z : Register) :
    m.compute rule x y = m.compute rule x z := by
  rcases shift with rfl | rfl <;> rfl

/-- A step that comes to a shift. -/
theorem step_of_shift {m : Machine} {rule : Arith} {x y : Register}
    (hop : m.next? = some (.arith rule x y)) :
    m.step.machine = (m.resume.goto (Address.next m.pc)).compute rule x y ∧
      m.step.answer = .ok (some ⟨m.pc, m.memory.fetch m.pc, .arith rule x y⟩) ∧
      m.step.records = if m.interrupted then [.interruptDropped] else [] := by
  have hc : m.resume.cycle = ⟨(m.resume.goto (Address.next m.pc)).compute rule x y, [],
      .ok (some ⟨m.pc, m.memory.fetch m.pc, .arith rule x y⟩)⟩ :=
    cycle_of_execute_ok (m := m.resume) hop rfl
  refine ⟨by rw [machine_step, hc], by rw [answer_step, hc], ?_⟩
  rw [step, hc]
  dsimp only
  split <;> rfl

/-- What is seen of an answer in the text: where an instruction is and what it says, or the fault. -/
def written (answer : Except Fault (Option Instruction)) : Except Fault (Option (Address × String)) :=
  answer.map (Option.map fun i => (i.address, i.op.assembly.text))

/-- **Words that are written alike do the same.** -/
theorem step_of_text_eq {m n : Machine} {p q : Op} (h : AgreeOutside m.pc m n) (hp : m.next? = some p)
    (hq : n.next? = some q) (texts : p.assembly.text = q.assembly.text) :
    AgreeOutside m.pc m.step.machine n.step.machine ∧ n.step.records = m.step.records ∧
      written n.step.answer = written m.step.answer := by
  have pc : n.pc = m.pc := by rw [h.rest]
  rcases Op.eq_or_shift_of_text_eq hp hq texts with same | ⟨rule, x, y, z, shift, rfl, rfl⟩
  · rw [pc] at same
    rw [h.eq_of_fetch_eq same.symm]
    exact ⟨⟨rfl, fun _ _ _ => rfl⟩, rfl, rfl⟩
  · obtain ⟨machine, answer, records⟩ := step_of_shift hp
    obtain ⟨machine', answer', records'⟩ := step_of_shift hq
    have interrupted : n.interrupted = m.interrupted := by rw [h.rest]
    refine ⟨⟨?_, fun c high low => ?_⟩, ?_, ?_⟩
    · rw [machine, machine', compute_shift shift _ x z y, h.rest, compute_eq, compute_eq]
      rfl
    · rw [machine, machine', compute_eq, compute_eq]
      exact h.cells c high low
    · rw [records, records', interrupted]
    · rw [answer, answer', pc]
      exact congrArg (fun text => Except.ok (some (m.pc, text))) texts.symm

/-- **The text of instructions is faithful.** If two programs of the same even length have listings that
say the same in every row, they are the same but for the second registers of shifts. And take two words
other than zero that are written alike, and two machines, one of which has the one word before it and the
other one the other, with no other difference between them. Then a step succeeds or fails in both alike,
with the same notes, and afterwards they still differ at most in the two bytes of this word. -/
theorem text_faithful :
    (∀ a b : List UInt8, a.length = b.length → a.length % 2 = 0 →
      (Listing.rows (Listing.text a)).map Listing.assemblyColumn =
        (Listing.rows (Listing.text b)).map Listing.assemblyColumn →
      ∀ (i : Nat) (ha : 2 * i + 1 < a.length) (hb : 2 * i + 1 < b.length),
        SameButShift a[2 * i] a[2 * i + 1] b[2 * i] b[2 * i + 1]) ∧
    ∀ (v w : Word) (p q : Op), Op.decode v = some p → Op.decode w = some q →
      p.assembly.text = q.assembly.text →
      ∀ m n : Machine, m.memory.fetch m.pc = v → n.memory.fetch n.pc = w → AgreeOutside m.pc m n →
        AgreeOutside m.pc m.step.machine n.step.machine ∧ n.step.records = m.step.records ∧
          written n.step.answer = written m.step.answer := by
  constructor
  · intro a b _ _ same i ha hb
    exact Listing.sameButShift same ha hb
  · rintro v w p q hp hq texts m n rfl rfl agree
    exact step_of_text_eq agree hp hq texts

/-- Programs that put five into `V1` and move it one bit down, with `V2` or `V3` as second register. -/
def halveFive (second : UInt8) : List UInt8 := [0x61, 0x05, 0x81, 0x10 * second + 0x6]

theorem listed_halveFive :
    (Listing.rows (Listing.text (halveFive 2))).map Listing.assemblyColumn =
      (Listing.rows (Listing.text (halveFive 3))).map Listing.assemblyColumn := by
  have lines : Listing.ofProgram (halveFive 2) =
      [.code ⟨0x200, 0x6105, .loadByte 1 5⟩, .code ⟨0x202, 0x8126, .arith .shiftRight 1 2⟩] := by decide
  have lines' : Listing.ofProgram (halveFive 3) =
      [.code ⟨0x200, 0x6105, .loadByte 1 5⟩, .code ⟨0x202, 0x8136, .arith .shiftRight 1 3⟩] := by decide
  rw [Listing.map_assembly, Listing.map_assembly, lines, lines']
  rfl

/-- A machine with such a program is at the shift after a step. -/
theorem after_halveFive (second : UInt8) :
    (create {} 0).after [.load (halveFive second), .step] =
      (((create {} 0).restart (halveFive second)).goto 0x202).put 1 5 := by
  have fits : (halveFive second).length ≤ programLimit := show 4 ≤ 3584 by decide
  have loaded : ((create {} 0).apply (.load (halveFive second))).machine =
      (create {} 0).restart (halveFive second) :=
    congrArg Outcome.machine ((create {} 0).load_of_fits fits)
  have anew := startOf_restart (create {} 0) fits
  rw [after_cons, loaded, after_cons, after_nil]
  generalize (create {} 0).restart (halveFive second) = m at anew
  have high : m.memory.get 0x200 = 0x61 := anew.loaded 0 (show 0 < 4 by decide)
  have low : m.memory.get (0x200 + 1) = 0x05 := anew.loaded 1 (show 1 < 4 by decide)
  have hop : m.next? = some (.loadByte 1 5) := by
    rw [next?, anew.pc, Memory.fetch, high, low]
    rfl
  have hc := cycle_of_execute_ok (m := m) hop rfl
  change m.step.machine = _
  rw [step_of_running anew.interrupted, hc, anew.pc]
  rfl

theorem agree_halveFive :
    AgreeOutside 0x202 ((create {} 0).after [.load (halveFive 2), .step])
      ((create {} 0).after [.load (halveFive 3), .step]) := by
  rw [after_halveFive, after_halveFive]
  refine AgreeOutside.put (.goto (.restart (i := 1) (by decide) (by decide) ?_ _) _) _ _
  intro j high low
  rcases j with _ | _ | _ | _ | j
  · rfl
  · rfl
  · exact absurd rfl high
  · exact absurd rfl low
  · rfl

/-- Both read `SHR V1` in the second row, and both halve the five. -/
theorem text_faithful_halveFive :
    let m := (create {} 0).after [.load (halveFive 2), .step]
    let n := (create {} 0).after [.load (halveFive 3), .step]
    (halveFive 2)[3] ≠ (halveFive 3)[3] ∧
      SameButShift (halveFive 2)[2] (halveFive 2)[3] (halveFive 3)[2] (halveFive 3)[3] ∧
      m.step.machine.registers.get 1 = 2 ∧ AgreeOutside m.pc m.step.machine n.step.machine := by
  intro m n
  have same := text_faithful.1 (halveFive 2) (halveFive 3) rfl rfl listed_halveFive 1 (by decide) (by decide)
  have pc : m.pc = 0x202 := congrArg Machine.pc (after_halveFive 2)
  have agree : AgreeOutside m.pc m n := pc ▸ agree_halveFive
  obtain ⟨alike, -⟩ :=
    text_faithful.2 0x8126 0x8136 (.arith .shiftRight 1 2) (.arith .shiftRight 1 3) rfl rfl rfl m n
      (by decide +kernel) (by decide +kernel) agree
  exact ⟨by decide, same, by decide +kernel, alike⟩

end Machine

end ChipEight
