import ChipEight.Proofs.Restart
import ChipEight.Proofs.Rows

/-!
# A listing shows what is executed

A machine reads words from its memory, around the end of it if need be, and a listing reads them from
the program, two bytes after two bytes. Where a program stands in memory as it was loaded, and the machine
comes to one of its words, both read the same one. So the row of that word says what a step does: it is
the instruction that the step gives, or the mark of the zero word if the program ends there
(`step_as_listed`).
-/

namespace ChipEight.Machine

/-! ### The line before the machine -/

/-- The line of a listing for the word that the machine has before it. -/
def line (m : Machine) : ListingLine := .ofWord m.pc (m.memory.fetch m.pc)

theorem line_of_next?_none {m : Machine} (h : m.next? = none) : m.line = .zero m.pc := by
  rw [next?] at h
  rw [line, ListingLine.ofWord, h]

theorem line_of_next?_some {m : Machine} {op : Op} (h : m.next? = some op) :
    m.line = .code ⟨m.pc, m.memory.fetch m.pc, op⟩ := by
  rw [next?] at h
  rw [line, ListingLine.ofWord, h]

/-- **What a step gives is what the line says**: the instruction, or nothing at the zero word. A step
that fails finds a return or a call. -/
theorem answer_step_cases (m : Machine) :
    (m.line = .zero m.pc ∧ m.step.answer = .ok none) ∨
      (∃ i, m.line = .code i ∧ m.step.answer = .ok (some i)) ∨
      ∃ i fault, m.line = .code i ∧ (i.op = .ret ∨ ∃ target, i.op = .call target) ∧
        m.step.answer = .error fault := by
  rw [answer_step]
  rcases m.resume.cycle_cases with ⟨hn, hc⟩ | ⟨op, n, records, hop, -, hc⟩ | ⟨op, fault, hop, he, hc⟩
  · exact Or.inl ⟨line_of_next?_none (m := m) hn, congrArg Outcome.answer hc⟩
  · exact Or.inr (Or.inl ⟨_, line_of_next?_some (m := m) hop, congrArg Outcome.answer hc⟩)
  · refine Or.inr (Or.inr ⟨_, fault, line_of_next?_some (m := m) hop, ?_, congrArg Outcome.answer hc⟩)
    rcases answer_execute_eq_error_iff.1 he with ⟨ret, -, -⟩ | ⟨call, -, -⟩
    · exact Or.inl ret
    · exact Or.inr call

/-- The row of a zero word is told by its text. -/
theorem text_line_eq_iff {m : Machine} (h : m.pc < memorySize) :
    m.line.text = "0x" ++ Hex.numeral 4 m.pc ++ "  0000  ; zero" ↔ m.line = .zero m.pc := by
  have zero : (ListingLine.zero m.pc).text = "0x" ++ Hex.numeral 4 m.pc ++ "  0000  ; zero" := by
    simp only [ListingLine.text, columns, String.append_assoc]
    rfl
  rw [← zero]
  refine ⟨fun same => ?_, congrArg ListingLine.text⟩
  have address : m.line.address = m.pc := ListingLine.address_ofWord _ _
  have column := ListingLine.assemblyColumn_text (address ▸ h)
  have marked := ListingLine.assemblyColumn_text (l := .zero m.pc) h
  rw [same, marked, String.toList_inj] at column
  have word := (ListingLine.remark_ofWord m.pc (m.memory.fetch m.pc)).1.1 column.symm
  exact line_of_next?_none (Op.decode_eq_none_iff.2 word)

/-- What the text of the line tells about the next step. -/
theorem step_as_line {m : Machine} (h : m.pc < memorySize) :
    (∀ instruction, m.step.answer = .ok (some instruction) → m.line.text = instruction.text) ∧
      (m.step.answer = .ok none ↔ m.line.text = "0x" ++ Hex.numeral 4 m.pc ++ "  0000  ; zero") ∧
      ∀ fault, m.step.answer = .error fault →
        (Listing.assemblyColumn m.line.text.toList).takeWhile (· ≠ ' ') ∈
          ["RET".toList, "CALL".toList] := by
  rw [text_line_eq_iff h]
  rcases m.answer_step_cases with ⟨line, answer⟩ | ⟨i, line, answer⟩ | ⟨i, fault, line, failing, answer⟩
  · rw [answer, line]
    exact ⟨nofun, iff_of_true rfl rfl, nofun⟩
  · rw [answer, line]
    refine ⟨?_, iff_of_false nofun nofun, nofun⟩
    intro instruction same
    cases same
    rfl
  · have address : m.line.address = m.pc := ListingLine.address_ofWord _ _
    have column := ListingLine.assemblyColumn_text (address ▸ h)
    rw [answer, column, line]
    refine ⟨nofun, iff_of_false nofun nofun, fun _ _ => ?_⟩
    change i.op.assembly.text.toList.takeWhile _ ∈ _
    rw [Assembly.takeWhile_text i.op.isSolid_mnemonic]
    rcases failing with ret | ⟨target, call⟩
    · rw [ret]
      exact List.mem_cons_self
    · rw [call]
      exact List.mem_cons_of_mem _ List.mem_cons_self

/-! ### The rows of a program that was loaded -/

/-- The row of a word of the program, where the machine finds this word before it. -/
theorem row_of_line {m : Machine} {program : List UInt8} {i : Nat} (fits : program.length ≤ 3584)
    (pc : m.pc = 0x200 + 2 * i) (high : program[2 * i]? = some (m.memory.get m.pc))
    (low : program[2 * i + 1]? = some (m.memory.get (m.pc + 1))) :
    (Listing.rows (Listing.text program))[i]? = some m.line.text.toList := by
  have inside : 2 * i + 1 < program.length := (List.getElem?_eq_some_iff.1 low).1
  have place : Address.wrap (programStart + 2 * i) = m.pc := by
    rw [pc]
    exact Address.wrap_of_lt (show 0x200 + 2 * i < 4096 by omega)
  rw [Listing.rows_text, List.getElem?_map, Listing.ofProgram, Listing.getElem?_lines, Listing.lineAt?,
    high, low, place]
  rfl

/-- **A step does what the listing says.** Load a program of at most 3584 bytes, and let anything happen
after that. Whenever the machine is then at word `i` of the program, and the two bytes there are as they
were loaded, row `i` of the listing says what the next step does: if it gives an instruction, the row is
this instruction as it is printed; it gives nothing if, and only if, the row is the one that marks a zero
word at this address; and it fails only if the mnemonic in the row is that of a return or a call. -/
theorem step_as_listed (config : Config) (chance : StreamKey) (past : List Event) (program : List UInt8)
    (future : List Event) (i : Nat) (fits : program.length ≤ 3584)
    (inside : 2 * i + 1 < program.length) :
    let loaded := (((create config chance).after past).load program).machine
    let m := loaded.after future
    m.pc = 0x200 + 2 * i → m.memory.get m.pc = loaded.memory.get m.pc →
      m.memory.get (m.pc + 1) = loaded.memory.get (m.pc + 1) →
    ∃ row, (Listing.rows (Listing.text program))[i]? = some row ∧
      (∀ instruction, m.step.answer = .ok (some instruction) → row = instruction.text.toList) ∧
      (m.step.answer = .ok none ↔ row = ("0x" ++ Hex.numeral 4 m.pc ++ "  0000  ; zero").toList) ∧
      ∀ fault, m.step.answer = .error fault →
        (Listing.assemblyColumn row).takeWhile (· ≠ ' ') ∈ ["RET".toList, "CALL".toList] := by
  intro loaded m pc high low
  have anew : loaded.StartOf program := by
    change (((create config chance).after past).load program).machine.StartOf program
    rw [load_of_fits _ fits]
    exact startOf_restart _ fits
  have first : program[2 * i]? = some (m.memory.get m.pc) := by
    rw [high, pc, anew.loaded _ (Nat.lt_of_succ_lt inside)]
    exact List.getElem?_eq_getElem _
  have second : program[2 * i + 1]? = some (m.memory.get (m.pc + 1)) := by
    rw [low, pc, Nat.add_assoc, anew.loaded _ inside]
    exact List.getElem?_eq_getElem _
  have bound : m.pc < memorySize := by
    rw [pc]
    exact show 0x200 + 2 * i < 4096 by omega
  obtain ⟨executed, ended, failed⟩ := step_as_line bound
  refine ⟨_, row_of_line fits pc first second, ?_, ?_, failed⟩
  · intro instruction answer
    rw [executed instruction answer]
  · rw [ended, String.toList_inj]

/-- A program that jumps to a call of what stands between. -/
def jumpThenCall : List UInt8 := [0x12, 0x04, 0x00, 0xEE, 0x22, 0x02]

/-- After the jump and the call the machine is at the second word, and the return there is in the second
row. -/
theorem step_as_listed_jumpThenCall :
    let loaded := (((create {} 0).after [.interrupt]).load jumpThenCall).machine
    let m := loaded.after [.run 2]
    m.pc = 0x202 ∧ m.stack = [0x206] ∧
      ∃ instruction, m.step.answer = .ok (some instruction) ∧ instruction.op = .ret ∧
        (Listing.rows (Listing.text jumpThenCall))[1]? = some instruction.text.toList := by
  intro loaded m
  have pc : m.pc = 0x202 := by decide +kernel
  have high : m.memory.get m.pc = loaded.memory.get m.pc := by decide +kernel
  have low : m.memory.get (m.pc + 1) = loaded.memory.get (m.pc + 1) := by decide +kernel
  obtain ⟨row, found, shown, -⟩ :=
    step_as_listed {} 0 [.interrupt] jumpThenCall [.run 2] 1 (by decide) (by decide) pc high low
  have answer : m.step.answer = .ok (some ⟨0x202, 0x00EE, .ret⟩) := by decide +kernel
  refine ⟨pc, by decide +kernel, _, answer, rfl, ?_⟩
  rw [found, shown _ answer]

end ChipEight.Machine
