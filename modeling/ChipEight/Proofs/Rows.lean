import ChipEight.Isa.Listing
import ChipEight.Proofs.Mnemonics
import Mathlib.Data.List.Basic

/-!
# A listing gives the program back

A listing is read here as text only. Its rows are what line breaks close (`Listing.rows`), and each row
has three columns: the address, the hexadecimal digits of its bytes, and what they say. The rows are the
lines of the program one by one (`rows_text`), so the digits in them, read from the first row to the last,
are the bytes of the program (`text_round_trip`), however long it is.
-/

namespace ChipEight

/-! ### The columns of a row -/

/-- Digits that write a number: just so many of them, and with upper-case letters. -/
def Hex.Writes (width : Nat) (cs : List Char) (n : Nat) : Prop :=
  cs.length = width ∧ (∀ c ∈ cs, c ∈ alphabet) ∧ Numeral.read? 16 cs = some n

theorem Hex.writes_digits {w n : Nat} (h : n < Nat.pow 16 (w + 1)) : Writes (w + 1) (digits (w + 1) n) n :=
  ⟨length_digits _ _, fun _ => mem_alphabet, Numeral.read_digits h⟩

namespace Listing

/-- The rows of a text, each of which is closed by a line break. -/
def rows (s : String) : List (List Char) := (Split.pieces (· = '\n') s.toList).dropLast

/-- The digits of the address at which a row is. -/
def addressColumn (row : List Char) : List Char := (row.drop 2).take 4

/-- The digits of the bytes that a row shows. -/
def bytesColumn (row : List Char) : List Char := (row.drop 8).takeWhile (· ≠ ' ')

/-- What a row says about its bytes. -/
def assemblyColumn (row : List Char) : List Char := row.drop 14

theorem toList_join (lines : List String) :
    (String.join (lines.map fun s => s ++ "\n")).toList = lines.flatMap fun s => s.toList ++ ['\n'] := by
  rw [String.toList_join, List.flatMap_map]
  simp only [String.toList_append]
  rfl

/-- Rows are found again in what they were joined to. -/
theorem rows_join {lines : List String} (h : ∀ s ∈ lines, '\n' ∉ s.toList) :
    rows (String.join (lines.map fun s => s ++ "\n")) = lines.map String.toList := by
  rw [rows, toList_join]
  induction lines with
  | nil => rfl
  | cons s rest ih =>
    have whole : ∀ c ∈ s.toList, decide (c = '\n') = false := by
      intro c hc
      refine decide_eq_false ?_
      rintro rfl
      exact h s (by simp) hc
    have later := Split.pieces_ne_nil (· = '\n') (rest.flatMap fun s => s.toList ++ ['\n'])
    rw [List.flatMap_cons, List.append_assoc, List.singleton_append,
      Split.pieces_append_cons whole (by decide), List.dropLast_cons_of_ne_nil later,
      ih fun t ht => h t (by simp [ht]), List.map_cons]

/-- What lines are joined to is its rows, each closed by a line break. -/
theorem toList_of_rows {lines : List String} (h : ∀ s ∈ lines, '\n' ∉ s.toList) :
    (String.join (lines.map fun s => s ++ "\n")).toList =
      (rows (String.join (lines.map fun s => s ++ "\n"))).flatMap fun row => row ++ ['\n'] := by
  rw [rows_join h, toList_join, List.flatMap_map]

end Listing

/-! ### Lines and their columns -/

namespace ListingLine

/-- The address at which a line is. -/
def address : ListingLine → Address
  | code i => i.address
  | zero a => a
  | data a _ => a

/-- The digits of the bytes that a line shows. -/
def digits : ListingLine → List Char
  | code i => Hex.digits 4 i.word.toNat
  | zero _ => Hex.digits 4 0
  | data _ b => Hex.digits 2 b.toNat

/-- What a line says about its bytes. -/
def remark : ListingLine → String
  | code i => i.op.assembly.text
  | zero _ => "; zero"
  | data _ _ => "; data"

/-- The blanks in front of the remark. -/
def gap : ListingLine → List Char
  | data _ _ => [' ', ' ', ' ', ' ']
  | _ => [' ', ' ']

/-- A line is its columns with blanks between them. -/
theorem toList_text {l : ListingLine} (h : l.address < memorySize) :
    l.text.toList = '0' :: 'x' :: (Hex.digits 4 l.address ++
      ' ' :: ' ' :: (l.digits ++ l.gap ++ l.remark.toList)) := by
  have address : Hex.numeral 4 l.address = String.ofList (Hex.digits 4 l.address) :=
    Hex.numeral_of_lt (by decide) (Nat.lt_trans h (by decide))
  cases l with
  | code i => simp_all [text, Instruction.text, columns, ListingLine.address, digits, gap, remark]
  | zero a => simp_all [text, columns, ListingLine.address, digits, gap, remark]
  | data a b => simp_all [text, ListingLine.address, digits, gap, remark]

theorem mem_digits {l : ListingLine} {c : Char} (h : c ∈ l.digits) : c ∈ Hex.alphabet := by
  cases l <;> exact Hex.mem_alphabet h

/-- A row begins with the address. -/
theorem address_text {l : ListingLine} (h : l.address < memorySize) :
    l.text.toList.take 2 = ['0', 'x'] ∧ Hex.Writes 4 (Listing.addressColumn l.text.toList) l.address := by
  have digits : Listing.addressColumn l.text.toList = Hex.digits 4 l.address := by
    rw [Listing.addressColumn, toList_text h]
    exact List.take_left' (Hex.length_digits 4 l.address)
  rw [digits]
  refine ⟨?_, Hex.writes_digits (Nat.lt_trans h (by decide))⟩
  rw [toList_text h]
  rfl

/-- What a row shows behind the address. -/
theorem drop_text {l : ListingLine} (h : l.address < memorySize) :
    l.text.toList.drop 8 = l.digits ++ l.gap ++ l.remark.toList := by
  rw [toList_text h, List.append_cons, List.append_cons]
  exact List.drop_left' (by simp)

theorem bytesColumn_text {l : ListingLine} (h : l.address < memorySize) :
    Listing.bytesColumn l.text.toList = l.digits := by
  have solid : ∀ c ∈ l.digits, decide (c ≠ ' ') = true :=
    fun c hc => decide_eq_true ((IsSolid.of_hex (mem_digits hc)).ne (by decide))
  have blank : (l.gap ++ l.remark.toList).takeWhile (· ≠ ' ') = [] := by
    cases l <;> rfl
  rw [Listing.bytesColumn, drop_text h, List.append_assoc, List.takeWhile_append_of_pos solid, blank,
    List.append_nil]

theorem assemblyColumn_text {l : ListingLine} (h : l.address < memorySize) :
    Listing.assemblyColumn l.text.toList = l.remark.toList := by
  have width : (l.digits ++ l.gap).length = 6 := by cases l <;> simp [digits, gap]
  rw [Listing.assemblyColumn, ← List.drop_drop (i := 6) (j := 8), drop_text h]
  exact List.drop_left' width

/-- There is no line break in a line. -/
theorem not_mem_text {l : ListingLine} (h : l.address < memorySize) : '\n' ∉ l.text.toList := by
  have number : '\n' ∉ Hex.digits 4 l.address :=
    fun hc => (IsSolid.of_digits hc).ne (by decide) rfl
  have blank : '\n' ∉ l.gap := by cases l <;> simp [gap]
  have marks : ∀ s ∈ ["; zero", "; data"], '\n' ∉ s.toList := by decide
  have remark : '\n' ∉ l.remark.toList := by
    cases l with
    | code i => exact i.op.not_mem_text.1
    | zero a => exact marks _ (by simp [ListingLine.remark])
    | data a b => exact marks _ (by simp [ListingLine.remark])
  have digits : '\n' ∉ l.digits := fun hc => (IsSolid.of_hex (mem_digits hc)).ne (by decide) rfl
  rw [toList_text h]
  simp [number, blank, remark, digits]

/-! ### The line of a word -/

@[simp] theorem address_ofWord (a : Address) (w : Word) : (ofWord a w).address = a := by
  unfold ofWord
  split <;> rfl

@[simp] theorem digits_ofWord (a : Address) (w : Word) : (ofWord a w).digits = Hex.digits 4 w.toNat := by
  unfold ofWord
  split
  · rfl
  · next h => rw [Op.decode_eq_none_iff.1 h]; rfl

/-- Only the zero word is marked as such, and no word as a single byte. -/
theorem remark_ofWord (a : Address) (w : Word) :
    ((ofWord a w).remark = "; zero" ↔ w = 0) ∧ (ofWord a w).remark ≠ "; data" := by
  unfold ofWord
  split
  · next op h =>
    have clean := op.not_mem_text.2
    have nonzero : w ≠ 0 := fun hz => by rw [Op.decode_eq_none_iff.2 hz] at h; cases h
    refine ⟨iff_of_false ?_ nonzero, ?_⟩ <;> intro marked
    all_goals
      change op.assembly.text = _ at marked
      rw [marked] at clean
      exact clean (by decide)
  · next h =>
    exact ⟨iff_of_true rfl (Op.decode_eq_none_iff.1 h), show "; zero" ≠ "; data" by decide⟩

end ListingLine

/-! ### The lines of a program -/

namespace Listing

/-- The line of a listing that shows the bytes from `2 * i` on. -/
def lineAt? (a : Address) (bytes : List UInt8) (i : Nat) : Option ListingLine :=
  match bytes[2 * i]?, bytes[2 * i + 1]? with
  | some high, some low => some (.ofWord (Address.wrap (a + 2 * i)) (Word.ofBytes high low))
  | some b, none => some (.data (Address.wrap (a + 2 * i)) b)
  | none, _ => none

/-- **Each line shows the two bytes of its place.** -/
theorem getElem?_lines (a : Address) (bytes : List UInt8) (i : Nat) :
    (lines a bytes)[i]? = lineAt? a bytes i := by
  fun_induction lines a bytes generalizing i with
  | case1 a => simp [lineAt?]
  | case2 a b =>
    cases i with
    | zero => rfl
    | succ i => simp [lineAt?]
  | case3 a high low rest ih =>
    cases i with
    | zero => rfl
    | succ i =>
      have later : ∀ b : Nat, b + 2 + 2 * i = b + 2 * (i + 1) := by omega
      rw [List.getElem?_cons_succ, ih, lineAt?, lineAt?, instructionSize, later]
      rfl

theorem length_lines (a : Address) (bytes : List UInt8) :
    (lines a bytes).length = (bytes.length + 1) / 2 := by
  fun_induction lines a bytes with
  | case1 a => rfl
  | case2 a b => simp
  | case3 a high low rest ih =>
    simp only [List.length_cons, ih]
    omega

/-- The lines show all bytes, one after the other. -/
theorem flatMap_digits_lines (a : Address) (bytes : List UInt8) :
    (lines a bytes).flatMap ListingLine.digits = bytes.flatMap fun b => Hex.digits 2 b.toNat := by
  fun_induction lines a bytes with
  | case1 a => rfl
  | case2 a b => rfl
  | case3 a high low rest ih =>
    rw [List.flatMap_cons, ih, ListingLine.digits_ofWord, Hex.digits_ofBytes, List.append_assoc]
    rfl

theorem address_lt_of_mem_lines {a : Address} {bytes : List UInt8} {l : ListingLine}
    (h : l ∈ lines a bytes) : l.address < memorySize := by
  obtain ⟨i, hi⟩ := List.mem_iff_getElem?.1 h
  rw [getElem?_lines, lineAt?] at hi
  split at hi <;> cases hi
  · rw [ListingLine.address_ofWord]
    exact Address.wrap_lt _
  · exact Address.wrap_lt _

/-! ### The text of a program -/

/-- No line of a program has a line break in it. -/
theorem whole_lines (program : List UInt8) :
    ∀ s ∈ (ofProgram program).map ListingLine.text, '\n' ∉ s.toList := by
  intro s hs
  obtain ⟨l, hl, rfl⟩ := List.mem_map.1 hs
  exact ListingLine.not_mem_text (address_lt_of_mem_lines hl)

theorem text_eq_join (program : List UInt8) :
    text program = String.join (((ofProgram program).map ListingLine.text).map fun s => s ++ "\n") := by
  rw [List.map_map]
  rfl

/-- The rows of a listing are the lines of the program. -/
theorem rows_text (program : List UInt8) :
    rows (text program) = (ofProgram program).map fun l => l.text.toList := by
  rw [text_eq_join, rows_join (whole_lines program), List.map_map]
  rfl

/-- The text of a listing is its rows, each closed by a line break. -/
theorem toList_text (program : List UInt8) :
    (text program).toList = (rows (text program)).flatMap fun row => row ++ ['\n'] := by
  rw [text_eq_join, toList_of_rows (whole_lines program)]

/-- What the row of number `i` says in the listing of a program. -/
structure RowOf (program : List UInt8) (i : Nat) (row : List Char) : Prop where
  /-- It is one line. -/
  whole : '\n' ∉ row
  /-- It begins with the address of its bytes. -/
  start : row.take 2 = ['0', 'x']
  /-- Addresses wrap around the end of memory. -/
  address : Hex.Writes 4 (addressColumn row) ((0x200 + 2 * i) % 4096)
  /-- Then it shows its two bytes, or the one that is left. -/
  bytes : Hex.bytes? (bytesColumn row) = some ((program.drop (2 * i)).take 2)
  /-- They are in upper-case digits. -/
  digits : ∀ c ∈ bytesColumn row, c ∈ Hex.alphabet
  /-- Two zero bytes are marked. -/
  zero : assemblyColumn row = "; zero".toList ↔
    program[2 * i]? = some 0 ∧ program[2 * i + 1]? = some 0
  /-- The last row is marked if the program has odd length. -/
  data : assemblyColumn row = "; data".toList ↔
    program.length % 2 = 1 ∧ i + 1 = (program.length + 1) / 2
  /-- Such a row shows two digits, and all others show four. -/
  width : (bytesColumn row).length =
    if program.length % 2 = 1 ∧ i + 1 = (program.length + 1) / 2 then 2 else 4

/-- A row of two bytes. -/
theorem rowOf_word {program : List UInt8} {i : Nat} (inside : 2 * i + 1 < program.length) :
    RowOf program i (ListingLine.ofWord (Address.wrap (programStart + 2 * i))
      (Word.ofBytes program[2 * i] program[2 * i + 1])).text.toList := by
  generalize hl : ListingLine.ofWord (Address.wrap (programStart + 2 * i))
    (Word.ofBytes program[2 * i] program[2 * i + 1]) = l
  have place : l.address = Address.wrap (programStart + 2 * i) := by rw [← hl, ListingLine.address_ofWord]
  have digits : l.digits = Hex.digits 2 program[2 * i].toNat ++ Hex.digits 2 program[2 * i + 1].toNat := by
    rw [← hl, ListingLine.digits_ofWord, Hex.digits_ofBytes]
  obtain ⟨zero, data⟩ := hl ▸ ListingLine.remark_ofWord (Address.wrap (programStart + 2 * i))
    (Word.ofBytes program[2 * i] program[2 * i + 1])
  have bound : l.address < memorySize := place ▸ Address.wrap_lt _
  obtain ⟨start, address⟩ := ListingLine.address_text bound
  rw [place] at address
  have pair : (program.drop (2 * i)).take 2 = [program[2 * i], program[2 * i + 1]] := by
    rw [List.drop_eq_getElem_cons (Nat.lt_of_succ_lt inside), List.drop_eq_getElem_cons inside]
    rfl
  have further : ¬(program.length % 2 = 1 ∧ i + 1 = (program.length + 1) / 2) := by omega
  refine ⟨ListingLine.not_mem_text bound, start, address, ?_, ?_, ?_, ?_, ?_⟩
  · rw [ListingLine.bytesColumn_text bound, digits, pair, ← Hex.bytes_digits]
    rfl
  · rw [ListingLine.bytesColumn_text bound]
    exact fun c => ListingLine.mem_digits
  · rw [ListingLine.assemblyColumn_text bound, String.toList_inj, zero, Word.ofBytes_eq_zero_iff]
    simp [inside, Nat.lt_of_succ_lt inside]
  · rw [ListingLine.assemblyColumn_text bound, String.toList_inj]
    exact iff_of_false data further
  · rw [ListingLine.bytesColumn_text bound, digits, if_neg further]
    simp

/-- The row of an odd last byte. -/
theorem rowOf_byte {program : List UInt8} {i : Nat} (inside : 2 * i < program.length)
    (behind : program.length ≤ 2 * i + 1) :
    RowOf program i (ListingLine.data (Address.wrap (programStart + 2 * i)) program[2 * i]).text.toList := by
  have bound : (ListingLine.data (Address.wrap (programStart + 2 * i)) program[2 * i]).address < memorySize :=
    Address.wrap_lt _
  obtain ⟨start, address⟩ := ListingLine.address_text bound
  have single : (program.drop (2 * i)).take 2 = [program[2 * i]] := by
    rw [List.drop_eq_getElem_cons inside, List.drop_of_length_le behind]
    rfl
  have last : program.length % 2 = 1 ∧ i + 1 = (program.length + 1) / 2 := by omega
  refine ⟨ListingLine.not_mem_text bound, start, address, ?_, ?_, ?_, ?_, ?_⟩
  · rw [ListingLine.bytesColumn_text bound, single, ← Hex.bytes_digits]
    rfl
  · rw [ListingLine.bytesColumn_text bound]
    exact fun c => ListingLine.mem_digits
  · rw [ListingLine.assemblyColumn_text bound, String.toList_inj, List.getElem?_eq_none behind]
    exact iff_of_false (show "; data" ≠ "; zero" by decide) (by simp)
  · rw [ListingLine.assemblyColumn_text bound]
    exact iff_of_true rfl last
  · rw [ListingLine.bytesColumn_text bound, if_pos last]
    exact Hex.length_digits 2 _

theorem rowOf_text {program : List UInt8} {i : Nat} {row : List Char}
    (h : (rows (text program))[i]? = some row) : RowOf program i row := by
  rw [rows_text, List.getElem?_map, Option.map_eq_some_iff] at h
  obtain ⟨l, hl, rfl⟩ := h
  rw [ofProgram, getElem?_lines, lineAt?] at hl
  split at hl <;> cases hl
  · next high low first second =>
    obtain ⟨-, rfl⟩ := List.getElem?_eq_some_iff.1 first
    obtain ⟨inside, rfl⟩ := List.getElem?_eq_some_iff.1 second
    exact rowOf_word inside
  · next b first second =>
    obtain ⟨inside, rfl⟩ := List.getElem?_eq_some_iff.1 first
    exact rowOf_byte inside (List.getElem?_eq_none_iff.1 second)

/-- **A listing gives the program back.** Take any program, also one that is longer than memory. Its
listing has a row for every two bytes and one more if there is an odd byte, and nothing besides. Each row
says what `RowOf` lists: the address of its bytes, the bytes, and how they are marked. The digits in the
rows, one row after the other, are all the bytes of the program, and no other program has this listing. -/
theorem text_round_trip (program : List UInt8) :
    let rows := rows (text program)
    (text program).toList = rows.flatMap (fun row => row ++ ['\n']) ∧
      rows.length = (program.length + 1) / 2 ∧
      (∀ i row, rows[i]? = some row → RowOf program i row) ∧
      Hex.bytes? (rows.flatMap bytesColumn) = some program ∧
      ∀ other, text other = text program → other = program := by
  have shown (p : List UInt8) : Hex.bytes? ((rows (text p)).flatMap bytesColumn) = some p := by
    have columns : (rows (text p)).flatMap bytesColumn = (ofProgram p).flatMap ListingLine.digits := by
      rw [rows_text, List.flatMap_map]
      exact List.flatMap_congr fun l hl => ListingLine.bytesColumn_text (address_lt_of_mem_lines hl)
    rw [columns, ofProgram, flatMap_digits_lines, Hex.bytes_digits]
  refine ⟨toList_text program, ?_, fun i row => rowOf_text, shown program, ?_⟩
  · rw [rows_text, List.length_map]
    exact length_lines programStart program
  · intro other h
    have same := shown other
    rw [h, shown program] at same
    exact (Option.some.inj same).symm

end Listing

end ChipEight
