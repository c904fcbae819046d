import ChipEight.Machine.Dump
import ChipEight.Machine.Event
import ChipEight.Proofs.Rows

/-!
# Dumps show what is there

Dumps are text for people to read, and they keep all of what they show. The rows of a memory dump are read as
an address and the digits of two bytes (`MemoryRow`), those of a display as one character for each pixel
(`rows_dumpDisplay`), and the text of the keys as names with blanks between them (`namedKeys?_dumpKeys`). So
whoever has the text has the memory, the display and the keys (`dumps_read_back`).
-/

namespace ChipEight

/-- The key that a name stands for: a `k` and a digit in base sixteen. -/
def Key.ofName? : List Char → Option Key
  | ['k', c] => (Numeral.digitOf? 16 c).bind fun n => (Key.ofNat? n).toOption
  | _ => none

/-- A key is found again by its name. -/
theorem Key.ofName?_text (k : Key) : ofName? k.text.toList = some k := by
  revert k
  decide

theorem Key.isSolid_text {k : Key} {c : Char} (h : c ∈ k.text.toList) : IsSolid c := by
  have each : ∀ j : Key, j.text.toList.all (fun d => decide (IsSolid d)) = true := by decide
  exact .of_all (each k) h

/-- The held keys are in ascending order, and each is there once. -/
theorem Keypad.keys_ascend (p : Keypad) : p.keys.Pairwise (· < ·) :=
  (List.pairwise_lt_finRange keyCount).filter _

theorem Keypad.mem_keys {p : Keypad} {k : Key} : k ∈ p.keys ↔ p.isHeld k = true := by
  simp [keys, Key.all]

namespace Machine

/-! ### Memory -/

/-- The digits of the address at which a row of a memory dump is. -/
def addressDigits (row : List Char) : List Char := row.take 4

/-- The digits of the bytes that it shows. -/
def byteDigits (row : List Char) : List Char := row.drop 6

/-- What the row of number `i` says in a dump of memory. -/
structure MemoryRow (m : Memory) (i : Nat) (row : List Char) : Prop where
  /-- It begins with the address of its bytes. -/
  address : Hex.Writes 4 (addressDigits row) (0x200 + 2 * i)
  /-- Then there is a colon and a blank. -/
  mark : (row.drop 4).take 2 = [':', ' ']
  /-- Then it shows its two bytes. -/
  bytes : Hex.bytes? (byteDigits row) = some [m.get (0x200 + 2 * i), m.get (0x200 + 2 * i + 1)]
  /-- They are in upper-case digits. -/
  digits : ∀ c ∈ byteDigits row, c ∈ Hex.alphabet
  /-- Both bytes are in memory. -/
  inside : 0x200 + 2 * i + 1 ≤ 0xFFF
  /-- There is nothing else in the row. -/
  width : row.length = 10

theorem toList_memoryLine (m : Memory) {a : Address} (h : a < memorySize) :
    (memoryLine m a).toList =
      Hex.digits 4 a ++ ':' :: ' ' :: (Hex.digits 2 (m.get a).toNat ++ Hex.digits 2 (m.get (a + 1)).toNat) := by
  have address : Hex.numeral 4 a = String.ofList (Hex.digits 4 a) :=
    Hex.numeral_of_lt (by decide) (Nat.lt_trans h (by decide))
  simp [memoryLine, address]

theorem byteDigits_memoryLine (m : Memory) {a : Address} (h : a < memorySize) :
    byteDigits (memoryLine m a).toList =
      Hex.digits 2 (m.get a).toNat ++ Hex.digits 2 (m.get (a + 1)).toNat := by
  rw [toList_memoryLine m h, List.append_cons, List.append_cons]
  exact List.drop_left' (by simp)

/-- There is no line break in a line. -/
theorem not_mem_memoryLine (m : Memory) {a : Address} (h : a < memorySize) :
    '\n' ∉ (memoryLine m a).toList := by
  have number (w n : Nat) : '\n' ∉ Hex.digits w n := fun hc => (IsSolid.of_digits hc).ne (by decide) rfl
  rw [toList_memoryLine m h]
  simp [number]

theorem memoryRow_memoryLine (m : Memory) {i : Nat} (inside : 0x200 + 2 * i + 1 ≤ 0xFFF) :
    MemoryRow m i (memoryLine m (0x200 + 2 * i)).toList := by
  have bound : 0x200 + 2 * i < memorySize := by
    rw [memorySize]
    omega
  have bytes := byteDigits_memoryLine m bound
  refine ⟨?_, ?_, ?_, ?_, inside, ?_⟩
  · rw [addressDigits, toList_memoryLine m bound, List.take_left' (Hex.length_digits 4 _)]
    exact Hex.writes_digits (Nat.lt_trans bound (by decide))
  · rw [toList_memoryLine m bound, List.drop_left' (Hex.length_digits 4 _)]
    rfl
  · rw [bytes, ← Hex.bytes_digits]
    simp
  · rw [bytes]
    exact fun c hc => (List.mem_append.1 hc).elim Hex.mem_alphabet Hex.mem_alphabet
  · rw [toList_memoryLine m bound]
    simp

/-- No line of a dump shows anything past the end of memory. -/
theorem inside_of_lt {count i : Nat} (h : i < (min count 3584 + 1) / 2) : 0x200 + 2 * i + 1 ≤ 0xFFF := by
  omega

theorem lt_of_mem_dumpAddresses {count : Nat} {a : Address} (h : a ∈ dumpAddresses count) :
    a < memorySize := by
  rw [dumpAddresses_eq] at h
  obtain ⟨i, hi, rfl⟩ := List.mem_map.1 h
  exact Nat.lt_of_succ_le (Nat.le_succ_of_le (inside_of_lt (List.mem_range.1 hi)))

theorem dumpMemory_eq_join (m : Machine) (count : Nat) :
    m.dumpMemory count =
      String.join (((dumpAddresses count).map (memoryLine m.memory)).map fun s => s ++ "\n") := by
  rw [List.map_map]
  rfl

theorem whole_memoryLines (m : Memory) (count : Nat) :
    ∀ s ∈ (dumpAddresses count).map (memoryLine m), '\n' ∉ s.toList := by
  intro s hs
  obtain ⟨a, ha, rfl⟩ := List.mem_map.1 hs
  exact not_mem_memoryLine _ (lt_of_mem_dumpAddresses ha)

/-- The rows of a dump are its lines. -/
theorem rows_dumpMemory (m : Machine) (count : Nat) :
    Listing.rows (m.dumpMemory count) =
      (dumpAddresses count).map fun a => (memoryLine m.memory a).toList := by
  rw [dumpMemory_eq_join, Listing.rows_join (whole_memoryLines m.memory count), List.map_map]
  rfl

/-- The digits of pairs of bytes are the digits of all of them. -/
theorem flatMap_digits_pairs (m : Memory) (a : Address) (n : Nat) :
    ((List.range n).flatMap fun i =>
        Hex.digits 2 (m.get (a + 2 * i)).toNat ++ Hex.digits 2 (m.get (a + 2 * i + 1)).toNat) =
      (m.read a (2 * n)).flatMap fun b => Hex.digits 2 b.toNat := by
  induction n with
  | zero => rfl
  | succ n ih =>
    rw [List.range_succ, List.flatMap_append, ih, Memory.read, Memory.read, Nat.mul_succ, List.range_succ,
      List.range_succ]
    simp [Nat.add_assoc]

/-- **The bytes in the rows are those of memory.** -/
theorem bytes_dumpMemory (m : Machine) (count : Nat) :
    Hex.bytes? ((Listing.rows (m.dumpMemory count)).flatMap byteDigits) =
      some (m.memory.read 0x200 (2 * ((min count 3584 + 1) / 2))) := by
  have shown : (Listing.rows (m.dumpMemory count)).flatMap byteDigits =
      (dumpAddresses count).flatMap fun a =>
        Hex.digits 2 (m.memory.get a).toNat ++ Hex.digits 2 (m.memory.get (a + 1)).toNat := by
    rw [rows_dumpMemory, List.flatMap_map]
    exact List.flatMap_congr fun a ha => byteDigits_memoryLine _ (lt_of_mem_dumpAddresses ha)
  rw [shown, dumpAddresses_eq, List.flatMap_map]
  exact (congrArg Hex.bytes? (flatMap_digits_pairs m.memory 0x200 _)).trans (Hex.bytes_digits _)

theorem memoryRow_of_rows {m : Machine} {count i : Nat} {row : List Char}
    (h : (Listing.rows (m.dumpMemory count))[i]? = some row) : MemoryRow m.memory i row := by
  rw [rows_dumpMemory, dumpAddresses_eq, List.map_map, List.getElem?_map, Option.map_eq_some_iff] at h
  obtain ⟨j, hj, rfl⟩ := h
  obtain ⟨inside, rfl⟩ := List.getElem?_eq_some_iff.1 hj
  rw [List.length_range] at inside
  rw [List.getElem_range]
  exact memoryRow_memoryLine m.memory (inside_of_lt inside)

/-! ### The display -/

/-- The character for a pixel. -/
def pixelMark (lit : Bool) : Char := if lit then '#' else '.'

theorem pixelMark_inj {a b : Bool} (h : pixelMark a = pixelMark b) : a = b := by
  revert h
  cases a <;> cases b <;> decide

theorem toList_rowText (d : Display) (y : Nat) :
    (d.rowText y).toList = (List.range 64).map fun x => pixelMark (d.get x y) := by
  rw [Display.rowText, String.toList_ofList, Display.row, List.map_map]
  rfl

theorem whole_displayLines (d : Display) : ∀ s ∈ (List.range 32).map d.rowText, '\n' ∉ s.toList := by
  intro s hs
  obtain ⟨y, -, rfl⟩ := List.mem_map.1 hs
  rw [toList_rowText]
  intro hc
  obtain ⟨x, -, mark⟩ := List.mem_map.1 hc
  cases hl : d.get x y <;> simp [pixelMark, hl] at mark

theorem dumpDisplay_eq_join (m : Machine) :
    m.dumpDisplay = String.join (((List.range 32).map m.display.rowText).map fun s => s ++ "\n") := by
  rw [List.map_map]
  rfl

/-- The rows of a dump are those of the display, with a character for each pixel. -/
theorem rows_dumpDisplay (m : Machine) :
    Listing.rows m.dumpDisplay =
      (List.range 32).map fun y => (List.range 64).map fun x => pixelMark (m.display.get x y) := by
  rw [dumpDisplay_eq_join, Listing.rows_join (whole_displayLines m.display), List.map_map]
  exact List.map_congr_left fun y _ => toList_rowText m.display y

theorem mark_of_rows (m : Machine) {x y : Nat} (hx : x < 64) (hy : y < 32) :
    ∃ marks, (Listing.rows m.dumpDisplay)[y]? = some marks ∧ marks[x]? = some (pixelMark (m.display.get x y)) := by
  refine ⟨(List.range 64).map fun x => pixelMark (m.display.get x y), ?_, by simp [hx]⟩
  rw [rows_dumpDisplay]
  simp [hy]

/-- Displays that are shown alike are the same. -/
theorem display_of_dump {m n : Machine} (same : n.dumpDisplay = m.dumpDisplay) : n.display = m.display := by
  refine Display.ext fun x hx y hy => ?_
  obtain ⟨marks, found, mark⟩ := mark_of_rows m hx hy
  obtain ⟨marks', found', mark'⟩ := mark_of_rows n hx hy
  rw [same, found, Option.some.injEq] at found'
  rw [← found', mark, Option.some.injEq] at mark'
  exact (pixelMark_inj mark').symm

/-! ### Keys -/

/-- The keys that a text names behind the word `keys:`; none if there is no text. -/
def namedKeys? (text : String) : Option (List Key) :=
  match Split.pieces (· = ' ') text.toList with
  | [[]] => some []
  | ['k', 'e', 'y', 's', ':'] :: names => names.mapM Key.ofName?
  | _ => none

/-- The text of the keys is a word and the names of the held keys, with a blank in front of each. -/
theorem toList_dumpKeys {m : Machine} (held : m.keypad.keys ≠ []) :
    m.dumpKeys.toList = "keys:".toList ++ m.keypad.keys.flatMap fun k => ' ' :: k.text.toList := by
  rw [dumpKeys]
  split
  · next none => exact absurd none held
  · rw [String.toList_append, String.toList_join, List.flatMap_map]
    simp

theorem dumpKeys_eq_empty_iff (m : Machine) : m.dumpKeys = "" ↔ m.keypad.keys = [] := by
  constructor
  · intro empty
    by_contra held
    have text := toList_dumpKeys held
    rw [empty] at text
    cases text
  · intro none
    rw [dumpKeys, none]

/-- **The keys that are named are those that are held.** -/
theorem namedKeys?_dumpKeys (m : Machine) : namedKeys? m.dumpKeys = some m.keypad.keys := by
  by_cases none : m.keypad.keys = []
  · rw [(dumpKeys_eq_empty_iff m).2 none, none]
    rfl
  · have solid : ∀ t ∈ "keys:".toList :: m.keypad.keys.map (fun k => k.text.toList), ∀ c ∈ t, IsSolid c := by
      rw [List.forall_mem_cons, List.forall_mem_map]
      exact ⟨fun c => .of_all (by decide), fun k _ c => Key.isSolid_text⟩
    have pieces := Assembly.pieces_blanks solid
    rw [List.flatMap_map] at pieces
    rw [namedKeys?, toList_dumpKeys none, pieces]
    exact mapM_of_inverse fun k _ => Key.ofName?_text k

/-! ### All dumps -/

/-- **Dumps are read back.** Take any machine. A dump of `count` bytes of memory has a row for every two of the
bytes that there are from `0x200` on, and one more if their number is odd. Each row says what `MemoryRow` lists,
and the digits in the rows are the bytes of memory, one after the other; the second byte of the last row is there
even if it was not asked for. A dump of the display has 32 rows of 64 characters, with a `#` where a pixel is lit and
a `.` where it is dark. A dump of the keys is empty just if none is held, and it names those that are held, each
once and in ascending order. So machines with equal dumps agree in what these show. -/
theorem dumps_read_back (m : Machine) (count : Nat) :
    let rows := Listing.rows (m.dumpMemory count)
    let lines := Listing.rows m.dumpDisplay
    ((m.dumpMemory count).toList = rows.flatMap (fun row => row ++ ['\n']) ∧
        rows.length = (min count 3584 + 1) / 2 ∧
        (∀ i row, rows[i]? = some row → MemoryRow m.memory i row) ∧
        Hex.bytes? (rows.flatMap byteDigits) = some (m.memory.read 0x200 (2 * rows.length))) ∧
      (m.dumpDisplay.toList = lines.flatMap (fun marks => marks ++ ['\n']) ∧
        lines.length = 32 ∧ (∀ marks ∈ lines, marks.length = 64) ∧
        ∀ x < 64, ∀ y < 32, ∃ marks, lines[y]? = some marks ∧
          marks[x]? = some (if m.display.get x y then '#' else '.')) ∧
      ((m.dumpKeys = "" ↔ ∀ k, m.keypad.isHeld k = false) ∧
        ∃ held, namedKeys? m.dumpKeys = some held ∧ held.Pairwise (· < ·) ∧
          ∀ k, k ∈ held ↔ m.keypad.isHeld k = true) ∧
      ∀ n : Machine,
        (n.dumpMemory count = m.dumpMemory count →
          n.memory.read 0x200 (2 * rows.length) = m.memory.read 0x200 (2 * rows.length)) ∧
        (n.dumpDisplay = m.dumpDisplay → n.display = m.display) ∧
        (n.dumpKeys = m.dumpKeys → n.keypad.held = m.keypad.held) := by
  intro rows lines
  have count_rows : rows.length = (min count 3584 + 1) / 2 := by
    simp [rows, rows_dumpMemory, dumpAddresses_eq, programLimit, memorySize, programStart]
  have bytes := bytes_dumpMemory m count
  refine ⟨⟨?_, count_rows, fun i row => memoryRow_of_rows, ?_⟩, ⟨?_, ?_, ?_, ?_⟩, ⟨?_, ?_⟩, ?_⟩
  · rw [dumpMemory_eq_join, Listing.toList_of_rows (whole_memoryLines m.memory count)]
    simp only [rows, dumpMemory_eq_join]
  · rw [count_rows]
    exact bytes
  · rw [dumpDisplay_eq_join, Listing.toList_of_rows (whole_displayLines m.display)]
    simp only [lines, dumpDisplay_eq_join]
  · simp [lines, rows_dumpDisplay]
  · intro marks h
    rw [show lines = _ from rows_dumpDisplay m] at h
    obtain ⟨y, -, rfl⟩ := List.mem_map.1 h
    simp
  · exact fun x hx y hy => mark_of_rows m hx hy
  · rw [dumpKeys_eq_empty_iff, List.eq_nil_iff_forall_not_mem]
    simp only [Keypad.mem_keys, Bool.not_eq_true]
  · exact ⟨m.keypad.keys, namedKeys?_dumpKeys m, m.keypad.keys_ascend, fun k => Keypad.mem_keys⟩
  · intro n
    refine ⟨fun same => ?_, display_of_dump, fun same => Keypad.held_ext fun k => ?_⟩
    · have other := bytes_dumpMemory n count
      rw [same, bytes, Option.some.injEq] at other
      rw [count_rows, other]
    · have keys := namedKeys?_dumpKeys n
      rw [same, namedKeys?_dumpKeys, Option.some.injEq] at keys
      rw [Bool.eq_iff_iff, ← Keypad.mem_keys, ← Keypad.mem_keys, keys]

/-- Three bytes are asked for and four are shown, so that machines that differ in the fifth one look the same. Two
keys are held, of which the greater one was put down first. -/
theorem dumps_read_back_oddCount :
    let m := (create {} 0).after [.load [0x61, 0x07, 0xA2, 0x04, 0xAB], .run 2, .key 12 true, .key 3 true]
    let n := (create { seed := some 7 } 0).after [.load [0x61, 0x07, 0xA2, 0x04, 0xCD]]
    (Listing.rows (m.dumpMemory 3)).length = 2 ∧
      Hex.bytes? ((Listing.rows (m.dumpMemory 3)).flatMap byteDigits) = some [0x61, 0x07, 0xA2, 0x04] ∧
      (∃ marks, (Listing.rows m.dumpDisplay)[31]? = some marks ∧ marks[63]? = some '.') ∧
      m.dumpKeys ≠ "" ∧
      (∃ held, namedKeys? m.dumpKeys = some held ∧ held.Pairwise (· < ·) ∧ 3 ∈ held ∧ 12 ∈ held ∧ 4 ∉ held) ∧
      n.dumpMemory 3 = m.dumpMemory 3 ∧ n.memory.read 0x200 4 = m.memory.read 0x200 4 ∧
      n.memory.get 0x204 ≠ m.memory.get 0x204 := by
  intro m n
  obtain ⟨⟨-, count, -, bytes⟩, ⟨-, -, -, pixels⟩, ⟨empty, held, named, ascend, mem⟩, others⟩ :=
    dumps_read_back m 3
  have down : m.keypad.isHeld 3 = true ∧ m.keypad.isHeld 12 = true ∧ m.keypad.isHeld 4 = false := by
    decide +kernel
  have shown : m.memory.read 0x200 4 = [0x61, 0x07, 0xA2, 0x04] := by decide +kernel
  have dark : m.display.get 63 31 = false := by decide +kernel
  have same : n.dumpMemory 3 = m.dumpMemory 3 := by decide +kernel
  rw [count] at bytes
  obtain ⟨marks, found, mark⟩ := pixels 63 (by decide) 31 (by decide)
  rw [dark] at mark
  refine ⟨count, bytes.trans (congrArg some shown), ⟨marks, found, mark⟩, fun none => ?_,
    ⟨held, named, ascend, (mem 3).2 down.1, (mem 12).2 down.2.1, fun h => ?_⟩, same, ?_, by decide +kernel⟩
  · have free := empty.1 none 3
    rw [down.1] at free
    cases free
  · have shown_down := (mem 4).1 h
    rw [down.2.2] at shown_down
    cases shown_down
  · have agree := (others n).1 same
    rw [count] at agree
    exact agree

end Machine

end ChipEight
