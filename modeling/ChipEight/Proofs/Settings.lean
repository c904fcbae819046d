import ChipEight.Config.Document
import ChipEight.Proofs.Decimal
import ChipEight.Proofs.Entries
import Mathlib.Data.List.Nodup

/-!
# Documents of settings

A document for a configuration has lines for some of the fields, in any order, with lines in between that
set nothing. `documents_read_back` says what is read from it: the values that are given, and the defaults
for the fields without a line. What is read from a configuration that was written is the configuration.
Two lines for one field are refused. So is a name that is too long to be a key.
-/

namespace ChipEight

/-! ### Numbers -/

namespace Yaml

theorem toList_toString (n : Nat) : (toString n).toList = Nat.toDigits 10 n := by simp

theorem isDigit_of_mem_toString {n : Nat} {c : Char} (h : c ∈ (toString n).toList) : c.isDigit := by
  rw [toList_toString] at h
  exact Nat.isDigit_of_mem_toDigits (by decide) (by decide) h

theorem isWord_of_digits {s : String} (nonempty : s ≠ "") (digits : ∀ c ∈ s.toList, c.isDigit) :
    IsWord s := by
  refine ⟨fun h => nonempty (String.toList_eq_nil_iff.1 h), List.all_eq_true.2 fun c hc => ?_⟩
  rw [isWordChar, digits c hc, Bool.or_true, Bool.true_or]

theorem toString_ne_empty (n : Nat) : toString n ≠ "" := by
  rw [ne_eq, ← String.toList_inj, toList_toString]
  exact Nat.toDigits_ne_nil

theorem isWord_toString (n : Nat) : IsWord (toString n) :=
  isWord_of_digits (toString_ne_empty n) fun _ => isDigit_of_mem_toString

/-- A number is read from its decimal digits. They are not taken for another base, since there is no
letter in them, and they have no zero in front. -/
theorem unsigned_toString (n : Nat) : unsigned? (toString n) = some n := by
  have isDigit : ∀ c ∈ (toString n).toList, c.isDigit := fun _ => isDigit_of_mem_toString
  rw [unsigned?, (Numeral.dropPlus_eq_iff isDigit).2 (Or.inl rfl)]
  split
  next base => exact absurd (isDigit 'x' (base ▸ by simp)) (by decide)
  next base => exact absurd (isDigit 'o' (base ▸ by simp)) (by decide)
  next base => exact absurd (isDigit 'b' (base ▸ by simp)) (by decide)
  · rw [toList_toString]
    unfold decimal?
    split
    next first =>
      have zero : n = 0 := Numeral.eq_zero_of_head_toDigits (by rw [first]; rfl)
      subst zero
      cases first
    · exact Numeral.read_toDigits n

/-- A number of 64 bits is read from a node with its digits. -/
theorem wide_toString (n : UInt64) : (Node.plain (toString n.toNat)).wide? = some n := by
  have read : (Node.plain (toString n.toNat)).wide? =
      (unsigned? (toString n.toNat)).bind Numeral.wide? := rfl
  rw [read, unsigned_toString, Option.bind_some, Numeral.wide_toNat]

/-- The digits of a number are not taken for nothing. -/
theorem optionalWide_toString (n : UInt64) :
    (Node.plain (toString n.toNat)).optionalWide? = some (some n) := by
  have other {s : String} (c : Char) (letter : c.isDigit = false) (mem : c ∈ s.toList) :
      (toString n.toNat == s) = false := by
    rw [beq_eq_false_iff_ne]
    rintro rfl
    rw [isDigit_of_mem_toString mem] at letter
    cases letter
  have empty : (toString n.toNat == "") = false := beq_eq_false_iff_ne.2 (toString_ne_empty _)
  have something : isNull (toString n.toNat) = false := by
    rw [isNull, other '~' rfl (by decide), other 'u' rfl (by decide), other 'u' rfl (by decide),
      other 'U' rfl (by decide)]
    rfl
  have read : (Node.plain (toString n.toNat)).optionalWide? =
      (some (toString n.toNat == "" || isNull (toString n.toNat))).bind fun isNothing =>
        if isNothing then some none else (Node.plain (toString n.toNat)).wide?.map some := rfl
  rw [read, empty, something, wide_toString]
  rfl

end Yaml

namespace Config

/-! ### Fields -/

/-- The values that a field can have. -/
def Field.Value : Field → Type
  | clockFrequency | seed => Option UInt64
  | timerFrequency => UInt64

/-- A value as it is written in a document. -/
def Field.valueText : (f : Field) → f.Value → String
  | clockFrequency, v | seed, v => optionText v
  | timerFrequency, v => toString (UInt64.toNat v)

theorem Field.isWord_name (f : Field) : Yaml.IsWord f.name := by
  cases f <;> decide

theorem isWord_optionText (v : Option UInt64) : Yaml.IsWord (optionText v) := by
  cases v with
  | none => decide
  | some n => exact Yaml.isWord_toString n.toNat

theorem Field.isWord_valueText (f : Field) (v : f.Value) : Yaml.IsWord (f.valueText v) := by
  cases f with
  | clockFrequency => exact isWord_optionText v
  | timerFrequency => exact Yaml.isWord_toString (UInt64.toNat v)
  | seed => exact isWord_optionText v

/-- What a configuration says about a field. -/
def get (c : Config) : (f : Field) → f.Value
  | .clockFrequency => c.clockFrequency
  | .timerFrequency => c.timerFrequency
  | .seed => c.seed

/-- The configuration with a field set. -/
def set (c : Config) : (f : Field) → f.Value → Config
  | .clockFrequency, v => { c with clockFrequency := v }
  | .timerFrequency, v => { c with timerFrequency := v }
  | .seed, v => { c with seed := v }

theorem get_set_self (c : Config) (f : Field) (v : f.Value) : (c.set f v).get f = v := by
  cases f <;> rfl

theorem get_set_of_ne (c : Config) {f g : Field} (h : g ≠ f) (v : f.Value) :
    (c.set f v).get g = c.get g := by
  cases f <;> cases g <;> first | exact absurd rfl h | rfl

theorem ext_get {c d : Config} (h : ∀ f, c.get f = d.get f) : c = d := by
  obtain ⟨clock, timer, seed⟩ := c
  have clock : clock = d.clockFrequency := h .clockFrequency
  have timer : timer = d.timerFrequency := h .timerFrequency
  have seed : seed = d.seed := h .seed
  subst clock timer seed
  rfl

theorem optionalWide_optionText (v : Option UInt64) :
    (Yaml.Node.plain (optionText v)).optionalWide? = some v := by
  cases v with
  | none => rfl
  | some n => exact Yaml.optionalWide_toString n

/-- A field is set to the value that is written. -/
theorem setField_plain (c : Config) (f : Field) (v : f.Value) :
    c.setField? f (.plain (f.valueText v)) = some (c.set f v) := by
  cases f with
  | clockFrequency => exact congrArg (Option.map _) (optionalWide_optionText v)
  | timerFrequency => exact congrArg (Option.map _) (Yaml.wide_toString v)
  | seed => exact congrArg (Option.map _) (optionalWide_optionText v)

/-! ### Lines -/

/-- A line that says nothing about a configuration. -/
structure UnknownLine where
  /-- The name in front of the colon. -/
  name : String
  /-- The number behind it. -/
  number : String
  /-- The name is not empty. -/
  name_ne_empty : name ≠ ""
  /-- It consists of lower-case letters and underscores. -/
  letters : ∀ c ∈ name.toList, c.isLower ∨ c = '_'
  /-- It is the name of no field. -/
  unknown : ∀ f : Field, f.name ≠ name
  /-- The number is not empty. -/
  number_ne_empty : number ≠ ""
  /-- It consists of digits. -/
  digits : ∀ c ∈ number.toList, c.isDigit

/-- A line of a document. -/
inductive Line
  /-- A field with its value. -/
  | setting (f : Field) (value : f.Value)
  /-- An unknown name with a number. -/
  | unknown (line : UnknownLine)

namespace Line

/-- What stands in front of the colon. -/
def name : Line → String
  | setting f _ => f.name
  | unknown l => l.name

/-- What stands behind the colon. -/
def value : Line → String
  | setting f v => f.valueText v
  | unknown l => l.number

/-- The line without its end. -/
def text (l : Line) : String := l.name ++ ": " ++ l.value

/-- The field that a line sets. -/
def field? : Line → Option Field
  | setting f _ => some f
  | unknown _ => none

theorem isWord_name (l : Line) : Yaml.IsWord l.name := by
  cases l with
  | setting f v => exact f.isWord_name
  | unknown l =>
    refine ⟨fun h => l.name_ne_empty (String.toList_eq_nil_iff.1 h), List.all_eq_true.2 fun c hc => ?_⟩
    obtain lower | rfl := l.letters c hc
    · simp [Yaml.isWordChar, lower]
    · decide

theorem isWord_value (l : Line) : Yaml.IsWord l.value := by
  cases l with
  | setting f v => exact f.isWord_valueText v
  | unknown l => exact Yaml.isWord_of_digits l.number_ne_empty l.digits

/-- A line as an entry of words. -/
def entry (l : Line) : Yaml.Entry := ⟨l.isWord_name.word, l.isWord_value.word⟩

theorem nodes_entry (l : Line) : l.entry.nodes = (.plain l.name, .plain l.value) := by
  simp only [entry, Yaml.Entry.nodes, Yaml.IsWord.text_word]

theorem line_entry (l : Line) : l.entry.line = l.text.toList := by
  simp [entry, Yaml.Entry.line, Yaml.IsWord.word, text]

theorem short_entry_iff (l : Line) : l.entry.Short ↔ l.name.length ≤ 1024 := by
  rw [← String.length_toList]
  rfl

end Line

/-- A document with some lines. The last one ends with a line break or with the text. -/
def document (ended : Bool) : List Line → String
  | [] => ""
  | l :: ls => l.text ++ (if Yaml.breaksBefore ended ls then "\n" else "") ++ document ended ls

theorem document_eq (ended : Bool) (ls : List Line) :
    document ended ls = String.ofList (Yaml.linesOf ended (ls.map Line.entry)) := by
  rw [← String.toList_inj, String.toList_ofList]
  induction ls with
  | nil => rfl
  | cons l ls ih =>
    have breaks : Yaml.breaksBefore ended (ls.map Line.entry) = Yaml.breaksBefore ended ls := by
      rw [Yaml.breaksBefore, List.isEmpty_map, Yaml.breaksBefore]
    simp only [document, List.map_cons, Yaml.linesOf, String.toList_append, ih, Line.line_entry,
      List.append_assoc, breaks]
    split_ifs with more
    · rfl
    · rw [Yaml.eq_nil_of_not_breaksBefore more]
      rfl

/-- A document is read line by line, if all its names are short enough to be keys. -/
theorem read_document (ended : Bool) (ls : List Line) :
    read (document ended ls) =
      if ∀ l ∈ ls, l.name.length ≤ 1024 then
        ofEntries (Yaml.treeOf (ls.map Line.entry)) default [] (ls.map fun l => l.entry.nodes)
      else .error .malformed := by
  have short : (∀ e ∈ ls.map Line.entry, e.Short) ↔ ∀ l ∈ ls, l.name.length ≤ 1024 := by
    simp only [List.forall_mem_map, Line.short_entry_iff]
  rw [read, document_eq, Yaml.parse_linesOf]
  simp only [short]
  split_ifs with h
  · cases ls with
    | nil => rfl
    | cons l ls => simp [Yaml.treeOf, ofNode, Yaml.Node.bare, Function.comp_def]
  · rfl

/-! ### Settings -/

/-- The fields that some lines set, in order. -/
def fieldsOf (ls : List Line) : List Field := ls.filterMap Line.field?

/-- A configuration is what some lines say: the values that are given, and the defaults elsewhere. -/
structure SetBy (ls : List Line) (c : Config) : Prop where
  given : ∀ f v, .setting f v ∈ ls → c.get f = v
  absent : ∀ f, f ∉ fieldsOf ls → c.get f = default.get f

variable (root : Yaml.Node) (c : Config) (seen : List Field)

theorem ofEntries_unknown (l : UnknownLine) (rest : List (Yaml.Node × Yaml.Node)) :
    ofEntries root c seen ((Line.unknown l).entry.nodes :: rest) = ofEntries root c seen rest := by
  have unknown : Field.ofName? l.name = none := by
    simp [Field.ofName?, l.unknown]
  have key : (root.target (.plain l.name)).scalar? = some ⟨l.name, .plain, none⟩ := rfl
  rw [Line.nodes_entry, ofEntries]
  simp only [Line.name, key, unknown]

theorem ofEntries_setting (f : Field) (v : f.Value) (rest : List (Yaml.Node × Yaml.Node)) :
    ofEntries root c seen ((Line.setting f v).entry.nodes :: rest) =
      if f ∈ seen then .error (.duplicate f) else ofEntries root (c.set f v) (f :: seen) rest := by
  have known : Field.ofName? f.name = some f := by cases f <;> decide
  have key : (root.target (.plain f.name)).scalar? = some ⟨f.name, .plain, none⟩ := rfl
  have value : root.target (.plain (f.valueText v)) = .plain (f.valueText v) := rfl
  rw [Line.nodes_entry, ofEntries]
  simp only [Line.name, Line.value, key, known, value, setField_plain]

/-- Lines for different fields, none of them seen before, are taken over one after the other. -/
theorem ofEntries_of_nodup {ls : List Line} (nodup : (fieldsOf ls ++ seen).Nodup) :
    ∃ d, ofEntries root c seen (ls.map fun l => l.entry.nodes) = .ok d ∧
      (∀ f v, .setting f v ∈ ls → d.get f = v) ∧ ∀ f, f ∉ fieldsOf ls → d.get f = c.get f := by
  induction ls generalizing c seen with
  | nil => exact ⟨c, rfl, by simp, fun _ _ => rfl⟩
  | cons l ls ih =>
    cases l with
    | unknown l =>
      obtain ⟨d, read, given, absent⟩ := ih c seen nodup
      refine ⟨d, ?_, ?_, absent⟩
      · rw [List.map_cons, ofEntries_unknown, read]
      · simpa using given
    | setting f v =>
      have fields : fieldsOf (.setting f v :: ls) = f :: fieldsOf ls := rfl
      rw [fields, List.cons_append, List.nodup_cons, List.mem_append, not_or] at nodup
      obtain ⟨⟨once, fresh⟩, others⟩ := nodup
      have nodup : (fieldsOf ls ++ f :: seen).Nodup := by
        rw [List.nodup_middle, List.nodup_cons, List.mem_append, not_or]
        exact ⟨⟨once, fresh⟩, others⟩
      obtain ⟨d, read, given, absent⟩ := ih (c.set f v) (f :: seen) nodup
      refine ⟨d, ?_, ?_, ?_⟩
      · rw [List.map_cons, ofEntries_setting, if_neg fresh, read]
      · intro g w mem
        obtain here | below := List.mem_cons.1 mem
        · cases here
          rw [absent f once, get_set_self]
        · exact given g w below
      · intro g unset
        rw [fields, List.mem_cons, not_or] at unset
        rw [absent g unset.2, get_set_of_ne c unset.1]

/-- Where a field comes twice, the second line for it is refused. -/
theorem ofEntries_of_not_nodup {ls : List Line} (seen_nodup : seen.Nodup)
    (twice : ¬(fieldsOf ls ++ seen).Nodup) :
    ∃ f, 2 ≤ (fieldsOf ls ++ seen).count f ∧
      ofEntries root c seen (ls.map fun l => l.entry.nodes) = .error (.duplicate f) := by
  induction ls generalizing c seen with
  | nil => exact absurd seen_nodup twice
  | cons l ls ih =>
    cases l with
    | unknown l =>
      obtain ⟨f, count, read⟩ := ih c seen seen_nodup twice
      exact ⟨f, count, by rw [List.map_cons, ofEntries_unknown, read]⟩
    | setting f v =>
      have perm : (fieldsOf ls ++ f :: seen).Perm (fieldsOf (.setting f v :: ls) ++ seen) :=
        List.perm_middle
      rw [List.map_cons, ofEntries_setting]
      split_ifs with again
      · refine ⟨f, ?_, rfl⟩
        have old := List.count_pos_iff.2 again
        rw [← perm.count_eq, List.count_append, List.count_cons_self]
        omega
      · rw [← perm.nodup_iff] at twice
        obtain ⟨g, count, read⟩ := ih (c.set f v) (f :: seen) (List.nodup_cons.2 ⟨again, seen_nodup⟩) twice
        exact ⟨g, perm.count_eq g ▸ count, read⟩

/-! ### What is read -/

variable (ended : Bool) {ls : List Line}

theorem read_of_nodup (short : ∀ l ∈ ls, l.name.length ≤ 1024) (once : (fieldsOf ls).Nodup) :
    ∃ c, read (document ended ls) = .ok c ∧ SetBy ls c := by
  have nodup : (fieldsOf ls ++ []).Nodup := by rwa [List.append_nil]
  obtain ⟨c, entries, given, absent⟩ :=
    ofEntries_of_nodup (Yaml.treeOf (ls.map Line.entry)) default [] nodup
  exact ⟨c, by rw [read_document, if_pos short, entries], given, absent⟩

theorem read_of_not_nodup (short : ∀ l ∈ ls, l.name.length ≤ 1024) (twice : ¬(fieldsOf ls).Nodup) :
    ∃ f, 2 ≤ (fieldsOf ls).count f ∧ read (document ended ls) = .error (.duplicate f) := by
  have nodup : ¬(fieldsOf ls ++ []).Nodup := by rwa [List.append_nil]
  obtain ⟨f, count, entries⟩ :=
    ofEntries_of_not_nodup (Yaml.treeOf (ls.map Line.entry)) default [] List.nodup_nil nodup
  rw [List.append_nil] at count
  exact ⟨f, count, by rw [read_document, if_pos short, entries]⟩

theorem read_of_long (long : ∃ l ∈ ls, 1024 < l.name.length) :
    read (document ended ls) = .error .malformed := by
  obtain ⟨l, mem, long⟩ := long
  rw [read_document, if_neg fun short => absurd (short l mem) (Nat.not_le.2 long)]

/-- The lines of a configuration that is written. -/
def written (c : Config) : List Line :=
  [Field.clockFrequency, .timerFrequency, .seed].map fun f => .setting f (c.get f)

theorem text_eq_document (c : Config) : c.text = document true c.written := by
  simp [text, fieldLine, written, document, Yaml.breaksBefore, Line.text, Line.name, Line.value, get,
    Field.valueText, String.append_assoc]

/-- What is read from a configuration that was written is the configuration. -/
theorem read_text (c : Config) : read c.text = .ok c := by
  have short : ∀ l ∈ c.written, l.name.length ≤ 1024 := by
    have names : ∀ f : Field, f.name.length ≤ 1024 := by rintro ⟨⟩ <;> decide
    simp [written, Line.name, names]
  obtain ⟨d, read, set⟩ := read_of_nodup true short (by simp [fieldsOf, written, Line.field?])
  have same : d = c := ext_get fun f => set.given f _ (by cases f <;> simp [written])
  rw [text_eq_document, read, same]

/-- A name of equal letters, more of them than the name of a field has. -/
def UnknownLine.ofLength (n : Nat) (long : 15 < n) : UnknownLine where
  name := String.ofList (List.replicate n 'a')
  number := "0"
  name_ne_empty := by
    intro empty
    have length := congrArg String.length empty
    rw [String.length_ofList, List.length_replicate, String.length_empty] at length
    omega
  letters c hc := by
    rw [String.toList_ofList] at hc
    obtain rfl := List.eq_of_mem_replicate hc
    exact Or.inl (by decide)
  unknown f h := by
    have length := congrArg String.length h
    rw [String.length_ofList, List.length_replicate] at length
    have : f.name.length ≤ 15 := by cases f <;> decide
    omega
  number_ne_empty := by decide
  digits := Yaml.forall_mem_of_all (by decide)

theorem UnknownLine.length_ofLength (n : Nat) (long : 15 < n) : (ofLength n long).name.length = n := by
  simp [ofLength]

/-- A name of one letter more than a key may have. -/
def UnknownLine.overlong : UnknownLine := ofLength 1025 (by decide)

theorem exists_overlong : ∃ l ∈ [Line.unknown .overlong], 1024 < l.name.length :=
  ⟨_, List.mem_singleton_self _, (UnknownLine.length_ofLength 1025 (by decide)).symm ▸ by decide⟩

/-- An unknown name with a number, which has zeros in front. -/
def UnknownLine.speed : UnknownLine where
  name := "speed"
  number := "007"
  name_ne_empty := by decide
  letters := Yaml.forall_mem_of_all (by decide)
  unknown f := by cases f <;> decide
  number_ne_empty := by decide
  digits := Yaml.forall_mem_of_all (by decide)

/-- **Documents are read back.** What is read from a configuration that was written is the configuration.
From lines in any order, all of whose names are short enough to be keys, the values that they give are
read, with the defaults elsewhere, unless a field comes twice. -/
theorem documents_read_back :
    (∀ c : Config, read c.text = .ok c) ∧
      ∀ (ended : Bool) (ls : List Line),
        ((∀ l ∈ ls, l.name.length ≤ 1024) →
          ((fieldsOf ls).Nodup → ∃ c, read (document ended ls) = .ok c ∧ SetBy ls c) ∧
            (¬(fieldsOf ls).Nodup → ∃ f, 2 ≤ (fieldsOf ls).count f ∧
              read (document ended ls) = .error (.duplicate f))) ∧
          ((∃ l ∈ ls, 1024 < l.name.length) → read (document ended ls) = .error .malformed) :=
  ⟨read_text, fun ended _ =>
    ⟨fun short => ⟨read_of_nodup ended short, read_of_not_nodup ended short⟩, read_of_long ended⟩⟩

theorem documents_read_back_sample :
    (∃ c, read "timer_frequency: 50\nspeed: 007\nrng_seed: null" = .ok c ∧
      c.timerFrequency = 50 ∧ c.clockFrequency = none ∧ c.seed = none) ∧
    (∃ f, read "rng_seed: 1\nspeed: 007\nrng_seed: 2\n" = .error (.duplicate f)) ∧
    read (document true [.unknown .overlong]) = .error .malformed ∧
    read (text ⟨some 700, 60, none⟩) = .ok ⟨some 700, 60, none⟩ := by
  let once : List Line :=
    [.setting .timerFrequency (50 : UInt64), .unknown .speed, .setting .seed (none : Option UInt64)]
  let twice : List Line :=
    [.setting .seed (some 1 : Option UInt64), .unknown .speed, .setting .seed (some 2 : Option UInt64)]
  refine ⟨?_, ?_, ?_, documents_read_back.1 _⟩
  · obtain ⟨c, read, set⟩ :=
      ((documents_read_back.2 false once).1 (by simp [once, Line.name]; decide)).1 (by decide)
    exact ⟨c, read, set.given .timerFrequency (50 : UInt64) (by simp [once]),
      set.absent .clockFrequency (by decide), set.given .seed none (by simp [once])⟩
  · obtain ⟨f, -, read⟩ :=
      ((documents_read_back.2 true twice).1 (by simp [twice, Line.name]; decide)).2 (by decide)
    exact ⟨f, read⟩
  · exact (documents_read_back.2 true [.unknown .overlong]).2 exists_overlong

/-- A line for each field at most is not enough for a document to be read. A name can be too long for a
key, and a number for a field must not begin with a zero. -/
theorem overlong_name_and_leading_zero_refused :
    document true [.unknown .overlong] = String.ofList (List.replicate 1025 'a') ++ ": 0\n" ∧
      (fieldsOf [.unknown .overlong]).Nodup ∧
      read (document true [.unknown .overlong]) = .error .malformed ∧
      read "rng_seed: 07\n" = .error (.badValue .seed) := by
  have line (n : Nat) (long : 15 < n) : document true [.unknown (.ofLength n long)] =
      String.ofList (List.replicate n 'a') ++ ": 0\n" := by
    simp [document, Yaml.breaksBefore, Line.text, Line.name, Line.value, UnknownLine.ofLength,
      String.append_assoc]
  exact ⟨line 1025 (by decide), by decide, read_of_long true exists_overlong, by decide +kernel⟩

end Config

end ChipEight
