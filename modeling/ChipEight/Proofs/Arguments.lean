import ChipEight.Proofs.Decimal
import ChipEight.Proofs.Reports
import Mathlib.Data.List.Induction

/-!
# The grammar of command lines

The arguments of `run` are a row of items (`Item`): a flag with its value, which is the argument after it
whatever that looks like, and otherwise a file. `Gives` says what a row of items asks for, and `Refused`
what is wrong with a command line that asks for nothing. Both look at the arguments only, and not at how
they are read.

`Command.parseRun_items` follows the reading through a row of items in which nothing is wrong, and
`split_after` finds the longest such row, so that what comes after it is what is complained about.
`Command.parse_grammar` puts these together.
-/

namespace ChipEight

/-- A flag takes a value: any text for a file, and numerals of 64-bit numbers otherwise. -/
def Flag.Takes : Flag → String → Prop
  | config, _ => True
  | hz, value | steps, value => ∃ n < 2 ^ 64, Numeral.Writes value n

/-- A number is the one that a text writes, and is absent without a text. -/
def Numeral.IsOf (number : Option UInt64) (text : Option String) : Prop :=
  ∀ n, number = some n ↔ ∃ s, text = some s ∧ Writes s n.toNat

namespace Arguments

/-! ### Items -/

/-- An item among the arguments of `run`. -/
inductive Item
  /-- A flag and the argument after it. -/
  | option (flag : Flag) (value : String)
  /-- An argument that is no flag. -/
  | file (path : String) (plain : ∀ flag : Flag, path ≠ flag.text)

namespace Item

/-- The arguments that an item is made of. -/
def arguments : Item → List String
  | option flag value => [flag.text, value]
  | file path _ => [path]

/-- The file that an item names, if it names one. -/
def file? : Item → Option String
  | option _ _ => none
  | file path _ => some path

/-- The value that an item has for a flag, if it has one. -/
def value? (flag : Flag) : Item → Option String
  | option f value => if f = flag then some value else none
  | file _ _ => none

end Item

/-- The files that items name. -/
def files (items : List Item) : List String := items.filterMap Item.file?

/-- The value of the last item with a flag. -/
def lastValue (flag : Flag) (items : List Item) : Option String :=
  (items.filterMap (Item.value? flag)).getLast?

/-- What items ask for: each flag takes the values it has, there is the file or none, and the last value
of each flag counts. -/
structure Gives (items : List Item) (file : Option String) (options : RunOptions) : Prop where
  /-- No value is wrong. -/
  takes : ∀ flag value, .option flag value ∈ items → flag.Takes value
  /-- No other file is named. -/
  files : files items = file.toList
  /-- The file with the configuration. -/
  config : options.config = lastValue .config items
  /-- The frequency of the instruction clock. -/
  clockFrequency : Numeral.IsOf options.clockFrequency (lastValue .hz items)
  /-- The number of instructions. -/
  stepLimit : Numeral.IsOf options.stepLimit (lastValue .steps items)

/-- Nothing is wrong with items so far: each flag takes its values, and there is at most one file. -/
structure Sound (items : List Item) : Prop where
  /-- No value is wrong. -/
  takes : ∀ flag value, .option flag value ∈ items → flag.Takes value
  /-- There is no second file. -/
  single : (files items).length ≤ 1

/-- What is wrong with the arguments of `run`. Nothing is wrong with the items in front of what is
complained about. -/
inductive Refusal : List String → UsageError → Prop
  /-- No item is a file. -/
  | noFile {items : List Item} (sound : Sound items) (none : files items = []) :
    Refusal (items.flatMap Item.arguments) .noFile
  /-- A flag is the last argument. -/
  | missingValue {items : List Item} (sound : Sound items) (flag : Flag) :
    Refusal (items.flatMap Item.arguments ++ [flag.text]) (.missingValue flag)
  /-- A flag does not take the argument after it. -/
  | notANumber {items : List Item} (sound : Sound items) {flag : Flag} {value : String}
    (bad : ¬ flag.Takes value) (rest : List String) :
    Refusal (items.flatMap Item.arguments ++ flag.text :: value :: rest) (.notANumber flag value)
  /-- There is a file already, and here is another one. -/
  | unexpected {items : List Item} (sound : Sound items) (one : files items ≠ []) {path : String}
    (plain : ∀ flag : Flag, path ≠ flag.text) (rest : List String) :
    Refusal (items.flatMap Item.arguments ++ path :: rest) (.unexpectedArgument path)

/-- What is wrong with a command line. -/
inductive Refused : List String → UsageError → Prop
  /-- There are no arguments. -/
  | noCommand : Refused [] .noCommand
  /-- The first argument is no command. -/
  | unknownCommand {name : String} (run : name ≠ "run") (dis : name ≠ "dis") (rest : List String) :
    Refused (name :: rest) (.unknownCommand name)
  /-- There is nothing to disassemble. -/
  | disassemble : Refused ["dis"] .noFile
  /-- The arguments of `run` are wrong. -/
  | run {arguments : List String} {e : UsageError} (h : Refusal arguments e) :
    Refused ("run" :: arguments) e

end Arguments

/-! ### Flags and their values -/

namespace Flag

@[simp] theorem ofText_text (flag : Flag) : ofText? flag.text = some flag := by
  cases flag <;> decide

theorem ofText_eq_some {s : String} {flag : Flag} (h : ofText? s = some flag) : s = flag.text := by
  have found := List.find?_some h
  exact (beq_iff_eq.1 found).symm

theorem ofText_of_plain {s : String} (plain : ∀ flag : Flag, s ≠ flag.text) : ofText? s = none := by
  cases h : ofText? s with
  | none => rfl
  | some flag => exact absurd (ofText_eq_some h) (plain flag)

theorem plain_of_ofText {s : String} (h : ofText? s = none) (flag : Flag) : s ≠ flag.text := by
  rintro rfl
  rw [ofText_text] at h
  cases h

end Flag

theorem Numeral.isOf_iff {number : Option UInt64} {text : Option String} :
    IsOf number text ↔ number = text.bind decimal64? := by
  simp only [IsOf, ← decimal64_eq_some_iff, ← Option.bind_eq_some_iff]
  exact Option.ext_iff.symm

/-- An option is set to a value that its flag takes. -/
theorem RunOptions.set_of_takes (o : RunOptions) {flag : Flag} {value : String}
    (h : flag.Takes value) : o.set flag value = .ok
      { config := if flag = .config then some value else o.config
        clockFrequency := if flag = .hz then Numeral.decimal64? value else o.clockFrequency
        stepLimit := if flag = .steps then Numeral.decimal64? value else o.stepLimit } := by
  cases flag with
  | config => rfl
  | _ =>
    obtain ⟨n, hn⟩ := Numeral.exists_decimal64_iff.2 h
    simp [set, hn]

theorem RunOptions.set_of_not_takes (o : RunOptions) {flag : Flag} {value : String}
    (h : ¬ flag.Takes value) : o.set flag value = .error (.notANumber flag value) := by
  have unread (bad : ¬ ∃ n < 2 ^ 64, Numeral.Writes value n) : Numeral.decimal64? value = none := by
    rw [← Numeral.exists_decimal64_iff] at bad
    exact Option.eq_none_iff_forall_ne_some.2 fun n hn => bad ⟨n, hn⟩
  cases flag with
  | config => exact absurd trivial h
  | hz => simp [set, unread h]
  | steps => simp [set, unread h]

namespace Arguments

/-! ### Rows of items -/

variable {items items' : List Item} {file : Option String} {options : RunOptions}

@[simp] theorem files_append (items items' : List Item) :
    files (items ++ items') = files items ++ files items' := List.filterMap_append

@[simp] theorem files_option (flag : Flag) (value : String) : files [.option flag value] = [] := rfl

@[simp] theorem files_file (path : String) (plain : ∀ flag : Flag, path ≠ flag.text) :
    files [.file path plain] = [path] := rfl

@[simp] theorem lastValue_append_option (f flag : Flag) (value : String) (items : List Item) :
    lastValue f (items ++ [.option flag value]) =
      if flag = f then some value else lastValue f items := by
  by_cases h : flag = f <;> simp [lastValue, Item.value?, h]

@[simp] theorem lastValue_append_file (f : Flag) (path : String)
    (plain : ∀ flag : Flag, path ≠ flag.text) (items : List Item) :
    lastValue f (items ++ [.file path plain]) = lastValue f items := by
  simp [lastValue, Item.value?]

theorem Sound.nil : Sound [] := ⟨fun _ _ h => absurd h List.not_mem_nil, Nat.zero_le 1⟩

/-- What comes first of sound items is sound. -/
theorem Sound.of_append (h : Sound (items ++ items')) : Sound items where
  takes flag value mem := h.takes flag value (List.mem_append_left _ mem)
  single := by
    have single := h.single
    rw [files_append, List.length_append] at single
    omega

theorem Sound.append_option (h : Sound items) {flag : Flag} {value : String}
    (takes : flag.Takes value) : Sound (items ++ [.option flag value]) where
  takes f v mem := by
    rcases List.mem_append.1 mem with mem | mem
    · exact h.takes f v mem
    · cases List.mem_singleton.1 mem
      exact takes
  single := by simpa using h.single

theorem Sound.append_file (h : Sound items) {path : String} (plain : ∀ flag : Flag, path ≠ flag.text)
    (none : files items = []) : Sound (items ++ [.file path plain]) where
  takes f v mem := by
    rcases List.mem_append.1 mem with mem | mem
    · exact h.takes f v mem
    · cases List.mem_singleton.1 mem
  single := by simp [none]

theorem Gives.sound (h : Gives items file options) : Sound items where
  takes := h.takes
  single := by
    rw [h.files]
    cases file <;> simp

/-- Items ask for one thing only. -/
theorem Gives.unique {file' : Option String} {options' : RunOptions}
    (h : Gives items file options) (h' : Gives items file' options') :
    file = file' ∧ options = options' := by
  constructor
  · have same := h.files.symm.trans h'.files
    cases file <;> cases file' <;> simp_all
  · have config := h.config.trans h'.config.symm
    have clockFrequency := Option.ext fun n => (h.clockFrequency n).trans (h'.clockFrequency n).symm
    have stepLimit := Option.ext fun n => (h.stepLimit n).trans (h'.stepLimit n).symm
    cases options
    cases options'
    simp_all

/-- The first argument tells how the first item looks. -/
theorem Item.arguments_append_inj {item item' : Item} {rest rest' : List String}
    (h : item.arguments ++ rest = item'.arguments ++ rest') : item = item' ∧ rest = rest' := by
  cases item with
  | option flag value =>
    cases item' with
    | option flag' value' =>
      obtain ⟨sameText, tail⟩ := List.cons.inj h
      obtain ⟨rfl, rfl⟩ := List.cons.inj tail
      have same : flag = flag' := by
        have read := congrArg Flag.ofText? sameText
        simpa using read
      rw [same]
      exact ⟨rfl, rfl⟩
    | file path' plain' => exact absurd (List.cons.inj h).1.symm (plain' flag)
  | file path plain =>
    cases item' with
    | option flag' value' => exact absurd (List.cons.inj h).1 (plain flag')
    | file path' plain' =>
      obtain ⟨rfl, rfl⟩ := List.cons.inj h
      exact ⟨rfl, rfl⟩

/-- Arguments are made of items in one way only. -/
theorem flatMap_arguments_inj {items items' : List Item}
    (h : items.flatMap Item.arguments = items'.flatMap Item.arguments) : items = items' := by
  induction items generalizing items' with
  | nil =>
    cases items' with
    | nil => rfl
    | cons item' items' => cases item' <;> cases h
  | cons item items ih =>
    cases items' with
    | nil => cases item <;> cases h
    | cons item' items' =>
      rw [List.flatMap_cons, List.flatMap_cons] at h
      obtain ⟨rfl, rest⟩ := Item.arguments_append_inj h
      rw [ih rest]

/-- What items ask for depends on their order only as far as values of the same flag are concerned. -/
theorem Gives.reorder (h : Gives items file options) (perm : items.Perm items')
    (values : ∀ flag, items.filterMap (Item.value? flag) = items'.filterMap (Item.value? flag)) :
    Gives items' file options := by
  have last (flag : Flag) : lastValue flag items' = lastValue flag items :=
    congrArg List.getLast? (values flag).symm
  have sameFiles : Arguments.files items' = file.toList := by
    have shuffled : (Arguments.files items').Perm file.toList :=
      h.files ▸ (perm.filterMap Item.file?).symm
    cases file with
    | none => exact shuffled.eq_nil
    | some path => exact shuffled.eq_singleton
  exact ⟨fun flag value mem => h.takes flag value (perm.mem_iff.2 mem), sameFiles,
    (last .config).symm ▸ h.config, (last .hz).symm ▸ h.clockFrequency,
    (last .steps).symm ▸ h.stepLimit⟩

theorem Gives.nil : Gives [] none {} where
  takes _ _ h := absurd h List.not_mem_nil
  files := rfl
  config := rfl
  clockFrequency := Numeral.isOf_iff.2 rfl
  stepLimit := Numeral.isOf_iff.2 rfl

/-- A flag with a value that it takes sets the option. -/
theorem Gives.append_option (h : Gives items file options) {flag : Flag} {value : String}
    (takes : flag.Takes value) : ∃ options', options.set flag value = .ok options' ∧
      Gives (items ++ [.option flag value]) file options' := by
  refine ⟨_, options.set_of_takes takes, ?_⟩
  refine ⟨(h.sound.append_option takes).takes, by simp [h.files], ?_, ?_, ?_⟩
  · simp [h.config]
  · rw [Numeral.isOf_iff, lastValue_append_option, Numeral.isOf_iff.1 h.clockFrequency]
    by_cases same : flag = .hz <;> simp [same]
  · rw [Numeral.isOf_iff, lastValue_append_option, Numeral.isOf_iff.1 h.stepLimit]
    by_cases same : flag = .steps <;> simp [same]

/-- The first file is the one that is asked for. -/
theorem Gives.append_file (h : Gives items none options) {path : String}
    (plain : ∀ flag : Flag, path ≠ flag.text) :
    Gives (items ++ [.file path plain]) (some path) options where
  takes := (h.sound.append_file plain h.files).takes
  files := by simp [h.files]
  config := by simp [h.config]
  clockFrequency := by simpa using h.clockFrequency
  stepLimit := by simpa using h.stepLimit

/-- Arguments are items in which nothing is wrong, or there is something to complain about. Here some
items were found already. -/
theorem split_after (arguments : List String) {items : List Item} (sound : Sound items) :
    (∃ items', Sound items' ∧
        items.flatMap Item.arguments ++ arguments = items'.flatMap Item.arguments) ∨
      ∃ e, Refusal (items.flatMap Item.arguments ++ arguments) e := by
  -- two arguments may be read at once, so that the induction is on how many are left
  induction hn : arguments.length using Nat.strongRecOn generalizing arguments items with
  | ind n ih =>
    subst hn
    cases arguments with
    | nil => exact Or.inl ⟨items, sound, List.append_nil _⟩
    | cons argument rest =>
      cases isFlag : Flag.ofText? argument with
      | none =>
        have plain := Flag.plain_of_ofText isFlag
        by_cases none : files items = []
        · have split := ih rest.length (Nat.lt_succ_self _) rest (sound.append_file plain none) rfl
          simpa [Item.arguments] using split
        · exact Or.inr ⟨_, .unexpected sound none plain rest⟩
      | some flag =>
        obtain rfl := Flag.ofText_eq_some isFlag
        cases rest with
        | nil => exact Or.inr ⟨_, .missingValue sound flag⟩
        | cons value rest =>
          by_cases takes : flag.Takes value
          · have split := ih rest.length (by simp only [List.length_cons]; omega) rest
              (sound.append_option takes) rfl
            simpa [Item.arguments] using split
          · exact Or.inr ⟨_, .notANumber sound takes rest⟩

theorem split (arguments : List String) :
    (∃ items, Sound items ∧ arguments = items.flatMap Item.arguments) ∨
      ∃ e, Refusal arguments e :=
  split_after arguments .nil

end Arguments

namespace Command

open Arguments

variable {arguments : List String}

/-- **Items in which nothing is wrong are read one after the other**, and what follows them is read after
what they ask for. -/
theorem parseRun_items {items : List Item} (sound : Sound items) :
    ∃ file options, Gives items file options ∧ ∀ rest,
      parseRun {} none (items.flatMap Item.arguments ++ rest) = parseRun options file rest := by
  induction items using List.reverseRecOn with
  | nil => exact ⟨none, {}, .nil, fun rest => rfl⟩
  | append_singleton items item ih =>
    obtain ⟨file, options, gives, read⟩ := ih sound.of_append
    cases item with
    | option flag value =>
      have takes := sound.takes flag value (List.mem_append_right _ List.mem_cons_self)
      obtain ⟨options', set, gives'⟩ := gives.append_option takes
      refine ⟨file, options', gives', fun rest => ?_⟩
      rw [List.flatMap_append, List.append_assoc, read]
      simp [parseRun, Item.arguments, set]
    | file path plain =>
      have none : file = none := by
        have single := sound.single
        cases file with
        | none => rfl
        | some other => simp [gives.files] at single
      subst none
      refine ⟨some path, options, gives.append_file plain, fun rest => ?_⟩
      rw [List.flatMap_append, List.append_assoc, read]
      simp [parseRun, Item.arguments, Flag.ofText_of_plain plain]

/-- In sound items there is something asked for. -/
theorem gives_of_sound {items : List Item} (sound : Sound items) :
    ∃ file options, Gives items file options := by
  obtain ⟨file, options, gives, -⟩ := parseRun_items sound
  exact ⟨file, options, gives⟩

/-- What follows some items is read after what they ask for. -/
theorem parseRun_append {items : List Item} {file : Option String} {options : RunOptions}
    (gives : Gives items file options) (rest : List String) :
    parseRun {} none (items.flatMap Item.arguments ++ rest) = parseRun options file rest := by
  obtain ⟨file', options', gives', read⟩ := parseRun_items gives.sound
  obtain ⟨rfl, rfl⟩ := gives.unique gives'
  exact read rest

/-- Without anything after them, the items decide. -/
theorem parseRun_flatMap {items : List Item} {file : Option String} {options : RunOptions}
    (gives : Gives items file options) :
    parseRun {} none (items.flatMap Item.arguments) = parseRun options file [] := by
  have read := parseRun_append gives []
  rwa [List.append_nil] at read

/-- What is wrong is complained about. -/
theorem parseRun_of_refusal {e : UsageError} (h : Refusal arguments e) :
    parseRun {} none arguments = .error e := by
  cases h with
  | noFile sound none =>
    obtain ⟨file, options, gives⟩ := gives_of_sound sound
    rw [parseRun_flatMap gives]
    cases file with
    | none => rfl
    | some path => cases none.symm.trans gives.files
  | missingValue sound flag =>
    obtain ⟨file, options, gives⟩ := gives_of_sound sound
    rw [parseRun_append gives]
    simp [parseRun]
  | notANumber sound bad rest =>
    obtain ⟨file, options, gives⟩ := gives_of_sound sound
    rw [parseRun_append gives]
    simp [parseRun, options.set_of_not_takes bad]
  | unexpected sound one plain rest =>
    obtain ⟨file, options, gives⟩ := gives_of_sound sound
    rw [parseRun_append gives]
    cases file with
    | none => exact absurd gives.files one
    | some first => simp [parseRun, Flag.ofText_of_plain plain]

/-- Arguments are read as a command just if they are items that ask for it. -/
theorem parseRun_eq_ok_iff {command : Command} :
    parseRun {} none arguments = .ok command ↔
      ∃ items file options, arguments = items.flatMap Item.arguments ∧
        Gives items (some file) options ∧ command = .run file options := by
  constructor
  · intro h
    rcases split arguments with ⟨items, sound, rfl⟩ | ⟨e, refusal⟩
    · obtain ⟨file, options, gives⟩ := gives_of_sound sound
      rw [parseRun_flatMap gives] at h
      cases file with
      | none => cases h
      | some file =>
        cases h
        exact ⟨items, file, options, rfl, gives, rfl⟩
    · cases (parseRun_of_refusal refusal).symm.trans h
  · rintro ⟨items, file, options, rfl, gives, rfl⟩
    exact parseRun_flatMap gives

/-- Arguments are complained about just if something is wrong with them, and then about that. -/
theorem parseRun_eq_error_iff {e : UsageError} :
    parseRun {} none arguments = .error e ↔ Refusal arguments e := by
  refine ⟨fun h => ?_, parseRun_of_refusal⟩
  rcases split arguments with ⟨items, sound, rfl⟩ | ⟨e', refusal⟩
  · obtain ⟨file, options, gives⟩ := gives_of_sound sound
    rw [parseRun_flatMap gives] at h
    cases file with
    | none =>
      cases h
      exact .noFile sound gives.files
    | some file => cases h
  · cases (parseRun_of_refusal refusal).symm.trans h
    exact refusal

/-- The ways in which a command line can be read. -/
theorem parse_cases (arguments : List String) :
    (∃ rest, arguments = "run" :: rest ∧ parse arguments = parseRun {} none rest) ∨
      (∃ file ignored, arguments = "dis" :: file :: ignored ∧
        parse arguments = .ok (.disassemble file)) ∨
      ∃ e, parse arguments = .error e ∧ Refused arguments e := by
  cases arguments with
  | nil => exact Or.inr (Or.inr ⟨_, rfl, .noCommand⟩)
  | cons name rest =>
    by_cases run : name = "run"
    · subst run
      exact Or.inl ⟨rest, rfl, rfl⟩
    · by_cases dis : name = "dis"
      · subst dis
        cases rest with
        | nil => exact Or.inr (Or.inr ⟨_, rfl, .disassemble⟩)
        | cons file ignored => exact Or.inr (Or.inl ⟨file, ignored, rfl, rfl⟩)
      · exact Or.inr (Or.inr ⟨_, by simp [parse, run, dis], .unknownCommand run dis rest⟩)

theorem parse_eq_run_iff {file : String} {options : RunOptions} :
    parse arguments = .ok (.run file options) ↔
      ∃ items, arguments = "run" :: items.flatMap Item.arguments ∧
        Gives items (some file) options := by
  constructor
  · intro h
    rcases parse_cases arguments with ⟨rest, rfl, read⟩ | ⟨_, _, -, read⟩ | ⟨e, read, -⟩
    · obtain ⟨items, _, _, rfl, gives, same⟩ := parseRun_eq_ok_iff.1 (read.symm.trans h)
      cases same
      exact ⟨items, rfl, gives⟩
    · cases read.symm.trans h
    · cases read.symm.trans h
  · rintro ⟨items, rfl, gives⟩
    exact parseRun_eq_ok_iff.2 ⟨items, file, options, rfl, gives, rfl⟩

theorem parse_eq_disassemble_iff {file : String} :
    parse arguments = .ok (.disassemble file) ↔
      ∃ ignored, arguments = "dis" :: file :: ignored := by
  constructor
  · intro h
    rcases parse_cases arguments with ⟨rest, -, read⟩ | ⟨_, ignored, rfl, read⟩ | ⟨e, read, -⟩
    · obtain ⟨_, _, _, -, -, same⟩ := parseRun_eq_ok_iff.1 (read.symm.trans h)
      cases same
    · cases read.symm.trans h
      exact ⟨ignored, rfl⟩
    · cases read.symm.trans h
  · rintro ⟨ignored, rfl⟩
    rfl

theorem parse_eq_error_iff {e : UsageError} : parse arguments = .error e ↔ Refused arguments e := by
  constructor
  · intro h
    rcases parse_cases arguments with ⟨rest, rfl, read⟩ | ⟨_, _, -, read⟩ | ⟨e', read, refused⟩
    · exact .run (parseRun_eq_error_iff.1 (read.symm.trans h))
    · cases read.symm.trans h
    · cases read.symm.trans h
      exact refused
  · intro h
    cases h with
    | noCommand => rfl
    | unknownCommand run dis rest => simp [parse, run, dis]
    | disassemble => rfl
    | run refusal => exact parseRun_eq_error_iff.2 refusal

/-- The items may stand in another order, if values of the same flag keep theirs. -/
theorem parse_of_perm {items items' : List Item} (perm : items.Perm items')
    (values : ∀ flag, items.filterMap (Item.value? flag) = items'.filterMap (Item.value? flag))
    {command : Command} (h : parse ("run" :: items.flatMap Item.arguments) = .ok command) :
    parse ("run" :: items'.flatMap Item.arguments) = .ok command := by
  obtain ⟨split, file, options, same, gives, rfl⟩ := parseRun_eq_ok_iff.1 h
  obtain rfl := flatMap_arguments_inj same
  exact parseRun_eq_ok_iff.2 ⟨items', file, options, rfl, gives.reorder perm values, rfl⟩

end Command

/-! ### What is said about a wrong command line -/

/-- The argument that is complained about, if there is one: where something is missing altogether, there
is none. -/
def UsageError.culprit? : UsageError → Option String
  | noCommand => none
  | noFile => none
  | unknownCommand name => some name
  | missingValue flag => some flag.text
  | notANumber flag _ => some flag.text
  | unexpectedArgument argument => some argument

/-- A complaint names its culprit. -/
theorem UsageError.message_names_culprit {e : UsageError} {culprit : String}
    (h : e.culprit? = some culprit) :
    ∃ message, e.message? = some message ∧ culprit.toList <:+: message.toList := by
  have atEnd (before named : String) : named.toList <:+: (before ++ named).toList :=
    String.toList_append ▸ (List.suffix_append _ _).isInfix
  have atStart (named after : String) : named.toList <:+: (named ++ after).toList :=
    String.toList_append ▸ (List.prefix_append _ _).isInfix
  cases e with
  | noCommand => cases h
  | noFile => cases h
  | notANumber flag value =>
    cases h
    have named := atStart flag.text (" expects a number, got " ++ Quoted.text value)
    rw [← String.append_assoc] at named
    exact ⟨_, rfl, named⟩
  | _ =>
    cases h
    exact ⟨_, rfl, atEnd _ _⟩

/-- What a refusal logs is the complaint, if there is one. -/
theorem Console.log_refusal (e : UsageError) :
    (refusal e).log = e.message?.toList.map (Entry.mk .error) := by
  cases e <;> rfl

/-- **The grammar of command lines.** A program is run just if the arguments after the command are items
that ask for it, and what they ask for does not depend on their order, except that of values of one flag.
It is disassembled just if the command and a file are there. Every other command line is refused, and it
is determined for what. The refusal logs one error, which names the argument that is complained about, and
logs nothing where the command or the file is missing altogether. -/
theorem Command.parse_grammar :
    (∀ arguments file options, parse arguments = .ok (.run file options) ↔
      ∃ items, arguments = "run" :: items.flatMap Arguments.Item.arguments ∧
        Arguments.Gives items (some file) options) ∧
    (∀ items items' : List Arguments.Item, items.Perm items' →
      (∀ flag, items.filterMap (Arguments.Item.value? flag) =
        items'.filterMap (Arguments.Item.value? flag)) →
      ∀ command, parse ("run" :: items.flatMap Arguments.Item.arguments) = .ok command ↔
        parse ("run" :: items'.flatMap Arguments.Item.arguments) = .ok command) ∧
    (∀ arguments file, parse arguments = .ok (.disassemble file) ↔
      ∃ ignored, arguments = "dis" :: file :: ignored) ∧
    (∀ arguments e, parse arguments = .error e ↔ Arguments.Refused arguments e) ∧
    (∀ e, (Console.refusal e).log = [] ↔ e = .noCommand ∨ e = .noFile) ∧
    ∀ e culprit, e.culprit? = some culprit → ∃ message,
      (Console.refusal e).log = [⟨.error, message⟩] ∧ culprit.toList <:+: message.toList := by
  refine ⟨fun _ _ _ => parse_eq_run_iff, fun items items' perm values command => ?_,
    fun _ _ => parse_eq_disassemble_iff, fun _ _ => parse_eq_error_iff, fun e => ?_,
    fun e culprit h => ?_⟩
  · exact ⟨parse_of_perm perm values, parse_of_perm perm.symm fun flag => (values flag).symm⟩
  · rw [Console.log_refusal]
    cases e <;> simp [UsageError.message?]
  · obtain ⟨message, said, named⟩ := UsageError.message_names_culprit h
    exact ⟨message, by simp [Console.log_refusal, said], named⟩

/-- A flag may be the value of another one, and the later limit counts; two of the items change places. A
second file is complained about before the number after it. -/
theorem Command.parse_grammar_flagAsValue :
    parse ["run", "--config", "--hz", "pong", "--steps", "1", "--steps", "+9"] =
        .ok (.run "pong" ⟨some "--hz", none, some 9⟩) ∧
      parse ["run", "pong", "--config", "--hz", "--steps", "1", "--steps", "+9"] =
        .ok (.run "pong" ⟨some "--hz", none, some 9⟩) ∧
      parse ["run", "pong", "maze", "--hz", "fast"] = .error (.unexpectedArgument "maze") ∧
      ∃ message, (Console.refusal (.unexpectedArgument "maze")).log = [⟨.error, message⟩] ∧
        "maze".toList <:+: message.toList := by
  obtain ⟨run, reorder, -, refused, -, logged⟩ := parse_grammar
  have plain (flag : Flag) : "pong" ≠ flag.text := by cases flag <;> decide
  have one : Numeral.Writes "1" 1 :=
    ⟨['1'], List.cons_ne_nil _ _, List.forall_mem_singleton.2 rfl, Or.inl rfl, rfl⟩
  have nine : Numeral.Writes "+9" 9 :=
    ⟨['9'], List.cons_ne_nil _ _, List.forall_mem_singleton.2 rfl, Or.inr rfl, rfl⟩
  let pong := Arguments.Item.file "pong" plain
  let config := Arguments.Item.option .config "--hz"
  let limits := [Arguments.Item.option .steps "1", Arguments.Item.option .steps "+9"]
  have gives :
      Arguments.Gives (config :: pong :: limits) (some "pong") ⟨some "--hz", none, some 9⟩ := by
    have last : some (9 : UInt64) = Numeral.decimal64? "+9" :=
      (Numeral.decimal64_eq_some_iff.2 nine).symm
    refine ⟨fun flag value mem => ?_, rfl, rfl, Numeral.isOf_iff.2 rfl, Numeral.isOf_iff.2 last⟩
    simp only [config, pong, limits, List.mem_cons, List.not_mem_nil, or_false,
      Arguments.Item.option.injEq, reduceCtorEq, false_or] at mem
    obtain ⟨rfl, rfl⟩ | ⟨rfl, rfl⟩ | ⟨rfl, rfl⟩ := mem
    · trivial
    · exact ⟨1, by decide, one⟩
    · exact ⟨9, by decide, nine⟩
  have ran := (run _ _ _).2 ⟨config :: pong :: limits, rfl, gives⟩
  have moved := (reorder _ (pong :: config :: limits) (List.Perm.swap _ _ _)
    (fun flag => by cases flag <;> rfl) _).1 ran
  have sound : Arguments.Sound [pong] := Arguments.Sound.nil.append_file plain rfl
  have second (flag : Flag) : "maze" ≠ flag.text := by cases flag <;> decide
  exact ⟨ran, moved, (refused _ _).2 (.run (.unexpected sound nofun second _)), logged _ _ rfl⟩

/-- A wrong command line may be refused without a word: here the file is missing. -/
theorem Command.refused_in_silence :
    ¬ ∀ arguments e, parse arguments = .error e →
      ∃ message, (Console.refusal e).log = [⟨.error, message⟩] := by
  intro h
  obtain ⟨message, logged⟩ := h ["run"] .noFile rfl
  cases logged

end ChipEight
