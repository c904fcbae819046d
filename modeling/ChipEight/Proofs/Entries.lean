import ChipEight.Proofs.PlainWords
import ChipEight.Yaml.Document
import Mathlib.Tactic.SplitIfs

/-!
# Documents of plain entries

A document whose lines are entries `key: value`, of a plain word each, says what it seems to say: its
tree is the mapping with these entries in this order (`parse_linesOf`). Only a key must not be too long,
since the colon has to come in reach of the place where the key begins.
-/

namespace ChipEight.Yaml

/-- A key with its value. -/
structure Entry where
  /-- What stands before the colon. -/
  key : PlainWord
  /-- What stands behind it. -/
  value : PlainWord

namespace Entry

/-- An entry as a line, without its end. -/
def line (e : Entry) : List Char := e.key.chars ++ ':' :: ' ' :: e.value.chars

/-- The nodes of an entry. -/
def nodes (e : Entry) : Node × Node := (.plain e.key.text, .plain e.value.text)

/-- Whether the key of an entry is in reach of its colon. -/
def Short (e : Entry) : Prop := e.key.chars.length ≤ Place.reach

instance (e : Entry) : Decidable e.Short := inferInstanceAs (Decidable (_ ≤ _))

end Entry

/-- Whether a line break stands behind a line, in front of those that are left. The last line has one or
not. -/
def breaksBefore {α : Type} (ended : Bool) (ls : List α) : Bool := ended || !ls.isEmpty

/-- Some entries as lines. -/
def linesOf (ended : Bool) : List Entry → List Char
  | [] => []
  | e :: es => e.line ++ if breaksBefore ended es then '\n' :: linesOf ended es else []

theorem breaksBefore_of_ne_nil {α : Type} (ended : Bool) {ls : List α} (h : ls ≠ []) :
    breaksBefore ended ls = true := by
  simp [breaksBefore, h]

theorem eq_nil_of_not_breaksBefore {α : Type} {ended : Bool} {ls : List α}
    (h : ¬breaksBefore ended ls) : ls = [] := by
  cases ls with
  | nil => rfl
  | cons l ls => exact absurd (breaksBefore_of_ne_nil ended (List.cons_ne_nil l ls)) h

theorem isWordChar_head_linesOf (ended : Bool) (es : List Entry) :
    ∀ c ∈ (linesOf ended es).head?, isWordChar c = true := by
  cases es with
  | nil => simp [linesOf]
  | cons e es =>
    obtain ⟨c, rest, chars, word⟩ := e.key.exists_cons
    simpa [linesOf, Entry.line, chars] using word

/-- Every line has the characters for three tokens at least. -/
theorem three_mul_length_le (ended : Bool) (es : List Entry) :
    3 * es.length ≤ (linesOf ended es).length := by
  induction es with
  | nil => simp
  | cons e es ih =>
    have key := List.length_pos_iff.2 e.key.nonempty
    have line : 3 ≤ e.line.length := by
      simp only [Entry.line, List.length_append, List.length_cons]
      omega
    rw [linesOf, List.length_append, List.length_cons]
    split_ifs with more
    · rw [List.length_cons]
      omega
    · rw [eq_nil_of_not_breaksBefore more, List.length_nil]
      omega

/-! ### Tokens -/

namespace Layout

/-- Outside brackets, with no collection open but perhaps one in the first column. -/
structure Outermost (l : Layout) : Prop where
  outer : l.outer = []
  columns : l.columns = [] ∨ l.columns = [0]

theorem Outermost.closeRight_eq {l : Layout} (h : l.Outermost) : l.closeRight = l := by
  have inFlow : l.inFlow = false := by simp [Layout.inFlow, h.outer]
  have kept : l.columns.takeWhile (fun column => decide (l.cursor.place.column < column)) = [] := by
    obtain columns | columns := h.columns <;> simp [columns]
  simp [closeRight, closeWhile, inFlow, kept]

/-- The next token is the one that begins behind the gap. -/
theorem tokensFrom_succ {l behind : Layout} {inner : Level} {c : Char} {rest : List Char}
    (h : l.Outermost) (gap : l.skipGap = behind)
    (stale : behind.inner.dropStale? behind.cursor.place = some inner)
    (here : behind.cursor.rest = c :: rest) (fuel : Nat) :
    tokensFrom? (fuel + 1) l =
      ({ behind with inner := inner }.token? c rest).bind (tokensFrom? fuel) := by
  have outer : behind.outer = [] := gap ▸ h.outer
  have fresh : behind.dropStale? = some { behind with inner := inner } := by
    simp [dropStale?, outer, stale]
  have outermost : ({ behind with inner := inner } : Layout).Outermost := ⟨outer, gap ▸ h.columns⟩
  simp only [tokensFrom?, gap, fresh, Option.bind_some, outermost.closeRight_eq, here]

theorem tokensFrom_of_token {l behind after : Layout} {inner : Level} {c : Char} {rest : List Char}
    (h : l.Outermost) (gap : l.skipGap = behind)
    (stale : behind.inner.dropStale? behind.cursor.place = some inner)
    (here : behind.cursor.rest = c :: rest)
    (token : { behind with inner := inner }.token? c rest = some after) (fuel : Nat) :
    tokensFrom? (fuel + 1) l = tokensFrom? fuel after := by
  rw [tokensFrom_succ h gap stale here, token, Option.bind_some]

variable (p : Place) (columns : List Nat) (before since : List Token)

/-- Reading at the beginning of a line. -/
def atLine (keyAllowed : Bool) (cs : List Char) : Layout :=
  { cursor := ⟨p, cs⟩, keyAllowed, columns, inner := { before, since } }

/-- Reading behind a key that begins a line. -/
def behindKey (key : PlainWord) (cs : List Char) : Layout :=
  { cursor := ⟨p.along key.chars, cs⟩, keyAllowed := false, columns
    inner :=
      { before, since := [key.token], keyStart? := some ⟨p, columns.head? == some 0⟩ } }

/-- Reading behind the colon of a key. -/
def behindColon (cs : List Char) : Layout :=
  { cursor := ⟨p, cs⟩, keyAllowed := false, columns := [0], inner := { before, since := [.value] } }

/-- The marks in front of the key of a line, in reverse. The first line opens the mapping. -/
def keyMarks : List Token := if columns = [] then [.key, .openBlockMapping] else [.key]

variable {p columns} (fuel : Nat)

/-- A word at the beginning of a line is read as a scalar that may be a key. -/
theorem tokensFrom_key (start : p.column = 0) (outermost : columns = [] ∨ columns = [0])
    (key : PlainWord) (rest : List Char) :
    tokensFrom? (fuel + 1) (atLine p columns before since true (key.chars ++ ':' :: ' ' :: rest)) =
      tokensFrom? fuel (behindKey p columns (since ++ before) key (':' :: ' ' :: rest)) := by
  obtain ⟨c, w, chars, word⟩ := key.exists_cons
  let l := atLine p columns before since true (key.chars ++ ':' :: ' ' :: rest)
  have here : l.cursor.rest = c :: (w ++ ':' :: ' ' :: rest) := by simp [l, atLine, chars]
  have gap : l.skipGap = l := by
    simp only [skipGap, here, gapFrom_word _ word]
    simp only [l, atLine, chars, List.cons_append]
  have scalar (s : Surroundings) (outside : s.inFlow = false) :
      Yaml.plain? s ⟨p, key.chars ++ ':' :: ' ' :: rest⟩ =
        some ⟨key.chars, false, ⟨p.along key.chars, ':' :: ' ' :: rest⟩⟩ := by
    rw [Yaml.plain?, plainFrom_word p _ outside key.isWordChar_of_mem, plainFrom_colon _ _ outside,
      List.append_nil, List.reverse_reverse]
  have token : l.token? c (w ++ ':' :: ' ' :: rest) =
      some (behindKey p columns (since ++ before) key (':' :: ' ' :: rest)) := by
    rw [token_word word, Layout.plain?]
    simp only [l, atLine, beginKey?, Level.dropKey?, Option.any_none, Bool.false_eq_true, if_true,
      if_false, Option.map_some, Option.bind_some]
    rw [scalar _ rfl]
    simp [push, Level.push, moveTo, allowKey, behindKey, start, inFlow, Level.all, PlainWord.token,
      PlainWord.text]
  exact tokensFrom_of_token ⟨rfl, outermost⟩ gap rfl here token fuel

/-- The colon behind a word makes a key of it, if it is not too far away from its beginning. In the
first line a word that is too long is just not a key, and in the others there has to be one; in both
cases the text is no document. -/
theorem tokensFrom_colon (start : p.column = 0) (outermost : columns = [] ∨ columns = [0])
    (key : PlainWord) (rest : List Char) :
    tokensFrom? (fuel + 1) (behindKey p columns before key (':' :: ' ' :: rest)) =
      if key.chars.length ≤ Place.reach then
        tokensFrom? fuel (behindColon ((p.along key.chars).after ':')
          (key.token :: keyMarks columns ++ before) (' ' :: rest))
      else none := by
  let l := behindKey p columns before key (':' :: ' ' :: rest)
  have gap : l.skipGap = l := by
    simp only [skipGap, l, behindKey]
    rw [gapFrom_stop _ (by decide) (by decide) (by decide)]
  have reaches : p.reaches (p.along key.chars) = decide (key.chars.length ≤ Place.reach) := by
    simp [Place.reaches, Place.along_word key.isWordChar_of_mem]
  split_ifs with short
  · have stale : l.inner.dropStale? l.cursor.place = some l.inner := by
      simp [l, behindKey, Level.dropStale?, reaches, short]
    have value : l.value? = some (behindColon ((p.along key.chars).after ':')
        (key.token :: keyMarks columns ++ before) (' ' :: rest)) := by
      obtain rfl | rfl := outermost <;>
        simp [value?, l, behindKey, opensAt, inFlow, start, Level.insertKey, push, Level.push,
          moveTo, Cursor.next, allowKey, behindColon, keyMarks]
    exact tokensFrom_of_token ⟨rfl, outermost⟩ gap stale rfl ((token_colon rest l).trans value) fuel
  -- a word that is too long: the colon has nothing to be the value of, or the key is missed before it
  · obtain rfl | rfl := outermost
    · have stale : l.inner.dropStale? l.cursor.place = some { l.inner with keyStart? := none } := by
        simp [l, behindKey, Level.dropStale?, Level.dropKey?, reaches, short]
      rw [tokensFrom_succ ⟨rfl, Or.inl rfl⟩ gap stale rfl, token_colon]
      rfl
    · have stale : l.dropStale? = none := by
        simp [l, behindKey, dropStale?, Level.dropStale?, Level.dropKey?, reaches, short]
      rw [tokensFrom?, gap, stale]
      rfl

/-- The end of a line. -/
def lineEnd (breaks : Bool) : List Char := if breaks then ['\n'] else []

/-- A word behind a colon is read as a scalar, together with the end of the line. -/
theorem tokensFrom_value (value : PlainWord) (breaks : Bool) (rest : List Char)
    (next : ∀ c ∈ rest.head?, isWordChar c = true) :
    tokensFrom? (fuel + 1)
        (behindColon p before (' ' :: (value.chars ++ if breaks then '\n' :: rest else []))) =
      tokensFrom? fuel
        (atLine (p.along (' ' :: (value.chars ++ lineEnd breaks))) [0] before [value.token, .value]
          breaks (if breaks then rest else [])) := by
  obtain ⟨c, w, chars, word⟩ := value.exists_cons
  let behind := if breaks then '\n' :: rest else []
  let l := behindColon (p.after ' ') before (value.chars ++ behind)
  have gap : (behindColon p before (' ' :: (value.chars ++ behind))).skipGap = l := by
    simp only [skipGap, behindColon, gapFrom_blank, chars, List.cons_append, gapFrom_word _ word, l]
  have here : l.cursor.rest = c :: (w ++ behind) := by simp [l, behindColon, chars]
  have scalar (s : Surroundings) (outside : s.inFlow = false) (indented : s.indent = 1) (q : Place) :
      Yaml.plain? s ⟨q, value.chars ++ behind⟩ =
        some ⟨value.chars, breaks,
          ⟨q.along (value.chars ++ lineEnd breaks), if breaks then rest else []⟩⟩ := by
    rw [Yaml.plain?, plainFrom_word _ _ outside value.isWordChar_of_mem]
    cases breaks with
    | false => simp [behind, plainFrom, lineEnd, Gap.isBroken, Gap.empty]
    | true =>
      simp [behind, plainFrom_break _ _ outside indented _ next, lineEnd, Place.along]
  have token : l.token? c (w ++ behind) =
      some (atLine (p.along (' ' :: (value.chars ++ lineEnd breaks))) [0] before
        [value.token, .value] breaks (if breaks then rest else [])) := by
    rw [token_word word, Layout.plain?]
    simp only [l, behindColon, beginKey?, Bool.false_eq_true, if_false, Option.bind_some]
    rw [scalar _ rfl rfl]
    simp [push, Level.push, moveTo, allowKey, atLine, Place.along, PlainWord.token, PlainWord.text]
  exact tokensFrom_of_token ⟨rfl, Or.inr rfl⟩ gap rfl here token fuel

/-- A line adds the tokens of its entry, if the key is short enough. -/
theorem tokensFrom_line (start : p.column = 0) (outermost : columns = [] ∨ columns = [0])
    (ended : Bool) (e : Entry) (es : List Entry) :
    ∃ q : Place, (breaksBefore ended es → q.column = 0) ∧
      tokensFrom? (fuel + 3) (atLine p columns before since true (linesOf ended (e :: es))) =
        if e.Short then
          tokensFrom? fuel
            (atLine q [0] (e.key.token :: keyMarks columns ++ (since ++ before))
              [e.value.token, .value] (breaksBefore ended es) (linesOf ended es))
        else none := by
  let q := ((p.along e.key.chars).after ':').along
    (' ' :: (e.value.chars ++ lineEnd (breaksBefore ended es)))
  have line : linesOf ended (e :: es) = e.key.chars ++ ':' :: ' ' ::
      (e.value.chars ++ if breaksBefore ended es then '\n' :: linesOf ended es else []) := by
    simp only [linesOf, Entry.line, List.append_assoc, List.cons_append]
  have left : (if breaksBefore ended es then linesOf ended es else []) = linesOf ended es := by
    split_ifs with more
    · rfl
    · rw [eq_nil_of_not_breaksBefore more, linesOf]
  refine ⟨q, ?_, ?_⟩
  · intro more
    simp [q, lineEnd, more, Place.along, Place.after, isBreak]
  · rw [line, tokensFrom_key _ _ _ start outermost, tokensFrom_colon _ _ start outermost,
      tokensFrom_value _ _ _ _ _ (isWordChar_head_linesOf ended es), left]
    rfl

/-- The tokens of some lines. -/
def tokensOf (columns : List Nat) : List Entry → List Token
  | [] => columns.map fun _ => .closeBlock
  | e :: es =>
    (keyMarks columns).reverse ++ [e.key.token, .value, e.value.token] ++ tokensOf [0] es

/-- Some lines add the tokens of their entries, if all their keys are short enough. -/
theorem tokensFrom_linesOf {keyAllowed : Bool} (outermost : columns = [] ∨ columns = [0])
    (ended : Bool) (es : List Entry) (ready : es ≠ [] → p.column = 0 ∧ keyAllowed = true) :
    tokensFrom? (3 * es.length + fuel + 1)
        (atLine p columns before since keyAllowed (linesOf ended es)) =
      if ∀ e ∈ es, e.Short then some ((since ++ before).reverse ++ tokensOf columns es) else none := by
  induction es generalizing p columns before since keyAllowed with
  | nil =>
    -- at the end all that is left to do is to close the mapping, if there is one
    obtain rfl | rfl := outermost <;>
      simp [linesOf, tokensFrom?, atLine, skipGap, gapFrom, dropStale?, Level.dropStale?, closeRight,
        closeWhile, inFlow, finish?, closeAll, dropKey?, Level.dropKey?, Level.all, tokensOf]
  | cons e es ih =>
    obtain ⟨start, rfl⟩ := ready (List.cons_ne_nil e es)
    obtain ⟨q, next, line⟩ :=
      tokensFrom_line before since (3 * es.length + fuel + 1) start outermost ended e es
    have steps : 3 * (e :: es).length + fuel + 1 = 3 * es.length + fuel + 1 + 3 := by
      rw [List.length_cons]
      omega
    have ready (h : es ≠ []) : q.column = 0 ∧ breaksBefore ended es = true :=
      have more := breaksBefore_of_ne_nil ended h
      ⟨next more, more⟩
    rw [steps, line, ih _ _ (Or.inr rfl) ready]
    by_cases short : e.Short <;> simp [short, tokensOf]

end Layout

theorem unifyBreaks_eq_self {cs : List Char} (h : ∀ c ∈ cs, c ≠ '\r' ∧ c ≠ '\x85') :
    unifyBreaks cs = cs := by
  induction cs with
  | nil => rfl
  | cons c cs ih =>
    rw [List.forall_mem_cons] at h
    rw [unifyBreaks, ih h.2]
    · exact fun _ feed => absurd feed h.1.1
    · exact h.1.1
    · exact h.1.2

theorem mem_linesOf {ended : Bool} {es : List Entry} {c : Char} (h : c ∈ linesOf ended es) :
    isWordChar c = true ∨ c = ':' ∨ c = ' ' ∨ c = '\n' := by
  induction es with
  | nil => cases h
  | cons e es ih =>
    rw [linesOf, Entry.line] at h
    simp only [List.mem_append, List.mem_cons] at h
    obtain (key | rfl | rfl | value) | ends := h
    · exact Or.inl (e.key.isWordChar_of_mem c key)
    · exact Or.inr (Or.inl rfl)
    · exact Or.inr (Or.inr (Or.inl rfl))
    · exact Or.inl (e.value.isWordChar_of_mem c value)
    · split_ifs at ends with more
      · obtain rfl | below := List.mem_cons.1 ends
        · exact Or.inr (Or.inr (Or.inr rfl))
        · exact ih below
      · cases ends

/-- A document of entries has the tokens of its lines, if all keys are short enough. -/
theorem tokens_linesOf (ended : Bool) (es : List Entry) :
    tokens? (String.ofList (linesOf ended es)) =
      if ∀ e ∈ es, e.Short then some (Layout.tokensOf [] es) else none := by
  have allowed : (linesOf ended es).all isAllowed = true := by
    rw [List.all_eq_true]
    intro c hc
    obtain word | rfl | rfl | rfl := mem_linesOf hc
    · exact isAllowed_of_isWordChar word
    all_goals decide
  have breaks : unifyBreaks (linesOf ended es) = linesOf ended es := by
    refine unifyBreaks_eq_self fun c hc => ?_
    obtain word | rfl | rfl | rfl := mem_linesOf hc
    · exact ⟨ne_of_isWordChar word rfl, ne_of_isWordChar word rfl⟩
    all_goals decide
  obtain ⟨fuel, enough⟩ := Nat.exists_eq_add_of_le (three_mul_length_le ended es)
  simp only [tokens?, String.toList_ofList, allowed, if_true, breaks, enough]
  exact Layout.tokensFrom_linesOf (p := {}) [] [] fuel (Or.inl rfl) ended es fun _ => ⟨rfl, rfl⟩

/-! ### The tree -/

/-- A word fills the place where it stands. -/
theorem place_word (ends : Token → Bool) (w : PlainWord) (stays : ends w.token = false)
    (inBlock loose : Bool) (fuel : Nat) (rest : List Token) (i : Input) :
    place (fuel + 3) inBlock loose ends { i with tokens := w.token :: rest } =
      some (.plain w.text, { i with tokens := rest }) := by
  simp only [place, node, content, PlainWord.token] at stays ⊢
  simp [stays, Input.describe?, properties, Description.name, Description.scalar, Node.plain]

/-- The tokens of some lines are put together to the entries of a mapping. -/
theorem blockEntries_tokensOf (es : List Entry) (fuel : Nat) (i : Input) :
    blockEntries (es.length + fuel + 5) { i with tokens := Layout.tokensOf [0] es } =
      some (es.map Entry.nodes, { i with tokens := [] }) := by
  induction es with
  | nil => simp [blockEntries, Layout.tokensOf]
  | cons e es ih =>
    have steps : (e :: es).length + fuel + 5 = es.length + fuel + 5 + 1 := by
      rw [List.length_cons]
      omega
    have tokens : Layout.tokensOf [0] (e :: es) =
        .key :: e.key.token :: .value :: e.value.token :: Layout.tokensOf [0] es := rfl
    have key := place_word endsEntry e.key rfl true true (es.length + fuel + 2)
      (.value :: e.value.token :: Layout.tokensOf [0] es) i
    have value := place_word endsEntry e.value rfl true true (es.length + fuel + 1)
      (Layout.tokensOf [0] es) i
    rw [steps, tokens, blockEntries]
    simp only [key, Option.bind_some, valuePlace, value, ih, Option.map_some, List.map_cons, Entry.nodes]

/-- The tree of a document of entries. -/
def treeOf (es : List Entry) : Node := if es = [] then .empty else .mapping (es.map Entry.nodes)

theorem node_tokensOf (es : List Entry) (fuel : Nat) (i : Input) :
    node (es.length + fuel + 7) true false
        { i with tokens := .openBlockMapping :: Layout.tokensOf [0] es } =
      some (.mapping (es.map Entry.nodes), { i with tokens := [] }) := by
  simp only [node, Input.describe?, properties, Option.map_some, Option.bind_some, content, if_true,
    blockEntries_tokensOf, Description.name]

theorem length_tokensOf (es : List Entry) : (Layout.tokensOf [0] es).length = 4 * es.length + 1 := by
  induction es with
  | nil => rfl
  | cons e es ih =>
    have line : (Layout.tokensOf [0] (e :: es)).length = (Layout.tokensOf [0] es).length + 4 := rfl
    rw [line, ih, List.length_cons]
    omega

theorem ofTokens_tokensOf (es : List Entry) :
    Node.ofTokens? (Layout.tokensOf [] es) = some (treeOf es) := by
  cases es with
  | nil => rfl
  | cons e es =>
    have root : root? ⟨.openBlockMapping :: Layout.tokensOf [0] (e :: es), commonHandles, []⟩ =
        some (.mapping ((e :: es).map Entry.nodes)) := by
      have steps : 5 * (.openBlockMapping :: Layout.tokensOf [0] (e :: es)).length + 5 =
          (e :: es).length + (19 * (e :: es).length + 8) + 7 := by
        rw [List.length_cons, length_tokensOf]
        omega
      rw [root?, steps, node_tokensOf _ _ ⟨[], commonHandles, []⟩]
      rfl
    exact root

/-- **A document of entries is the mapping with these entries**, if all keys are short enough, and no
document otherwise. -/
theorem parse_linesOf (ended : Bool) (es : List Entry) :
    parse (String.ofList (linesOf ended es)) =
      if ∀ e ∈ es, e.Short then some (treeOf es) else none := by
  rw [parse, tokens_linesOf]
  split_ifs
  · exact ofTokens_tokensOf es
  · rfl

end ChipEight.Yaml
