import ChipEight.Proofs.Countdown
import ChipEight.Proofs.Drawing
import ChipEight.Proofs.Restart
import ChipEight.Proofs.SavedRegisters

/-!
# Digits are drawn from the font

The font is laid down at the start of memory when a program is loaded, and it stays there until a program stores
something over it (`holdsFont_perform`). As long as it does, `Fx29` points at the glyph of a digit and `Dab5`
draws it (`Rendering`): on a dark display the picture has the dots of the glyph, wherever around the edges it
comes to lie, and nothing else (`get_draw_glyph`). No two glyphs have the same dots (`exists_dot_ne`), so that
the picture tells the digit.
-/

namespace ChipEight

/-- The dot in row `r` and column `c` of the glyph of a digit, of which the low four bits count. -/
def Font.dot (digit r c : Nat) : Bool := (bytes.getD (5 * (digit % 16) + r) 0).toNat.testBit (7 - c)

/-- Glyphs are four dots wide. -/
theorem Font.lt_of_dot {digit r c : Nat} (hr : r < 5) (hc : c < 8) (set : dot digit r c = true) : c < 4 := by
  have narrow : ∀ d < 16, ∀ r < 5, ∀ c < 8, dot d r c = true → c < 4 := by decide +kernel
  rw [dot, ← Nat.mod_mod] at set
  exact narrow _ (Nat.mod_lt _ (by decide)) r hr c hc set

/-- Two glyphs differ in a dot. -/
theorem Font.exists_dot_ne {d e : Nat} (h : d % 16 ≠ e % 16) : ∃ r < 5, ∃ c < 4, dot d r c ≠ dot e r c := by
  have each : ∀ d < 16, ∀ e < 16, d ≠ e → ∃ r < 5, ∃ c < 4, dot d r c ≠ dot e r c := by decide +kernel
  obtain ⟨r, hr, c, hc, differ⟩ :=
    each _ (Nat.mod_lt d (by decide)) _ (Nat.mod_lt e (by decide)) h
  simp only [dot, Nat.mod_mod] at differ
  exact ⟨r, hr, c, hc, differ⟩

namespace Display

/-- The rows of a sprite are those of the glyph of a digit. -/
def IsGlyph (digit : Nat) (sprite : List UInt8) : Prop :=
  sprite.length = 5 ∧ ∀ r < 5, sprite.getD r 0 = Font.bytes.getD (5 * (digit % 16) + r) 0

variable {digit : Nat} {sprite : List UInt8}

/-- **A glyph on a dark display** shows its dots. -/
theorem get_draw_glyph (glyph : IsGlyph digit sprite) (x y u v : Nat) :
    (dark.draw x y sprite).1.get u v = true ↔
      ∃ r < 5, ∃ c < 4, Font.dot digit r c = true ∧ (x + c) % 64 = u % 64 ∧ (y + r) % 32 = v % 32 := by
  obtain ⟨length, rows⟩ := glyph
  rw [get_draw dark x y (by rw [length]; decide), get_dark, Bool.false_xor, decide_eq_true_iff, Covers, length]
  refine exists_congr fun r => and_congr_right fun hr => exists_congr fun c => ?_
  have bits : bit sprite r c = Font.dot digit r c := by
    rw [bit, rows r hr]
    rfl
  rw [bits]
  constructor
  · rintro ⟨hc, set, place⟩
    exact ⟨Font.lt_of_dot hr hc set, set, place⟩
  · rintro ⟨hc, set, place⟩
    exact ⟨Nat.lt_trans hc (by decide), set, place⟩

/-- A drawing on a dark display hits nothing. -/
theorem draw_dark_hit (x y : Nat) (low : sprite.length ≤ height) : (dark.draw x y sprite).2 = false := by
  rw [Bool.eq_false_iff, ne_eq, draw_hit_iff dark x y low]
  rintro ⟨r, -, c, -, -, lit⟩
  rw [get_dark] at lit
  cases lit

/-- A pixel of the picture is the dot that lies there, since the glyph does not reach around the display. -/
theorem get_draw_dot (glyph : IsGlyph digit sprite) (x y : Nat) {r c : Nat} (hr : r < 5) (hc : c < 4) :
    (dark.draw x y sprite).1.get (x + c) (y + r) = Font.dot digit r c := by
  rw [Bool.eq_iff_iff, get_draw_glyph glyph]
  constructor
  · rintro ⟨r', hr', c', hc', set, column, line⟩
    obtain rfl : c' = c := by omega
    obtain rfl : r' = r := by omega
    exact set
  · exact fun set => ⟨r, hr, c, hc, set, rfl, rfl⟩

end Display

/-- The font is at the start of memory. -/
def Memory.HoldsFont (m : Memory) : Prop := ∀ (a : Nat) (h : a < 80), m.get a = Font.bytes[a]

/-- Since the last load, no move wrote to the cells of the font. -/
def FontSpared (past : List Moment) : Prop := ∀ t ∈ Moment.sinceLoad past, ∀ c ∈ t.written, 80 ≤ c

instance (past : List Moment) : Decidable (FontSpared past) :=
  inferInstanceAs (Decidable (∀ t ∈ Moment.sinceLoad past, ∀ c ∈ Moment.written t, 80 ≤ c))

/-- Nothing is drawn by the move. -/
def Moment.drawsNothing (t : Moment) : Bool :=
  match t.executed? with
  | some i => i.op = .clear ∨ i.op.touches .display = false
  | none => true

namespace Machine

/-! ### The font stays in memory -/

/-- A load lays down the font. -/
theorem holdsFont_of_reloads {t : Moment} (h : t.move.reloads = true) : t.after.memory.HoldsFont := by
  obtain ⟨m, move⟩ := t
  obtain ⟨program, rfl, restarted⟩ := make_of_reloads (m := m) h
  have fits : program.length ≤ programLimit := of_decide_eq_true h
  rw [Moment.after, restarted]
  exact (m.startOf_restart fits).font

/-- A move that writes to no cell of the font leaves it there. -/
theorem holdsFont_after {t : Moment} (quiet : t.move.reloads = false) (spared : ∀ c ∈ t.written, 80 ≤ c)
    (h : t.before.memory.HoldsFont) : t.after.memory.HoldsFont := by
  intro a ha
  have inMemory : a < memorySize := Nat.lt_trans ha (by decide)
  rw [get_memory_after inMemory quiet fun written => absurd (spared a written) (Nat.not_le.2 ha)]
  exact h a ha

/-- **The font stays in memory** until something is stored over it. -/
theorem holdsFont_perform {m : Machine} (h : m.memory.HoldsFont) {moves : List Move}
    (spared : FontSpared (m.path moves)) : (m.perform moves).memory.HoldsFont := by
  induction moves using List.reverseRecOn with
  | nil => exact h
  | append_singleton moves move ih =>
    rw [path_concat, FontSpared, Moment.sinceLoad_concat] at spared
    rw [perform_concat]
    cases hr : move.reloads with
    | true => exact holdsFont_of_reloads hr
    | false =>
      rw [hr, if_neg Bool.false_ne_true, List.forall_mem_append] at spared
      exact holdsFont_after hr (spared.2 _ (List.mem_singleton_self _)) (ih spared.1)

theorem holdsFont_create (config : Config) (chance : StreamKey) : (create config chance).memory.HoldsFont := by
  have fits : ([] : List UInt8).length ≤ programLimit := Nat.zero_le _
  exact ((create config chance).startOf_restart fits).font

/-! ### Drawing a digit -/

/-- What `Fx29` does: the index is where the glyph is, and memory is as it was. -/
theorem index_of_glyph {t : Moment} {x : Register} (cycle : t.move = .cycle)
    (word : (t.before.memory.fetch t.before.pc).toNat = 0xF000 + 0x100 * x + 0x29) :
    t.after.index = 5 * ((t.before.registers.get x).toNat % 16) ∧ t.after.memory = t.before.memory := by
  have executed := Moment.execute_of_executed
    (Moment.executed_of_fetch (show (Op.glyph x).Listed from trivial) cycle word (by simp) (by simp))
  rw [execute, Outcome.mk.injEq] at executed
  rw [← executed.1]
  refine ⟨?_, rfl⟩
  change 0 + (t.before.registers.get x).toNat % 16 * 5 = _
  omega

/-- What `Dabn` does to the display and to the flag. -/
theorem display_of_draw {t : Moment} {a b : Register} {n : Nat} (low : n < 16) (cycle : t.move = .cycle)
    (word : (t.before.memory.fetch t.before.pc).toNat = 0xD000 + 0x100 * a + 0x10 * b + n) :
    let drawn := t.before.display.draw (t.before.registers.get a).toNat (t.before.registers.get b).toNat
      (t.before.memory.read t.before.index n)
    t.after.display = drawn.1 ∧ t.after.registers.get 15 = drawn.2.toUInt8 := by
  have executed := Moment.execute_of_executed
    (Moment.executed_of_fetch (show (Op.draw a b n).Listed from low) cycle word (by simp) (by simp))
  rw [execute, Outcome.mk.injEq] at executed
  rw [← executed.1]
  exact ⟨rfl, (Registers.get_set ..).trans (if_pos rfl)⟩

/-- A dark display stays dark when nothing is drawn. -/
theorem display_after_of_dark {t : Moment} (dark : t.before.display = Display.dark)
    (nothing : t.drawsNothing = true) : t.after.display = Display.dark := by
  cases he : t.executed? with
  | some i =>
    obtain ⟨-, -, -, records, executed⟩ := Moment.exists_of_executed he
    rw [Moment.drawsNothing, he, decide_eq_true_iff] at nothing
    rcases nothing with clear | untouched
    · rw [clear, execute, Outcome.mk.injEq] at executed
      rw [← executed.1]
    · have same := execute_frame executed untouched
      exact Eq.trans same dark
  | none =>
    obtain ⟨m, move⟩ := t
    cases move with
    | cycle => rw [Moment.after_of_executed_none rfl he, dark]
    | load program =>
      rw [Moment.after, make, load]
      split
      · exact dark
      · rfl
    | _ => exact dark

theorem display_perform_of_dark {m : Machine} (dark : m.display = Display.dark) {moves : List Move}
    (nothing : ∀ t ∈ m.path moves, t.drawsNothing = true) : (m.perform moves).display = Display.dark :=
  path_induction (P := fun n => n.display = Display.dark) dark fun t ht still =>
    display_after_of_dark still (nothing t ht)

/-- A digit is drawn in a history: there is a cycle at `Fx29` while the font is in place, and after it one at `Dab5`
on a dark display, and in between neither the index nor the glyph that it points at changes. -/
structure Rendering (m : Machine) (history : List Event) where
  /-- What was before. -/
  past : List Moment
  /-- The cycle at `Fx29`. -/
  points : Moment
  /-- What is in between. -/
  between : List Moment
  /-- The cycle at `Dab5`. -/
  draws : Moment
  /-- What comes after. -/
  future : List Moment
  /-- The history consists of these. -/
  split : m.moments history = past ++ points :: (between ++ draws :: future)
  /-- Nothing was stored over the font. -/
  spared : FontSpared past
  /-- The register with the digit. -/
  x : Register
  points_cycle : points.move = .cycle
  points_word : (points.before.memory.fetch points.before.pc).toNat = 0xF000 + 0x100 * x + 0x29
  /-- The index does not change. -/
  index : ∀ t ∈ between, t.after.index = t.before.index
  /-- Nor does the glyph. -/
  glyph : ∀ t ∈ between, ∀ r < 5,
    t.after.memory.get (points.after.index + r) = t.before.memory.get (points.after.index + r)
  /-- The register with the column. -/
  a : Register
  /-- The register with the line. -/
  b : Register
  draws_cycle : draws.move = .cycle
  draws_word : (draws.before.memory.fetch draws.before.pc).toNat = 0xD000 + 0x100 * a + 0x10 * b + 5
  /-- The display is dark when the digit is drawn. -/
  dark : draws.before.display = Display.dark

namespace Rendering

variable {m : Machine} {history : List Event} (d : Rendering m history)

/-- What is in the register that `Fx29` reads. -/
def digit : Nat := (d.points.before.registers.get d.x).toNat

/-- The column of the place at which the digit is drawn. -/
def column : Nat := (d.draws.before.registers.get d.a).toNat

/-- The line of the place. -/
def line : Nat := (d.draws.before.registers.get d.b).toNat

/-- The display after the drawing. -/
def picture : Display := d.draws.after.display

/-- What is drawn is the glyph. -/
theorem isGlyph (h : m.memory.HoldsFont) :
    Display.IsGlyph d.digit (d.draws.before.memory.read d.draws.before.index 5) := by
  obtain ⟨past, points, between, draws, future, split, spared, x, cycle, word, index, glyph, a, b, -, -, dark⟩ := d
  obtain ⟨old, new, -, rfl, before, later⟩ := exists_of_path_eq split
  obtain ⟨during, -, -, rfl, arrived, -⟩ := exists_of_path_eq later.symm
  obtain ⟨place, same⟩ := index_of_glyph cycle word
  have font : points.before.memory.HoldsFont := by
    rw [before]
    exact holdsFont_perform h spared
  have place' : draws.before.index = points.after.index := by
    rw [arrived]
    exact path_frame Machine.index index
  refine ⟨Memory.length_read .., fun r hr => ?_⟩
  have row : draws.before.memory.get (points.after.index + r) = points.after.memory.get (points.after.index + r) := by
    rw [arrived]
    exact path_frame (fun n => n.memory.get (points.after.index + r)) fun t ht => glyph t ht r hr
  have small : 5 * ((points.before.registers.get x).toNat % 16) + r < 80 := by omega
  rw [Memory.getD_read _ _ hr, place', row, same, place, font _ small]
  exact (List.getD_eq_getElem _ _ small).symm

/-- The picture is that of the drawing on a dark display, and there is no collision. -/
theorem picture_eq :
    d.picture = (Display.dark.draw d.column d.line (d.draws.before.memory.read d.draws.before.index 5)).1 ∧
      d.draws.after.registers.get 15 = 0 := by
  obtain ⟨shown, flag⟩ := display_of_draw (by decide) d.draws_cycle d.draws_word
  rw [d.dark] at shown flag
  refine ⟨shown, ?_⟩
  rw [flag, Display.draw_dark_hit _ _ (by rw [Memory.length_read]; decide)]
  rfl

/-- **A digit that is drawn is shown** by its dots and by nothing else. -/
theorem get_picture (font : m.memory.HoldsFont) {u v : Nat} (hu : u < 64) (hv : v < 32) :
    d.picture.get u v = true ↔
      ∃ r < 5, ∃ c < 4, u = (d.column + c) % 64 ∧ v = (d.line + r) % 32 ∧ Font.dot d.digit r c = true := by
  rw [d.picture_eq.1, Display.get_draw_glyph (d.isGlyph font), Nat.mod_eq_of_lt hu, Nat.mod_eq_of_lt hv]
  refine exists_congr fun r => and_congr_right fun _ => exists_congr fun c => and_congr_right fun _ => ?_
  rw [and_comm, and_assoc, eq_comm, and_congr_right_iff]
  exact fun _ => and_congr_left fun _ => eq_comm

/-- **Two digits at one place look different.** -/
theorem picture_ne (font : m.memory.HoldsFont) {n : Machine} {other : List Event} (e : Rendering n other)
    (font' : n.memory.HoldsFont) (column : e.column % 64 = d.column % 64) (line : e.line % 32 = d.line % 32)
    (differ : e.digit % 16 ≠ d.digit % 16) : e.picture ≠ d.picture := by
  obtain ⟨r, hr, c, hc, dots⟩ := Font.exists_dot_ne differ
  intro same
  have shown := Display.get_draw_dot (d.isGlyph font) d.column d.line hr hc
  have shown' := Display.get_draw_dot (e.isGlyph font') e.column e.line hr hc
  rw [← d.picture_eq.1] at shown
  have place : Display.pixel (e.column + c) (e.line + r) = Display.pixel (d.column + c) (d.line + r) := by
    rw [Display.pixel_eq_iff, Display.width, Display.height]
    omega
  rw [← e.picture_eq.1, Display.get_congr place, same, shown] at shown'
  exact dots shown'.symm

end Rendering

/-- **Digits are drawn from the font.** Take a machine of any configuration and any history. At every moment, and
at the end, the font is in the first 80 cells of memory, if since the last load no `Fx33` and no `Fx55` wrote to
any of them. So whenever such a machine does a cycle at `Fx29` with any digit in `Vx`, and then one at `Dab5` on a dark
display, where the index and the glyph did not change in between, the pixels that are lit are just those of the dots of
the glyph: column `Va + c` modulo 64 and line `Vb + r` modulo 32 for the dot in row `r` and column `c`, with
what was in `Va` and `Vb` before the drawing. `VF` is 0 after it. And two such pictures at the same place differ if
the digits do in their low four bits. -/
theorem digits_are_drawn (config : Config) (chance : StreamKey) :
    let m := create config chance
    (∀ history past t future, m.moments history = past ++ t :: future → FontSpared past →
        ∀ (a : Nat) (h : a < 80), t.before.memory.get a = Font.bytes[a]) ∧
      (∀ history, FontSpared (m.moments history) →
        ∀ (a : Nat) (h : a < 80), (m.after history).memory.get a = Font.bytes[a]) ∧
      (∀ history (d : Rendering m history),
        (∀ u < 64, ∀ v < 32, d.picture.get u v = true ↔
            ∃ r < 5, ∃ c < 4, u = (d.column + c) % 64 ∧ v = (d.line + r) % 32 ∧
              (Font.bytes.getD (5 * (d.digit % 16) + r) 0).toNat.testBit (7 - c) = true) ∧
          d.draws.after.registers.get 15 = 0) ∧
      ∀ history (d : Rendering m history) config' chance' history'
        (e : Rendering (create config' chance') history'),
        e.column % 64 = d.column % 64 → e.line % 32 = d.line % 32 → e.digit % 16 ≠ d.digit % 16 →
          e.picture ≠ d.picture := by
  intro m
  have font : m.memory.HoldsFont := holdsFont_create config chance
  refine ⟨fun history past t future split spared => ?_, fun history spared => ?_, fun history d => ?_, ?_⟩
  · obtain ⟨old, new, -, rfl, before, -⟩ := exists_of_path_eq split
    rw [before]
    exact holdsFont_perform font spared
  · rw [← perform_moves]
    exact holdsFont_perform font spared
  · exact ⟨fun u hu v hv => d.get_picture font hu hv, d.picture_eq.2⟩
  · intro history d config' chance' history' e
    exact d.picture_ne font e (holdsFont_create config' chance')

/-- A program that draws a digit at the right edge of the display, where it reaches around it. The register that
gives the column is the one that takes the collision. -/
def edgeDigit (digit : UInt8) : List UInt8 := [0x6F, 0x3E, 0x60, digit, 0xF0, 0x29, 0xDF, 0x15]

/-- A tick and a request to stop come between its last two instructions. -/
def edgeHistory (digit : UInt8) : List Event := [.load (edgeDigit digit), .run 3, .tick, .interrupt, .step]

/-- Two digits, of which only the low four bits count, are drawn at the same place and look different. -/
theorem digits_are_drawn_atEdge :
    let m := create {} 0
    ∃ (d : Rendering m (edgeHistory 0x1A)) (e : Rendering m (edgeHistory 0x0B)),
      d.digit = 0x1A ∧ e.digit = 0x0B ∧ d.column = 62 ∧ e.column = 62 ∧ d.line = 0 ∧ e.line = 0 ∧
        d.picture.get 1 0 = true ∧ d.draws.after.registers.get 15 = 0 ∧ e.picture ≠ d.picture ∧
        (m.after (edgeHistory 0x1A)).memory.get 50 = Font.bytes[50] := by
  intro m
  let old (digit : UInt8) : List Move := [.load (edgeDigit digit), .cycle, .cycle]
  let during : List Move := [.tick, .interrupt, .drop]
  let points (digit : UInt8) : Moment := ⟨m.perform (old digit), .cycle⟩
  let draws (digit : UInt8) : Moment := ⟨(points digit).after.perform during, .cycle⟩
  have rendering (digit : UInt8)
      (moved : m.moves (edgeHistory digit) = old digit ++ .cycle :: (during ++ [.cycle]))
      (spared : FontSpared (m.path (old digit)))
      (pointed : ((points digit).before.memory.fetch (points digit).before.pc).toNat = 0xF000 + 0x29)
      (still : ∀ t ∈ (points digit).after.path during, t.after.index = t.before.index ∧
        ∀ r < 5, t.after.memory.get ((points digit).after.index + r) =
          t.before.memory.get ((points digit).after.index + r))
      (drawn : ((draws digit).before.memory.fetch (draws digit).before.pc).toNat = 0xDF15)
      (nothing : ∀ t ∈ m.path (old digit ++ .cycle :: during), t.drawsNothing = true) :
      ∃ d : Rendering m (edgeHistory digit), d.points = points digit ∧ d.draws = draws digit ∧ d.x = 0 ∧
        d.a = 15 ∧ d.b = 1 := by
    have split : m.moments (edgeHistory digit) = m.path (old digit) ++ points digit ::
        ((points digit).after.path during ++ draws digit :: []) := by
      rw [moments_of_moves moved, path_concat]
    have dark : (draws digit).before.display = Display.dark := by
      have whole := display_perform_of_dark (m := m) rfl nothing
      rw [perform_append_cons] at whole
      exact whole
    exact ⟨⟨_, _, _, _, _, split, spared, 0, rfl, pointed, fun t ht => (still t ht).1, fun t ht => (still t ht).2,
      15, 1, rfl, drawn, dark⟩, rfl, rfl, rfl, rfl, rfl⟩
  obtain ⟨d, points_d, draws_d, x_d, a_d, b_d⟩ := rendering 0x1A (by decide +kernel) (by decide +kernel)
    (by decide +kernel) (by decide +kernel) (by decide +kernel) (by decide +kernel)
  obtain ⟨e, points_e, draws_e, x_e, a_e, b_e⟩ := rendering 0x0B (by decide +kernel) (by decide +kernel)
    (by decide +kernel) (by decide +kernel) (by decide +kernel) (by decide +kernel)
  obtain ⟨-, font, drawn, differ⟩ := digits_are_drawn {} 0
  obtain ⟨pixels, flag⟩ := drawn _ d
  have digit_d : d.digit = 0x1A := by
    rw [Rendering.digit, points_d, x_d]
    decide +kernel
  have digit_e : e.digit = 0x0B := by
    rw [Rendering.digit, points_e, x_e]
    decide +kernel
  have column_d : d.column = 62 := by
    rw [Rendering.column, draws_d, a_d]
    decide +kernel
  have column_e : e.column = 62 := by
    rw [Rendering.column, draws_e, a_e]
    decide +kernel
  have line_d : d.line = 0 := by
    rw [Rendering.line, draws_d, b_d]
    decide +kernel
  have line_e : e.line = 0 := by
    rw [Rendering.line, draws_e, b_e]
    decide +kernel
  refine ⟨d, e, digit_d, digit_e, column_d, column_e, line_d, line_e, ?_, flag, ?_, font _ (by decide +kernel) 50 _⟩
  · refine (pixels 1 (by decide) 0 (by decide)).2 ⟨0, by decide, 3, by decide, ?_⟩
    rw [digit_d, column_d, line_d]
    decide
  · exact differ _ d {} 0 _ e (by rw [column_d, column_e]) (by rw [line_d, line_e]) (by rw [digit_d, digit_e]; decide)

end Machine

end ChipEight
