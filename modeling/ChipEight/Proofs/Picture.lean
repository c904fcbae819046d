import ChipEight.Proofs.Drawing
import Mathlib.Algebra.BigOperators.Group.Finset.Piecewise
import Mathlib.Algebra.BigOperators.Group.Finset.Sigma
import Mathlib.Algebra.GroupWithZero.Nat
import Mathlib.Data.List.DropRight
import Mathlib.Data.List.Induction

/-!
# What a picture is

A display is painted by strokes: sprites are drawn, and now and then all pixels are made dark. The
sprites may be of any height, so that one that is higher than the display strikes some pixels
several times. Still the picture only depends on how many set bits come to lie over each pixel: a
pixel is lit if since the last clear there were an odd number of them (`get_paint_dark`).

So between two clears the order of the drawings does not matter, nor does it matter where around
the edges a drawing begins, and a drawing made twice is as good as none
(`picture_counts_bits`).
-/

namespace ChipEight.Display

/-- Something done to a display. -/
inductive Stroke
  /-- A sprite is drawn with its upper left corner at a place. -/
  | draw (x y : Nat) (sprite : List UInt8)
  /-- All pixels are made dark. -/
  | clear
  deriving DecidableEq, Repr

/-- The display after a stroke. -/
def stroke (d : Display) : Stroke → Display
  | .draw x y sprite => (d.draw x y sprite).1
  | .clear => dark

/-- The display after strokes, one after the other. -/
def paint (d : Display) (strokes : List Stroke) : Display := strokes.foldl stroke d

/-- The set bits of a stroke that come to lie over a pixel, each by its row and its column. -/
def Stroke.bitsOver (u v : Nat) : Stroke → Finset (Nat × Nat)
  | draw x y sprite =>
    {p ∈ Finset.range sprite.length ×ˢ Finset.range 8 |
      bit sprite p.1 p.2 = true ∧ (x + p.2) % 64 = u % 64 ∧ (y + p.1) % 32 = v % 32}
  | clear => ∅

/-- How many set bits of some strokes come to lie over a pixel. -/
def bitCount (u v : Nat) (strokes : List Stroke) : Nat :=
  (strokes.map fun s => (s.bitsOver u v).card).sum

/-- The strokes after the last clear: all of them, if there is none. -/
def sinceClear (strokes : List Stroke) : List Stroke := strokes.rtakeWhile fun s => s ≠ .clear

theorem bitCount_nil (u v : Nat) : bitCount u v [] = 0 := rfl

theorem bitCount_append (u v : Nat) (first rest : List Stroke) :
    bitCount u v (first ++ rest) = bitCount u v first + bitCount u v rest := by
  simp [bitCount]

theorem bitCount_cons (u v : Nat) (s : Stroke) (rest : List Stroke) :
    bitCount u v (s :: rest) = (s.bitsOver u v).card + bitCount u v rest := by
  simp [bitCount]

theorem bitCount_perm {first second : List Stroke} (h : first.Perm second) (u v : Nat) :
    bitCount u v first = bitCount u v second :=
  (h.map _).sum_eq

/-! ### How often a sprite strikes a pixel -/

theorem hits_append (first rest : List (Nat × Nat)) (u v : Nat) :
    hits (first ++ rest) u v = hits first u v + hits rest u v :=
  List.countP_append

theorem hits_strikesRow (x y : Nat) (bits : UInt8) (u v : Nat) :
    hits (strikesRow x y bits) u v =
      ∑ c ∈ Finset.range 8, if bits.toNat.testBit (7 - c) = true ∧
        (x + c) % 64 = u % 64 ∧ y % 32 = v % 32 then 1 else 0 := by
  rw [← Finset.card_filter, hits, strikesRow, List.countP_map, List.countP_filter,
    List.countP_eq_length_filter]
  change _ = (List.filter _ (List.range 8)).length
  refine congrArg List.length (List.filter_congr fun c _ => ?_)
  simp only [Function.comp_apply, pixel_eq_iff, Bool.and_comm, Bool.decide_and, Bool.decide_eq_true]
  rfl

/-- A sprite strikes a pixel once for each of its set bits that come to lie over it. -/
theorem hits_strikes (x y : Nat) (sprite : List UInt8) (u v : Nat) :
    hits (strikes x y sprite) u v = ((Stroke.draw x y sprite).bitsOver u v).card := by
  rw [Stroke.bitsOver, Finset.card_filter, Finset.sum_product]
  induction sprite generalizing y with
  | nil => rfl
  | cons row rest ih =>
    -- the first row is row `0`, and row `r` of the rest, which begins a line lower, is row `r + 1`
    rw [strikes, hits_append, hits_strikesRow, ih, List.length_cons,
      Finset.sum_range_succ' _ rest.length, add_comm]
    simp only [Nat.add_right_comm y 1]
    rfl

/-! ### Painting -/

theorem paint_append (d : Display) (first rest : List Stroke) :
    d.paint (first ++ rest) = (d.paint first).paint rest :=
  List.foldl_append

/-- Two numbers of turns, one after the other. -/
theorem xor_odd (a b : Nat) :
    xor (decide (a % 2 = 1)) (decide (b % 2 = 1)) = decide ((a + b) % 2 = 1) := by
  rcases Nat.mod_two_eq_zero_or_one a with ha | ha <;>
    rcases Nat.mod_two_eq_zero_or_one b with hb | hb <;> simp [Nat.add_mod, ha, hb]

/-- Without a clear, a pixel is turned over as often as set bits come to lie over it. -/
theorem get_paint {d : Display} {strokes : List Stroke} (h : Stroke.clear ∉ strokes) (u v : Nat) :
    (d.paint strokes).get u v = xor (d.get u v) (decide (bitCount u v strokes % 2 = 1)) := by
  induction strokes generalizing d with
  | nil => simp [paint, bitCount]
  | cons s rest ih =>
    rw [List.mem_cons, not_or] at h
    cases s with
    | clear => exact absurd rfl h.1
    | draw x y sprite =>
      have drawn : (d.stroke (.draw x y sprite)).get u v = xor (d.get u v)
          (decide (((Stroke.draw x y sprite).bitsOver u v).card % 2 = 1)) := by
        rw [stroke, draw, get_foldl_strike, hits_strikes]
      calc (d.paint (.draw x y sprite :: rest)).get u v
          = ((d.stroke (.draw x y sprite)).paint rest).get u v := rfl
        _ = xor ((d.stroke (.draw x y sprite)).get u v) (decide (bitCount u v rest % 2 = 1)) := ih h.2
        _ = xor (d.get u v) (decide (bitCount u v (.draw x y sprite :: rest) % 2 = 1)) := by
          rw [drawn, Bool.xor_assoc, xor_odd, bitCount_cons]

/-- What was painted before the last clear does not show. -/
theorem paint_sinceClear (strokes : List Stroke) :
    dark.paint (sinceClear strokes) = dark.paint strokes := by
  induction strokes using List.reverseRecOn with
  | nil => rfl
  | append_singleton strokes s ih =>
    rw [sinceClear, List.rtakeWhile_concat]
    cases s with
    | draw x y sprite =>
      rw [if_pos (by simp), paint_append, paint_append, ← ih]
      rfl
    | clear =>
      rw [if_neg (by simp), paint_append]
      rfl

/-- **A pixel is lit if an odd number of set bits came to lie over it since the last clear.** -/
theorem get_paint_dark (strokes : List Stroke) (u v : Nat) :
    (dark.paint strokes).get u v = decide (bitCount u v (sinceClear strokes) % 2 = 1) := by
  have noClear : Stroke.clear ∉ sinceClear strokes := by
    intro hc
    have other := List.mem_rtakeWhile_imp hc
    simp at other
  rw [← paint_sinceClear, get_paint noClear, get_dark, Bool.false_xor]

/-! ### What the picture does not depend on -/

/-- The order of drawings. -/
theorem paint_perm {first second : List Stroke} (h : first.Perm second)
    (noClear : Stroke.clear ∉ first) (d : Display) : d.paint second = d.paint first := by
  have noClear' : Stroke.clear ∉ second := fun hc => noClear (h.mem_iff.2 hc)
  refine Display.ext fun u _ v _ => ?_
  rw [get_paint noClear, get_paint noClear', bitCount_perm h]

/-- Where around the edges a drawing begins. -/
theorem stroke_shift {x x' y y' : Nat} (hx : x' % 64 = x % 64) (hy : y' % 32 = y % 32)
    (sprite : List UInt8) (d : Display) :
    d.stroke (.draw x' y' sprite) = d.stroke (.draw x y sprite) := by
  have column (c : Nat) : (x' + c) % 64 = (x + c) % 64 := by omega
  have line (r : Nat) : (y' + r) % 32 = (y + r) % 32 := by omega
  have bits (u v : Nat) :
      (Stroke.draw x' y' sprite).bitsOver u v = (Stroke.draw x y sprite).bitsOver u v := by
    simp only [Stroke.bitsOver, column, line]
  refine Display.ext fun u _ v _ => ?_
  change (d.paint [.draw x' y' sprite]).get u v = (d.paint [.draw x y sprite]).get u v
  rw [get_paint (by simp), get_paint (by simp), bitCount_cons, bitCount_cons, bits]

/-- A drawing that is made twice. -/
theorem paint_twice {s : Stroke} {between : List Stroke} (hs : s ≠ .clear)
    (noClear : Stroke.clear ∉ between) (d : Display) :
    d.paint (s :: (between ++ [s])) = d.paint between := by
  have noClear' : Stroke.clear ∉ s :: (between ++ [s]) := by
    simp [noClear, hs.symm]
  refine Display.ext fun u _ v _ => ?_
  have even : bitCount u v (s :: (between ++ [s])) % 2 = bitCount u v between % 2 := by
    rw [bitCount_cons, bitCount_append, bitCount_cons, bitCount_nil]
    omega
  rw [get_paint noClear, get_paint noClear', even]

/-- **A display counts set bits, modulo two.** Take a dark display and any strokes. A pixel is lit at
the end if, since the last clear, the number of set bits that came to lie over it is odd: the bits in
row `r` and column `c < 8` of a sprite drawn at a place, where the column of the place plus `c`
agrees with that of the pixel modulo 64, and the line plus `r` modulo 32. So the picture does not
change when drawings between two clears change places, when a drawing is moved by multiples of 64 and
of 32, and when a drawing is put in twice, with no clear in between. -/
theorem picture_counts_bits :
    (∀ strokes u v, (dark.paint strokes).get u v =
        decide (((sinceClear strokes).map fun s => (s.bitsOver u v).card).sum % 2 = 1)) ∧
      (∀ before between between' after, between.Perm between' → Stroke.clear ∉ between →
        dark.paint (before ++ between' ++ after) = dark.paint (before ++ between ++ after)) ∧
      (∀ before x x' y y' sprite after, x' % 64 = x % 64 → y' % 32 = y % 32 →
        dark.paint (before ++ .draw x' y' sprite :: after) =
          dark.paint (before ++ .draw x y sprite :: after)) ∧
      ∀ before x y sprite between after, Stroke.clear ∉ between →
        dark.paint (before ++ .draw x y sprite :: (between ++ .draw x y sprite :: after)) =
          dark.paint (before ++ between ++ after) := by
  refine ⟨get_paint_dark, ?_, ?_, ?_⟩
  · intro before between between' after reordered noClear
    simp only [paint_append, paint_perm reordered noClear]
  · intro before x x' y y' sprite after hx hy
    rw [paint_append, paint_append]
    exact congrArg (fun e => paint e after) (stroke_shift hx hy sprite _)
  · intro before x y sprite between after noClear
    have twice := paint_twice (s := .draw x y sprite) nofun noClear (dark.paint before)
    calc dark.paint (before ++ .draw x y sprite :: (between ++ .draw x y sprite :: after))
        = ((dark.paint before).paint (.draw x y sprite :: (between ++ [.draw x y sprite]))).paint after := by
          rw [← paint_append, ← paint_append]
          simp
      _ = ((dark.paint before).paint between).paint after := by rw [twice]
      _ = dark.paint (before ++ between ++ after) := by rw [paint_append, paint_append]

/-- A sprite of 33 rows strikes line 30 twice and so leaves it dark; it may begin elsewhere around the
edges, change places with another one, and vanish when it is drawn again. -/
theorem picture_counts_bits_tall :
    let tall := Stroke.draw 60 30 (List.replicate 33 0xFF)
    let small := Stroke.draw 1 2 [0x80]
    (dark.paint [small, .clear, tall]).get 60 30 = false ∧
      (dark.paint [small, .clear, tall]).get 3 31 = true ∧
      dark.paint [small, tall] = dark.paint [tall, small] ∧
      dark.paint [.draw 124 62 (List.replicate 33 0xFF)] = dark.paint [tall] ∧
      dark.paint [tall, small, tall] = dark.paint [small] := by
  intro tall small
  obtain ⟨counts, reordered, shifted, twice⟩ := picture_counts_bits
  refine ⟨?_, ?_, reordered [] [tall, small] [small, tall] [] (.swap _ _ _) (by decide),
    shifted [] 60 124 30 62 _ [] rfl rfl, twice [] 60 30 _ [small] [] (by decide)⟩
  · rw [counts]
    decide +kernel
  · rw [counts]
    decide +kernel

end ChipEight.Display
