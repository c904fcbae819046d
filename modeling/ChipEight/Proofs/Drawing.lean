import ChipEight.Display
import Mathlib.Data.List.Basic

/-!
# What a drawing does

A drawing goes through the places that a sprite strikes, one after the other, and looks at the
display as it is by then. Seen from its end it is simpler. Every pixel is turned over as often as
it was struck (`get_foldl_strike`), and there was a collision if some pixel was struck while it
was lit: it was lit before and was struck at all, or it was struck twice
(`foldl_strike_hit_iff`).

A sprite of no more rows than the display has strikes no pixel twice (`hits_strikes_le_one`), so
that it turns over the pixels it covers (`get_draw`) and collides with those of them that were
lit (`draw_hit_iff`).
-/

namespace ChipEight.Display

/-- Two places are the same pixel. -/
theorem pixel_eq_iff {x y u v : Nat} :
    pixel x y = pixel u v ↔ x % width = u % width ∧ y % height = v % height := by
  rw [Fin.ext_iff, val_pixel, val_pixel, position_eq_iff]

theorem get_congr {x y u v : Nat} (h : pixel x y = pixel u v) (d : Display) :
    d.get x y = d.get u v := by
  simp only [get, h]

/-! ### Striking places one after the other -/

/-- How often a pixel is struck. -/
def hits (places : List (Nat × Nat)) (u v : Nat) : Nat :=
  places.countP fun p => pixel p.1 p.2 = pixel u v

@[simp] theorem hits_nil (u v : Nat) : hits [] u v = 0 := rfl

theorem hits_cons (p : Nat × Nat) (places : List (Nat × Nat)) (u v : Nat) :
    hits (p :: places) u v = hits places u v + if pixel p.1 p.2 = pixel u v then 1 else 0 := by
  simp [hits, List.countP_cons]

theorem hits_pos_iff {places : List (Nat × Nat)} {u v : Nat} :
    1 ≤ hits places u v ↔ ∃ p ∈ places, pixel p.1 p.2 = pixel u v := by
  simp [hits, Nat.one_le_iff_ne_zero, List.countP_eq_zero]

theorem get_strike (s : Display × Bool) (p : Nat × Nat) (u v : Nat) :
    (strike s p).1.get u v = if pixel p.1 p.2 = pixel u v then !s.1.get u v else s.1.get u v := by
  simp only [strike, get_toggle, pixel_eq_iff]

/-- A pixel is turned over as often as it is struck. -/
theorem get_foldl_strike (places : List (Nat × Nat)) (s : Display × Bool) (u v : Nat) :
    (places.foldl strike s).1.get u v = xor (s.1.get u v) (decide (hits places u v % 2 = 1)) := by
  induction places generalizing s with
  | nil => simp
  | cons p places ih =>
    rw [List.foldl_cons, ih, get_strike, hits_cons]
    by_cases hp : pixel p.1 p.2 = pixel u v
    · rcases Nat.mod_two_eq_zero_or_one (hits places u v) with even | odd
      · simp [hp, Nat.add_mod, even]
      · simp [hp, Nat.add_mod, odd]
    · simp [hp]

/-- The struck pixels that make a collision, on a display that is `d` at first. -/
def Collides (d : Display) (places : List (Nat × Nat)) (u v : Nat) : Prop :=
  (d.get u v = true ∧ 1 ≤ hits places u v) ∨ 2 ≤ hits places u v

/-- A pixel makes a collision with the first place, which must be lit, or with the others, on the
display that the first place leaves. -/
theorem collides_cons {d : Display} {f : Bool} {p : Nat × Nat} {places : List (Nat × Nat)}
    {u v : Nat} :
    Collides d (p :: places) u v ↔
      (pixel p.1 p.2 = pixel u v ∧ d.get p.1 p.2 = true) ∨
        Collides (strike (d, f) p).1 places u v := by
  unfold Collides
  rw [get_strike, hits_cons]
  by_cases hp : pixel p.1 p.2 = pixel u v
  · rw [get_congr hp]
    cases d.get u v
    · simp [hp]
      omega
    · simp [hp]
  · simp [hp]

/-- **A collision is a pixel that was lit and is struck, or one that is struck twice.** -/
theorem foldl_strike_hit_iff (places : List (Nat × Nat)) (s : Display × Bool) :
    (places.foldl strike s).2 = true ↔ s.2 = true ∨ ∃ u v, Collides s.1 places u v := by
  induction places generalizing s with
  | nil => simp [Collides]
  | cons p places ih =>
    obtain ⟨d, f⟩ := s
    rw [List.foldl_cons, ih]
    simp only [collides_cons (f := f), exists_or, strike, Bool.or_eq_true]
    have first : (∃ u v, pixel p.1 p.2 = pixel u v ∧ d.get p.1 p.2 = true) ↔
        d.get p.1 p.2 = true := by
      constructor
      · rintro ⟨u, v, -, lit⟩
        exact lit
      · intro lit
        exact ⟨p.1, p.2, rfl, lit⟩
    rw [first, or_assoc]

/-! ### The places of a sprite -/

/-- The bit of a sprite in a row and a column. -/
def bit (sprite : List UInt8) (r c : Nat) : Bool :=
  (sprite.getD r 0).toNat.testBit (spriteWidth - 1 - c)

/-- A sprite at a place covers a pixel. -/
def Covers (x y : Nat) (sprite : List UInt8) (u v : Nat) : Prop :=
  ∃ r < sprite.length, ∃ c < spriteWidth, bit sprite r c = true ∧
    (x + c) % width = u % width ∧ (y + r) % height = v % height

instance (x y : Nat) (sprite : List UInt8) (u v : Nat) : Decidable (Covers x y sprite u v) := by
  unfold Covers
  infer_instance

theorem mem_strikesRow {x y : Nat} {bits : UInt8} {p : Nat × Nat} :
    p ∈ strikesRow x y bits ↔
      ∃ c < spriteWidth, bits.toNat.testBit (spriteWidth - 1 - c) = true ∧ p = (x + c, y) := by
  simp only [strikesRow, List.mem_map, List.mem_filter, List.mem_range, and_assoc]
  constructor
  · rintro ⟨c, hc, set, rfl⟩
    exact ⟨c, hc, set, rfl⟩
  · rintro ⟨c, hc, set, rfl⟩
    exact ⟨c, hc, set, rfl⟩

/-- A sprite strikes a place for each of its set bits. -/
theorem mem_strikes {x y : Nat} {sprite : List UInt8} {p : Nat × Nat} :
    p ∈ strikes x y sprite ↔
      ∃ r < sprite.length, ∃ c < spriteWidth, bit sprite r c = true ∧ p = (x + c, y + r) := by
  induction sprite generalizing y with
  | nil => simp [strikes]
  | cons row rest ih =>
    rw [strikes, List.mem_append, mem_strikesRow, ih]
    constructor
    · rintro (⟨c, hc, set, rfl⟩ | ⟨r, hr, c, hc, set, rfl⟩)
      · exact ⟨0, Nat.succ_pos _, c, hc, set, rfl⟩
      · exact ⟨r + 1, Nat.succ_lt_succ hr, c, hc, set, by rw [Nat.add_right_comm, Nat.add_assoc]⟩
    · rintro ⟨r, hr, c, hc, set, rfl⟩
      cases r with
      | zero => exact Or.inl ⟨c, hc, set, rfl⟩
      | succ r =>
        exact Or.inr ⟨r, Nat.lt_of_succ_lt_succ hr, c, hc, set,
          by rw [Nat.add_right_comm, Nat.add_assoc]⟩

theorem pairwise_strikesRow (x y : Nat) (bits : UInt8) :
    (strikesRow x y bits).Pairwise fun p q => pixel p.1 p.2 ≠ pixel q.1 q.2 := by
  unfold strikesRow
  rw [List.pairwise_map]
  refine List.Pairwise.filter _ (List.Pairwise.imp_of_mem ?_ List.pairwise_lt_range)
  intro a b ha hb hab same
  rw [List.mem_range, spriteWidth] at ha hb
  have columns := (pixel_eq_iff.1 same).1
  unfold width at columns
  omega

/-- As long as it is not higher than the display, a sprite strikes no pixel twice. -/
theorem pairwise_strikes (x y : Nat) {sprite : List UInt8} (h : sprite.length ≤ height) :
    (strikes x y sprite).Pairwise fun p q => pixel p.1 p.2 ≠ pixel q.1 q.2 := by
  induction sprite generalizing y with
  | nil => exact List.Pairwise.nil
  | cons row rest ih =>
    rw [strikes, List.pairwise_append]
    refine ⟨pairwise_strikesRow x y row, ih (y + 1) (Nat.le_of_succ_le h), ?_⟩
    intro p hp q hq same
    obtain ⟨c, -, -, rfl⟩ := mem_strikesRow.1 hp
    obtain ⟨r, hr, c', -, -, rfl⟩ := mem_strikes.1 hq
    have lines := (pixel_eq_iff.1 same).2
    rw [List.length_cons] at h
    unfold height at h lines
    dsimp only at lines
    omega

theorem hits_le_one {places : List (Nat × Nat)}
    (h : places.Pairwise fun p q => pixel p.1 p.2 ≠ pixel q.1 q.2) (u v : Nat) :
    hits places u v ≤ 1 := by
  induction places with
  | nil => simp
  | cons p places ih =>
    rw [List.pairwise_cons] at h
    rw [hits_cons]
    split
    · next hp =>
      have none_left : ¬ 1 ≤ hits places u v := by
        rw [hits_pos_iff]
        rintro ⟨q, hq, same⟩
        exact h.1 q hq (hp.trans same.symm)
      omega
    · exact ih h.2

theorem hits_strikes_le_one (x y : Nat) {sprite : List UInt8} (h : sprite.length ≤ height)
    (u v : Nat) : hits (strikes x y sprite) u v ≤ 1 :=
  hits_le_one (pairwise_strikes x y h) u v

theorem hits_strikes_pos_iff {x y : Nat} {sprite : List UInt8} {u v : Nat} :
    1 ≤ hits (strikes x y sprite) u v ↔ Covers x y sprite u v := by
  rw [hits_pos_iff]
  constructor
  · rintro ⟨p, hp, same⟩
    obtain ⟨r, hr, c, hc, set, rfl⟩ := mem_strikes.1 hp
    exact ⟨r, hr, c, hc, set, pixel_eq_iff.1 same⟩
  · rintro ⟨r, hr, c, hc, set, same⟩
    exact ⟨(x + c, y + r), mem_strikes.2 ⟨r, hr, c, hc, set, rfl⟩, pixel_eq_iff.2 same⟩

/-! ### Drawing a sprite that is not higher than the display -/

/-- The pixels that the sprite covers are turned over, all others stay. -/
theorem get_draw (d : Display) (x y : Nat) {sprite : List UInt8} (h : sprite.length ≤ height)
    (u v : Nat) :
    (d.draw x y sprite).1.get u v = xor (d.get u v) (decide (Covers x y sprite u v)) := by
  have once := hits_strikes_le_one x y h u v
  have odd : hits (strikes x y sprite) u v % 2 = 1 ↔ Covers x y sprite u v := by
    rw [← hits_strikes_pos_iff]
    omega
  unfold draw
  rw [get_foldl_strike]
  simp only [odd]

/-- There is a collision if some set bit of the sprite is over a lit pixel. -/
theorem draw_hit_iff (d : Display) (x y : Nat) {sprite : List UInt8} (h : sprite.length ≤ height) :
    (d.draw x y sprite).2 = true ↔
      ∃ r < sprite.length, ∃ c < spriteWidth,
        bit sprite r c = true ∧ d.get (x + c) (y + r) = true := by
  unfold draw
  rw [foldl_strike_hit_iff]
  constructor
  · rintro (false_at_first | ⟨u, v, ⟨lit, struck⟩ | twice⟩)
    · cases false_at_first
    · obtain ⟨r, hr, c, hc, set, same⟩ := hits_strikes_pos_iff.1 struck
      exact ⟨r, hr, c, hc, set, by rw [get_congr (pixel_eq_iff.2 same)]; exact lit⟩
    · have once := hits_strikes_le_one x y h u v
      omega
  · rintro ⟨r, hr, c, hc, set, lit⟩
    exact Or.inr ⟨x + c, y + r, Or.inl
      ⟨lit, hits_strikes_pos_iff.2 ⟨r, hr, c, hc, set, rfl, rfl⟩⟩⟩

end ChipEight.Display
