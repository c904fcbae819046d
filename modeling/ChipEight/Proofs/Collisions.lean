import ChipEight.Proofs.Picture

/-!
# When a drawing collides

A drawing looks at each pixel at the moment when it strikes it, on a display that it has changed itself by
then. Still the report of a collision can be told from the display before and from the sprite: some pixel
was lit and at least one set bit comes to lie over it, or two set bits come to lie over the same pixel
(`draw_collides_iff`). The second can only happen to a sprite that is higher than the display, so that for
all others the report is that the sprite covers a lit pixel, and when such a sprite is drawn again at the
same place, that it covered one that was dark (`collision_exact`).
-/

namespace ChipEight.Display

/-- A pixel may be named by its place on the display. -/
theorem collides_wrap {d : Display} {places : List (Nat × Nat)} {u v : Nat} :
    Collides d places (u % 64) (v % 32) ↔ Collides d places u v := by
  have same : pixel (u % 64) (v % 32) = pixel u v :=
    pixel_eq_iff.2 ⟨Nat.mod_mod u 64, Nat.mod_mod v 32⟩
  simp only [Collides, hits, get_congr same, same]

/-- **A drawing collides** just if some pixel has a set bit of the sprite over it and was lit before, or has
two set bits over it. -/
theorem draw_collides_iff (d : Display) (x y : Nat) (sprite : List UInt8) :
    (d.draw x y sprite).2 = true ↔
      ∃ u < 64, ∃ v < 32, (d.get u v = true ∧ 1 ≤ ((Stroke.draw x y sprite).bitsOver u v).card) ∨
        2 ≤ ((Stroke.draw x y sprite).bitsOver u v).card := by
  have collides (u v : Nat) : Collides d (strikes x y sprite) u v ↔
      (d.get u v = true ∧ 1 ≤ ((Stroke.draw x y sprite).bitsOver u v).card) ∨
        2 ≤ ((Stroke.draw x y sprite).bitsOver u v).card := by
    rw [Collides, hits_strikes]
  rw [draw, foldl_strike_hit_iff]
  constructor
  · rintro (false_at_first | ⟨u, v, collision⟩)
    · cases false_at_first
    · exact ⟨u % 64, Nat.mod_lt _ (by decide), v % 32, Nat.mod_lt _ (by decide),
        (collides _ _).1 (collides_wrap.2 collision)⟩
  · rintro ⟨u, -, v, -, collision⟩
    exact Or.inr ⟨u, v, (collides u v).2 collision⟩

/-- A sprite that is not higher than the display collides with the lit pixels that it covers. -/
theorem draw_collides_iff_of_low (d : Display) (x y : Nat) {sprite : List UInt8}
    (low : sprite.length ≤ height) :
    (d.draw x y sprite).2 = true ↔
      ∃ u < 64, ∃ v < 32, Covers x y sprite u v ∧ d.get u v = true := by
  rw [draw_collides_iff]
  refine exists_congr fun u => and_congr_right fun _ => exists_congr fun v => and_congr_right fun _ => ?_
  rw [← hits_strikes, hits_strikes_pos_iff]
  have once := hits_strikes_le_one x y low u v
  constructor
  · rintro (⟨lit, covered⟩ | twice)
    · exact ⟨covered, lit⟩
    · omega
  · rintro ⟨covered, lit⟩
    exact Or.inl ⟨lit, covered⟩

/-- **The report of a collision is exact.** Take any display, any place and any sprite. A drawing reports a
collision just if there is a pixel that was lit before and has at least one set bit of the sprite over it,
or a pixel that has at least two of them over it; here a set bit in row `r` and column `c < 8` lies over the
pixel whose column is that of the place plus `c` modulo 64, and whose line is that of the place plus `r`
modulo 32. If the sprite has at most 32 rows, this is so just if it covers a lit pixel; and when it is drawn
a second time at the same place, the second drawing reports a collision just if the sprite covers a pixel
that was dark at the start. -/
theorem collision_exact (d : Display) (x y : Nat) (sprite : List UInt8) :
    let bitsOver u v :=
      {p ∈ Finset.range sprite.length ×ˢ Finset.range 8 |
        (sprite.getD p.1 0).toNat.testBit (7 - p.2) = true ∧
          (x + p.2) % 64 = u % 64 ∧ (y + p.1) % 32 = v % 32}
    ((d.draw x y sprite).2 = true ↔
        ∃ u < 64, ∃ v < 32, (d.get u v = true ∧ 1 ≤ (bitsOver u v).card) ∨ 2 ≤ (bitsOver u v).card) ∧
      (sprite.length ≤ 32 →
        ((d.draw x y sprite).2 = true ↔
            ∃ u < 64, ∃ v < 32, (bitsOver u v).Nonempty ∧ d.get u v = true) ∧
          (((d.draw x y sprite).1.draw x y sprite).2 = true ↔
            ∃ u < 64, ∃ v < 32, (bitsOver u v).Nonempty ∧ d.get u v = false)) := by
  intro bitsOver
  have covers (u v : Nat) : (bitsOver u v).Nonempty ↔ Covers x y sprite u v := by
    rw [← hits_strikes_pos_iff, hits_strikes, ← Finset.card_pos]
    rfl
  refine ⟨draw_collides_iff d x y sprite, fun low => ?_⟩
  simp only [covers]
  refine ⟨draw_collides_iff_of_low d x y low, ?_⟩
  rw [draw_collides_iff_of_low _ x y low]
  -- the first drawing turns over just the pixels that the sprite covers
  refine exists_congr fun u => and_congr_right fun _ => exists_congr fun v => and_congr_right fun _ => ?_
  refine and_congr_right fun covered => ?_
  rw [get_draw d x y low, decide_eq_true covered]
  simp

/-- A sprite of 33 rows collides with itself on a dark display, while one of 32 rows does not, and collides
when it is drawn again; where one of its pixels was lit and another one dark, it collides both times. -/
theorem collision_exact_tall :
    let sparse := dark.toggle 63 0
    (dark.draw 63 31 (List.replicate 33 0xC0)).2 = true ∧
      (dark.draw 63 31 (List.replicate 32 0xC0)).2 = false ∧
      ((dark.draw 63 31 (List.replicate 32 0xC0)).1.draw 63 31 (List.replicate 32 0xC0)).2 = true ∧
      (sparse.draw 62 31 [0x00, 0x60]).2 = true ∧
      ((sparse.draw 62 31 [0x00, 0x60]).1.draw 62 31 [0x00, 0x60]).2 = true := by
  intro sparse
  obtain ⟨tall, -⟩ := collision_exact dark 63 31 (List.replicate 33 0xC0)
  obtain ⟨once, again⟩ := (collision_exact dark 63 31 (List.replicate 32 0xC0)).2 (by decide)
  obtain ⟨lit, unlit⟩ := (collision_exact sparse 62 31 [0x00, 0x60]).2 (by decide)
  refine ⟨tall.2 ⟨63, by decide, 31, by decide, Or.inr (by decide +kernel)⟩, ?_,
    again.2 ⟨63, by decide, 31, by decide, ⟨(0, 0), by decide +kernel⟩, get_dark 63 31⟩,
    lit.2 ⟨63, by decide, 0, by decide, ⟨(1, 1), by decide +kernel⟩, by decide +kernel⟩,
    unlit.2 ⟨0, by decide, 0, by decide, ⟨(1, 2), by decide +kernel⟩, by decide +kernel⟩⟩
  rw [Bool.eq_false_iff]
  intro collision
  obtain ⟨u, -, v, -, -, litBefore⟩ := once.1 collision
  rw [get_dark] at litBefore
  cases litBefore

end ChipEight.Display
