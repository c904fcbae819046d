/-!
# The display

The display is 64 by 32 pixels and both coordinates wrap around its edges. A sprite is a
column of bytes, eight pixels to a row, the highest bit leftmost. Drawing turns over
every pixel that a set bit strikes, and reports a collision when it strikes a lit one.
`strikes` lists the struck places in the order of drawing, so that a drawing is a fold
over them.
-/

namespace ChipEight

/-- The pixels. -/
structure Display where
  /-- Row after row, from the left to the right. -/
  cells : Vector Bool 2048
  deriving DecidableEq

namespace Display

/-- How many pixels a row has. -/
def width : Nat := 64

/-- How many rows there are. -/
def height : Nat := 32

/-- How many pixels there are. -/
def size : Nat := width * height

/-- How many pixels a row of a sprite has. -/
def spriteWidth : Nat := 8

/-- Where a pixel is kept. -/
def position (x y : Nat) : Nat := y % height * width + x % width

theorem position_lt (x y : Nat) : position x y < 2048 := by
  unfold position height width
  omega

/-- Two places are kept together only if they are the same pixel. -/
theorem position_eq_iff {x y u v : Nat} :
    position x y = position u v ↔ x % width = u % width ∧ y % height = v % height := by
  unfold position height width
  omega

/-- Where a pixel is kept, as an index. -/
def pixel (x y : Nat) : Fin 2048 := ⟨position x y, position_lt x y⟩

@[simp] theorem val_pixel (x y : Nat) : (pixel x y).val = position x y := rfl

/-- All pixels dark. -/
def dark : Display := ⟨Vector.replicate 2048 false⟩

/-- The pixel at a place. -/
def get (d : Display) (x y : Nat) : Bool := d.cells[pixel x y]

/-- The display with one pixel turned over. -/
def toggle (d : Display) (x y : Nat) : Display :=
  ⟨d.cells.set (pixel x y) (!d.get x y)⟩

/-- The places that a row of a sprite strikes. -/
def strikesRow (x y : Nat) (bits : UInt8) : List (Nat × Nat) :=
  ((List.range spriteWidth).filter fun c => bits.toNat.testBit (spriteWidth - 1 - c)).map
    fun c => (x + c, y)

/-- The places that a sprite strikes, row by row and from the left to the right. -/
def strikes (x y : Nat) : List UInt8 → List (Nat × Nat)
  | [] => []
  | row :: rest => strikesRow x y row ++ strikes x (y + 1) rest

/-- Turn over one struck pixel; a lit one is a collision. -/
def strike (s : Display × Bool) (place : Nat × Nat) : Display × Bool :=
  let wasLit := s.1.get place.1 place.2
  (s.1.toggle place.1 place.2, s.2 || wasLit)

/-- Draw a sprite with its upper left corner at a place. Also whether it hit a lit pixel. -/
def draw (d : Display) (x y : Nat) (sprite : List UInt8) : Display × Bool :=
  (strikes x y sprite).foldl strike (d, false)

/-- A row of pixels from the left to the right. -/
def row (d : Display) (y : Nat) : List Bool := (List.range width).map fun x => d.get x y

/-- The rows from the top down. -/
def rows (d : Display) : List (List Bool) := (List.range height).map d.row

/-- How many pixels are lit. -/
def lit (d : Display) : Nat := d.cells.toList.count true

/-- A row as text: `#` where a pixel is lit, `.` where it is dark. -/
def rowText (d : Display) (y : Nat) : String :=
  String.ofList ((d.row y).map fun lit => if lit then '#' else '.')

/-- The display as text, each row closed by a line break. -/
def text (d : Display) : String :=
  String.join ((List.range height).map fun y => d.rowText y ++ "\n")

/-! ### What is seen after a change -/

@[ext] theorem ext {d e : Display} (h : ∀ x < width, ∀ y < height, d.get x y = e.get x y) :
    d = e := by
  obtain ⟨d⟩ := d
  obtain ⟨e⟩ := e
  refine congrArg Display.mk (Vector.ext fun i hi => ?_)
  have same := h (i % 64) (Nat.mod_lt _ (by decide)) (i / 64) (by unfold height; omega)
  have at_i : position (i % 64) (i / 64) = i := by unfold position height width; omega
  simpa [get, at_i] using same

@[simp] theorem get_dark (x y : Nat) : dark.get x y = false := by simp [dark, get]

theorem get_toggle (d : Display) (x y u v : Nat) :
    (d.toggle x y).get u v =
      if x % width = u % width ∧ y % height = v % height then !d.get u v else d.get u v := by
  unfold toggle
  by_cases h : position x y = position u v
  · simp [get, h, position_eq_iff.1 h]
  · simp [get, h, mt position_eq_iff.2 h]

end Display

end ChipEight
