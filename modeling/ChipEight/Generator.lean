/-!
# Random words

A generator reads an endless sequence of 32-bit words that its key determines. The
sequence is the key stream of the ChaCha cipher with twelve rounds; `word key j` is its
word number `j`. The key is spread out from a seed, or left to chance. A generator is the
key together with the number of words already taken, so that taking one moves it on by
one and does nothing else.
-/

namespace ChipEight

/-- A key of the stream. -/
abbrev StreamKey := Vector UInt32 8

/-- The key of zeros. -/
instance (priority := high) : OfNat StreamKey 0 := ⟨Vector.replicate 8 0⟩

/-- Where in which stream the next word is. -/
structure Generator where
  /-- The key of the stream. -/
  key : StreamKey
  /-- How many words were taken. -/
  taken : Nat
  deriving DecidableEq

namespace Generator

/-! ### The key of a seed -/

/-- A step of the linear sequence from which the key is made. -/
def advance (s : UInt64) : UInt64 := s * 6364136223846793005 + 11634580027462260723

/-- Turn a word right by a number of bits below 32. -/
def rotateRight (v amount : UInt32) : UInt32 := (v >>> amount) ||| (v <<< ((32 - amount) % 32))

/-- Turn a word left by a number of bits below 32. -/
def rotateLeft (v amount : UInt32) : UInt32 := (v <<< amount) ||| (v >>> ((32 - amount) % 32))

/-- The key word that an element of the linear sequence gives: its high bits, folded
together and turned by its highest ones. -/
def keyWord (s : UInt64) : UInt32 :=
  rotateRight (((s >>> 18) ^^^ s) >>> 27).toUInt32 (s >>> 59).toUInt32

/-- The first `n` key words of the linear sequence after an element. -/
def keyWords : Nat → UInt64 → List UInt32
  | 0, _ => []
  | n + 1, s => keyWord (advance s) :: keyWords n (advance s)

@[simp] theorem length_keyWords (n : Nat) (s : UInt64) : (keyWords n s).length = n := by
  induction n generalizing s with
  | zero => rfl
  | succ n ih => simp [keyWords, ih]

/-- The key that a seed is spread out to. -/
def keyOfSeed (seed : UInt64) : StreamKey := ⟨(keyWords 8 seed).toArray, by simp⟩

/-! ### The key stream -/

/-- The sixteen words that the cipher works on. -/
abbrev Block := Vector UInt32 16

/-- Four words, each mixed with the one before. -/
def quarterRound (b : Block) (i j k l : Fin 16) : Block :=
  let b := b.set i (b[i] + b[j])
  let b := b.set l (rotateLeft (b[l] ^^^ b[i]) 16)
  let b := b.set k (b[k] + b[l])
  let b := b.set j (rotateLeft (b[j] ^^^ b[k]) 12)
  let b := b.set i (b[i] + b[j])
  let b := b.set l (rotateLeft (b[l] ^^^ b[i]) 8)
  let b := b.set k (b[k] + b[l])
  b.set j (rotateLeft (b[j] ^^^ b[k]) 7)

/-- A round on the columns of the block and a round on its diagonals. -/
def doubleRound (b : Block) : Block :=
  let b := quarterRound b 0 4 8 12
  let b := quarterRound b 1 5 9 13
  let b := quarterRound b 2 6 10 14
  let b := quarterRound b 3 7 11 15
  let b := quarterRound b 0 5 10 15
  let b := quarterRound b 1 6 11 12
  let b := quarterRound b 2 7 8 13
  quarterRound b 3 4 9 14

/-- Apply double rounds one after the other. -/
def rounds : Nat → Block → Block
  | 0, b => b
  | n + 1, b => rounds n (doubleRound b)

/-- The block before mixing: four constants, the key, and the number of the block. -/
def start (key : StreamKey) (number : Nat) : Block :=
  #v[0x61707865, 0x3320646e, 0x79622d32, 0x6b206574,
     key[0], key[1], key[2], key[3], key[4], key[5], key[6], key[7],
     UInt32.ofNat number, UInt32.ofNat (number / UInt32.size), 0, 0]

/-- The sixteen words of the stream that the block with a number holds. -/
def block (key : StreamKey) (number : Nat) : Block :=
  let b := start key number
  (rounds 6 b).zipWith (· + ·) b

/-- Word number `j` of the stream of a key. -/
def word (key : StreamKey) (j : Nat) : UInt32 :=
  (block key (j / 16))[Fin.ofNat 16 j]

/-! ### Taking words -/

/-- The generator of a key, with nothing taken. -/
def ofKey (key : StreamKey) : Generator := ⟨key, 0⟩

/-- The low byte of the next word. -/
def peek (g : Generator) : UInt8 := (word g.key g.taken).toUInt8

/-- The generator after the next word. -/
def advanced (g : Generator) : Generator := { g with taken := g.taken + 1 }

end Generator

end ChipEight
