/-!
# Noise from a seed

A seed determines a sequence of fractions between zero and one, each a multiple
of `2 ^ -52`.  The seed is stretched to the eight words of a key, and the
sequence is read off the ChaCha key stream of twelve rounds with this key, a
counter of 64 bits and a nonce of zero: two words make one draw.
-/

namespace RuleBacktest
namespace Noise

def rotateLeft (x : UInt32) (n : UInt32) : UInt32 :=
  (x <<< n) ||| (x >>> (32 - n))

def rotateRight (x : UInt32) (n : UInt32) : UInt32 :=
  if n = 0 then x else (x >>> n) ||| (x <<< (32 - n))

def advance (state : UInt64) : UInt64 :=
  state * 6364136223846793005 + 11634580027462260723

/-- One word of key from a state of the stretching generator. -/
def output (state : UInt64) : UInt32 :=
  rotateRight (((state >>> 18) ^^^ state) >>> 27).toUInt32
    (state >>> 59).toUInt32

def keyWords : Nat → UInt64 → List UInt32
  | 0, _ => []
  | n + 1, state =>
      let next := advance state
      output next :: keyWords n next

structure Lanes where
  a : UInt32
  b : UInt32
  c : UInt32
  d : UInt32

def quarterRound (x : Lanes) : Lanes :=
  let a := x.a + x.b
  let d := rotateLeft (x.d ^^^ a) 16
  let c := x.c + d
  let b := rotateLeft (x.b ^^^ c) 12
  let a := a + b
  let d := rotateLeft (d ^^^ a) 8
  let c := c + d
  let b := rotateLeft (b ^^^ c) 7
  ⟨a, b, c, d⟩

/-- Applies the quarter round to four words of the block. -/
def mixAt (block : Array UInt32) (i j k l : Nat) : Array UInt32 :=
  let x :=
    quarterRound
      ⟨block.getD i 0, block.getD j 0, block.getD k 0, block.getD l 0⟩
  (((block.setIfInBounds i x.a).setIfInBounds j x.b).setIfInBounds k
    x.c).setIfInBounds l x.d

/-- The columns and then the diagonals. -/
def doubleRound (block : Array UInt32) : Array UInt32 :=
  let block := mixAt block 0 4 8 12
  let block := mixAt block 1 5 9 13
  let block := mixAt block 2 6 10 14
  let block := mixAt block 3 7 11 15
  let block := mixAt block 0 5 10 15
  let block := mixAt block 1 6 11 12
  let block := mixAt block 2 7 8 13
  mixAt block 3 4 9 14

def iterate {β : Type} (f : β → β) : Nat → β → β
  | 0, x => x
  | n + 1, x => iterate f n (f x)

def constants : List UInt32 :=
  [0x61707865, 0x3320646e, 0x79622d32, 0x6b206574]

def startingBlock (key : List UInt32) (counter : UInt64) : Array UInt32 :=
  (constants ++ key ++
    [counter.toUInt32, (counter >>> 32).toUInt32, 0, 0]).toArray

def keyStream (key : List UInt32) (counter : UInt64) : Array UInt32 :=
  let block := startingBlock key counter
  (iterate doubleRound 6 block).zipWith (· + ·) block

/-- The numerator over `2 ^ 52` of a draw, counted from zero. -/
def fraction (seed : Nat) (draw : Nat) : Nat :=
  let key := keyWords 8 seed.toUInt64
  let words := keyStream key (draw / 8).toUInt64
  let low := words.getD (2 * (draw % 8)) 0
  let high := words.getD (2 * (draw % 8) + 1) 0
  (high.toNat * Nat.pow 2 32 + low.toNat) / Nat.pow 2 12

end Noise
end RuleBacktest
