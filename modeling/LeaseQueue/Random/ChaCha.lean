/-! The ChaCha stream cipher with eight rounds as a source of draws. A generator is a key and a
position, so the draw at a position depends on nothing but the seed and that position. -/
namespace LeaseQueue

/-- A number of the interval from zero up to but excluding one: `numerator / 2 ^ 53`. -/
structure Draw where
  numerator : Nat
  lt_one : numerator < Nat.pow 2 53

namespace ChaCha

def rotateLeft (x n : UInt32) : UInt32 := (x <<< n) ||| (x >>> (32 - n))

/-- Mixes the words at four places of the state. -/
def quarterRound (s : Array UInt32) (i j k l : Nat) : Array UInt32 :=
  let a := s.getD i 0 + s.getD j 0
  let d := rotateLeft (s.getD l 0 ^^^ a) 16
  let c := s.getD k 0 + d
  let b := rotateLeft (s.getD j 0 ^^^ c) 12
  let a := a + b
  let d := rotateLeft (d ^^^ a) 8
  let c := c + d
  let b := rotateLeft (b ^^^ c) 7
  (((s.setIfInBounds i a).setIfInBounds j b).setIfInBounds k c).setIfInBounds l d

/-- One round over the columns of the state and one over its diagonals. -/
def doubleRound (s : Array UInt32) : Array UInt32 :=
  let s := quarterRound s 0 4 8 12
  let s := quarterRound s 1 5 9 13
  let s := quarterRound s 2 6 10 14
  let s := quarterRound s 3 7 11 15
  let s := quarterRound s 0 5 10 15
  let s := quarterRound s 1 6 11 12
  let s := quarterRound s 2 7 8 13
  quarterRound s 3 4 9 14

/-- Constants, key, block counter with its low word first, and a zero stream number. -/
def initial (key : Array UInt32) (counter : Nat) : Array UInt32 :=
  #[0x61707865, 0x3320646e, 0x79622d32, 0x6b206574] ++ key ++
    #[UInt32.ofNat counter, UInt32.ofNat (counter / Nat.pow 2 32), 0, 0]

/-- The sixteen words of a block after four double rounds. -/
def block (key : Array UInt32) (counter : Nat) : Array UInt32 :=
  let start := initial key counter
  let mixed := doubleRound (doubleRound (doubleRound (doubleRound start)))
  Array.zipWith (· + ·) mixed start

end ChaCha

/-- A seeded source of draws. -/
structure Generator where
  key : Array UInt32
  /-- Draws taken so far. -/
  position : Nat

namespace Generator

/-- The words that a seed expands to: each step advances a 64-bit state and emits a rotated mix
of its halves. -/
def expandSeed : Nat → UInt64 → List UInt32
  | 0, _ => []
  | count + 1, state =>
    let next := state * 0x5851F42D4C957F2D + 0xA17654E46FBE17F3
    let mixed := (((next >>> 18) ^^^ next) >>> 27).toUInt32
    let turn := (next >>> 59).toUInt32
    let word := if turn = 0 then mixed else (mixed >>> turn) ||| (mixed <<< (32 - turn))
    word :: expandSeed count next

def ofSeed (seed : UInt64) : Generator := { key := (expandSeed 8 seed).toArray, position := 0 }

/-- The draw at a position: 53 bits of two successive words, of which the second is the high one. -/
def drawAt (key : Array UInt32) (position : Nat) : Draw :=
  let words := ChaCha.block key (position / 8)
  let low := (words.getD (2 * position % 16) 0).toNat
  let high := (words.getD (2 * position % 16 + 1) 0).toNat
  { numerator := (high * Nat.pow 2 32 + low) % Nat.pow 2 64 / Nat.pow 2 11
    lt_one := by
      have bound : (high * Nat.pow 2 32 + low) % Nat.pow 2 64 < Nat.pow 2 11 * Nat.pow 2 53 :=
        Nat.mod_lt _ (by decide)
      exact Nat.div_lt_of_lt_mul bound }

def next (g : Generator) : Draw × Generator :=
  (drawAt g.key g.position, { g with position := g.position + 1 })

end Generator

end LeaseQueue
