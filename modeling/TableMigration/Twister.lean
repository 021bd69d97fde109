/-
**A stream of 32-bit words.**

* A `Twister` is the generator MT19937: 624 words of state, from which 624 words of output are made
  before the state is stirred again (`Twister.stir`).
* `Twister.below` draws a number below a bound without a bias: a word is scaled to the bound, and is
  given up for the next one where the scaled word falls into the part that would be counted once too
  often.
-/

namespace TableMigration

/-- The state of the generator: the words, and how many of them were used since they were stirred
last. -/
structure Twister where
  words : Vector UInt32 624
  used : Nat

namespace Twister

/-- The words that follow from a word, each from the one before it and its own place. -/
def spread (place : Nat) (word : UInt32) : Nat → List UInt32
  | 0 => []
  | more + 1 =>
    let next := (1812433253 : UInt32) * (word ^^^ (word >>> 30)) + UInt32.ofNat place
    next :: spread (place + 1) next more

/-- The generator that a seed starts. -/
def seed (word : UInt32) : Twister :=
  let words := (word :: spread 1 word 623).toArray
  ⟨Vector.ofFn fun place => words.getD place 0, 624⟩

/-- The word at a place, counted around. -/
def wordAt (words : Vector UInt32 624) (place : Nat) : UInt32 :=
  words.get ⟨place % 624, Nat.mod_lt place (by decide)⟩

/-- Stir the word at a place. -/
def stirAt (words : Vector UInt32 624) (place : Fin 624) : Vector UInt32 624 :=
  let joined := (wordAt words place &&& 0x80000000) ||| (wordAt words (place + 1) &&& 0x7fffffff)
  let twist : UInt32 := if joined &&& 1 = 0 then 0 else 0x9908b0df
  words.set place (wordAt words (place + 397) ^^^ (joined >>> 1) ^^^ twist)

/-- Stir all words, one after the other. -/
def stir (words : Vector UInt32 624) : Vector UInt32 624 :=
  (List.finRange 624).foldl stirAt words

/-- The output that a word of the state gives. -/
def temper (word : UInt32) : UInt32 :=
  let word := word ^^^ (word >>> 11)
  let word := word ^^^ ((word <<< 7) &&& 0x9d2c5680)
  let word := word ^^^ ((word <<< 15) &&& 0xefc60000)
  word ^^^ (word >>> 18)

/-- The next word of the stream. -/
def next (twister : Twister) : UInt32 × Twister :=
  if twister.used < 624 then
    (temper (wordAt twister.words twister.used), { twister with used := twister.used + 1 })
  else
    let words := stir twister.words
    (temper (wordAt words 0), ⟨words, 1⟩)

/-- Draw a number below a bound. After `tries` words that were given up the next one is taken as it
is. -/
def below (bound : Nat) : (tries : Nat) → Twister → Nat × Twister
  | 0, twister =>
    let (word, twister) := twister.next
    (word.toNat * bound / 2 ^ 32, twister)
  | tries + 1, twister =>
    let (word, twister) := twister.next
    let scaled := word.toNat * bound
    if scaled % 2 ^ 32 < 2 ^ 32 % bound then below bound tries twister
    else (scaled / 2 ^ 32, twister)

end Twister

end TableMigration
