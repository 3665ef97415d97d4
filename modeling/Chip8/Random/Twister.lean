/-!
Random bytes from the Mersenne twister with 624 words of state.

A generator is seeded with the 32-bit words of a number. A byte is the top nine
bits of an output, drawn again as long as they exceed 255, which makes every byte
equally likely.
-/

namespace Chip8.Random

abbrev stateSize : Nat := 624

/-- A generator: its state, and how many words of it have been handed out. -/
structure Twister where
  words : Vector UInt32 stateSize
  used : Nat
deriving DecidableEq, Repr

namespace Twister

def wordAt (words : Vector UInt32 stateSize) (place : Nat) : UInt32 :=
  words.get ⟨place % stateSize, Nat.mod_lt _ (by decide)⟩

def setWord (words : Vector UInt32 stateSize) (place : Nat) (word : UInt32) :
    Vector UInt32 stateSize :=
  words.set (place % stateSize) word (Nat.mod_lt _ (by decide))

def fold (word : UInt32) : UInt32 :=
  word ^^^ (word >>> 30)

/-! ### Seeding -/

def fill (seed : UInt32) : Vector UInt32 stateSize :=
  (List.range' 1 (stateSize - 1)).foldl
    (fun words place =>
      setWord words place (1812433253 * fold (wordAt words (place - 1)) + place.toUInt32))
    (setWord (Vector.replicate stateSize 0) 0 seed)

/-- The place after `place`; behind the last one the state is closed to a ring. -/
def nextPlace (words : Vector UInt32 stateSize) (place : Nat) :
    Vector UInt32 stateSize × Nat :=
  if place + 1 < stateSize then (words, place + 1)
  else (setWord words 0 (wordAt words (stateSize - 1)), 1)

/-- Mix the words of a key into the state, beginning at the second place. -/
def absorb (key : Array UInt32) (words : Vector UInt32 stateSize) :
    Vector UInt32 stateSize × Nat :=
  (List.range (max stateSize key.size)).foldl
    (fun (words, place) round =>
      let part := round % key.size
      let mixed := (wordAt words place ^^^ (fold (wordAt words (place - 1)) * 1664525))
        + key.getD part 0 + part.toUInt32
      nextPlace (setWord words place mixed) place)
    (words, 1)

def spread (state : Vector UInt32 stateSize × Nat) : Vector UInt32 stateSize :=
  let (words, _) := (List.range (stateSize - 1)).foldl
    (fun (words, place) _ =>
      let mixed := (wordAt words place ^^^ (fold (wordAt words (place - 1)) * 1566083941))
        - place.toUInt32
      nextPlace (setWord words place mixed) place)
    state
  setWord words 0 0x80000000

/-- The generator that a key of words stands for; nothing has been drawn from it. -/
def ofKey (key : Array UInt32) : Twister :=
  ⟨spread (absorb key (fill 19650218)), stateSize⟩

/-- The 32-bit words of a number, the least significant first, and none for zero. -/
def seedWords (seed : Nat) : List UInt32 :=
  if seed = 0 then [] else seed.toUInt32 :: seedWords (seed / 0x100000000)
termination_by seed
decreasing_by omega

/-- The generator that a seed stands for. Zero is a key of one zero word, and a
negative seed stands for the same generator as its absolute value. -/
def ofSeed (seed : Int) : Twister :=
  let words := seedWords seed.natAbs
  ofKey (if words.isEmpty then #[0] else words.toArray)

/-! ### Drawing -/

def renew (words : Vector UInt32 stateSize) : Vector UInt32 stateSize :=
  (List.range stateSize).foldl
    (fun words place =>
      let joined := (wordAt words place &&& 0x80000000) ||| (wordAt words (place + 1) &&& 0x7FFFFFFF)
      let twist : UInt32 := if joined &&& 1 = 1 then 0x9908B0DF else 0
      setWord words place (wordAt words (place + 397) ^^^ (joined >>> 1) ^^^ twist))
    words

def temper (word : UInt32) : UInt32 :=
  let first := word ^^^ (word >>> 11)
  let second := first ^^^ ((first <<< 7) &&& 0x9D2C5680)
  let third := second ^^^ ((second <<< 15) &&& 0xEFC60000)
  third ^^^ (third >>> 18)

def next (generator : Twister) : UInt32 × Twister :=
  if generator.used < stateSize then
    (temper (wordAt generator.words generator.used),
      { generator with used := generator.used + 1 })
  else
    let words := renew generator.words
    (temper (wordAt words 0), ⟨words, 1⟩)

/-- Draw until the top nine bits are a byte, refusing at most `refusals` outputs. -/
def byteWithin : (refusals : Nat) → Twister → UInt8 × Twister
  | 0, generator => (0, generator)
  | refusals + 1, generator =>
      let (word, rest) := generator.next
      let top := (word >>> 23).toNat
      if top < 256 then (UInt8.ofNat top, rest) else byteWithin refusals rest

/-- Draw a byte. The top bits of the outputs obey a linear recurrence of order 19937
whose only constant solution is zero, so no more than 19937 refusals follow one
another. -/
def nextByte (generator : Twister) : UInt8 × Twister :=
  byteWithin 19938 generator

end Twister

end Chip8.Random
