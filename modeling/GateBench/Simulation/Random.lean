/-!
Seeded random draws.  The key is expanded from a seed by a permuted congruential generator; the
words come from the ChaCha block function with twelve rounds, a block counter from zero and a zero
nonce.
-/

namespace GateBench.Simulation

/-- A word rotated to the left. -/
def rotateLeft (word : UInt32) (amount : UInt32) : UInt32 :=
  (word <<< amount) ||| (word >>> (32 - amount))

/-- One word of the key, and the state that the next one is drawn from.  The state advances before
it is used. -/
def seedWord (state : UInt64) : UInt32 × UInt64 :=
  let state := state * 6364136223846793005 + 11634580027462260723
  let shifted := (((state >>> 18) ^^^ state) >>> 27).toUInt32
  let amount := (state >>> 59).toUInt32
  let rotated := (shifted >>> amount) ||| (shifted <<< ((32 - amount) % 32))
  (rotated, state)

/-- Words of a key from a seed. -/
def seedWords : Nat → UInt64 → List UInt32
  | 0, _ => []
  | count + 1, state =>
    let (word, state) := seedWord state
    word :: seedWords count state

/-- Mix the words at four places of a block. -/
def quarterRound (block : Vector UInt32 16) (a b c d : Fin 16) : Vector UInt32 16 :=
  let x := block[a] + block[b]
  let w := rotateLeft (block[d] ^^^ x) 16
  let z := block[c] + w
  let y := rotateLeft (block[b] ^^^ z) 12
  let x := x + y
  let w := rotateLeft (w ^^^ x) 8
  let z := z + w
  let y := rotateLeft (y ^^^ z) 7
  (((block.set a x).set b y).set c z).set d w

/-- Two rounds: the columns of a block, then its diagonals. -/
def doubleRound (block : Vector UInt32 16) : Vector UInt32 16 :=
  let block := quarterRound block 0 4 8 12
  let block := quarterRound block 1 5 9 13
  let block := quarterRound block 2 6 10 14
  let block := quarterRound block 3 7 11 15
  let block := quarterRound block 0 5 10 15
  let block := quarterRound block 1 6 11 12
  let block := quarterRound block 2 7 8 13
  quarterRound block 3 4 9 14

/-- The four words that every block starts with. -/
def blockConstants : List UInt32 :=
  [0x61707865, 0x3320646e, 0x79622d32, 0x6b206574]

/-- The sixteen words of the block of a number. -/
def chachaBlock (key : List UInt32) (number : UInt64) : Vector UInt32 16 :=
  let words := blockConstants ++ key ++ [number.toUInt32, (number >>> 32).toUInt32, 0, 0]
  let start : Vector UInt32 16 := Vector.ofFn fun place => words[place.val]?.getD 0
  let mixed := Nat.repeat doubleRound 6 start
  Vector.ofFn fun place => start[place] + mixed[place]

/-- A source of draws: its key, the number of the next block, and the words left of the last one. -/
structure Generator where
  key : List UInt32
  nextBlock : UInt64
  words : List UInt32
deriving DecidableEq, Repr

/-- The generator of a seed. -/
def Generator.ofSeed (seed : UInt64) : Generator :=
  ⟨seedWords 8 seed, 0, []⟩

/-- Draw a number from zero up to one, one excluded: two words make a number of sixty-four bits, the
lower word first, and its upper fifty-three bits are the fraction. -/
def Generator.draw (generator : Generator) : Float × Generator :=
  let ofWords (low high : UInt32) : Float :=
    let bits := low.toUInt64 ||| (high.toUInt64 <<< 32)
    (bits >>> 11).toFloat * Float.ofBits 0x3CA0000000000000
  match generator.words with
  | low :: high :: words => (ofWords low high, { generator with words })
  | _ =>
    let block := (chachaBlock generator.key generator.nextBlock).toList
    let value := match block with
      | low :: high :: _ => ofWords low high
      | _ => 0.0
    (value, ⟨generator.key, generator.nextBlock + 1, block.drop 2⟩)

end GateBench.Simulation
