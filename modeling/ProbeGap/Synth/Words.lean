import ProbeGap.Numeric.Count
import ProbeGap.Numeric.Scalar

/-!
# Random words and numbers

Synthetic measurements are drawn from a source of 64-bit words. Nothing is assumed of a
source but that each state gives a word and a next state. Two sources are offered:

  * `CyclicWords`, which returns given words in turn, over and over;
  * `ChaCha`, the stream of the block cipher with twelve rounds, under a key that is
    spread from a 64-bit seed. Two consecutive 32-bit words of the stream form one word,
    the low half first.

Numbers of a range and yes-no decisions are drawn from the words. A range must not be
empty, and its ends and its width must be finite. The top bits of a word give a number of
the unit interval, which is stretched over the range. Rounding may bring it up to the
excluded end; then the word is rejected and the next one is taken, however often. A source
that gives nothing but rejected words gives no number (`drawBelow`).
-/

namespace ProbeGap

/-- States from which random words are taken. -/
class WordSource (σ : Type) where
  /-- The next word and the state after it. -/
  next : σ → UInt64 × σ

/-! ## §1. Given words -/

/-- Words that are returned in turn. -/
structure CyclicWords where
  words : Array UInt64
  position : Nat := 0

instance : WordSource CyclicWords where
  next s := (s.words.getD (s.position % s.words.size) 0, { s with position := s.position + 1 })

/-! ## §2. Cipher blocks -/

/-- The sixteen words on which the cipher works. -/
abbrev CipherBlock := Vector UInt32 16

/-- Turn a word to the left. -/
def rotateLeft (x : UInt32) (n : UInt32) : UInt32 :=
  (x <<< n) ||| (x >>> (32 - n))

/-- The mixing step on four of the words. -/
def quarterRound (v : CipherBlock) (a b c d : Fin 16) : CipherBlock :=
  let v := v.set a (v[a] + v[b])
  let v := v.set d (rotateLeft (v[d] ^^^ v[a]) 16)
  let v := v.set c (v[c] + v[d])
  let v := v.set b (rotateLeft (v[b] ^^^ v[c]) 12)
  let v := v.set a (v[a] + v[b])
  let v := v.set d (rotateLeft (v[d] ^^^ v[a]) 8)
  let v := v.set c (v[c] + v[d])
  v.set b (rotateLeft (v[b] ^^^ v[c]) 7)

/-- Two rounds: the four columns of the block, then its four diagonals. -/
def doubleRound (v : CipherBlock) : CipherBlock :=
  let v := quarterRound v 0 4 8 12
  let v := quarterRound v 1 5 9 13
  let v := quarterRound v 2 6 10 14
  let v := quarterRound v 3 7 11 15
  let v := quarterRound v 0 5 10 15
  let v := quarterRound v 1 6 11 12
  let v := quarterRound v 2 7 8 13
  quarterRound v 3 4 9 14

/-- Twelve rounds, and the sum with the block they started from. -/
def scramble (v : CipherBlock) : CipherBlock :=
  let mixed := (List.range 6).foldl (fun v _ => doubleRound v) v
  mixed.zipWith (· + ·) v

/-- The block under a key of eight words at a 64-bit counter: four constants, the key,
the counter with its low half first, and two zeros. -/
def startBlock (key : Vector UInt32 8) (counter : UInt64) : CipherBlock :=
  #v[0x61707865, 0x3320646e, 0x79622d32, 0x6b206574,
    key[0], key[1], key[2], key[3], key[4], key[5], key[6], key[7],
    counter.toUInt32, (counter >>> 32).toUInt32, 0, 0]

/-! ## §3. The cipher as a source -/

/-- The stream of the cipher under a key. -/
structure ChaCha where
  key : Vector UInt32 8
  /-- The number of the next block. -/
  counter : UInt64 := 0
  /-- What is left of the present block. -/
  left : List UInt32 := []

/-- Two words of the stream as one. -/
def joinHalves (low high : UInt32) : UInt64 :=
  low.toUInt64 ||| (high.toUInt64 <<< 32)

instance : WordSource ChaCha where
  next s :=
    match s.left with
    | low :: high :: left => (joinHalves low high, { s with left := left })
    | _ =>
      let block := scramble (startBlock s.key s.counter)
      (joinHalves block[0] block[1],
        { s with counter := s.counter + 1, left := block.toList.drop 2 })

/-- One step of the sequence that spreads a seed: the next state. -/
def spreadState (s : UInt64) : UInt64 :=
  s * 6364136223846793005 + 11634580027462260723

/-- The word that a state of that sequence gives. -/
def spreadWord (s : UInt64) : UInt32 :=
  let x := (((s >>> 18) ^^^ s) >>> 27).toUInt32
  let turn := (s >>> 59).toUInt32
  (x >>> turn) ||| (x <<< ((32 - turn) % 32))

/-- The first `n` words that a seed is spread to. -/
def spreadSeed : (n : Nat) → UInt64 → List UInt32
  | 0, _ => []
  | n + 1, s => spreadWord (spreadState s) :: spreadSeed n (spreadState s)

/-- The stream of a seed. -/
def ChaCha.ofSeed (seed : UInt64) : ChaCha where
  key := Vector.ofFn fun i => (spreadSeed 8 seed).getD i 0

/-! ## §4. Numbers and decisions -/

section drawing

variable {σ : Type} [WordSource σ]

/-- A number from zero, inclusive, to one, exclusive, with the top bits of a word. -/
def unitOfWord (w : UInt64) : Float :=
  Float.ofBits ((w >>> 12) ||| 0x3FF0000000000000) - 1

/-- The number that a word gives when it is stretched over a range. -/
def stretchWord (low high : Float) (w : UInt64) : Float :=
  unitOfWord w * (high - low) + low

/-- Stretch the next word over a range. -/
def stretchNext (low high : Float) (g : σ) : Float × σ :=
  let (w, g) := WordSource.next g
  (stretchWord low high w, g)

/-- Take words until one gives a number below the end of the range. -/
def redraw (low high : Float) (g : σ) : Option (Float × σ) :=
  let drawn := stretchNext low high g
  let again := redraw (g := drawn.2)
  if drawn.1 < high then some drawn else again low high
partial_fixpoint

/-- The number that the first word below the end of the range gives, if there ever is one. -/
def drawBelow (low high : Float) (g : σ) : Option (Float × σ) :=
  -- Nearly always the next word will do, and then there is nothing to search for.
  let drawn := stretchNext low high g
  if drawn.1 < high then some drawn else redraw low high drawn.2

/-- Whether numbers can be drawn from a range. -/
def isRange (low high : Float) : Bool :=
  decide (low < high) && low.isFinite && high.isFinite && (high - low).isFinite

/-- Decide with a probability between zero and one. Certainty takes no word. -/
def drawBool (p : Float) (g : σ) : Bool × σ :=
  if p == 1 then (true, g)
  else
    let (w, g) := WordSource.next g
    (decide (w.toNat < floorCount (p * Float.ofNat countLimit)), g)

end drawing

end ProbeGap
