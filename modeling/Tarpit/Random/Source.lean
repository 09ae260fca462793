/-!
# Sources of random words

Words of 64 bits, or halves of them, one after the other, from a state.
-/

namespace Tarpit.Random

/-- A source of words of 64 bits. -/
class Source (S : Type) where
  /-- The next word. -/
  word : S → UInt64 × S
  /-- The next half of a word: the low one of the next word, if the source has no other way to it. -/
  half : S → UInt32 × S := fun s => ((word s).1.toUInt32, (word s).2)
  /-- How many words a draw may refuse before it takes one as it is. -/
  tries : S → Nat

/-- The state of SplitMix64. -/
structure SplitMix where
  state : UInt64
  deriving DecidableEq, Repr

def SplitMix.next (s : SplitMix) : UInt64 × SplitMix :=
  let state := s.state + 0x9E3779B97F4A7C15
  let z := (state ^^^ (state >>> 30)) * 0xBF58476D1CE4E5B9
  let z := (z ^^^ (z >>> 27)) * 0x94D049BB133111EB
  (z ^^^ (z >>> 31), ⟨state⟩)

/-- The refusals after which SplitMix64 would be no source of random numbers any more. -/
def SplitMix.tries : Nat := 256

instance : Source SplitMix where
  word := SplitMix.next
  tries _ := SplitMix.tries

/-- Some given words, and SplitMix64 when they are used up. -/
structure Script where
  words : List UInt64
  rest : SplitMix
  deriving DecidableEq, Repr

instance : Source Script where
  word s :=
    match s.words with
    | v :: words => (v, { s with words })
    | [] =>
        let (v, rest) := s.rest.next
        (v, { s with rest })
  tries s := s.words.length + SplitMix.tries

/-- The bytes of a word, the lowest first. -/
def wordBytes (v : UInt64) : List UInt8 :=
  (List.range 8).map fun i => (v >>> (8 * i).toUInt64).toUInt8

end Tarpit.Random
