/-!
# Where dice get their faces

A roll asks a `Source` for one face after another; what the source keeps from one draw to the
next is its own affair.  Whatever is proved about rolls is proved for every source.

A roll that is carried out needs a source in particular.  For this there is `Words.source`, and
for nothing else: it takes faces from a stream of 32-bit words in the way a library for random
numbers does, so that a roll can be repeated from the words alone.  A list of words comes first,
then a linear congruential generator.  A word picks a face by multiplication and is thrown away
where it would favour some faces, so that every face stands for the same number of words.
-/

namespace RoomBot.Dice

/-- Something that can be asked for a face of a die with a given number of sides, where `σ` is
what it keeps between two draws. -/
structure Source (σ : Type) where
  draw : (sides : Nat) → σ → Nat × σ

/-- The faces of `n` dice with the same number of sides, drawn one after another. -/
def Source.faces {σ : Type} (source : Source σ) (sides : Nat) : (n : Nat) → σ → List Nat × σ
  | 0, state => ([], state)
  | n + 1, state =>
    let (face, state) := source.draw sides state
    let (faces, state) := source.faces sides n state
    (face :: faces, state)

/-! ## A stream of words -/

/-- A stream of 32-bit words: those of a list, then those of a linear congruential generator. -/
structure Words where
  pending : List UInt32
  seed : UInt32
deriving DecidableEq, Repr

namespace Words

/-- The next word and the stream after it. -/
def next (stream : Words) : UInt32 × Words :=
  match stream.pending with
  | word :: rest => (word, { stream with pending := rest })
  | [] =>
    let word := stream.seed * 1664525 + 1013904223
    (word, { stream with seed := word })

/-- The greatest low half of a product that is still fair for a die with so many sides: the
number of sides shifted left until it fills a word, less one. -/
def zone (sides : Nat) : Nat := (sides <<< (31 - sides.log2)) - 1

/-- A face of a die. The high half of the product of word and sides is the face, unless the low
half lies outside the zone, which rejects the word. -/
def face (sides : Nat) : (tries : Nat) → Words → Nat × Words
  | 0, stream => (1, stream)
  | tries + 1, stream =>
    let (word, stream) := stream.next
    let product := word.toNat * sides
    if product % 2 ^ 32 ≤ zone sides then (1 + product / 2 ^ 32, stream)
    else face sides tries stream

/-- The stream as a source. One period of the generator holds every word there is, so a face
turns up before that many words have been rejected. -/
def source : Source Words where
  draw sides stream := face sides (stream.pending.length + UInt32.size) stream

end Words

end RoomBot.Dice
