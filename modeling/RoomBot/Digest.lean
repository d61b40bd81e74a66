import RoomBot.Text.Hexadecimal

/-!
# Digests of texts

`digest` is the SHA-256 of a text in lower-case hexadecimal: sixty-four digits that stand for the
text where the text itself could not be used, such as the name of a file.

The message is padded to whole blocks of sixteen words (`padded`, `blocks`).  Each block is
stretched to sixty-four words by a window that slides over them (`schedule`), and each of these
words takes part in one round on a state of eight words (`State.round`).  After the last block
the state is the digest.
-/

namespace RoomBot

namespace Digest

/-! ## Words and bytes -/

/-- A word with its bits turned `n` places to the right. -/
def turn (n w : UInt32) : UInt32 := (w >>> n) ||| (w <<< (32 - n))

/-- The number that bytes stand for, the most significant byte first. -/
def ofBytes (bytes : List UInt8) : UInt32 :=
  bytes.foldl (fun word byte => (word <<< 8) ||| byte.toUInt32) 0

/-- A number as eight bytes, the most significant byte first. -/
def lengthBytes (n : Nat) : List UInt8 :=
  (List.range 8).map fun i => (n >>> (8 * (7 - i))).toUInt8

/-- The first `n` words of a run of bytes. -/
def words : (n : Nat) → List UInt8 → List UInt32
  | 0, _ => []
  | n + 1, bytes => ofBytes (bytes.take 4) :: words n (bytes.drop 4)

/-! ## Padding -/

/-- The number of zero bytes between the end mark and the length, which makes the blocks come out
whole. -/
def zeroCount (length : Nat) : Nat := (119 - length % 64) % 64

/-- A message followed by an end mark, zeros and its length in bits. -/
def padded (message : List UInt8) : List UInt8 :=
  message ++ 0x80 :: List.replicate (zeroCount message.length) 0 ++
    lengthBytes (8 * message.length)

/-- The first `n` blocks of a run of bytes, sixteen words each. -/
def blocks : (n : Nat) → List UInt8 → List (List UInt32)
  | 0, _ => []
  | n + 1, bytes => words 16 bytes :: blocks n (bytes.drop 64)

/-! ## The schedule of a block -/

/-- The word that follows a window of sixteen. -/
def nextWord (window : List UInt32) : UInt32 :=
  let w0 := window.getD 0 0
  let w1 := window.getD 1 0
  let w9 := window.getD 9 0
  let w14 := window.getD 14 0
  w0 + (turn 7 w1 ^^^ turn 18 w1 ^^^ (w1 >>> 3)) + w9 +
    (turn 17 w14 ^^^ turn 19 w14 ^^^ (w14 >>> 10))

/-- The first `n` words of a schedule, from a window of sixteen on. -/
def schedule : (n : Nat) → (window : List UInt32) → List UInt32
  | 0, _ => []
  | n + 1, window => window.headD 0 :: schedule n (window.tail ++ [nextWord window])

/-! ## Rounds -/

/-- The eight words that are worked on. -/
structure State where
  a : UInt32
  b : UInt32
  c : UInt32
  d : UInt32
  e : UInt32
  f : UInt32
  g : UInt32
  h : UInt32
deriving DecidableEq, Repr

/-- The constants of the sixty-four rounds: the first bits after the point of the cube roots of
the first primes. -/
def roundConstants : List UInt32 :=
  [0x428a2f98, 0x71374491, 0xb5c0fbcf, 0xe9b5dba5, 0x3956c25b, 0x59f111f1, 0x923f82a4, 0xab1c5ed5,
   0xd807aa98, 0x12835b01, 0x243185be, 0x550c7dc3, 0x72be5d74, 0x80deb1fe, 0x9bdc06a7, 0xc19bf174,
   0xe49b69c1, 0xefbe4786, 0x0fc19dc6, 0x240ca1cc, 0x2de92c6f, 0x4a7484aa, 0x5cb0a9dc, 0x76f988da,
   0x983e5152, 0xa831c66d, 0xb00327c8, 0xbf597fc7, 0xc6e00bf3, 0xd5a79147, 0x06ca6351, 0x14292967,
   0x27b70a85, 0x2e1b2138, 0x4d2c6dfc, 0x53380d13, 0x650a7354, 0x766a0abb, 0x81c2c92e, 0x92722c85,
   0xa2bfe8a1, 0xa81a664b, 0xc24b8b70, 0xc76c51a3, 0xd192e819, 0xd6990624, 0xf40e3585, 0x106aa070,
   0x19a4c116, 0x1e376c08, 0x2748774c, 0x34b0bcb5, 0x391c0cb3, 0x4ed8aa4a, 0x5b9cca4f, 0x682e6ff3,
   0x748f82ee, 0x78a5636f, 0x84c87814, 0x8cc70208, 0x90befffa, 0xa4506ceb, 0xbef9a3f7, 0xc67178f2]

namespace State

/-- The state before the first block: the first bits after the point of the square roots of the
first eight primes. -/
def initial : State :=
  ⟨0x6a09e667, 0xbb67ae85, 0x3c6ef372, 0xa54ff53a, 0x510e527f, 0x9b05688c, 0x1f83d9ab, 0x5be0cd19⟩

/-- One round, with a word of the schedule and the constant of the round. -/
def round (s : State) (word constant : UInt32) : State :=
  let choice := (s.e &&& s.f) ^^^ (~~~s.e &&& s.g)
  let majority := (s.a &&& s.b) ^^^ (s.a &&& s.c) ^^^ (s.b &&& s.c)
  let t := s.h + (turn 6 s.e ^^^ turn 11 s.e ^^^ turn 25 s.e) + choice + constant + word
  let u := (turn 2 s.a ^^^ turn 13 s.a ^^^ turn 22 s.a) + majority
  ⟨t + u, s.a, s.b, s.c, s.d + t, s.e, s.f, s.g⟩

/-- Two states added word by word. -/
def add (s t : State) : State :=
  ⟨s.a + t.a, s.b + t.b, s.c + t.c, s.d + t.d, s.e + t.e, s.f + t.f, s.g + t.g, s.h + t.h⟩

/-- The state after a block. -/
def absorb (s : State) (block : List UInt32) : State :=
  s.add <| ((schedule 64 block).zip roundConstants).foldl
    (fun s (word, constant) => s.round word constant) s

/-- The words of a state in order. -/
def toList (s : State) : List UInt32 := [s.a, s.b, s.c, s.d, s.e, s.f, s.g, s.h]

end State

/-- The state after a whole message. -/
def ofMessage (message : List UInt8) : State :=
  let bytes := padded message
  (blocks (bytes.length / 64) bytes).foldl State.absorb State.initial

/-! ## Hexadecimal -/

/-- A word as eight hexadecimal digits. -/
def hexWord (w : UInt32) : List Char :=
  (List.range 8).map fun i => Text.hexDigit ((w.toNat >>> (4 * (7 - i))) % 16)

@[simp] theorem length_hexWord (w : UInt32) : (hexWord w).length = 8 := by simp [hexWord]

end Digest

/-- The digest of a text. -/
def digest (text : String) : String :=
  String.ofList ((Digest.ofMessage text.toUTF8.toList).toList.flatMap Digest.hexWord)

/-- A digest has sixty-four digits, however long the text. -/
@[simp] theorem length_digest (text : String) : (digest text).length = 64 := by
  simp [digest, Digest.State.toList]

end RoomBot
