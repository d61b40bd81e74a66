/-!
# Cutting texts to size

Two ways to make a text fit.  A line for the log is cut after a number of characters and marked
with dots (`shorten`).  A reply that is too long for one message is laid out in several
(`pieces`): lines are packed greedily, each piece taking as many whole lines as fit, and only a
line that is longer than a whole piece is cut inside.

Line breaks at which a piece ends are not sent; everything else is.
-/

namespace RoomBot.Text

/-! ## Shortening -/

/-- At most `limit` characters of a text, followed by three dots if any were left out. Only the log
is cut in this way, and no reply. -/
def shorten (s : String) (limit : Nat) : String :=
  if s.length ≤ limit then s else String.ofList (s.toList.take limit ++ ['.', '.', '.'])

/-! ## Packing lines into pieces -/

/-- Cuts slices of `room + 1` characters off a line while more than that is left. The second
component is the last slice, which is the whole line when it fits. -/
def cutLine (room : Nat) (line : List Char) : List (List Char) × List Char :=
  if room + 1 < line.length then
    let (slices, last) := cutLine room (line.drop (room + 1))
    (line.take (room + 1) :: slices, last)
  else ([], line)
termination_by line.length
decreasing_by simp only [List.length_drop]; omega

/-- The pieces of the remaining lines, where `piece` is still open. An empty open piece is no
piece yet: it takes the next line without a line break, and is dropped at the end. -/
def packLines (room : Nat) (piece : List Char) : List (List Char) → List (List Char)
  | [] => if piece.isEmpty then [] else [piece]
  | line :: rest =>
    let joined := if piece.isEmpty then line else piece ++ '\n' :: line
    if joined.length ≤ room + 1 then packLines room joined rest
    else
      let (slices, last) := cutLine room line
      (if piece.isEmpty then [] else [piece]) ++ slices ++ packLines room last rest

/-- The pieces in which a text of any length is sent, none longer than `limit` characters. A
limit of zero counts as one. A text that fits is one piece as it stands, even when empty. -/
def pieces (s : String) (limit : Nat) : List String :=
  let limit := max limit 1
  if s.length ≤ limit then [s]
  else (packLines (limit - 1) [] (s.toList.splitOn '\n')).map String.ofList

example : pieces "Roll: 1\nRoll: 2\nRoll: 3" 16 = ["Roll: 1\nRoll: 2", "Roll: 3"] := by
  decide +kernel

end RoomBot.Text
