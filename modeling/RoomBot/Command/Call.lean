import RoomBot.Text.Blank

/-!
# Calls

A text calls a command when its very first character is the mark.  The name is the rest of the
first word, which may be empty; the arguments are what follows the word, trimmed.
-/

namespace RoomBot.Command

/-- A command name with the arguments it was called with. -/
structure Call where
  name : String
  args : String
deriving DecidableEq, Repr

/-- The call in a text, if it is one. -/
def Call.ofText? (mark : Char) (text : String) : Option Call :=
  match text.toList with
  | [] => none
  | c :: rest =>
    if c = mark then
      some ⟨String.ofList (Text.firstWord rest),
        String.ofList (Text.trim (Text.afterFirstWord rest))⟩
    else none

/-- A word without the mark in front of it, if one is there. Names may be typed either way. -/
def dropMark (mark : Char) (word : List Char) : List Char :=
  match word with
  | [] => []
  | c :: rest => if c = mark then rest else c :: rest

end RoomBot.Command
