import RoomBot.Failure
import RoomBot.Text.Blank

/-!
# The fates

What the magic eight ball has to say.  It speaks to questions only, and a question is anything
that ends in a question mark.
-/

namespace RoomBot

/-- The answers of the eight ball. -/
def fates : List String :=
  ["Resoundingly, yes.",
    "Chances are good.",
    "Signs point to yes.",
    "Wheel.",
    "It is worth the attempt.",
    "Uncertainty clouds my sight.",
    "Wheel and woe.",
    "Neither wheel nor woe.",
    "Concentrate, and ask again.",
    "I cannot say for sure.",
    "The fates do not know.",
    "Why are you asking me? I'm just a bot.",
    "Error: Fate API returned 404. Try again later.",
    "Woe.",
    "Chances are poor.",
    "Signs point to no.",
    "Very doubtful.",
    "Absolutely no."]

/-- The index of a fate. -/
abbrev Fate := Fin fates.length

/-- The question mark stands at the end, whatever blanks follow it. -/
def isQuestion (text : List Char) : Bool := (Text.trimEnd text).getLast? == some '?'

/-- Lets the eight ball answer with the fate that has come up. -/
def consult (fate : Fate) (question : String) : Except Failure String :=
  if isQuestion question.toList then .ok fates[fate]
  else .error (.invalidArgument "You must ask a question. Try again")

end RoomBot
