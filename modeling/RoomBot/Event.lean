/-!
# Events

What a chat network delivers to the bot: something was posted in a room, by a sender who may not
be known.  Only plain text can be a command; everything else is `other`.
-/

namespace RoomBot

/-- What was posted. -/
inductive EventKind
  | text
  | other
deriving DecidableEq, Repr

/-- Something that was posted in a room. -/
structure Event where
  room : String
  sender : Option String
  kind : EventKind
  body : String
deriving DecidableEq, Repr

end RoomBot
