import RoomBot.Failure

/-!
# Command names

A room may give a command any name that is one word of ASCII letters, digits and underscores.
-/

namespace RoomBot.Command

/-- The characters a name may hold. -/
def isNameChar (c : Char) : Bool := c.isAlphanum || c == '_'

/-- A word that may name a command. -/
def isName (name : String) : Bool := !name.isEmpty && name.toList.all isNameChar

/-- Refuses a word that may not name a command, with the reason. -/
def checkName (name : String) : Except Failure Unit :=
  if name.isEmpty then .error (.invalidArgument "command name is empty")
  else if name.toList.all isNameChar then .ok ()
  else .error <| .invalidArgument
    s!"`{name}` is not a valid command name (use letters, digits and _)"

theorem checkName_eq_ok_iff {name : String} : checkName name = .ok () ↔ isName name = true := by
  simp only [checkName, isName]
  cases name.isEmpty <;> cases name.toList.all isNameChar <;> simp

end RoomBot.Command
