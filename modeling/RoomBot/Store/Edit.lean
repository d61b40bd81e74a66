import RoomBot.Command.Name
import RoomBot.Document.Record
import RoomBot.Text.Blank

/-!
# Edits

The three ways in which the commands of a room change.  An edit is judged twice: `Edit.check`
looks at the edit alone, before anything is read, and `Edit.apply` at the commands it meets.
Only a new command has its name checked, so that whatever has got into a document can be changed
and removed again.
-/

namespace RoomBot

/-- A change to the commands of a room. -/
inductive Edit
  | add (name response : String)
  | modify (name response : String)
  | remove (name : String)
deriving DecidableEq, Repr

namespace Edit

/-- Refuses a response in which there is nothing to see. -/
def checkResponse (response : String) : Except Failure Unit :=
  if Text.isBlankText response.toList then .error (.invalidArgument "command response is empty")
  else .ok ()

/-- Refuses an edit that no room can accept. -/
def check : Edit → Except Failure Unit
  | add name response => do
    Command.checkName name
    checkResponse response
  | modify _ response => checkResponse response
  | remove _ => .ok ()

/-- The commands of a room after an edit made at the time `now`. -/
def apply (room now : String) (commands : Commands) : Edit → Except Failure Commands
  | add name response =>
    match commands[name]? with
    | some _ => .error (.duplicateName s!"{name} in scope {room}")
    | none => .ok (commands.insert name ⟨response, now, now⟩)
  | modify name response =>
    match commands[name]? with
    | some command => .ok (commands.insert name { command with response, updated := now })
    | none => .error (.notFound s!"{name} in scope {room}")
  | remove name =>
    match commands[name]? with
    | some _ => .ok (commands.erase name)
    | none => .error (.notFound s!"{name} in scope {room}")

end Edit

end RoomBot
