import RoomBot.Document.Json
import Std.Data.ExtTreeMap

/-!
# Documents

The commands that a room has defined make up one document.  It names the room too, so that a
document which has got into the wrong place can be told.

A document is a record of the fields `scope` and `commands`, of which the second may be left out;
each command is a record of `response`, `created_at` and `updated_at`.  Where a command is
written down twice the later one counts.
-/

namespace RoomBot

/-- A command that a room has defined, with the times at which it was made and last changed. -/
structure StoredCommand where
  response : String
  created : String
  updated : String
deriving DecidableEq, Repr

/-- The commands of one room by their names. -/
abbrev Commands := Std.ExtTreeMap String StoredCommand

/-- What is stored for one room. -/
structure Document where
  room : String
  commands : Commands

namespace Document

/-- The names of the fields of a command, in order. -/
def commandFields : List String := ["response", "created_at", "updated_at"]

/-- The names of the fields of a document, in order. -/
def documentFields : List String := ["scope", "commands"]

/-- The text in a field of a record. -/
def textField? (fields : List (String × Json)) (name : String) : Option String :=
  (fields.lookup name).bind Json.text?

/-- The command that a value describes. -/
def command? (value : Json) : Option StoredCommand := do
  let fields ← value.record? commandFields
  return ⟨← textField? fields "response", ← textField? fields "created_at",
    ← textField? fields "updated_at"⟩

/-- The commands that an object describes, one in each field. -/
def commands? (value : Json) : Option Commands := do
  let commands ← (← value.fields?).mapM fun (name, value) => (command? value).map (name, ·)
  return .ofList commands

/-- The document that a value describes. -/
def ofJson? (value : Json) : Option Document := do
  let fields ← value.record? documentFields
  let room ← textField? fields "scope"
  match fields.lookup "commands" with
  | none => return ⟨room, ∅⟩
  | some value => return ⟨room, ← commands? value⟩

/-- The document that a text is. -/
def ofText? (text : String) : Option Document := (Json.ofText? text).bind ofJson?

end Document

end RoomBot
