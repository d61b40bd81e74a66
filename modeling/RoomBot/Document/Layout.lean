import RoomBot.Document.Record

/-!
# The layout of a document

Documents are written for people to read: one field to a line, two spaces further in than the
object around it, commands sorted by name.  An object without fields is a pair of braces on one
line, and the last line does not end.
-/

namespace RoomBot.Document

/-- The start of a line at some depth. -/
def newLine (depth : Nat) : List Char := '\n' :: List.replicate (2 * depth) ' '

/-- One field, on a line of its own. -/
def fieldLayout (depth : Nat) (field : String × List Char) : List Char :=
  newLine depth ++ Literal.quote field.1.toList ++ ':' :: ' ' :: field.2

/-- An object at some depth, from its fields with their values already laid out. -/
def objectLayout (depth : Nat) (fields : List (String × List Char)) : List Char :=
  if fields.isEmpty then ['\x7b', '\x7d']
  else
    '\x7b' :: [','].intercalate (fields.map (fieldLayout (depth + 1))) ++ newLine depth ++ ['\x7d']

/-- A command in its place in a document. -/
def commandLayout (command : StoredCommand) : List Char :=
  objectLayout 2 <| commandFields.zip <|
    [command.response, command.created, command.updated].map fun s => Literal.quote s.toList

/-- The text of a document. -/
def text (document : Document) : String :=
  let commands := document.commands.toList.map fun (name, command) => (name, commandLayout command)
  String.ofList <| objectLayout 0 <| documentFields.zip
    [Literal.quote document.room.toList, objectLayout 1 commands]

end RoomBot.Document
