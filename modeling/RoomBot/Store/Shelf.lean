import RoomBot.Digest
import RoomBot.Directory
import RoomBot.Document.Record
import RoomBot.Failure
import RoomBot.Text.Blank

/-!
# Documents in the directory

Where the document of a room is, and what there is to read.  The file is named by the digest of
the room, so that no room can choose a path; a document tells its room, so that one under the
wrong name is noticed.

A document that is not there is a room without commands.  A file without text is no document: the
bot never writes one, so something must have gone wrong with it.
-/

namespace RoomBot

/-- How the name of a document ends. -/
def documentEnding : List Char := ".json".toList

/-- The file that holds the commands of a room. -/
def documentName (room : String) : String := digest room ++ String.ofList documentEnding

/-- A name that a document could have: the ending with something in front of it. -/
def isDocumentName (name : String) : Bool :=
  documentEnding.isSuffixOf name.toList && documentEnding.length < name.toList.length

namespace Directory

/-- The document in a file, or `none` if there is no such file. -/
def document? (directory : Directory) (name : String) : Except Failure (Option Document) :=
  match directory.read name with
  | .absent => .ok none
  | .unreadable => .error (.persistence name "the file could not be read")
  | .content bytes =>
    match String.fromUTF8? bytes with
    | none => .error (.persistence name "the file is not UTF-8")
    | some text =>
      if Text.isBlankText text.toList then .error (.persistence name "empty command document")
      else
        match Document.ofText? text with
        | none => .error (.persistence name "the file is not a command document")
        | some document => .ok (some document)

/-- The commands that are stored for a room. -/
def commands (directory : Directory) (room : String) : Except Failure Commands :=
  match directory.document? (documentName room) with
  | .error failure => .error failure
  | .ok none => .ok ∅
  | .ok (some document) =>
    if document.room = room then .ok document.commands
    else
      let found := document.room
      .error <| .persistence (documentName room)
        s!"file belongs to scope {found}, expected {room}"

/-- The room whose document is in a file. A document that has the name of another room's is
passed over. -/
def roomOf? (directory : Directory) (name : String) : Except Failure (Option String) :=
  (directory.document? name).map fun document =>
    (document.filter fun document => documentName document.room = name).map (·.room)

/-- The rooms that have a document, sorted. One file that has the name of a document and is none
spoils the whole list. -/
def rooms (directory : Directory) : Except Failure (List String) :=
  match directory.names? with
  | none => .error (.persistence "" "the directory could not be read")
  | some names => do
    let found ← (names.filter isDocumentName).mapM directory.roomOf?
    return (found.filterMap id).mergeSort

end Directory

end RoomBot
