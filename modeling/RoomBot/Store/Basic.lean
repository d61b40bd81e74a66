import RoomBot.Document.Layout
import RoomBot.Store.Edit
import RoomBot.Store.Replacement
import RoomBot.Store.Shelf

/-!
# The store of custom commands

The store keeps the commands of every room in the directory and remembers those of the rooms it
has met.  What it remembers counts; a room is read from the directory once, when it is first
asked about, and a room that could not be read is tried again next time.

An edit reaches the memory last of all, after the directory has accepted it.  So an edit that
fails at whatever point changes neither the memory nor any document.
-/

namespace RoomBot

/-- The custom commands of all rooms. -/
structure Store where
  directory : Directory
  /-- The commands of the rooms that have been read. -/
  cache : Std.ExtTreeMap String Commands

/-- One command of one room. -/
structure Definition where
  room : String
  name : String
  response : String
deriving DecidableEq, Repr

namespace Store

/-- A store that remembers nothing yet, in a directory that is created if need be. -/
def ofDirectory (directory : Directory) : Except Failure Store :=
  match directory.create? with
  | some directory => .ok ⟨directory, ∅⟩
  | none => .error (.persistence "" "the directory could not be created")

/-- The commands of a room, which are remembered from then on. -/
def load (room : String) (store : Store) : Except Failure Commands × Store :=
  match store.cache[room]? with
  | some commands => (.ok commands, store)
  | none =>
    match store.directory.commands room with
    | .error failure => (.error failure, store)
    | .ok commands => (.ok commands, { store with cache := store.cache.insert room commands })

/-! ## Edits -/

/-- Writes the commands of a room to the directory, as far as `halt` lets it, and then remembers
them. -/
def save (room : String) (commands : Commands) (halt : Option Halt) (store : Store) :
    Except Failure Unit × Store :=
  let content := (Document.text ⟨room, commands⟩).toUTF8
  match store.directory.replace (documentName room) content halt with
  | (.error failure, directory) => (.error failure, { store with directory })
  | (.ok (), directory) => (.ok (), ⟨directory, store.cache.insert room commands⟩)

/-- Edits the commands of a room at the time `now`. -/
def edit (room now : String) (edit : Edit) (halt : Option Halt) (store : Store) :
    Except Failure Unit × Store :=
  match edit.check with
  | .error failure => (.error failure, store)
  | .ok () =>
    match store.load room with
    | (.error failure, store) => (.error failure, store)
    | (.ok commands, store) =>
      match edit.apply room now commands with
      | .error failure => (.error failure, store)
      | .ok commands => store.save room commands halt

/-! ## Questions -/

/-- The response of a command, if the room has defined it. -/
def lookup (room name : String) (store : Store) : Except Failure (Option String) × Store :=
  let (commands, store) := store.load room
  (commands.map fun commands => commands[name]?.map (·.response), store)

/-- The names that a room has defined, sorted. -/
def list (room : String) (store : Store) : Except Failure (List String) × Store :=
  let (commands, store) := store.load room
  (commands.map fun commands => commands.keys, store)

/-- The commands of a room as definitions. -/
def definitions (room : String) (commands : Commands) : List Definition :=
  commands.toList.map fun (name, command) => ⟨room, name, command.response⟩

/-- The definitions of some rooms, one room after another. -/
def collect : List String → Store → Except Failure (List Definition) × Store
  | [], store => (.ok [], store)
  | room :: rooms, store =>
    match store.load room with
    | (.error failure, store) => (.error failure, store)
    | (.ok commands, store) =>
      let (result, store) := collect rooms store
      (result.map (definitions room commands ++ ·), store)

/-- Every definition of every room that has a document, sorted by room and name. -/
def all (store : Store) : Except Failure (List Definition) × Store :=
  match store.directory.rooms with
  | .error failure => (.error failure, store)
  | .ok rooms => store.collect rooms

end Store

end RoomBot
