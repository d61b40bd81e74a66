import RoomBot.Command.Name
import RoomBot.Command.Registry
import RoomBot.Store.Vault
import Std.Data.ExtTreeSet

/-!
# The book of commands

The book brings together the three places where a custom command leaves a trace: the store holds
its response, for one room; the registry says that its name is taken, for all rooms; and a count
says how many rooms define the name, so that it is released with the last of them.

Adding a command claims its name first and releases it again if the store refuses; removing one
asks the store first.  `claim` and `release` are the only steps that touch names and counts.
-/

namespace RoomBot

/-- The commands a bot knows. -/
structure Book where
  registry : Registry
  /-- For each name the number of rooms that define it. Names that no room defines have none. -/
  counts : Std.ExtTreeMap String Nat
  vault : Vault

namespace Book

/-! ## Names and counts -/

/-- Takes a name for custom commands and counts one more room, unless another owner has the
name. -/
def claim? (name : String) (book : Book) : Option Book :=
  match book.registry.register .customCommands [name] with
  | (.ok (), registry) =>
    let count := (book.counts[name]?).getD 0
    some { book with registry, counts := book.counts.insert name (count + 1) }
  | (.error _, _) => none

/-- Undoes one claim. The last one gives the name back. -/
def release (name : String) (book : Book) : Book :=
  match book.counts[name]? with
  | none => book
  | some count =>
    if count ≤ 1 then
      { book with
        registry := (book.registry.unregister .customCommands [name]).2
        counts := book.counts.erase name }
    else { book with counts := book.counts.insert name (count - 1) }

/-- Counts a definition that is already stored. Where its name has another owner the definition
stays hidden and is not counted. -/
def adopt (book : Book) (definition : Definition) : Book :=
  (book.claim? definition.name).getD book

/-- Takes the management names and adopts everything that is stored. -/
def load (book : Book) : Except Failure Unit × Book :=
  match book.registry.register .customCommands managementNames with
  | (.error failure, registry) => (.error failure, { book with registry })
  | (.ok (), registry) =>
    match book.vault.call Store.all with
    | (.error failure, vault) => (.error failure, { book with registry, vault })
    | (.ok definitions, vault) => (.ok (), definitions.foldl adopt { book with registry, vault })

/-- Calls the store. -/
def call {α : Type} (ask : Store → Except Failure α × Store) (book : Book) :
    Except Failure α × Book :=
  let (answer, vault) := book.vault.call ask
  (answer, { book with vault })

/-! ## What people type -/

/-- Splits the text behind `addcommand` or `modcommand` into a name and a response, neither of
them empty. The name may be typed with the mark. -/
def definition? (mark : Char) (args : String) : Option (String × String) :=
  let args := Text.trim args.toList
  let name := Command.dropMark mark (Text.firstWord args)
  let response := Text.trim (Text.afterFirstWord args)
  if name.isEmpty || response.isEmpty then none
  else some (String.ofList name, String.ofList response)

/-- The name in the text behind `remcommand`, if there is one. -/
def removedName? (mark : Char) (args : String) : Option String :=
  let name := Command.dropMark mark (Text.trim args.toList)
  if name.isEmpty then none else some (String.ofList name)

/-! ## Refusals -/

/-- The name belongs to the bot. -/
def taken (name : String) : Failure :=
  .duplicateName s!"`{name}` is already provided by the bot and cannot be redefined."

/-- The room has not defined the command. -/
def undefined (mark : Char) (name : String) : Failure :=
  .notFound s!"This command does not exist. You can add it by typing `{mark}addcommand {name}`"

/-- The room has defined the command before. -/
def defined (mark : Char) (name : String) : Failure :=
  .duplicateName
    s!"This command already exists. You can modify it by typing `{mark}modcommand {name}`"

/-- There is nothing that could be removed. -/
def nothingToRemove : Failure :=
  .notFound "This command does not exist. Nothing to remove."

/-! ## Managing and running custom commands -/

/-- Adds a command to a room. -/
def add (mark : Char) (now room args : String) (book : Book) : Except Failure String × Book :=
  match definition? mark args with
  | none => (.error (.invalidArgument s!"Usage: {mark}addcommand NAME RESPONSE"), book)
  | some (name, response) =>
    match Command.checkName name with
    | .error failure => (.error failure, book)
    | .ok () =>
      match if managementNames.contains name then none else book.claim? name with
      | none => (.error (taken name), book)
      | some book =>
        match book.call (Store.edit room now (.add name response) none) with
        | (.ok (), book) => (.ok s!"New command saved: {mark}{name}", book)
        | (.error (.duplicateName _), book) => (.error (defined mark name), book.release name)
        | (.error failure, book) => (.error failure, book.release name)

/-- Gives a command of a room another response. -/
def modify (mark : Char) (now room args : String) (book : Book) : Except Failure String × Book :=
  match definition? mark args with
  | none => (.error (.invalidArgument s!"Usage: {mark}modcommand NAME RESPONSE"), book)
  | some (name, response) =>
    match book.call (Store.edit room now (.modify name response) none) with
    | (.ok (), book) => (.ok s!"{mark}{name} modified.", book)
    | (.error (.notFound _), book) => (.error (undefined mark name), book)
    | (.error failure, book) => (.error failure, book)

/-- Removes a command from a room. -/
def remove (mark : Char) (now room args : String) (book : Book) : Except Failure String × Book :=
  match removedName? mark args with
  | none => (.error (.invalidArgument s!"Usage: {mark}remcommand NAME"), book)
  | some name =>
    match book.call (Store.edit room now (.remove name) none) with
    | (.ok (), book) => (.ok s!"{mark}{name} removed.", book.release name)
    | (.error (.notFound _), book) => (.error nothingToRemove, book)
    | (.error failure, book) => (.error failure, book)

/-- Says what a command of a room says. -/
def run (mark : Char) (room name : String) (book : Book) : Except Failure String × Book :=
  match book.call (Store.lookup room name) with
  | (.ok (some response), book) => (.ok response, book)
  | (.ok none, book) => (.error (undefined mark name), book)
  | (.error failure, book) => (.error failure, book)

/-! ## Telling what there is -/

/-- The names that mean something in a room, sorted, given those that the room has defined. Names
that other rooms have defined are left out. -/
def namesBeside (roomNames : List String) (book : Book) : List String :=
  let shared := book.registry.entries.filter fun (name, owner) =>
    owner != .customCommands || managementNames.contains name
  (Std.ExtTreeSet.ofList (shared.map (·.1) ++ roomNames)).toList

/-- Lists the commands of a room. -/
def listing (mark : Char) (room : String) (book : Book) : Except Failure String × Book :=
  match book.call (Store.list room) with
  | (.error failure, book) => (.error failure, book)
  | (.ok roomNames, book) =>
    let listed := ", ".intercalate ((book.namesBeside roomNames).map fun name => s!"{mark}{name}")
    (.ok s!"Available commands: {listed}", book)

/-- Explains a command, or the bot as a whole when none is named. -/
def explain (mark : Char) (args : String) (book : Book) : String :=
  let target := Command.dropMark mark (Text.firstWord (Text.trimStart args.toList))
  let name := String.ofList target
  if target.isEmpty then
    s!"Usage: {mark}COMMAND [ARGUMENTS]. Type {mark}listcommands to see what is available, " ++
      s!"or {mark}help COMMAND for details on one command."
  else
    match book.registry.owner? name with
    | none => s!"Unknown command: {mark}{name}. Type {mark}listcommands to see what is available."
    | some owner => owner.usage mark name

end Book

end RoomBot
