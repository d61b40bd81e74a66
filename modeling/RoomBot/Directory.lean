import Std.Data.ExtTreeMap

/-!
# A directory on disk

The documents of the bot live in one directory.  This module says what the directory can look
like at any moment, and what the elementary operations do to it: an operation either works, and
gives the directory afterwards, or is refused.

The directory may be missing, and a file may stand in its place.  What a sub-folder holds never
matters.  A name stands for a file that can be read or for a folder: there are no links, and nobody
takes the right to read a file away.  What is proved about the store is proved for such directories.

Others have a hand in the directory too.  Whoever prepares it, or changes it between two runs of the
bot, makes folders, deletes things and puts a file in its place (`makeFolder?`, `delete?`, `drop?`,
`block?`).  The bot itself does none of this.
-/

namespace RoomBot

/-- Contents are compared byte by byte. -/
instance instDecidableEqContent : DecidableEq ByteArray := fun _ _ =>
  decidable_of_decidable_of_iff ⟨ByteArray.ext, congrArg ByteArray.data⟩

/-- What a name in a directory stands for. -/
inductive Entry
  | file (content : ByteArray)
  | folder
deriving DecidableEq

/-- The state of a directory. -/
inductive Directory
  | missing
  /-- There is a file where the directory should be. -/
  | blocked
  | present (entries : Std.ExtTreeMap String Entry)

namespace Directory

/-! ## Looking -/

/-- What comes of reading a file. -/
inductive Finding
  | absent
  | unreadable
  | content (bytes : ByteArray)
deriving DecidableEq

/-- Reads a file. -/
def read (name : String) : Directory → Finding
  | missing => .absent
  | blocked => .unreadable
  | present entries =>
    match entries[name]? with
    | none => .absent
    | some .folder => .unreadable
    | some (.file content) => .content content

/-- The names of all files and folders, sorted, if the directory can be listed. -/
def names? : Directory → Option (List String)
  | present entries => some entries.keys
  | _ => none

/-! ## Changing -/

/-- Makes sure that the directory exists. -/
def create? : Directory → Option Directory
  | missing => some (present ∅)
  | blocked => none
  | present entries => some (present entries)

/-- Writes a file, over the old one if there is one. -/
def write? (name : String) (content : ByteArray) : Directory → Option Directory
  | present entries =>
    if entries[name]? = some .folder then none
    else some (present (entries.insert name (.file content)))
  | _ => none

/-- Moves a file to another name, over the file that may stand there. -/
def rename? (source target : String) : Directory → Option Directory
  | present entries =>
    match entries[source]?, entries[target]? with
    | some (.file _), some .folder => none
    | some (.file content), _ =>
      some (present ((entries.erase source).insert target (.file content)))
    | _, _ => none
  | _ => none

/-- Makes a folder under a name that is free. -/
def makeFolder? (name : String) : Directory → Option Directory
  | present entries =>
    if entries.contains name then none else some (present (entries.insert name .folder))
  | _ => none

/-- Deletes a file, or a folder with all that is in it. -/
def delete? (name : String) : Directory → Option Directory
  | present entries => if entries.contains name then some (present (entries.erase name)) else none
  | _ => none

/-- Deletes the directory itself. -/
def drop? : Directory → Option Directory
  | present _ => some missing
  | _ => none

/-- Puts a file in the place of the directory. -/
def block? (directory : Directory) : Option Directory := directory.drop?.map fun _ => blocked

/-! ## What changes do to files -/

/-- A file that was written has its new content, and every other file the old one. -/
theorem read_write? {name : String} {content : ByteArray} {before after : Directory}
    (h : before.write? name content = some after) (other : String) :
    after.read other = if other = name then .content content else before.read other := by
  match before with
  | missing => simp [write?] at h
  | blocked => simp [write?] at h
  | present entries =>
    simp only [write?] at h
    split at h
    · simp at h
    · obtain rfl := Option.some.inj h
      by_cases ho : name = other
      · simp [read, ho]
      · simp [read, Std.ExtTreeMap.getElem?_insert, ho, Ne.symm ho]

/-- A file that was moved is found under its new name only, and every other file is as it was. -/
theorem read_rename? {source target : String} {before after : Directory}
    (h : before.rename? source target = some after) (other : String) :
    after.read other =
      if other = target then before.read source
      else if other = source then .absent
      else before.read other := by
  match before with
  | missing => simp [rename?] at h
  | blocked => simp [rename?] at h
  | present entries =>
    simp only [rename?] at h
    split at h
    · simp at h
    · rename_i hs _
      obtain rfl := Option.some.inj h
      by_cases ht : target = other
      · simp [read, ht, hs]
      · by_cases ho : source = other
        · simp [read, ht, Ne.symm ht, ho]
        · simp [read, Std.ExtTreeMap.getElem?_insert, Std.ExtTreeMap.getElem?_erase, ht,
            Ne.symm ht, ho, Ne.symm ho]
    · simp at h

end Directory

end RoomBot
