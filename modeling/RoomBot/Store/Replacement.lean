import RoomBot.Directory
import RoomBot.Failure

/-!
# Replacing a file

A document is never written in place.  The new text goes to a temporary file beside it, which is
flushed to the disk and then takes the document's name in one step.  So whoever reads the
document sees the old text or the new one, wherever the replacement stops.

`Halt` names the places where it can stop, because the machine refuses the next step or because
the program dies there; the temporary file may then stay behind.
-/

namespace RoomBot

/-- A point at which replacing a file stops. -/
inductive Halt
  /-- Before the temporary file has been made. -/
  | creating
  /-- When so many bytes of the text have been written. -/
  | writing (count : Nat)
  /-- Before the text has been flushed to the disk. -/
  | flushing
  /-- Before the temporary file has been given its new name. -/
  | renaming
deriving DecidableEq, Repr

/-- The temporary file that stands in for a file. -/
def temporaryName (name : String) : String := name ++ ".tmp"

namespace Directory

/-- What has been written of a text by the time the replacement stops. -/
def written (halt : Option Halt) (content : ByteArray) : ByteArray :=
  match halt with
  | some (.writing count) => content.extract 0 count
  | _ => content

/-- Replaces a file, as far as `halt` lets it. -/
def replace (name : String) (content : ByteArray) (halt : Option Halt) (directory : Directory) :
    Except Failure Unit × Directory :=
  let temporary := temporaryName name
  let unwritten := Except.error (.persistence temporary "the file could not be written")
  let unnamed := Except.error (.persistence name "the file could not be replaced")
  match halt, directory.write? temporary (written halt content) with
  | some .creating, _ => (unwritten, directory)
  | _, none => (unwritten, directory)
  | some (.writing _), some directory => (unwritten, directory)
  | some .flushing, some directory => (unwritten, directory)
  | some .renaming, some directory => (unnamed, directory)
  | none, some directory =>
    match directory.rename? temporary name with
    | none => (unnamed, directory)
    | some directory => (.ok (), directory)

end Directory

end RoomBot
