import RoomBot.Command.Call
import RoomBot.Command.Owner
import RoomBot.Failure
import Std.Data.ExtTreeMap

/-!
# The registry of command names

The registry says who owns which name.  A name has one owner at most, and whoever claims it
first keeps it: claiming a name that another owner holds is reported and changes nothing, and
releasing a name that another owner holds is a silent no-op.  The built-ins hold their names for
good.

Calls are resolved against the registry: a text runs a command exactly when it is a call whose
name is registered.  Names are told apart to the letter.
-/

namespace RoomBot

/-- Command names with their owners. -/
structure Registry where
  owners : Std.ExtTreeMap String Owner

namespace Registry

/-- The names of the built-ins, and no others. -/
def initial : Registry :=
  ⟨.ofList [("listcommands", Owner.listCommands), ("help", Owner.help)]⟩

/-- The owner of a name, if it is registered. -/
def owner? (r : Registry) (name : String) : Option Owner := r.owners[name]?

/-- Every registered name with its owner, sorted by name. -/
def entries (r : Registry) : List (String × Owner) := r.owners.toList

/-! ## Claiming and releasing names -/

/-- Registers a name that is free. A name that is taken stays as it is. -/
def claim (owner : Owner) (r : Registry) (name : String) : Registry :=
  ⟨r.owners.insertIfNew name owner⟩

/-- The complaint about a name that another owner holds. -/
def conflict? (r : Registry) (owner : Owner) (name : String) : Option String :=
  match r.owner? name with
  | some holder => if holder = owner then none else some s!"{name} (owned by {holder.label})"
  | none => none

/-- Claims names for an owner. Those that others hold are reported together; all that are free
are registered all the same. -/
def register (r : Registry) (owner : Owner) (names : List String) :
    Except Failure Unit × Registry :=
  let conflicts := names.filterMap (r.conflict? owner)
  (if conflicts.isEmpty then .ok () else .error (.duplicateName (", ".intercalate conflicts)),
    names.foldl (claim owner) r)

/-- Releases a name if the owner holds it. The number counts the names released so far. -/
def release (owner : Owner) (acc : Nat × Registry) (name : String) : Nat × Registry :=
  if acc.2.owner? name = some owner then (acc.1 + 1, ⟨acc.2.owners.erase name⟩) else acc

/-- Releases those of the names that the owner holds, unless it is a built-in. The number says
how many were released; a name that is listed twice is released once. -/
def unregister (r : Registry) (owner : Owner) (names : List String) : Nat × Registry :=
  if owner.isBuiltin then (0, r) else names.foldl (release owner) (0, r)

/-! ## Resolving calls -/

/-- A call together with the owner of the name. -/
structure Invocation where
  call : Command.Call
  owner : Owner
deriving DecidableEq, Repr

/-- The command that a text runs, if any. -/
def dispatch (r : Registry) (mark : Char) (text : String) : Option Invocation := do
  let call ← Command.Call.ofText? mark text
  let owner ← r.owner? call.name
  return ⟨call, owner⟩

end Registry

end RoomBot
