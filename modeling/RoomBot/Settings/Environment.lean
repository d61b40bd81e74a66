import RoomBot.Text.Blank
import Std.Data.ExtTreeMap

/-!
# Environment variables and the settings file

The bot is set up through environment variables.  A file of assignments, one `NAME=VALUE` per
line, may add variables that the environment does not have; it never overrides one that it has.
Within the file the last assignment to a name counts.

Blank lines, lines whose first character is `#`, lines without `=` and lines without a name are
skipped.  Blanks around name and value are dropped, and so is one pair of equal quotes around
the value; nothing else in a value is special.  A file that is not UTF-8 counts as empty.

The variables are set one after another, in an order that nobody can rely on.  Not every name and
value can be set: the program stops at the first that cannot, with the variables set before it.
-/

namespace RoomBot

/-- Environment variables with their values. -/
abbrev Environment := Std.ExtTreeMap String String

namespace Environment

/-! ## Lines of the file -/

/-- The characters that may enclose a value. -/
def isQuote (c : Char) : Bool := c == '"' || c == '\x27'

/-- A value without the quotes around it. Both quotes must be there and be the same. -/
def unquote (value : List Char) : List Char :=
  match value with
  | [] => []
  | q :: rest => if isQuote q && rest.getLast? == some q then rest.dropLast else value

/-- The assignment on a line, if it holds one. The name ends at the first `=`. -/
def assignment? (line : List Char) : Option (String × String) :=
  let line := Text.trim line
  let name := Text.trim (line.takeWhile (· != '='))
  match line.dropWhile (· != '=') with
  | [] => none
  | _ :: value =>
    if name.isEmpty || line.head? == some '#' then none
    else some (String.ofList name, String.ofList (unquote (Text.trim value)))

/-- The assignments in a file, in order. -/
def assignments (text : String) : List (String × String) :=
  (text.toList.splitOn '\n').filterMap assignment?

/-- The assignments that count: the last one to each name. -/
def lasting (assignments : List (String × String)) : Environment :=
  assignments.foldl (fun kept (name, value) => kept.insert name value) ∅

/-! ## Adding them to the environment -/

/-- A variable that an environment can hold. -/
def isSettable (name value : String) : Bool :=
  !name.isEmpty && name.toList.all (fun c => c != '=' && c != '\x00') &&
    value.toList.all (· != '\x00')

/-- What has become of an environment to which variables were added. The program stops at the first
one that cannot be set. -/
structure Added where
  env : Environment
  stopped : Bool

/-- Sets variables, one after another. A variable that is set already keeps its value. -/
def add (env : Environment) : List (String × String) → Added
  | [] => ⟨env, false⟩
  | (name, value) :: rest =>
    if env.contains name then add env rest
    else if isSettable name value then add (env.insert name value) rest
    else ⟨env, true⟩

/-- An order in which the entries of a table come out of it. -/
structure Order where
  arrange : Environment → List (String × String)
  perm : ∀ table, (arrange table).Perm table.toList

/-- By name. -/
def Order.byName : Order := ⟨(·.toList), fun _ => .refl _⟩

/-- Adds the variables in a file, where `none` stands for no file. -/
def withFile (order : Order) (env : Environment) (file : Option ByteArray) : Added :=
  env.add (order.arrange (lasting (((file.bind String.fromUTF8?).map assignments).getD [])))

end Environment

end RoomBot
