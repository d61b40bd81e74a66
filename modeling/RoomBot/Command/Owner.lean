/-!
# Who answers a command

Every command name the bot answers belongs to one owner.  The set of owners is closed.  Two of
them, the built-ins, are part of the dispatcher and never give up a name; the other four claim
their names when the bot starts, and `customCommands` goes on to claim the names that rooms
define and to release them again.

Commands are typed behind a single character, the *mark*.
-/

namespace RoomBot

/-- The owner of a command name. -/
inductive Owner
  | listCommands
  | help
  | ping
  | eightBall
  | roller
  | customCommands
deriving DecidableEq, Repr

/-- The names with which custom commands are managed. -/
def managementNames : List String := ["addcommand", "modcommand", "remcommand"]

namespace Owner

/-- What an owner is called in messages. -/
def label : Owner → String
  | listCommands => "listcommands"
  | help => "help"
  | ping => "ping"
  | eightBall => "8ball"
  | roller => "roller"
  | customCommands => "custom commands"

/-- The owners that are part of the dispatcher. They never release a name. -/
def isBuiltin : Owner → Bool
  | listCommands | help => true
  | _ => false

/-- The names an owner has from the start. -/
def names : Owner → List String
  | listCommands => ["listcommands"]
  | help => ["help"]
  | ping => ["ping"]
  | eightBall => ["8ball"]
  | roller => ["roll"]
  | customCommands => managementNames

/-- How to use one of an owner's names, typed behind `mark`. -/
def usage (owner : Owner) (mark : Char) (name : String) : String :=
  match owner with
  | listCommands => s!"Usage: {mark}listcommands - list the commands available in this room."
  | help => s!"Usage: {mark}help [COMMAND] - show general usage, or usage for COMMAND."
  | ping => s!"Usage: {mark}ping - check that the bot is listening."
  | eightBall =>
    s!"Usage: {mark}8ball QUESTION? - consult the fates. End your question with `?`."
  | roller =>
    s!"Usage: {mark}roll DICE[, DICE...] - roll dice, e.g. {mark}roll 2d6+3, 1d20. " ++
      "NdS rolls N dice with S sides; + - * / and parentheses are allowed."
  | customCommands =>
    match name with
    | "addcommand" =>
      s!"Usage: {mark}addcommand NAME RESPONSE - create {mark}NAME, " ++
        "which replies with RESPONSE in this room."
    | "modcommand" =>
      s!"Usage: {mark}modcommand NAME RESPONSE - change what {mark}NAME replies in this room."
    | "remcommand" => s!"Usage: {mark}remcommand NAME - delete {mark}NAME from this room."
    | other => s!"{mark}{other} is a custom command. It takes no arguments."

end Owner

end RoomBot
