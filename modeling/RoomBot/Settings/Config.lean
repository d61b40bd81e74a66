import RoomBot.Access
import RoomBot.Failure
import RoomBot.Settings.Environment
import RoomBot.Text.Quoted

/-!
# The configuration

What the bot is told about its job: the token it logs in with, the mark of its commands, where
to keep its files, whom to obey and where to log.  Only the token is required; a mark, if one is
given, must be a single character.
-/

namespace RoomBot

/-- The configuration of a bot. -/
structure Config where
  token : String
  /-- The character in front of a command. -/
  mark : Char
  /-- Whether to answer commands that do not exist. -/
  replyUnknown : Bool
  dataDir : String
  access : AccessPolicy
  logFile : Option String
  logVerbose : Bool
deriving DecidableEq, Repr

namespace Config

/-! ## Reading single variables -/

/-- The values that switch something on, blanks and the case of ASCII letters aside. -/
def isAffirmative (value : String) : Bool :=
  ["1", "true", "yes", "on"].contains
    (String.ofList ((Text.trim value.toList).map Char.toLower))

/-- The members of a list with commas between them. Blanks around a member do not count, and
neither do empty members. -/
def listed (value : String) : List String :=
  ((value.toList.splitOn ',').map Text.trim).filterMap fun member =>
    if member.isEmpty then none else some (String.ofList member)

/-- A value, unless it is blank. -/
def unlessBlank (value : String) : Option String :=
  if Text.isBlankText value.toList then none else some value

/-- The mark that a value stands for. -/
def markOf (value : String) : Except Failure Char :=
  match Text.trim value.toList with
  | [mark] => .ok mark
  | _ =>
    let shown := Text.quoted value
    .error (.config s!"COMMAND_PREFIX must be a single character, got {shown}")

/-! ## The whole configuration -/

/-- The configuration in some variables. A missing token is noticed before a bad mark. -/
def ofVariables (var : String → Option String) : Except Failure Config := do
  let token := (var "TELEGRAM_BOT_TOKEN").getD ""
  if Text.isBlankText token.toList then
    throw (.config "TELEGRAM_BOT_TOKEN environment variable is required")
  let mark ← ((var "COMMAND_PREFIX").map markOf).getD (.ok '!')
  return {
    token, mark
    replyUnknown := ((var "REPLY_UNKNOWN_COMMANDS").map isAffirmative).getD false
    dataDir := ((var "DATA_DIR").bind unlessBlank).getD "./data"
    access := ⟨listed ((var "ALLOWED_CHATS").getD ""), listed ((var "COMMAND_EDITORS").getD "")⟩
    logFile := (var "LOG_FILE").bind unlessBlank
    logVerbose := ((var "LOG_VERBOSE").map isAffirmative).getD false }

/-- The configuration in an environment. -/
def ofEnvironment (env : Environment) : Except Failure Config := ofVariables (env[·]?)

/-- The configuration of a program that starts in an environment, next to a settings file or to
none. There is no configuration if the program stops at a variable that cannot be set. Beside it
stands the environment by then. -/
def load (order : Environment.Order) (env : Environment) (file : Option ByteArray) :
    Option (Except Failure Config) × Environment :=
  let added := env.withFile order file
  (if added.stopped then none else some (ofEnvironment added.env), added.env)

/-- Where the custom commands are kept, inside the data directory. The store is given a directory
and not its path, so this is for whoever looks the directory up. -/
def commandsDir (config : Config) : String :=
  if config.dataDir.endsWith "/" then config.dataDir ++ "custom_commands"
  else config.dataDir ++ "/custom_commands"

end Config

end RoomBot
