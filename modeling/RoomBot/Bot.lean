import RoomBot.Access
import RoomBot.Book
import RoomBot.Dice.Roll
import RoomBot.Event
import RoomBot.Fate
import RoomBot.Settings.Config

/-!
# The bot

The bot meets one event at a time and answers it with a reply or with silence.  Only texts from
rooms it serves are looked at; a text that calls a registered command is handed to the owner of
the name, and what the owner cannot do comes back as a reply too.

Clock and chance are not the bot's: each event brings a `Moment`, which tells the time, the fate
that comes up and the faces of the dice.
-/

namespace RoomBot

/-! ## What an answer depends on -/

/-- What the owner of a bot decides about it. -/
structure Settings where
  /-- The character in front of a command. -/
  mark : Char
  /-- Whether to answer commands that do not exist. -/
  replyUnknown : Bool
  access : AccessPolicy
deriving DecidableEq, Repr

/-- The settings of a bot that nobody has set up. -/
def Settings.usual : Settings := ⟨'!', false, .unrestricted⟩

/-- The part of a configuration that the bot itself heeds. -/
def Config.settings (config : Config) : Settings :=
  ⟨config.mark, config.replyUnknown, config.access⟩

/-- Time and chance as an event meets them. -/
structure Moment where
  now : String
  fate : Fate
  /-- The face of a die, by the number of dice before it and the number of its sides. -/
  face : (before sides : Nat) → Nat

/-- The dice of a moment, as a source that counts them. -/
def Moment.dice (moment : Moment) : Dice.Source Nat :=
  ⟨fun sides before => (moment.face before sides, before + 1)⟩

/-- A call of a command by somebody somewhere. -/
structure Request where
  room : String
  sender : Option String
  call : Command.Call
deriving DecidableEq, Repr

namespace Book

/-! ## The owners at work -/

/-- Rolls dice. -/
def rollDice (mark : Char) (moment : Moment) (spec : String) : Except Failure String :=
  match (Dice.roll moment.dice spec 0).1 with
  | .ok outcomes => .ok (Dice.report outcomes)
  | .error fault =>
    let reason := fault.message
    .error (.invalidArgument s!"Cannot roll that: {reason}. Try {mark}roll 2d6+3")

/-- Manages custom commands, which not everybody may, or runs one, which everybody may. -/
def customCommand (settings : Settings) (moment : Moment) (request : Request) (book : Book) :
    Except Failure String × Book :=
  let name := request.call.name
  let args := request.call.args
  if managementNames.contains name && !settings.access.canEdit request.sender then
    (.error (.unauthorized "You are not allowed to edit commands here."), book)
  else
    match name with
    | "addcommand" => book.add settings.mark moment.now request.room args
    | "modcommand" => book.modify settings.mark moment.now request.room args
    | "remcommand" => book.remove settings.mark moment.now request.room args
    | _ => book.run settings.mark request.room name

/-- Lets the owner of a name answer a request. -/
def serve (settings : Settings) (moment : Moment) (owner : Owner) (request : Request)
    (book : Book) : Except Failure String × Book :=
  match owner with
  | .listCommands => book.listing settings.mark request.room
  | .help => (.ok (book.explain settings.mark request.call.args), book)
  | .ping => (.ok "Pong!", book)
  | .eightBall => (consult moment.fate request.call.args, book)
  | .roller => (rollDice settings.mark moment request.call.args, book)
  | .customCommands => book.customCommand settings moment request

end Book

/-- A bot. -/
structure Bot where
  settings : Settings
  book : Book

namespace Bot

/-! ## Starting -/

/-- The registry with the names of every owner but custom commands, whose names are taken when
the stored ones are adopted. -/
def firstRegistry : Registry :=
  [Owner.ping, .eightBall, .roller].foldl (fun r owner => (r.register owner owner.names).2)
    Registry.initial

/-- Starts a bot on what is stored. Names that are taken already do not stop it; not being able
to read what is stored does. -/
def start (settings : Settings) (vault : Vault) : Except Failure Bot :=
  match Book.load ⟨firstRegistry, ∅, vault⟩ with
  | (.ok (), book) => .ok ⟨settings, book⟩
  | (.error (.duplicateName _), book) => .ok ⟨settings, book⟩
  | (.error failure, _) => .error failure

/-! ## Replies -/

/-- What the sender of a command hears of a failure. What only the operator can mend is not told
in detail. -/
def apology : Failure → String
  | .duplicateName detail => detail
  | .notFound detail => detail
  | .invalidArgument detail => detail
  | .unauthorized detail => detail
  | .persistence .. =>
    "Sorry, I could not save or load that right now. Please try again later."
  | .config _ => "Sorry, something went wrong while running that command."
  | .external _ => "Sorry, something went wrong while running that command."

/-- The reply to a text that runs no command: silence, unless it calls one by a name and the bot
is to answer such calls. -/
def unknownReply (settings : Settings) (text : String) : Option String :=
  match Command.Call.ofText? settings.mark text with
  | none => none
  | some call =>
    if settings.replyUnknown && !call.name.isEmpty then
      let mark := settings.mark
      let name := call.name
      some s!"Invalid command: {mark}{name}. Type {mark}listcommands to see what is available."
    else none

/-- The bot looks at this event. -/
def heeds (settings : Settings) (event : Event) : Bool :=
  event.kind == .text && settings.access.allowsRoom event.room

/-- Meets an event. `none` is silence. -/
def handle (moment : Moment) (event : Event) (bot : Bot) : Option String × Bot :=
  if heeds bot.settings event then
    match bot.book.registry.dispatch bot.settings.mark event.body with
    | none => (unknownReply bot.settings event.body, bot)
    | some found =>
      let request := ⟨event.room, event.sender, found.call⟩
      match bot.book.serve bot.settings moment found.owner request with
      | (.ok text, book) => (some text, { bot with book })
      | (.error failure, book) => (some (apology failure), { bot with book })
  else (none, bot)

end Bot

end RoomBot
