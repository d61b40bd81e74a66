import RoomBot.Event
import RoomBot.Text.Blank

/-!
# Telegram messages as events

A room is a Telegram chat, named by its number in decimal.  Text messages become text events;
captions of photos and service messages become other events, so that no command hides in them.

In a group a command may carry the name of the bot it is meant for, as in `/roll@dicebot 2d6`.
`withoutMention` takes the mention off the first word when it names this bot, and leaves the
text alone when it names another, so that the command of another bot is not found here.
-/

namespace RoomBot.Telegram

/-! ## Mentions -/

/-- Equal but for the case of ASCII letters. -/
def sameName (a b : List Char) : Bool := a.map Char.toLower == b.map Char.toLower

/-- The text without a mention of `username` on its first word. The mention starts at the first
`@` of the word and must follow something. -/
def withoutMention (text : String) (username : Option String) : String :=
  match username with
  | none => text
  | some username =>
    let word := Text.firstWord text.toList
    let command := word.takeWhile (· != '@')
    match word.dropWhile (· != '@') with
    | [] => text
    | _ :: mention =>
      if !command.isEmpty && sameName mention username.toList then
        String.ofList (command ++ Text.afterFirstWord text.toList)
      else text

/-! ## Messages -/

/-- What a message holds. -/
inductive Content
  | text (body : String)
  | photo (caption : Option String)
  /-- The notice that a chat has a new title. Nobody is reported as its sender. -/
  | title (name : String)
deriving DecidableEq, Repr

/-- A message in a chat. -/
structure Message where
  chat : Int
  sender : Option Nat
  content : Content
deriving DecidableEq, Repr

/-- The room of a chat. -/
def roomOfChat (chat : Int) : String := toString chat

/-- The event that a message is, for the bot of the given name if it is known. -/
def Message.toEvent (message : Message) (username : Option String) : Event :=
  let room := roomOfChat message.chat
  let sender := message.sender.map toString
  match message.content with
  | .text body => ⟨room, sender, .text, withoutMention body username⟩
  | .photo caption => ⟨room, sender, .other, caption.getD ""⟩
  | .title _ => ⟨room, none, .other, ""⟩

end RoomBot.Telegram
