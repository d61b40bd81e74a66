import RoomBot.Bot
import RoomBot.Telegram.Message

/-!
# Receiving Telegram messages

A message becomes an event, the bot meets it, and a reply goes back to the room that the message
came from.
-/

namespace RoomBot.Telegram

/-- A text on its way to a room. -/
structure Notice where
  room : String
  text : String
deriving DecidableEq, Repr

/-- Meets a message, for the bot of the given name if it is known. The result holds the notice to
send, if there is one. -/
def receive (username : Option String) (moment : Moment) (message : Message) (bot : Bot) :
    Option Notice × Bot :=
  let event := message.toEvent username
  let (reply, bot) := bot.handle moment event
  (reply.map fun text => ⟨event.room, text⟩, bot)

end RoomBot.Telegram
