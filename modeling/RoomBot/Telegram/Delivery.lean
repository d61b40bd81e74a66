import RoomBot.Failure
import RoomBot.Text.Pieces
import RoomBot.Text.Quoted

/-!
# Delivering notices to Telegram

A notice goes to the chat whose number is the name of the room, as silent messages, one for each
piece of the text.  Every piece is sent before the next one; the first piece that cannot be sent
ends the delivery.  When the server complains about a flood, the same piece is sent once more
and then no more.

The server is a script of answers, and a line that is down reaches no server.  A delivery that
fails says why in the words of the network library.  They are written out here (`Refusal.message`)
because they are a part of the error that the sender of a notice gets to see; no other part of the
bot goes by them, and what is proved about deliveries holds for any words in their place.
-/

namespace RoomBot.Telegram

/-! ## Chats -/

/-- The most characters Telegram takes in one message. -/
def messageLimit : Nat := 4096

/-- The chat of a room: a whole number in decimal that fits 64 bits with a sign. A sign of either
kind may stand in front. -/
def chatOfRoom? (room : String) : Option Int :=
  let number? (digits : List Char) : Option Int :=
    if digits.isEmpty || !digits.all Char.isDigit then none
    else some (Nat.ofDigitChars 10 digits 0 : Nat)
  let chat? := match room.toList with
    | '-' :: digits => (number? digits).map (- ·)
    | '+' :: digits => number? digits
    | digits => number? digits
  chat?.filter fun n => -9223372036854775808 ≤ n && n ≤ 9223372036854775807

/-! ## One request -/

/-- A message for a chat. A silent one makes no sound when it arrives. -/
structure Request where
  chat : Int
  text : String
  silent : Bool
deriving DecidableEq, Repr

/-- What the server answers to a request. -/
inductive Answer
  | accepted
  /-- Too many requests; the next one is welcome after a while. -/
  | flood (seconds : Nat)
  /-- The chat goes on under another number. -/
  | migrated (chat : Int)
  | rejected (description : String)
deriving DecidableEq, Repr

/-- Why a request was not carried out. -/
inductive Refusal
  | flood (seconds : Nat)
  | migrated (chat : Int)
  | rejected (description : String)
  /-- The server could not be reached. -/
  | unreachable
deriving DecidableEq, Repr

/-- Descriptions of the server that the network library knows, and passes on as they are: for a chat
that does not exist, and for a user who wants no messages. It knows others, which are left out. -/
def knownDescriptions : List String :=
  ["Bad Request: chat not found", "Forbidden: bot was blocked by the user"]

/-- The text of a refusal, in the words of the network library. -/
def Refusal.message : Refusal → String
  | flood seconds => if seconds = 0 then "Retry after 0ns" else s!"Retry after {seconds}s"
  | migrated chat => s!"The group has been migrated to a supergroup with ID #{chat}"
  | rejected description =>
    if knownDescriptions.contains description then s!"A Telegram's error: {description}"
    else
      let shown := Text.quoted description
      s!"A Telegram's error: Unknown error: {shown}"
  | unreachable =>
    "A network error: error sending request: error trying to connect: tcp connect error: " ++
      "Network is unreachable (os error 101)"

/-! ## The line to the server -/

/-- A line to the server: whether it is up, the answers the server is going to give, and the
requests that have reached it. After its last answer the server accepts everything. -/
structure Line where
  isUp : Bool
  script : List Answer
  received : List Request
deriving DecidableEq, Repr

namespace Line

/-- A line that is down. It is where a bot without a network starts. -/
def down : Line := ⟨false, [], []⟩

/-- Sends one request. -/
def post (line : Line) (request : Request) : Except Refusal Unit × Line :=
  if line.isUp then
    let after : Line := { line with
      script := line.script.tail, received := line.received ++ [request] }
    match line.script.head?.getD .accepted with
    | .accepted => (.ok (), after)
    | .flood seconds => (.error (.flood seconds), after)
    | .migrated chat => (.error (.migrated chat), after)
    | .rejected description => (.error (.rejected description), after)
  else (.error .unreachable, line)

/-- Sends one request, and sends it again if the server complains about a flood. -/
def deliver (line : Line) (request : Request) : Except Refusal Unit × Line :=
  match line.post request with
  | (.error (.flood _), line) => line.post request
  | answered => answered

/-- Sends texts to a chat, one after another, as long as each is taken. -/
def deliverAll (chat : Int) : List String → Line → Except Refusal Unit × Line
  | [], line => (.ok (), line)
  | text :: rest, line =>
    match line.deliver ⟨chat, text, true⟩ with
    | (.ok (), line) => deliverAll chat rest line
    | (.error refusal, line) => (.error refusal, line)

end Line

/-! ## Notices -/

/-- Sends a notice to a room. -/
def sendNotice (line : Line) (room text : String) : Except Failure Unit × Line :=
  match chatOfRoom? room with
  | none => (.error (.external s!"not a telegram chat id: {room}"), line)
  | some chat =>
    match line.deliverAll chat (Text.pieces text messageLimit) with
    | (.ok (), line) => (.ok (), line)
    | (.error refusal, line) =>
      let reason := refusal.message
      (.error (.external s!"telegram error: {reason}"), line)

end RoomBot.Telegram
