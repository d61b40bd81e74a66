import RoomBot.Text.Blank
import RoomBot.Text.Quoted
import RoomBot.Text.Pieces
import RoomBot.Text.Hexadecimal
import RoomBot.Failure
import RoomBot.Expression.Evaluation
import RoomBot.Dice.Roll
import RoomBot.Command.Name
import RoomBot.Command.Registry
import RoomBot.Access
import RoomBot.Telegram.Message
import RoomBot.Settings.Config
import RoomBot.Telegram.Delivery
import RoomBot.Throttle
import RoomBot.LogFile
import RoomBot.Digest
import RoomBot.Document.Layout
import RoomBot.Store.Vault
import RoomBot.Book
import RoomBot.Bot
import RoomBot.Telegram.Reception
import RoomBot.Proofs.Command.Ownership
import RoomBot.Proofs.Document.RoundTrip
import RoomBot.Proofs.Store.Atomicity
import RoomBot.Proofs.Store.Refinement
import RoomBot.Proofs.Session
import RoomBot.Proofs.Restart
import RoomBot.Proofs.Mishap
import RoomBot.Proofs.Echo
import RoomBot.Proofs.Expression.Reading
import RoomBot.Proofs.Expression.Longest
import RoomBot.Proofs.Store.Likeness
import RoomBot.Proofs.Throttle.Turns
import RoomBot.Proofs.Management
import RoomBot.Proofs.Book.Question
import RoomBot.Proofs.Thinning
import RoomBot.Proofs.Isolation
import RoomBot.Proofs.Strangers
import RoomBot.Proofs.Throttle.Rooms
import RoomBot.Proofs.Expression.Rewriting
import RoomBot.Proofs.Expression.Gap
import RoomBot.Proofs.Reply
import RoomBot.Proofs.Regularity
import RoomBot.Proofs.Listing
import RoomBot.Proofs.Reserved
import RoomBot.Proofs.Text.Layout
import RoomBot.Proofs.Dice.Limits
import RoomBot.Proofs.Telegram.Admission
import RoomBot.Proofs.Dice.Composition
import RoomBot.Proofs.Telegram.Attempts
import RoomBot.Proofs.Store.Enumeration
import RoomBot.Proofs.Store.Frame
import RoomBot.Proofs.Dice.Sum
import RoomBot.Proofs.Expression.Ending
import RoomBot.Proofs.Telegram.Mention
import RoomBot.Proofs.Spelling
import RoomBot.Proofs.Settings.Assigned
import RoomBot.Proofs.Settings.Written
import RoomBot.Proofs.Throttle.Delay
import RoomBot.Proofs.Expression.Position
