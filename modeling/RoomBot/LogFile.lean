import RoomBot.Failure

/-!
# The log file

The log is appended to a file if the operator names one.  A file that cannot be opened is a
failure of the settings, and the bot does not start.
-/

namespace RoomBot

/-- Opens the log file of a bot. What comes of it is up to the system, which gives a reason if the
file cannot be opened. -/
def openLogFile (path : String) (opened : Except String Unit) : Except Failure Unit :=
  opened.mapError fun reason => .config s!"cannot open log file {path}: {reason}"

end RoomBot
