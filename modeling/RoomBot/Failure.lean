/-!
# Failures

What can go wrong in the bot, sorted by who has to hear of it.  The first five classes carry a
text for the person who typed the command or the settings; `persistence` and `external` are for
the operator, and the person gets a general apology instead.

Modules with causes of their own (`Expression.Fault`, `Dice.Fault`) keep them until the class is
known; everything else is built here.
-/

namespace RoomBot

/-- One thing that went wrong. -/
inductive Failure
  /-- The settings cannot be used. -/
  | config (detail : String)
  /-- A command name is taken. -/
  | duplicateName (detail : String)
  /-- A command name is not defined. -/
  | notFound (detail : String)
  /-- A command was given something it cannot use. -/
  | invalidArgument (detail : String)
  /-- The sender may not do this. -/
  | unauthorized (detail : String)
  /-- The stored commands could not be read or written; `path` is relative to their directory. -/
  | persistence (path reason : String)
  /-- Something outside the bot refused. -/
  | external (detail : String)
deriving DecidableEq, Repr

namespace Failure

/-- The text of a failure in full, with its class in front. -/
def message : Failure → String
  | config detail => s!"config error: {detail}"
  | duplicateName detail => s!"duplicate command name: {detail}"
  | notFound detail => s!"command not found: {detail}"
  | invalidArgument detail => s!"invalid argument: {detail}"
  | unauthorized detail => s!"unauthorized: {detail}"
  | persistence path reason => s!"persistence failure at {path}: {reason}"
  | external detail => s!"external error: {detail}"

/-- Stored commands could not be read or written. -/
def isPersistence : Failure → Bool
  | persistence .. => true
  | _ => false

end Failure

end RoomBot
