/-!
# Allow-lists

Two lists restrict the bot: the rooms it answers in, and the senders who may change custom
commands.  There are no roles.  An empty list restricts nothing; a list with anything on it
admits its members only, so that a sender who is not known is then turned away.
-/

namespace RoomBot

/-- Whether an id passes a list. `none` is an id that is not known. -/
def isAdmitted (id : Option String) (allowed : List String) : Bool :=
  allowed.isEmpty || id.any allowed.contains

/-- An id passes a list that is not empty exactly when it is on it. -/
theorem isAdmitted_iff {id : Option String} {allowed : List String} (h : allowed ≠ []) :
    isAdmitted id allowed = true ↔ ∃ x ∈ allowed, id = some x := by
  cases id <;> simp [isAdmitted, h]

/-- The two lists. -/
structure AccessPolicy where
  /-- Rooms the bot answers in. -/
  rooms : List String
  /-- Senders who may add, change and remove custom commands. -/
  editors : List String
deriving DecidableEq, Repr

namespace AccessPolicy

/-- No restriction at all. -/
def unrestricted : AccessPolicy := ⟨[], []⟩

/-- The bot answers in this room. -/
def allowsRoom (policy : AccessPolicy) (room : String) : Bool :=
  isAdmitted (some room) policy.rooms

/-- This sender may change custom commands. -/
def canEdit (policy : AccessPolicy) (sender : Option String) : Bool :=
  isAdmitted sender policy.editors

end AccessPolicy

end RoomBot
