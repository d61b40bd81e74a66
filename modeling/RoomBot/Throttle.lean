import Std.Data.ExtTreeMap

/-!
# Spacing out notices

Many replies at once would run into the limits of the chat network, so every notice waits for
its turn.  A `Limiter` hands out instants that lie at least an interval apart, each the earliest
it can.  A notice reserves two of them, one from the limiter for all notices and one from the
limiter of its room, and goes out at the later one.

Time is counted in milliseconds.  What the machine makes of it is told by a `Clock`: there is a last
instant that can be written down, and a sleep takes as long as it takes.  A limiter that would have
to go on behind the last instant stops the program.
-/

namespace RoomBot

/-! ## Time -/

/-- How time passes on a machine. -/
structure Clock where
  /-- The last instant that can be written down. -/
  latest : Nat
  /-- How long a sleep takes that should take some time. -/
  sleep : Nat → Nat

/-- How long it takes to wait for some time. Nobody sleeps in order to wait for nothing. -/
def Clock.wait (clock : Clock) (time : Nat) : Nat := if time = 0 then 0 else clock.sleep time

/-! ## One limiter -/

/-- Hands out instants at least `interval` apart; none before `next`. -/
structure Limiter where
  interval : Nat
  next : Nat
deriving DecidableEq, Repr

/-- Reserves the earliest instant that is left. The number is the time to wait for it. There is no
result if the limiter would go on behind the latest instant. -/
def Limiter.reserve (latest : Nat) (limiter : Limiter) (now : Nat) : Option (Nat × Limiter) :=
  let start := max now limiter.next
  let next := start + limiter.interval
  if next ≤ latest then some (start - now, { limiter with next }) else none

/-! ## All limiters -/

/-- The intervals to keep between any two notices, and between two to the same room. -/
structure Pace where
  overall : Nat
  perRoom : Nat
deriving DecidableEq, Repr

/-- Slow enough for Telegram. -/
def Pace.usual : Pace := ⟨40, 1050⟩

/-- The limiters of a bot. A room gets one when its first notice is sent. -/
structure Throttle where
  pace : Pace
  overall : Limiter
  rooms : Std.ExtTreeMap String Limiter

/-- The times to wait for the two instants of a notice. -/
structure Waits where
  overall : Nat
  perRoom : Nat
deriving DecidableEq, Repr

/-- How long a notice is held back: until the later one of its instants. -/
def Waits.held (waits : Waits) (clock : Clock) : Nat :=
  clock.wait (max waits.overall waits.perRoom)

namespace Throttle

/-- The limiters of a bot that starts now. -/
def start (pace : Pace) (now : Nat) : Throttle := ⟨pace, ⟨pace.overall, now⟩, ∅⟩

/-- The limiter of a room, as of now. -/
def ofRoom (throttle : Throttle) (now : Nat) (room : String) : Limiter :=
  throttle.rooms[room]?.getD ⟨throttle.pace.perRoom, now⟩

/-- Reserves the instants of a notice to a room. Where the second cannot be reserved, the first is
already. -/
def reserve (clock : Clock) (throttle : Throttle) (now : Nat) (room : String) :
    Option Waits × Throttle :=
  match throttle.overall.reserve clock.latest now with
  | none => (none, throttle)
  | some (wait, overall) =>
    let limiter := throttle.ofRoom now room
    match limiter.reserve clock.latest now with
    | none => (none, { throttle with overall, rooms := throttle.rooms.insert room limiter })
    | some (roomWait, limiter) =>
      (some ⟨wait, roomWait⟩,
        { throttle with overall, rooms := throttle.rooms.insert room limiter })

/-- Reserves the instants of notices that arrive at the same time, in order. The numbers tell when
they go out. -/
def reserveAll (clock : Clock) (now : Nat) : List String → Throttle → List (Option Nat) × Throttle
  | [], throttle => ([], throttle)
  | room :: rest, throttle =>
    let (waits, throttle) := throttle.reserve clock now room
    let (sent, throttle) := reserveAll clock now rest throttle
    (waits.map (fun waits => now + waits.held clock) :: sent, throttle)

end Throttle

end RoomBot
