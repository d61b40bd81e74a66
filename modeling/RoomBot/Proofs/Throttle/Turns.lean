import Mathlib.Data.List.Pairwise
import Mathlib.Order.Bounds.Defs
import Mathlib.Tactic.Lemma
import RoomBot.Throttle

/-!
# How far apart notices go out

Notices are sent one after another, each when the one before it is out.  A notice has two instants
reserved for it, one among all notices and one among those to its room, and it goes out at the later
of the two (`Turn`).  What such a turn does to the limiters is said once (`Throttle.Serves`), and all
that holds of notices in a row follows from there (`Series`), since the limiters keep record of the
instants that they gave (`Throttle.Records`).

The instants reserved among all notices lie at least the overall interval apart.  Notices do not
always: a notice that had to wait for its room goes out later than its own instant among all notices
says, and nothing holds back the next one, which may go out at the same moment (`sent_crowded`).
That is all that can happen.  The notice after the next keeps its distance, and a notice that did not
wait for its room keeps all others at theirs.  With rooms that are no slower than the bot as a whole
no notice waits for its room (`sent_spaced`).

There may be a limit to sleep (`Clock.SleepsUpTo`).  No distance can be relied on beyond it.
-/

namespace RoomBot

/-! ## Time -/

/-- A clock by which a sleep takes the time that it should, but `longest` at most. Where there is no
such limit to sleep, the latest instant serves as well. -/
def Clock.SleepsUpTo (clock : Clock) (longest : Nat) : Prop :=
  ∀ time ≤ clock.latest, clock.sleep time = min time longest

variable {clock : Clock} {longest time : Nat}

lemma Clock.SleepsUpTo.wait_eq (h : clock.SleepsUpTo longest) (htime : time ≤ clock.latest) :
    clock.wait time = min time longest := by
  unfold Clock.wait
  split
  · omega
  · exact h time htime

/-! ## One limiter -/

namespace Limiter

variable {limiter after : Limiter} {latest now wait : Nat}

lemma reserve_eq_some (h : limiter.reserve latest now = some (wait, after)) :
    now + wait = max now limiter.next ∧ now + wait + limiter.interval ≤ latest ∧
      after = ⟨limiter.interval, now + wait + limiter.interval⟩ := by
  simp only [reserve] at h
  split at h
  · obtain ⟨rfl, rfl⟩ := Prod.mk.inj (Option.some.inj h)
    have hstart : now + (max now limiter.next - now) = max now limiter.next := by omega
    rw [hstart]
    exact ⟨rfl, ‹_›, rfl⟩
  · contradiction

lemma reserve_eq_none_iff :
    limiter.reserve latest now = none ↔ latest < max now limiter.next + limiter.interval := by
  simp [reserve]

end Limiter

/-! ## Notices, one after another -/

/-- A notice on its way: when it was called for, the instants reserved for it among all notices and
among those to its room, and when it went out. -/
structure Turn where
  room : String
  called : Nat
  overall : Nat
  perRoom : Nat
  sent : Nat
deriving DecidableEq, Repr

namespace Throttle

/-- Sends a notice, if its instants can be reserved. -/
def turn (clock : Clock) (throttle : Throttle) (now : Nat) (room : String) :
    Option Turn × Throttle :=
  let (waits, after) := throttle.reserve clock now room
  let turn (waits : Waits) : Turn :=
    { room
      called := now
      overall := now + waits.overall
      perRoom := now + waits.perRoom
      sent := now + waits.held clock }
  (waits.map turn, after)

/-- Sends notices to some rooms, one after another. The numbers tell how long each is held back
after the one before it has gone out; the first is held back from `now`. Behind a notice whose
instants cannot be reserved there are no others, since nobody comes back from it. -/
def turns (clock : Clock) (now : Nat) : List (Nat × String) → Throttle → List Turn
  | [], _ => []
  | (pause, room) :: rest, throttle =>
    match throttle.turn clock (now + pause) room with
    | (none, _) => []
    | (some turn, throttle) => turn :: turns clock turn.sent rest throttle

variable {throttle after : Throttle} {turn : Turn} {now t : Nat} {room : String}

lemma ofRoom_next_le_iff (h : now ≤ t) :
    (throttle.ofRoom t room).next ≤ t ↔ (throttle.ofRoom now room).next ≤ t := by
  unfold ofRoom
  cases throttle.rooms[room]? with
  | none => simpa using h
  | some limiter => rfl

/-- A notice takes its turn. Both its instants are the earliest that are left, and both limiters go
on an interval behind them. -/
structure Serves (clock : Clock) (throttle : Throttle) (turn : Turn) (after : Throttle) : Prop where
  overall : turn.overall = max turn.called throttle.overall.next
  perRoom : turn.perRoom = max turn.called (throttle.ofRoom turn.called turn.room).next
  sent : turn.sent = turn.called + clock.wait (max turn.overall turn.perRoom - turn.called)
  overall_le : turn.overall + throttle.overall.interval ≤ clock.latest
  perRoom_le : turn.perRoom + (throttle.ofRoom turn.called turn.room).interval ≤ clock.latest
  after : after = { throttle with
    overall := ⟨throttle.overall.interval, turn.overall + throttle.overall.interval⟩
    rooms := throttle.rooms.insert turn.room
      ⟨(throttle.ofRoom turn.called turn.room).interval,
        turn.perRoom + (throttle.ofRoom turn.called turn.room).interval⟩ }

lemma serves_of_turn (h : throttle.turn clock now room = (some turn, after)) :
    turn.room = room ∧ turn.called = now ∧ Serves clock throttle turn after := by
  simp only [Throttle.turn, reserve] at h
  split at h
  · simp at h
  · rename_i wait overall hoverall
    split at h
    · simp at h
    · rename_i roomWait limiter hroom
      obtain ⟨hstart, hlatest, rfl⟩ := Limiter.reserve_eq_some hoverall
      obtain ⟨hroomStart, hroomLatest, rfl⟩ := Limiter.reserve_eq_some hroom
      obtain ⟨hturn, rfl⟩ := Prod.mk.inj h
      obtain rfl := Option.some.inj hturn
      have hheld : max (now + wait) (now + roomWait) - now = max wait roomWait := by omega
      exact ⟨rfl, rfl, hstart, hroomStart, hheld ▸ rfl, hlatest, hroomLatest, rfl⟩

lemma turn_eq_none_iff : (throttle.turn clock now room).1 = none ↔
    clock.latest < max now throttle.overall.next + throttle.overall.interval ∨
      clock.latest < max now (throttle.ofRoom now room).next +
        (throttle.ofRoom now room).interval := by
  rw [← Limiter.reserve_eq_none_iff, ← Limiter.reserve_eq_none_iff]
  simp only [turn, reserve]
  split
  · rename_i hoverall
    simp [hoverall]
  · rename_i hoverall
    split
    · rename_i hroom
      simp [hroom]
    · rename_i hroom
      simp [hoverall, hroom]

end Throttle

/-! ## The turns before -/

/-- The earliest instants for a notice that is called for at some time, after the turns of others. -/
structure Due (pace : Pace) (before : List Turn) (called : Nat) (room : String)
    (overall perRoom : Nat) : Prop where
  overall : IsLeast {t | called ≤ t ∧ ∀ turn ∈ before, turn.overall + pace.overall ≤ t} overall
  perRoom : IsLeast {t | called ≤ t ∧ ∀ turn ∈ before, turn.room = room →
    turn.perRoom + pace.perRoom ≤ t} perRoom

section Due

variable {pace : Pace} {before : List Turn} {called overall perRoom : Nat} {room : String}

lemma Due.overall_le (h : Due pace before called room overall perRoom)
    (hpassed : ∀ earlier ∈ before, earlier.overall ≤ called) : overall ≤ called + pace.overall := by
  refine h.overall.2 ⟨Nat.le_add_right _ _, fun earlier hearlier => ?_⟩
  exact Nat.add_le_add_right (hpassed earlier hearlier) _

lemma Due.perRoom_le (h : Due pace before called room overall perRoom)
    (hpassed : ∀ earlier ∈ before, earlier.perRoom ≤ called) : perRoom ≤ called + pace.perRoom := by
  refine h.perRoom.2 ⟨Nat.le_add_right _ _, fun earlier hearlier _ => ?_⟩
  exact Nat.add_le_add_right (hpassed earlier hearlier) _

end Due

/-- A turn that comes after others. -/
structure Turn.Follows (clock : Clock) (pace : Pace) (before : List Turn) (turn : Turn) : Prop where
  sent_le : ∀ earlier ∈ before, earlier.sent ≤ turn.called
  due : Due pace before turn.called turn.room turn.overall turn.perRoom
  sent : turn.sent = turn.called + clock.wait (max turn.overall turn.perRoom - turn.called)
  overall_le : turn.overall + pace.overall ≤ clock.latest
  perRoom_le : turn.perRoom + pace.perRoom ≤ clock.latest

/-- The turns of notices that are sent one after another. -/
inductive Series (clock : Clock) (pace : Pace) : List Turn → Prop
  | nil : Series clock pace []
  | snoc {turns : List Turn} {turn : Turn} :
      Series clock pace turns → turn.Follows clock pace turns → Series clock pace (turns ++ [turn])

namespace Throttle

/-- The limiters after some turns: an instant is left if it keeps the interval from all that were
reserved before. -/
structure Records (pace : Pace) (throttle : Throttle) (before : List Turn) (now : Nat) : Prop where
  pace_eq : throttle.pace = pace
  sent_le : ∀ turn ∈ before, turn.sent ≤ now
  interval : throttle.overall.interval = pace.overall
  next_le_iff : ∀ t, now ≤ t →
    (throttle.overall.next ≤ t ↔ ∀ turn ∈ before, turn.overall + pace.overall ≤ t)
  roomInterval : ∀ room, (throttle.ofRoom now room).interval = pace.perRoom
  roomNext_le_iff : ∀ room t, now ≤ t → ((throttle.ofRoom now room).next ≤ t ↔
    ∀ turn ∈ before, turn.room = room → turn.perRoom + pace.perRoom ≤ t)

variable {pace : Pace} {throttle after : Throttle} {before : List Turn} {turn : Turn}
  {now : Nat} {room : String}

@[simp] lemma ofRoom_start (pace : Pace) (now t : Nat) (room : String) :
    (start pace now).ofRoom t room = ⟨pace.perRoom, t⟩ := by
  simp [start, ofRoom]

lemma records_start (pace : Pace) (now : Nat) : Records pace (start pace now) [] now where
  pace_eq := rfl
  sent_le := by simp
  interval := rfl
  next_le_iff t ht := by simpa [start] using ht
  roomInterval room := by simp
  roomNext_le_iff room t ht := by simpa using ht

lemma Records.mono (h : Records pace throttle before now) {later : Nat} (hlater : now ≤ later) :
    Records pace throttle before later where
  pace_eq := h.pace_eq
  sent_le turn hturn := Nat.le_trans (h.sent_le turn hturn) hlater
  interval := h.interval
  next_le_iff t ht := h.next_le_iff t (Nat.le_trans hlater ht)
  roomInterval room := by
    have hnow := h.roomInterval room
    unfold ofRoom at hnow ⊢
    cases hroom : throttle.rooms[room]? with
    | none => exact congrArg Pace.perRoom h.pace_eq
    | some limiter => simpa [hroom] using hnow
  roomNext_le_iff room t ht := by
    have hlong := Nat.le_trans hlater ht
    rw [← h.roomNext_le_iff room t hlong, ← ofRoom_next_le_iff ht, ← ofRoom_next_le_iff hlong]

lemma Records.due (h : Records pace throttle before now) (room : String) :
    Due pace before now room (max now throttle.overall.next)
      (max now (throttle.ofRoom now room).next) where
  overall := by
    refine ⟨⟨Nat.le_max_left _ _, ?_⟩, fun t ht => ?_⟩
    · exact (h.next_le_iff _ (Nat.le_max_left _ _)).1 (Nat.le_max_right _ _)
    · exact Nat.max_le.2 ⟨ht.1, (h.next_le_iff t ht.1).2 ht.2⟩
  perRoom := by
    refine ⟨⟨Nat.le_max_left _ _, ?_⟩, fun t ht => ?_⟩
    · exact (h.roomNext_le_iff room _ (Nat.le_max_left _ _)).1 (Nat.le_max_right _ _)
    · exact Nat.max_le.2 ⟨ht.1, (h.roomNext_le_iff room t ht.1).2 ht.2⟩

lemma Records.follows (h : Records pace throttle before turn.called)
    (hserves : Serves clock throttle turn after) : turn.Follows clock pace before where
  sent_le := h.sent_le
  due := by
    rw [hserves.overall, hserves.perRoom]
    exact h.due turn.room
  sent := hserves.sent
  overall_le := h.interval ▸ hserves.overall_le
  perRoom_le := h.roomInterval turn.room ▸ hserves.perRoom_le

/-- The limiters go on behind the instants that they gave. -/
lemma Records.snoc (h : Records pace throttle before turn.called)
    (hserves : Serves clock throttle turn after) :
    Records pace after (before ++ [turn]) turn.sent := by
  have hdue := (h.follows hserves).due
  have hcalled : turn.called ≤ turn.sent := hserves.sent ▸ Nat.le_add_right _ _
  have hlater := h.mono hcalled
  have hroom : ∀ room, after.ofRoom turn.sent room =
      if turn.room = room then ⟨pace.perRoom, turn.perRoom + pace.perRoom⟩
      else throttle.ofRoom turn.sent room := by
    intro room
    rw [hserves.after, ofRoom, Std.ExtTreeMap.getElem?_insert, h.roomInterval]
    by_cases heq : turn.room = room
    · simp [heq]
    · simp [heq, ofRoom]
  constructor
  case pace_eq => rw [hserves.after, h.pace_eq]
  case sent_le =>
    exact List.forall_mem_append.2 ⟨hlater.sent_le, List.forall_mem_singleton.2 (Nat.le_refl _)⟩
  case interval => rw [hserves.after, h.interval]
  case next_le_iff =>
    intro t ht
    have hbefore := hdue.overall.1.2
    rw [hserves.after, h.interval, List.forall_mem_append, List.forall_mem_singleton]
    refine ⟨fun hnext => ⟨fun earlier hearlier => ?_, hnext⟩, fun hall => hall.2⟩
    have hkept := hbefore earlier hearlier
    dsimp only at hnext
    omega
  case roomInterval =>
    intro room
    rw [hroom]
    split
    · rfl
    · exact hlater.roomInterval room
  case roomNext_le_iff =>
    intro room t ht
    have hbefore := hdue.perRoom.1.2
    rw [hroom, List.forall_mem_append, List.forall_mem_singleton]
    split
    · rename_i heq
      subst heq
      refine ⟨fun hnext => ⟨fun earlier hearlier hsame => ?_, fun _ => hnext⟩,
        fun hall => hall.2 rfl⟩
      have hkept := hbefore earlier hearlier hsame
      dsimp only at hnext
      omega
    · rename_i hne
      rw [hlater.roomNext_le_iff room t ht]
      exact ⟨fun hall => ⟨hall, fun heq => absurd heq hne⟩, fun hall => hall.1⟩

/-- Notices that are sent after others are in one series with them. -/
lemma Records.series (h : Records pace throttle before now) (hbefore : Series clock pace before)
    (notices : List (Nat × String)) :
    Series clock pace (before ++ throttle.turns clock now notices) := by
  induction notices generalizing now throttle before with
  | nil => simpa [turns] using hbefore
  | cons notice notices ih =>
    obtain ⟨pause, room⟩ := notice
    simp only [turns]
    split
    · simpa using hbefore
    · rename_i turn after hturn
      obtain ⟨-, hcalled, hserves⟩ := serves_of_turn hturn
      have hrecords : Records pace throttle before turn.called :=
        h.mono (hcalled ▸ Nat.le_add_right now pause)
      have hrest := ih (hrecords.snoc hserves) (hbefore.snoc (hrecords.follows hserves))
      rwa [List.append_assoc] at hrest

lemma series_turns (clock : Clock) (pace : Pace) (now : Nat) (notices : List (Nat × String)) :
    Series clock pace ((start pace now).turns clock now notices) :=
  (records_start pace now).series .nil notices

end Throttle

/-! ## Distances -/

/-- A notice goes out at the later of its two instants, unless that is further away than the longest
sleep. -/
structure Turn.Fair (longest : Nat) (turn : Turn) : Prop where
  called_le_overall : turn.called ≤ turn.overall
  called_le_perRoom : turn.called ≤ turn.perRoom
  sent : turn.sent = min (max turn.overall turn.perRoom) (turn.called + longest)

variable {pace : Pace} {turns before : List Turn} {turn : Turn}

lemma Turn.Follows.fair (h : turn.Follows clock pace before) (hclock : clock.SleepsUpTo longest) :
    turn.Fair longest := by
  have hoverall := h.due.overall.1.1
  have hperRoom := h.due.perRoom.1.1
  refine ⟨hoverall, hperRoom, ?_⟩
  have hlatest := h.overall_le
  have hroomLatest := h.perRoom_le
  rw [h.sent, hclock.wait_eq (by omega)]
  omega

namespace Series

/-- What holds of every turn after others of which it holds, holds of all turns in a series. -/
lemma forall_mem (h : Series clock pace turns) {p : Turn → Prop}
    (hstep : ∀ before turn, (∀ earlier ∈ before, p earlier) → turn.Follows clock pace before →
      p turn) : ∀ turn ∈ turns, p turn := by
  induction h with
  | nil => simp
  | snoc _ hfollows ih =>
    exact List.forall_mem_append.2 ⟨ih, List.forall_mem_singleton.2 (hstep _ _ ih hfollows)⟩

lemma fair (h : Series clock pace turns) (hclock : clock.SleepsUpTo longest) :
    ∀ turn ∈ turns, turn.Fair longest :=
  h.forall_mem fun _ _ _ hfollows => hfollows.fair hclock

lemma le_latest (h : Series clock pace turns) : ∀ turn ∈ turns,
    turn.overall + pace.overall ≤ clock.latest ∧ turn.perRoom + pace.perRoom ≤ clock.latest :=
  h.forall_mem fun _ _ _ hfollows => ⟨hfollows.overall_le, hfollows.perRoom_le⟩

/-- Of two notices the later one is called for when the earlier one is out. The instants reserved
for them among all notices lie an interval apart, and so do those in one room. -/
lemma pairwise (h : Series clock pace turns) : turns.Pairwise fun one two =>
    one.sent ≤ two.called ∧ one.overall + pace.overall ≤ two.overall ∧
      (one.room = two.room → one.perRoom + pace.perRoom ≤ two.perRoom) := by
  induction h with
  | nil => exact List.Pairwise.nil
  | snoc _ hfollows ih =>
    refine List.pairwise_append.2 ⟨ih, List.pairwise_singleton _ _, fun one hone two htwo => ?_⟩
    obtain rfl := List.mem_singleton.1 htwo
    exact ⟨hfollows.sent_le one hone, hfollows.due.overall.1.2 one hone,
      hfollows.due.perRoom.1.2 one hone⟩

/-- Where rooms are no slower than the bot as a whole, no notice waits for its room. -/
lemma perRoom_le_overall (h : Series clock pace turns) (hpace : pace.perRoom ≤ pace.overall) :
    ∀ turn ∈ turns, turn.perRoom ≤ turn.overall := by
  refine h.forall_mem fun before turn hbefore hfollows => hfollows.due.perRoom.2 ?_
  refine ⟨hfollows.due.overall.1.1, fun earlier hearlier _ => ?_⟩
  have hinstant := hbefore earlier hearlier
  have hkept := hfollows.due.overall.1.2 earlier hearlier
  omega

end Series

namespace Throttle

/-! ## When notices go out -/

/-- Among the notices that a bot sends from its start, each when the one before it is out, the
instants reserved among all notices lie the overall interval apart. So do the notices themselves, as
far as sleep can be relied on, unless one directly follows another that had to wait for its room. If
rooms are no slower than the bot as a whole, none has to. -/
theorem sent_spaced (hclock : clock.SleepsUpTo longest) (pace : Pace) (now : Nat)
    (notices : List (Nat × String)) :
    let turns := (start pace now).turns clock now notices
    turns.Pairwise (fun one two => one.overall + pace.overall ≤ two.overall) ∧
      (∀ (i j : Nat) (one two : Turn), i < j → turns[i]? = some one → turns[j]? = some two →
        i + 1 < j ∨ one.perRoom ≤ one.overall →
        one.sent + min pace.overall longest ≤ two.sent) ∧
      (pace.perRoom ≤ pace.overall →
        turns.Pairwise fun one two => one.sent + min pace.overall longest ≤ two.sent) := by
  intro turns
  have hseries : Series clock pace turns := series_turns clock pace now notices
  have hfair := hseries.fair hclock
  have hpairs := hseries.pairwise
  have hspaced : ∀ (i j : Nat) (one two : Turn), i < j → turns[i]? = some one →
      turns[j]? = some two → i + 1 < j ∨ one.perRoom ≤ one.overall →
      one.sent + min pace.overall longest ≤ two.sent := by
    intro i j one two hij hone htwo hfar
    obtain ⟨hi, rfl⟩ := List.getElem?_eq_some_iff.1 hone
    obtain ⟨hj, rfl⟩ := List.getElem?_eq_some_iff.1 htwo
    obtain ⟨hcalled, hoverall, -⟩ := List.pairwise_iff_getElem.1 hpairs i j hi hj hij
    have hlast := (hfair _ (List.getElem_mem hj)).sent
    rcases hfar with hbetween | hroom
    · -- The notice in between was called for when the first was out.
      have hmiddle : i + 1 < turns.length := by omega
      have hfirst := List.pairwise_iff_getElem.1 hpairs i (i + 1) hi hmiddle (by omega)
      have hsecond := List.pairwise_iff_getElem.1 hpairs (i + 1) j hmiddle hj hbetween
      have hcalled := (hfair _ (List.getElem_mem hmiddle)).called_le_overall
      omega
    · have hfirst := (hfair _ (List.getElem_mem hi)).sent
      omega
  refine ⟨hpairs.imp fun h => h.2.1, hspaced, fun hpace => ?_⟩
  refine List.pairwise_iff_getElem.2 fun i j hi hj hij => ?_
  have hroom := hseries.perRoom_le_overall hpace _ (List.getElem_mem hi)
  exact hspaced i j _ _ hij (List.getElem?_eq_getElem hi) (List.getElem?_eq_getElem hj)
    (.inr hroom)

/-- The second notice to a room and the notice to another one after it go out at the same moment,
although the bot should leave forty milliseconds between them. The next one keeps its distance. -/
theorem sent_spaced_afterCrowd :
    let clock : Clock := ⟨1000000, fun time => min time 5000⟩
    let turns := (start .usual 0).turns clock 0 [(0, "a"), (0, "a"), (0, "b"), (0, "c")]
    let one : Turn := ⟨"a", 0, 40, 1050, 1050⟩
    let two : Turn := ⟨"c", 1050, 1090, 1050, 1090⟩
    clock.SleepsUpTo 5000 ∧ turns.map Turn.sent = [0, 1050, 1050, 1090] ∧ turns[1]? = some one ∧
      turns[3]? = some two ∧ one.sent + min Pace.usual.overall 5000 ≤ two.sent := by
  intro clock turns one two
  have hclock : clock.SleepsUpTo 5000 := fun _ _ => rfl
  have hone : turns[1]? = some one := by decide
  have htwo : turns[3]? = some two := by decide
  refine ⟨hclock, by decide, hone, htwo, ?_⟩
  exact (sent_spaced hclock .usual 0 [(0, "a"), (0, "a"), (0, "b"), (0, "c")]).2.1 1 3 one two
    (by decide) hone htwo (.inl (by decide))

/-- Notices do not always lie the overall interval apart, not even where everybody sleeps as long as
they should. -/
theorem sent_crowded :
    ¬ ∀ (pace : Pace) (now : Nat) (notices : List (Nat × String)),
      ((start pace now).turns ⟨1000000, id⟩ now notices).Pairwise fun one two =>
        one.sent + pace.overall ≤ two.sent := by
  intro h
  have hcrowd := h .usual 0 [(0, "a"), (0, "a"), (0, "b")]
  revert hcrowd
  decide

end Throttle

end RoomBot
