import Mathlib.Data.List.ReduceOption
import RoomBot.Failure
import RoomBot.Proofs.Throttle.Rooms

/-!
# How long notices are held back

A limiter gives every call the earliest instant that is left: not before the call, and no less than
the interval behind any instant given before.  A call after which the limiter could not go on, as the
interval would end behind the latest instant, gets none and changes nothing
(`Limiter.exists_isLeast_instants`).

The throttle stands in front of a messenger, and hands it every notice when its turn has come.  What
the messenger makes of a notice, how long that takes and whether it fails, has no part in the turns,
which are those of notices sent one after another (`Throttle.Records.sendEach`), and every
notice is handed on once, in order, until there is one whose instants cannot be reserved
(`Throttle.accounts_sendEach`).

Each notice waits for what the notices before it have left over, and these are out when it is called
for, each at the later one of its instants.  So no notice is held back for longer than the longer
interval, however many have gone out and to however many rooms (`Throttle.delay_bounded`).  Two
things can come in between: an interval that ends behind the latest instant, and sleep that ends too
early, where a notice should wait for longer than anybody sleeps (`Throttle.lost_or_early`).
-/

namespace RoomBot

/-! ## One limiter -/

namespace Limiter

/-- The instants that are reserved by calls at some times, one after another. Some calls may get
none. -/
def instants (latest : Nat) : List Nat → Limiter → List (Option Nat)
  | [], _ => []
  | now :: calls, limiter =>
    match limiter.reserve latest now with
    | none => none :: instants latest calls limiter
    | some (wait, limiter) => some (now + wait) :: instants latest calls limiter

variable {limiter : Limiter} {latest now : Nat} {calls : List Nat}

@[simp] lemma length_instants (latest : Nat) (limiter : Limiter) (calls : List Nat) :
    (limiter.instants latest calls).length = calls.length := by
  induction calls generalizing limiter with
  | nil => rfl
  | cons now calls ih =>
    rw [instants]
    split
    · rw [List.length_cons, ih, List.length_cons]
    · rw [List.length_cons, ih, List.length_cons]

/-- Each call gets the earliest instant that is left after the calls before it, if the limiter can go
on behind it. -/
lemma exists_isLeast_instants {i : Nat} (hcall : calls[i]? = some now) :
    ∃ instant, IsLeast {t | now ≤ t ∧ limiter.next ≤ t ∧
        ∀ earlier ∈ ((limiter.instants latest calls).take i).reduceOption,
          earlier + limiter.interval ≤ t} instant ∧
      (limiter.instants latest calls)[i]? =
        some (if instant + limiter.interval ≤ latest then some instant else none) := by
  induction calls generalizing limiter i with
  | nil => simp at hcall
  | cons first calls ih =>
    cases i with
    | zero =>
      obtain rfl : first = now := by simpa using hcall
      refine ⟨max first limiter.next, ⟨⟨Nat.le_max_left _ _, Nat.le_max_right _ _, by simp⟩,
        fun t ht => Nat.max_le.2 ⟨ht.1, ht.2.1⟩⟩, ?_⟩
      rw [instants]
      split
      · rename_i hreserve
        rw [reserve_eq_none_iff] at hreserve
        rw [if_neg (by omega), List.getElem?_cons_zero]
      · rename_i hreserve
        obtain ⟨hstart, hlatest, -⟩ := reserve_eq_some hreserve
        rw [if_pos (by omega), List.getElem?_cons_zero, hstart]
    | succ i =>
      rw [List.getElem?_cons_succ] at hcall
      rw [instants]
      split
      · simpa using ih hcall
      · rename_i hreserve
        obtain ⟨hstart, -, rfl⟩ := reserve_eq_some hreserve
        obtain ⟨instant, ⟨⟨hnow, hfirst, hearlier⟩, hleast⟩, hgiven⟩ := ih hcall
        refine ⟨instant, ⟨⟨hnow, ?_, ?_⟩, fun t ht => ?_⟩, by simpa using hgiven⟩
        · dsimp only at hfirst
          omega
        · rw [List.take_succ_cons, List.reduceOption_cons_of_some]
          exact List.forall_mem_cons.2 ⟨hfirst, hearlier⟩
        · rw [List.take_succ_cons, List.reduceOption_cons_of_some] at ht
          obtain ⟨hbefore, hothers⟩ := List.forall_mem_cons.1 ht.2.2
          exact hleast ⟨ht.1, hbefore, hothers⟩

end Limiter

/-! ## Notices through a messenger -/

/-- A text for a room. -/
structure Notice where
  room : String
  text : String
deriving DecidableEq, Repr

/-- A notice that was handed on, and when. -/
structure Handover where
  sent : Nat
  notice : Notice
deriving DecidableEq, Repr

/-- What a messenger makes of the last of the notices that were handed to it: whether it could send
it, and how long that took. It may go by all that it was handed so far. -/
abbrev Messenger := List Handover → Except Failure Unit × Nat

/-- A call for a notice whose instants could not be reserved. -/
structure Stop where
  called : Nat
  room : String
deriving DecidableEq, Repr

/-- What has become of notices: their turns with what the messenger answered, all that the messenger
was handed, and where they have come to a stop. -/
structure Run where
  turns : List (Turn × Except Failure Unit)
  handed : List Handover
  stop : Option Stop

namespace Throttle

/-- Sends notices through a messenger, one after another. The numbers tell how long each is held
back by its sender after the one before it is done with; the first is held back from `now`. -/
def sendEach (clock : Clock) (messenger : Messenger) (now : Nat) :
    List (Nat × Notice) → Throttle → List Handover → Run
  | [], _, handed => ⟨[], handed, none⟩
  | (pause, notice) :: rest, throttle, handed =>
    match throttle.turn clock (now + pause) notice.room with
    | (none, _) => ⟨[], handed, some ⟨now + pause, notice.room⟩⟩
    | (some turn, throttle) =>
      let handed := handed ++ [⟨turn.sent, notice⟩]
      let (answer, duration) := messenger handed
      let run := sendEach clock messenger (turn.sent + duration) rest throttle handed
      { run with turns := (turn, answer) :: run.turns }

end Throttle

/-- What was handed on: every notice once and in order, when its turn had come, as far as the turns
went. They went to the end, or up to the notice that was called for where they have come to a stop. -/
structure Run.Accounts (run : Run) (handed : List Handover) (notices : List Notice) : Prop where
  notice : run.handed.map Handover.notice =
    handed.map Handover.notice ++ notices.take run.turns.length
  sent : run.handed.map Handover.sent =
    handed.map Handover.sent ++ (run.turns.map Prod.fst).map Turn.sent
  room : (run.turns.map Prod.fst).map Turn.room =
    (notices.take run.turns.length).map Notice.room
  all : run.stop = none → run.turns.length = notices.length
  stop : ∀ stop ∈ run.stop, notices[run.turns.length]?.map Notice.room = some stop.room

namespace Throttle

variable {clock : Clock} {longest now : Nat} {pace : Pace} {throttle : Throttle}
  {before : List Turn}

lemma accounts_sendEach (clock : Clock) (messenger : Messenger) (now : Nat)
    (notices : List (Nat × Notice)) (throttle : Throttle) (handed : List Handover) :
    (throttle.sendEach clock messenger now notices handed).Accounts handed
      (notices.map Prod.snd) := by
  induction notices generalizing now throttle handed with
  | nil => constructor <;> simp [sendEach]
  | cons first notices ih =>
    obtain ⟨pause, notice⟩ := first
    simp only [sendEach]
    split
    · constructor <;> simp
    · rename_i turn after hturn
      have hrest := ih (turn.sent + (messenger (handed ++ [⟨turn.sent, notice⟩])).2) after
        (handed ++ [⟨turn.sent, notice⟩])
      obtain ⟨hroom, -, -⟩ := serves_of_turn hturn
      constructor
      case notice => simpa using hrest.notice
      case sent => simpa using hrest.sent
      case room => simpa [hroom] using hrest.room
      case all => simpa using hrest.all
      case stop => simpa using hrest.stop

end Throttle

/-! ## No room gets far ahead -/

/-- A call that comes after some turns, and whose instants cannot be reserved. -/
structure Stop.Follows (clock : Clock) (pace : Pace) (before : List Turn) (stop : Stop) : Prop where
  sent_le : ∀ earlier ∈ before, earlier.sent ≤ stop.called
  exists_due : ∃ overall perRoom, Due pace before stop.called stop.room overall perRoom ∧
    (clock.latest < overall + pace.overall ∨ clock.latest < perRoom + pace.perRoom)

variable {clock : Clock} {longest now : Nat} {pace : Pace} {turns before : List Turn}

/-- No notice waits for its room for longer than the interval of rooms, if sleep can be relied on for
that long. -/
lemma Series.perRoom_le (h : Series clock pace turns) (hclock : clock.SleepsUpTo longest)
    (hshort : pace.perRoom ≤ longest) :
    ∀ turn ∈ turns, turn.perRoom ≤ turn.sent ∧ turn.perRoom ≤ turn.called + pace.perRoom := by
  refine h.forall_mem fun before turn hbefore hfollows => ?_
  have hsent := (hfollows.fair hclock).sent
  have hinstant := hfollows.due.perRoom_le fun earlier hearlier =>
    Nat.le_trans (hbefore earlier hearlier).1 (hfollows.sent_le earlier hearlier)
  omega

/-- No notice waits for longer than the longer interval, whether or not sleep can be relied on for that
long: where it cannot, nobody sleeps for longer. -/
lemma Series.sent_le_called_add (h : Series clock pace turns) (hclock : clock.SleepsUpTo longest) :
    ∀ turn ∈ turns, turn.sent ≤ turn.called + max pace.overall pace.perRoom := by
  intro turn hturn
  have hsent := (h.fair hclock turn hturn).sent
  have hlimit := h.sent_le hclock turn hturn
  by_cases hshort : pace.perRoom ≤ longest
  · have hroom := h.perRoom_le hclock hshort turn hturn
    omega
  · omega

/-- Notices are out when another one is called for, and so the instants for this one are near. If
they cannot be reserved, the latest instant is near as well. -/
lemma Stop.Follows.latest_lt {stop : Stop} (h : stop.Follows clock pace turns)
    (hseries : Series clock pace turns) (hclock : clock.SleepsUpTo longest)
    (hshort : pace.overall ≤ longest) (hshortRoom : pace.perRoom ≤ longest) :
    clock.latest < stop.called + 2 * max pace.overall pace.perRoom := by
  obtain ⟨hout, overall, perRoom, hdue, hlatest⟩ := h
  have hoverall := hdue.overall_le fun turn hturn =>
    Nat.le_trans (hseries.overall_le hclock hshort turn hturn).1 (hout turn hturn)
  have hperRoom := hdue.perRoom_le fun turn hturn =>
    Nat.le_trans (hseries.perRoom_le hclock hshortRoom turn hturn).1 (hout turn hturn)
  omega

namespace Throttle

variable {throttle : Throttle} {room : String}

lemma Records.stop (h : Records pace throttle before now)
    (hturn : (throttle.turn clock now room).1 = none) :
    Stop.Follows clock pace before ⟨now, room⟩ where
  sent_le := h.sent_le
  exists_due := by
    refine ⟨_, _, h.due room, ?_⟩
    rwa [turn_eq_none_iff, h.interval, h.roomInterval] at hturn

/-- Whatever the messenger does, the turns are those of notices that are sent one after another. -/
lemma Records.sendEach (h : Records pace throttle before now) (hbefore : Series clock pace before)
    (messenger : Messenger) (notices : List (Nat × Notice)) (handed : List Handover) :
    let run := throttle.sendEach clock messenger now notices handed
    Series clock pace (before ++ run.turns.map Prod.fst) ∧
      ∀ stop ∈ run.stop, stop.Follows clock pace (before ++ run.turns.map Prod.fst) := by
  induction notices generalizing now throttle before handed with
  | nil => simpa [Throttle.sendEach] using hbefore
  | cons first notices ih =>
    obtain ⟨pause, notice⟩ := first
    have hcalled := h.mono (Nat.le_add_right now pause)
    simp only [Throttle.sendEach]
    split
    · rename_i hturn
      have hstop := hcalled.stop (congrArg Prod.fst hturn)
      simpa using ⟨hbefore, hstop⟩
    · rename_i turn after hturn
      obtain ⟨-, hnow, hserves⟩ := serves_of_turn hturn
      rw [← hnow] at hcalled
      let duration := (messenger (handed ++ [⟨turn.sent, notice⟩])).2
      have hrest := ih ((hcalled.snoc hserves).mono (Nat.le_add_right turn.sent duration))
        (hbefore.snoc (hcalled.follows hserves)) (handed ++ [⟨turn.sent, notice⟩])
      simpa [duration] using hrest

/-! ## From the call to the handover -/

/-- Calls to a limiter, in order of time, get the earliest instants that are not before the call and
keep the interval from all that were given before. Only where the limiter could not go on behind such
an instant does the call get none.

Of the notices that a bot sends from its start, each when the one before it is done with, every one
is handed on once and in order, whatever the messenger makes of them, until a limiter cannot go on.
If somebody can sleep through both intervals, this is no earlier than twice the longer one before the
latest instant. A notice waits for the longer of the two intervals at most. It is not handed on before
either of the instants reserved for it, unless that is more than anybody can sleep; if somebody can
sleep through both intervals, then never. -/
theorem delay_bounded :
    (∀ (latest interval created : Nat) (calls : List Nat), (created :: calls).Pairwise (· ≤ ·) →
      let instants := Limiter.instants latest calls ⟨interval, created⟩
      instants.length = calls.length ∧
        ∀ (i now : Nat), calls[i]? = some now → ∃ instant,
          IsLeast {t | now ≤ t ∧ ∀ earlier ∈ (instants.take i).reduceOption,
            earlier + interval ≤ t} instant ∧
          instants[i]? = some (if instant + interval ≤ latest then some instant else none)) ∧
      ∀ (clock : Clock) (longest : Nat), clock.SleepsUpTo longest →
        ∀ (pace : Pace) (now : Nat) (messenger : Messenger) (notices : List (Nat × Notice)),
          let run := (start pace now).sendEach clock messenger now notices []
          let turns := run.turns.map Prod.fst
          run.Accounts [] (notices.map Prod.snd) ∧
            (∀ stop ∈ run.stop, stop.Follows clock pace turns ∧
              (pace.overall ≤ longest → pace.perRoom ≤ longest →
                clock.latest < stop.called + 2 * max pace.overall pace.perRoom)) ∧
            ∀ turn ∈ turns,
              turn.overall + pace.overall ≤ clock.latest ∧
                turn.perRoom + pace.perRoom ≤ clock.latest ∧
                turn.called ≤ turn.sent ∧
                turn.sent ≤ turn.called + max pace.overall pace.perRoom ∧
                (turn.overall ≤ turn.sent ∧ turn.perRoom ≤ turn.sent ∨
                  turn.sent = turn.called + longest) ∧
                (pace.overall ≤ longest → pace.perRoom ≤ longest →
                  turn.overall ≤ turn.sent ∧ turn.perRoom ≤ turn.sent) := by
  refine ⟨fun latest interval created calls hcalls => ⟨Limiter.length_instants _ _ calls, ?_⟩, ?_⟩
  · intro i now hcall
    obtain ⟨instant, ⟨hmem, hleast⟩, hgiven⟩ :=
      @Limiter.exists_isLeast_instants ⟨interval, created⟩ latest now calls i hcall
    refine ⟨instant, ⟨⟨hmem.1, hmem.2.2⟩, fun t ht => hleast ⟨ht.1, ?_, ht.2⟩⟩, hgiven⟩
    exact Nat.le_trans (List.rel_of_pairwise_cons hcalls (List.mem_of_getElem? hcall)) ht.1
  · intro clock longest hclock pace now messenger notices run turns
    obtain ⟨hseries, hstop⟩ : Series clock pace turns ∧
        ∀ stop ∈ run.stop, stop.Follows clock pace turns :=
      (records_start pace now).sendEach .nil messenger notices []
    refine ⟨accounts_sendEach clock messenger now notices _ [], fun stop hmem => ⟨hstop stop hmem,
      (hstop stop hmem).latest_lt hseries hclock⟩, fun turn hturn => ?_⟩
    obtain ⟨hlatest, hroomLatest⟩ := hseries.le_latest turn hturn
    obtain ⟨hcalled, -, hsent⟩ := hseries.fair hclock turn hturn
    refine ⟨hlatest, hroomLatest, by omega, hseries.sent_le_called_add hclock turn hturn, by omega,
      fun hshort hshortRoom => ?_⟩
    exact ⟨(hseries.overall_le hclock hshort turn hturn).1,
      (hseries.perRoom_le hclock hshortRoom turn hturn).1⟩

/-- Nobody gets a word through, and still every notice is handed on in its turn, up to one that comes
too shortly before the latest instant. The clock is one that counts seconds with sixty-three bits, and
by which nobody sleeps for more than thirty years; the bot starts three seconds before it ends. -/
theorem delay_bounded_refusals :
    let clock : Clock :=
      ⟨9223372036854775808 * 1000 - 1, fun time => min time (30 * 365 * 86400000)⟩
    let now := clock.latest - 3000
    let run := (start .usual now).sendEach clock (fun _ => (.error (.external "refused"), 7)) now
      [(0, ⟨"b", "one"⟩), (0, ⟨"a", "two"⟩), (3, ⟨"a", "three"⟩), (0, ⟨"a", "four"⟩)] []
    clock.SleepsUpTo (30 * 365 * 86400000) ∧
      IsLeast {t | now ≤ t ∧ ∀ earlier ∈ [now], earlier + 1050 ≤ t} (now + 1050) ∧
      run.handed.map Handover.sent = [now, now + 40, now + 1057] ∧
      run.stop = some ⟨now + 1064, "a"⟩ ∧ clock.latest < now + 1064 + 2 * 1050 ∧
      ∀ turn ∈ run.turns.map Prod.fst, turn.overall ≤ turn.sent ∧ turn.perRoom ≤ turn.sent := by
  intro clock now run
  have hclock : clock.SleepsUpTo (30 * 365 * 86400000) := fun _ _ => rfl
  have hstop : run.stop = some ⟨now + 1064, "a"⟩ := by decide
  have hinstants : Limiter.instants clock.latest [now, now] ⟨1050, now⟩ =
      [some now, some (now + 1050)] := by decide
  obtain ⟨hlimiter, hruns⟩ := delay_bounded
  obtain ⟨-, hlast, hturns⟩ := hruns clock (30 * 365 * 86400000) hclock .usual now
    (fun _ => (.error (.external "refused"), 7))
    [(0, ⟨"b", "one"⟩), (0, ⟨"a", "two"⟩), (3, ⟨"a", "three"⟩), (0, ⟨"a", "four"⟩)]
  refine ⟨hclock, ?_, by decide, hstop, ?_, fun turn hturn => ?_⟩
  · obtain ⟨instant, hleast, hgiven⟩ :=
      (hlimiter clock.latest 1050 now [now, now] (by simp)).2 1 now rfl
    rw [hinstants] at hleast hgiven
    obtain rfl : now + 1050 = instant := by grind
    exact hleast
  · exact (hlast _ hstop).2 (by decide) (by decide)
  · exact (hturns turn hturn).2.2.2.2.2 (by decide) (by decide)

/-- On a clock that counts seconds with sixty-three bits, the longest interval that can be asked for
ends behind the latest instant, and not even the first notice is handed on. Where nobody sleeps for
more than thirty years, a notice that should wait for longer does not. -/
theorem lost_or_early :
    (¬ ∀ (pace : Pace) (notices : List (Nat × Notice)),
      ((start pace 0).sendEach ⟨9223372036854775808 * 1000 - 1, id⟩ (fun _ => (.ok (), 0)) 0
        notices []).handed.map Handover.notice = notices.map Prod.snd) ∧
      ¬ ∀ (pace : Pace) (notices : List (Nat × Notice)),
        ∀ turn ∈ ((start pace 0).sendEach
          ⟨9223372036854775808 * 1000 - 1, fun time => min time (30 * 365 * 86400000)⟩
          (fun _ => (.ok (), 0)) 0 notices []).turns.map Prod.fst,
          turn.overall ≤ turn.sent ∧ turn.perRoom ≤ turn.sent := by
  constructor
  · intro h
    have hlost := h ⟨18446744073709551616 * 1000 - 1, 1050⟩ [(0, ⟨"a", "1"⟩)]
    revert hlost
    decide
  · intro h
    have hearly := h ⟨0, 1000000000000⟩ [(0, ⟨"a", "1"⟩), (0, ⟨"a", "2"⟩)]
    revert hearly
    decide

end Throttle

end RoomBot
