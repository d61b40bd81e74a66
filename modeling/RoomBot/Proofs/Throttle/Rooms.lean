import RoomBot.Proofs.Throttle.Turns

/-!
# How far apart notices to one room go out

The instants that are reserved among the notices to one room lie the interval of rooms apart.  The
notices themselves do not always: one that had to wait for its turn among all notices goes out later
than its own instant in the room says, and the next notice to the room is counted from that instant
(`room_crowded`).

What is missing is never more than the overall interval, because a notice waits that long at most
for its turn among all (`Series.sent_le`).  It is never missing twice in a row: of three notices to a
room the first and the last keep their distance.  And nothing is missing where the first of two
notices did not wait for its turn among all, or where rooms are no slower than the bot as a whole
(`room_spaced`).
-/

namespace RoomBot

variable {clock : Clock} {longest : Nat} {pace : Pace} {turns : List Turn}

/-! ## Waiting for the turn among all -/

namespace Series

lemma overall_le (h : Series clock pace turns) (hclock : clock.SleepsUpTo longest)
    (hshort : pace.overall ≤ longest) :
    ∀ turn ∈ turns, turn.overall ≤ turn.sent ∧ turn.overall ≤ turn.called + pace.overall := by
  refine h.forall_mem fun before turn hbefore hfollows => ?_
  have hsent := (hfollows.fair hclock).sent
  have hinstant := hfollows.due.overall_le fun earlier hearlier =>
    Nat.le_trans (hbefore earlier hearlier).1 (hfollows.sent_le earlier hearlier)
  omega

/-- A notice waits for its room, or not longer than the overall interval. -/
lemma sent_le (h : Series clock pace turns) (hclock : clock.SleepsUpTo longest) :
    ∀ turn ∈ turns, turn.sent ≤ max turn.perRoom (turn.called + pace.overall) := by
  intro turn hturn
  have hsent := (h.fair hclock turn hturn).sent
  by_cases hshort : pace.overall ≤ longest
  · have hoverall := h.overall_le hclock hshort turn hturn
    omega
  · omega

end Series

namespace Throttle

/-! ## When notices to a room go out -/

/-- Among the notices that a bot sends from its start, each when the one before it is out, the
instants reserved for two notices to one room lie the interval of rooms apart.

The notices themselves miss their distance, as far as sleep can be relied on, by the overall interval
at most. They keep it if the first of them did not wait for its turn among all, or if rooms are no
slower than the bot as a whole, or if another notice to the room lies between them. -/
theorem room_spaced (hclock : clock.SleepsUpTo longest) (pace : Pace) (now : Nat)
    (notices : List (Nat × String)) :
    let turns := (start pace now).turns clock now notices
    turns.Pairwise (fun one two => one.room = two.room →
        one.perRoom + pace.perRoom ≤ two.perRoom ∧
        one.sent + min pace.perRoom longest ≤ two.sent + pace.overall ∧
        (one.overall ≤ one.perRoom ∨ pace.perRoom ≤ pace.overall →
          one.sent + min pace.perRoom longest ≤ two.sent)) ∧
      ∀ (i j k : Nat) (one two three : Turn), i < j → j < k → turns[i]? = some one →
        turns[j]? = some two → turns[k]? = some three → one.room = two.room →
        two.room = three.room → one.sent + min pace.perRoom longest ≤ three.sent := by
  intro turns
  have hseries : Series clock pace turns := series_turns clock pace now notices
  have hfair := hseries.fair hclock
  have hpairs := List.pairwise_iff_getElem.1 hseries.pairwise
  have hsent := hseries.sent_le hclock
  constructor
  · refine List.pairwise_iff_getElem.2 fun i j hi hj hij hroom => ?_
    have hone := List.getElem_mem hi
    obtain ⟨hcalled, hoverall, hreserved⟩ := hpairs i j hi hj hij
    have hreserved := hreserved hroom
    have hearly := hsent _ hone
    obtain ⟨-, hpassed, hfirst⟩ := hfair _ hone
    have hlast := (hfair _ (List.getElem_mem hj)).sent
    refine ⟨hreserved, by omega, fun hkept => ?_⟩
    rcases hkept with hinstant | hpace
    · omega
    · have hroom := hseries.perRoom_le_overall hpace _ hone
      omega
  · intro i j k one two three hij hjk hone htwo hthree hfirst hsecond
    obtain ⟨hi, rfl⟩ := List.getElem?_eq_some_iff.1 hone
    obtain ⟨hj, rfl⟩ := List.getElem?_eq_some_iff.1 htwo
    obtain ⟨hk, rfl⟩ := List.getElem?_eq_some_iff.1 hthree
    -- The notice in between was called for when the first was out.
    have hbetween := (hpairs i j hi hj hij).1
    have hinstant := (hfair _ (List.getElem_mem hj)).called_le_perRoom
    have hcalled := (hpairs i k hi hk (by omega)).1
    have hreserved := (hpairs j k hj hk hjk).2.2 hsecond
    have hlast := (hfair _ (List.getElem_mem hk)).sent
    omega

/-- The first notice to a room waits forty milliseconds for its turn, and these are missing before
the second. The third keeps its distance from the first. -/
theorem room_spaced_heldBack :
    let clock : Clock := ⟨1000000, fun time => min time 5000⟩
    let turns := (start .usual 0).turns clock 0 [(0, "b"), (0, "a"), (0, "a"), (0, "a")]
    let one : Turn := ⟨"a", 0, 40, 0, 40⟩
    let two : Turn := ⟨"a", 40, 80, 1050, 1050⟩
    let three : Turn := ⟨"a", 1050, 1050, 2100, 2100⟩
    clock.SleepsUpTo 5000 ∧ turns.map Turn.sent = [0, 40, 1050, 2100] ∧ turns[1]? = some one ∧
      turns[2]? = some two ∧ turns[3]? = some three ∧
      one.sent + min Pace.usual.perRoom 5000 ≤ three.sent := by
  intro clock turns one two three
  have hclock : clock.SleepsUpTo 5000 := fun _ _ => rfl
  have hone : turns[1]? = some one := by decide
  have htwo : turns[2]? = some two := by decide
  have hthree : turns[3]? = some three := by decide
  refine ⟨hclock, by decide, hone, htwo, hthree, ?_⟩
  exact (room_spaced hclock .usual 0 [(0, "b"), (0, "a"), (0, "a"), (0, "a")]).2 1 2 3 one two three
    (by decide) (by decide) hone htwo hthree rfl rfl

/-- Notices to one room do not always lie the interval of rooms apart, not even where everybody
sleeps as long as they should. -/
theorem room_crowded :
    ¬ ∀ (pace : Pace) (now : Nat) (notices : List (Nat × String)),
      ((start pace now).turns ⟨1000000, id⟩ now notices).Pairwise fun one two =>
        one.room = two.room → one.sent + pace.perRoom ≤ two.sent := by
  intro h
  have hcrowd := h .usual 0 [(0, "b"), (0, "a"), (0, "a")]
  revert hcrowd
  decide

end Throttle

end RoomBot
