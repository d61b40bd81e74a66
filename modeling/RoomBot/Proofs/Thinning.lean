import RoomBot.Proofs.Restart

/-!
# Events that are left out

One bot meets some events, and another meets only those of them that are kept, maybe at other times.
An `Exchange` is one event together with the bot that meets it, as it is then, so that a reply can be
set beside the one that the other bot gives to the same event.

A relation between bots that survives the events that are left out, which only the first meets, and
those that are kept, which both meet, holds to the end, and whatever it says of an exchange holds of
all that are kept (`Bot.forall₂_exchanges`).
-/

namespace RoomBot

/-- An event at a moment, and the bot that meets it. -/
structure Exchange where
  bot : Bot
  moment : Moment
  event : Event

namespace Exchange

/-- What the bot says. -/
def reply (exchange : Exchange) : Option String :=
  (exchange.bot.handle exchange.moment exchange.event).1

/-- The same event in two runs, with the same reply if the first run fulfils a condition and chance
plays no trick. -/
def Matches (mark : Char) (condition : Exchange → Prop) (one two : Exchange) : Prop :=
  one.event = two.event ∧
    (condition one → one.event.SameLuck mark one.moment two.moment → one.reply = two.reply)

end Exchange

namespace Bot

/-- The exchanges of a bot that meets some events, one after another. -/
def exchanges : List (Moment × Event) → Bot → List Exchange
  | [], _ => []
  | (moment, event) :: rest, bot =>
    ⟨bot, moment, event⟩ :: exchanges rest (bot.handle moment event).2

lemma map_reply_exchanges (events : List (Moment × Event)) (bot : Bot) :
    (bot.exchanges events).map Exchange.reply = (bot.run events).1 := by
  induction events generalizing bot with
  | nil => rfl
  | cons entry events ih =>
    obtain ⟨moment, event⟩ := entry
    exact congrArg (List.cons (bot.handle moment event).1) (ih (bot.handle moment event).2)

lemma settings_of_mem_exchanges {events : List (Moment × Event)} {bot : Bot} {exchange : Exchange}
    (h : exchange ∈ bot.exchanges events) : exchange.bot.settings = bot.settings := by
  induction events generalizing bot with
  | nil => simp [exchanges] at h
  | cons entry events ih =>
    obtain ⟨moment, event⟩ := entry
    rcases List.mem_cons.1 h with rfl | hrest
    · rfl
    · exact (ih hrest).trans (handle_settings moment event bot)

/-- A relation that is kept when the first bot alone meets an event that is left out, and when both
meet one that is kept, holds in the end, and the exchanges that are kept match. The first bot keeps
its settings, which may say what is left out. -/
theorem forall₂_exchanges {R : Bot → Bot → Prop} {Q : Exchange → Exchange → Prop}
    (inside : Set Event) (kept : Event → Bool) {settings : Settings}
    (hleft : ∀ {one two : Bot} (moment : Moment) {event : Event}, one.settings = settings →
      R one two → event ∈ inside → kept event = false → R (one.handle moment event).2 two)
    (hkept : ∀ {one two : Bot} (moment other : Moment) {event : Event}, one.settings = settings →
      R one two → event ∈ inside → kept event = true →
      Q ⟨one, moment, event⟩ ⟨two, other, event⟩ ∧
        R (one.handle moment event).2 (two.handle other event).2)
    {xs zs : List (Moment × Event)} (hinside : ∀ entry ∈ xs, entry.2 ∈ inside)
    (hevents : (xs.map Prod.snd).filter kept = zs.map Prod.snd) {one two : Bot}
    (hsettings : one.settings = settings) (h : R one two) :
    List.Forall₂ Q ((one.exchanges xs).filter fun exchange => kept exchange.event)
        (two.exchanges zs) ∧
      R (one.run xs).2 (two.run zs).2 := by
  induction xs generalizing zs one two with
  | nil =>
    obtain rfl : zs = [] := by simpa using hevents.symm
    exact ⟨.nil, h⟩
  | cons x xs ih =>
    obtain ⟨moment, event⟩ := x
    rw [List.forall_mem_cons] at hinside
    obtain ⟨hevent, hinside⟩ := hinside
    have hlater := (handle_settings moment event one).trans hsettings
    rw [List.map_cons, List.filter_cons] at hevents
    simp only [exchanges, List.filter_cons]
    cases hkeep : kept event with
    | false =>
      rw [hkeep] at hevents
      exact ih hinside hevents hlater (hleft moment hsettings h hevent hkeep)
    | true =>
      rw [hkeep, if_pos rfl] at hevents
      cases zs with
      | nil => simp at hevents
      | cons z zs =>
        obtain ⟨other, _⟩ := z
        obtain ⟨rfl, hrest⟩ := List.cons.inj hevents
        obtain ⟨hmatch, hafter⟩ := hkept moment other hsettings h hevent hkeep
        obtain ⟨hmatches, hlast⟩ := ih hinside hrest hlater hafter
        exact ⟨.cons hmatch hmatches, hlast⟩

end Bot

end RoomBot
