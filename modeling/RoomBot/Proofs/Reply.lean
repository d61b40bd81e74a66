import RoomBot.Proofs.Book.Standing
import RoomBot.Proofs.Book.Wording
import RoomBot.Proofs.Session

/-!
# Replies that can be seen

A chat network takes no message in which there is nothing to see.  A bot that began on an empty
directory has only stored responses that can be seen, however often it was restarted and whichever
calls of its store were refused, and whatever it says of its own accord has words in it.

There is one exception.  A roll of nothing but commas is not refused, as a roll of nothing at all
is, and its reply is the empty text.  The replies to all other events can be seen
(`Session.reply_visible`).
-/

namespace RoomBot

open Text

/-- What a store has looked at once goes on to be seen, whatever an event does. -/
lemma Book.Step.telling {room : String} {before after : Book} (h : Step room before after)
    (hbefore : before.vault.store.Telling) : after.vault.store.Telling := by
  cases h with
  | idle => exact hbefore
  | asked untouched => exact untouched.telling hbefore
  | added _ _ edited => exact edited.telling hbefore
  | refused _ _ untouched =>
    rw [(release_touchesOnly _ _).vault]
    exact untouched.telling hbefore
  | modified edited => exact edited.telling hbefore
  | removed edited =>
    rw [(release_touchesOnly _ _).vault]
    exact edited.telling hbefore

/-! ## The reply to an event -/

/-- The event calls for a roll of nothing but commas. -/
def Event.RollsCommas (mark : Char) (event : Event) : Prop :=
  ∃ call, Command.Call.ofText? mark event.body = some call ∧ call.name = "roll" ∧
    Dice.OnlyCommas call.args

namespace Bot

variable {bot : Bot} {moment : Moment} {event : Event} {reply : String}

/-- The bot has nothing to tell that cannot be seen, and the other owners have the names that they
had first. -/
structure Telling (bot : Bot) : Prop where
  stored : bot.book.vault.store.Telling
  foreign : bot.book.registry.foreign? = Registry.standing.foreign?

lemma Telling.handle (h : bot.Telling) (moment : Moment) (event : Event) :
    (bot.handle moment event).2.Telling where
  stored := (handle_step moment event bot).telling h.stored
  foreign := (handle_step moment event bot).foreign?.trans h.foreign

lemma isVisible_unknownReply {settings : Settings} {text : String}
    (h : unknownReply settings text = some reply) : IsVisible reply := by
  simp only [unknownReply] at h
  split at h
  · contradiction
  · split at h
    · rw [← Option.some.inj h]
      exact ⟨'I', by simp [toString], rfl⟩
    · contradiction

/-- An event that runs a command is answered with the words of the owner. -/
lemma handle_of_dispatch (bot : Bot) (moment : Moment) {found : Registry.Invocation}
    (hheeds : heeds bot.settings event = true)
    (hfound : bot.book.registry.dispatch bot.settings.mark event.body = some found) :
    bot.handle moment event =
      let answer := bot.book.serve bot.settings moment found.owner
        ⟨event.room, event.sender, found.call⟩
      (some (Book.wording answer.1), { bot with book := answer.2 }) := by
  simp only [handle, hheeds, if_true, hfound]
  split
  · rename_i hserved
    rw [hserved]
    rfl
  · rename_i hserved
    rw [hserved]
    rfl

/-- A reply is given to a command that is not known, or by the owner of one that is. -/
lemma reply_cases (h : (bot.handle moment event).1 = some reply) :
    (bot.book.registry.dispatch bot.settings.mark event.body = none ∧
      unknownReply bot.settings event.body = some reply) ∨
    ∃ found, bot.book.registry.dispatch bot.settings.mark event.body = some found ∧
      reply = Book.wording (bot.book.serve bot.settings moment found.owner
        ⟨event.room, event.sender, found.call⟩).1 := by
  by_cases hheeds : heeds bot.settings event = true
  · cases hdispatch : bot.book.registry.dispatch bot.settings.mark event.body with
    | none =>
      simp only [handle, hheeds, if_true, hdispatch] at h
      exact .inl ⟨rfl, h⟩
    | some found =>
      rw [handle_of_dispatch bot moment hheeds hdispatch] at h
      exact .inr ⟨found, rfl, (Option.some.inj h).symm⟩
  · simp only [handle, hheeds, if_false, Bool.false_eq_true] at h
    contradiction

lemma Telling.roller_iff (h : bot.Telling) {text : String} {found : Registry.Invocation}
    (hfound : bot.book.registry.dispatch bot.settings.mark text = some found) :
    found.owner = .roller ↔ found.call.name = "roll" := by
  obtain ⟨-, howner⟩ := Registry.dispatch_eq_some hfound
  constructor
  · intro hroller
    have hentry := Registry.mem_standing_entries h.foreign howner
    simpa [hroller, Registry.standing_entries] using hentry
  · intro hname
    have hguarded := Book.guarded_of_foreign? h.foreign "roll" .roller (by simp) (by decide)
    rw [hname, hguarded] at howner
    exact (Option.some.inj howner).symm

lemma Telling.isVisible_reply (h : bot.Telling) (hcallable : bot.book.Callable)
    (hreply : (bot.handle moment event).1 = some reply)
    (hroll : ¬ event.RollsCommas bot.settings.mark) : IsVisible reply := by
  rcases reply_cases hreply with ⟨-, hunknown⟩ | ⟨found, hfound, rfl⟩
  · exact isVisible_unknownReply hunknown
  · refine Book.isVisible_serve hcallable h.stored fun howner hcommas => hroll ?_
    exact ⟨found.call, (Registry.dispatch_eq_some hfound).1, (h.roller_iff hfound).1 howner,
      hcommas⟩

lemma Telling.reply_eq_empty (h : bot.Telling)
    (hreply : (bot.handle moment event).1 = some reply)
    (hroll : event.RollsCommas bot.settings.mark) : reply = "" := by
  obtain ⟨call, hcall, hname, hcommas⟩ := hroll
  have howner := Book.guarded_of_foreign? h.foreign "roll" .roller (by simp) (by decide)
  have hdispatch : bot.book.registry.dispatch bot.settings.mark event.body =
      some ⟨call, .roller⟩ := by
    refine Option.bind_eq_some_iff.2 ⟨call, hcall, Option.bind_eq_some_iff.2 ⟨.roller, ?_, rfl⟩⟩
    rw [hname, howner]
  rcases reply_cases hreply with ⟨hnone, -⟩ | ⟨found, hfound, rfl⟩
  · rw [hdispatch] at hnone
    contradiction
  · rw [hdispatch] at hfound
    rw [← Option.some.inj hfound]
    simp only [Book.serve, Book.rollDice_of_onlyCommas hcommas, Book.wording]

end Bot

/-! ## Sessions on an empty directory -/

namespace Session

/-- If a bot is running, it has nothing to tell that cannot be seen; if none is, the directory has
nothing to tell to the next. -/
def Telling : Session → Prop
  | running bot => bot.Telling
  | stopped directory => directory.Telling

lemma Telling.directory {session : Session} (h : session.Telling) :
    session.directory.Telling := by
  cases session with
  | running bot => exact Bot.Telling.stored h |>.stored
  | stopped directory => exact h

lemma telling_start (refusal : Option Refusal) (settings : Settings) {directory : Directory}
    (h : directory.Telling) : (start refusal settings directory).Telling := by
  simp only [start]
  cases hstore : Store.ofDirectory directory with
  | error failure => exact h
  | ok store =>
    have hstored := Store.telling_of_ofDirectory h hstore
    simp only
    cases hstart : Bot.start settings ⟨store, refusal.map Refusal.failure⟩ with
    | error failure => exact hstored.stored
    | ok bot =>
      refine ⟨?_, Book.foreign?_of_start Refusal.isPersistence_of_map hstart⟩
      obtain ⟨opened, told, hvault, -, rfl⟩ :=
        Book.exists_adopted_of_start Refusal.isPersistence_of_map hstart
      obtain ⟨rfl, -⟩ := Vault.mk.inj hvault
      rw [Book.vault_foldl_adopt]
      exact (Store.all_spec store).2.telling hstored

lemma Telling.arm {bot : Bot} (h : bot.Telling) (refusal : Option Refusal) :
    (arm refusal bot).Telling :=
  ⟨h.stored, h.foreign⟩

lemma Telling.meet {session : Session} (h : session.Telling) (occurrence : Occurrence) :
    (session.meet occurrence).Telling := by
  cases occurrence with
  | restart refusal settings => exact telling_start refusal settings h.directory
  | event refusal moment event =>
    cases session with
    | stopped directory => exact h
    | running bot => exact (Telling.arm h refusal).handle moment event

lemma Telling.foldl_meet {session : Session} (h : session.Telling)
    (occurrences : List Occurrence) : (occurrences.foldl Session.meet session).Telling := by
  induction occurrences generalizing session with
  | nil => exact h
  | cons occurrence occurrences ih => exact ih (h.meet occurrence)

lemma callable_arm (refusal : Option Refusal) (bot : Bot) : (arm refusal bot).book.Callable :=
  Refusal.isPersistence_of_map

/-- In every session on an empty directory, whatever has happened and whether or not the next call
of the store is refused, a reply is empty if the event calls for a roll of nothing but commas, and
otherwise can be seen. -/
theorem reply_visible {refusal failing : Option Refusal} {settings : Settings}
    {occurrences : List Occurrence} {bot : Bot}
    (h : run refusal settings (.present ∅) occurrences = running bot) {moment : Moment}
    {event : Event} {reply : String}
    (hreply : ((arm failing bot).handle moment event).1 = some reply) :
    (event.RollsCommas bot.settings.mark → reply = "") ∧
      (¬ event.RollsCommas bot.settings.mark → IsVisible reply) := by
  have htelling := (telling_start refusal settings Directory.telling_empty).foldl_meet occurrences
  rw [← run, h] at htelling
  have harmed : (arm failing bot).Telling := Telling.arm htelling failing
  exact ⟨harmed.reply_eq_empty hreply, harmed.isVisible_reply (callable_arm failing bot) hreply⟩

/-- The mark of the bot that is running, and its reply to one more event. -/
def reply? (moment : Moment) (event : Event) : Session → Option (Char × String)
  | running bot => ((arm none bot).handle moment event).1.map (bot.settings.mark, ·)
  | stopped _ => none

lemma reply?_eq_some {moment : Moment} {event : Event} {session : Session} {mark : Char}
    {reply : String} (h : session.reply? moment event = some (mark, reply)) :
    ∃ bot, session = running bot ∧ bot.settings.mark = mark ∧
      ((arm none bot).handle moment event).1 = some reply := by
  cases session with
  | stopped directory => contradiction
  | running bot =>
    obtain ⟨given, hgiven, hpair⟩ := Option.map_eq_some_iff.1 h
    obtain ⟨hmark, rfl⟩ := Prod.mk.inj hpair
    exact ⟨bot, rfl, hmark, hgiven⟩

/-- A command that was refused once and defined after a restart says what it was defined to say. -/
theorem reply_visible_afterRefusal :
    let moment : Moment := ⟨"noon", ⟨0, by decide⟩, fun _ _ => 1⟩
    let say (body : String) : Event := ⟨"a", none, .text, body⟩
    let occurrences : List Occurrence :=
      [.event (some ⟨"", "no space left"⟩) moment (say "!addcommand hi Hey"),
        .restart none .usual, .event none moment (say "!addcommand hi Hey")]
    ∃ bot, run none .usual (.present ∅) occurrences = running bot ∧
      ((arm none bot).handle moment (say "!hi")).1 = some "Hey" ∧
      ¬ (say "!hi").RollsCommas bot.settings.mark ∧ IsVisible "Hey" := by
  intro moment say occurrences
  have hsaid : (run none .usual (.present ∅) occurrences).reply? moment (say "!hi") =
      some ('!', "Hey") := by
    decide +kernel
  obtain ⟨bot, hrun, hmark, hreply⟩ := reply?_eq_some hsaid
  have hother : ¬ (say "!hi").RollsCommas bot.settings.mark := by
    rw [hmark]
    rintro ⟨call, hcall, hname, -⟩
    have hhi : Command.Call.ofText? '!' "!hi" = some ⟨"hi", ""⟩ := by decide +kernel
    rw [← Option.some.inj (hhi.symm.trans hcall)] at hname
    contradiction
  exact ⟨bot, hrun, hreply, hother, (reply_visible hrun hreply).2 hother⟩

/-- Not every reply can be seen: that to a roll of one comma is empty. -/
theorem reply_to_comma :
    ¬ ∀ (settings : Settings) (occurrences : List Occurrence) (bot : Bot) (moment : Moment)
      (event : Event) (reply : String),
      run none settings (.present ∅) occurrences = running bot →
      ((arm none bot).handle moment event).1 = some reply → IsVisible reply := by
  intro h
  let moment : Moment := ⟨"noon", ⟨0, by decide⟩, fun _ _ => 1⟩
  let roll : Event := ⟨"a", none, .text, "!roll ,"⟩
  have hsaid : (run none .usual (.present ∅) []).reply? moment roll = some ('!', "") := by
    decide +kernel
  obtain ⟨bot, hrun, -, hreply⟩ := reply?_eq_some hsaid
  obtain ⟨c, hc, -⟩ := h .usual [] bot moment roll "" hrun hreply
  simp at hc

end Session

end RoomBot
