import RoomBot.Proofs.Book.Question
import RoomBot.Proofs.Book.Standing
import RoomBot.Proofs.Store.Likeness
import RoomBot.Proofs.Thinning

/-!
# Strangers leave no trace

Two lists say whom the bot listens to.  What it does not look at (`Event.IsUnheeded`) is met with
silence.  Those who may not manage commands (`Event.IsByStranger`) may ask, and get replies.

Leave out what comes from either, and nobody else notices (`Session.strangers_unnoticed`): the
replies to all other events are the same, and so are the registry and the documents in the end,
whatever was stored at first.  A stranger's question may make the store read a room, which it would
otherwise have read later or not at all.  But what it then remembers is what it would have read, for
among the rooms in play no other writes into that file.
-/

namespace RoomBot

/-! ## Events without effect -/

namespace Event

/-- The bot does not look at the event: it is no text, or its room is not on the list. -/
def IsUnheeded (policy : AccessPolicy) (event : Event) : Prop :=
  event.kind = .other ∨ policy.rooms ≠ [] ∧ event.room ∉ policy.rooms

/-- There is a list of those who may manage commands, and the sender, if known, is not on it. -/
def IsByStranger (policy : AccessPolicy) (event : Event) : Prop :=
  policy.editors ≠ [] ∧ ∀ sender ∈ event.sender, sender ∉ policy.editors

instance instDecidableIsUnheeded (policy : AccessPolicy) (event : Event) :
    Decidable (event.IsUnheeded policy) :=
  inferInstanceAs (Decidable (event.kind = .other ∨ policy.rooms ≠ [] ∧ event.room ∉ policy.rooms))

instance instDecidableIsByStranger (policy : AccessPolicy) (event : Event) :
    Decidable (event.IsByStranger policy) :=
  inferInstanceAs
    (Decidable (policy.editors ≠ [] ∧ ∀ sender ∈ event.sender, sender ∉ policy.editors))

variable {event : Event}

lemma IsUnheeded.heeds_eq_false {settings : Settings} (h : event.IsUnheeded settings.access) :
    Bot.heeds settings event = false := by
  unfold Bot.heeds
  rcases h with hother | ⟨hlist, hroom⟩
  · rw [hother]
    rfl
  · have hnot : settings.access.allowsRoom event.room = false := by
      rw [AccessPolicy.allowsRoom, Bool.eq_false_iff, ne_eq, isAdmitted_iff hlist]
      rintro ⟨room, hmem, hsome⟩
      rw [Option.some.inj hsome] at hroom
      contradiction
    rw [hnot, Bool.and_false]

lemma IsByStranger.canEdit_eq_false {policy : AccessPolicy} (h : event.IsByStranger policy) :
    policy.canEdit event.sender = false := by
  obtain ⟨hlist, hsender⟩ := h
  rw [AccessPolicy.canEdit, Bool.eq_false_iff, ne_eq, isAdmitted_iff hlist]
  rintro ⟨sender, hmem, hsome⟩
  exact hsender sender hsome hmem

end Event

/-! ## Stores that are alike among the rooms in play -/

namespace Store

variable {rooms : Set String} {room : String} {one two after : Store}

/-- Two stores that are alike in the rooms in play, and whose documents are the same but for
times. -/
structure AlikeAmong (rooms : Set String) (one two : Store) : Prop where
  rooms : ∀ room ∈ rooms, AlikeIn room one two
  documents : one.directory.AlikeDocuments two.directory

namespace AlikeAmong

lemma refl (rooms : Set String) (store : Store) : AlikeAmong rooms store store :=
  ⟨fun room _ => .refl room store, .refl store.directory⟩

lemma asked (h : AlikeAmong rooms one two) (hafter : Asked one after) :
    AlikeAmong rooms after two where
  rooms room hroom := (h.rooms room hroom).asked hafter
  documents := by
    rw [hafter.directory]
    exact h.documents

lemma load (h : AlikeAmong rooms one two) (room : String) :
    AlikeAmong rooms (one.load room).2 (two.load room).2 where
  rooms other hother := (h.rooms other hother).load room
  documents := by simpa using h.documents

lemma edit (h : AlikeAmong rooms one two) (hrooms : Set.InjOn digest rooms)
    (hroom : room ∈ rooms) (now later : String) (edit : Edit) :
    AlikeAmong rooms (one.edit room now edit none).2 (two.edit room later edit none).2 where
  rooms other hother := by
    by_cases hne : other = room
    · subst hne
      exact (h.rooms other hother).edit now later edit
    · refine (h.rooms other hother).edit_of_ne (fun hname => hne ?_) now later edit
      exact hrooms hother hroom (documentName_inj.1 hname)
  documents := (h.rooms room hroom).edit_documents h.documents now later edit

end AlikeAmong

end Store

lemma Book.congruence_alikeAmong {rooms : Set String} {room : String}
    (hrooms : Set.InjOn digest rooms) (hroom : room ∈ rooms) :
    Congruence room (Paired (Store.AlikeAmong rooms)) := by
  refine congruence_paired ?_ ?_ ?_
  · intro one two now later edit h
    exact ⟨(h.rooms room hroom).edit_answer now later edit, h.edit hrooms hroom now later edit⟩
  · intro one two name h
    exact ⟨(h.rooms room hroom).lookup name, h.load room⟩
  · intro one two h
    exact ⟨(h.rooms room hroom).list, h.load room⟩

/-! ## Bots of which one meets strangers -/

namespace Bot

variable {rooms : Set String} {one two : Bot} {event : Event}

/-- Two bots in the same position. -/
structure Level (rooms : Set String) (one two : Bot) : Prop where
  settings : one.settings = two.settings
  books : Book.Paired (Store.AlikeAmong rooms) one.book two.book
  foreign : one.book.registry.foreign? = Registry.standing.foreign?

namespace Level

/-- Nothing comes of an event without effect. -/
lemma unnoticed (h : Level rooms one two) (moment : Moment)
    (hevent : event.IsUnheeded one.settings.access ∨ event.IsByStranger one.settings.access) :
    Level rooms (one.handle moment event).2 two := by
  rcases hevent with hunheeded | hstranger
  · rw [handle_of_unheeded hunheeded.heeds_eq_false]
    exact h
  · have hasked : Book.Asked one.book (one.handle moment event).2.book :=
      handle_asked (fun _ _ _ => hstranger.canEdit_eq_false) moment
    have hstep := handle_step moment event one
    refine ⟨(handle_settings moment event one).trans h.settings, ?_, hstep.foreign?.trans h.foreign⟩
    exact ⟨hasked.registry.trans h.books.registry, hasked.counts.trans h.books.counts,
      hstep.pending h.books.left_pending, h.books.right_pending, h.books.stores.asked hasked.store⟩

/-- Both bots give the same reply to an event in play, unless chance has a part in it. -/
lemma handle (h : Level rooms one two) (hrooms : Set.InjOn digest rooms)
    (hroom : event.room ∈ rooms) (moment other : Moment) :
    Exchange.Matches one.settings.mark (fun _ => True) ⟨one, moment, event⟩ ⟨two, other, event⟩ ∧
      Level rooms (one.handle moment event).2 (two.handle other event).2 := by
  obtain ⟨hreply, hbooks⟩ :=
    (Book.congruence_alikeAmong hrooms hroom).handle_paired h.books h.settings moment other
  refine ⟨⟨rfl, fun _ hluck => hreply fun found hfound => ?_⟩, ?_, hbooks, ?_⟩
  · exact Book.sameChance_of_foreign? h.foreign hfound hluck
  · simp [h.settings]
  · exact (handle_step moment event one).foreign?.trans h.foreign

/-- The two bots stay in the same position, whoever else is met by the first. -/
lemma run (h : Level rooms one two) (hrooms : Set.InjOn digest rooms)
    {xs zs : List (Moment × Event)} (hplay : roomsOf xs ⊆ rooms)
    (hevents : (xs.map Prod.snd).filter (fun event =>
        ¬ event.IsUnheeded one.settings.access ∧ ¬ event.IsByStranger one.settings.access) =
      zs.map Prod.snd) :
    List.Forall₂ (Exchange.Matches one.settings.mark fun _ => True)
        ((one.exchanges xs).filter fun exchange =>
          ¬ exchange.event.IsUnheeded one.settings.access ∧
            ¬ exchange.event.IsByStranger one.settings.access)
        (two.exchanges zs) ∧
      Level rooms (one.run xs).2 (two.run zs).2 := by
  refine forall₂_exchanges {event | event.room ∈ rooms} (fun event =>
    ¬ event.IsUnheeded one.settings.access ∧ ¬ event.IsByStranger one.settings.access) ?_ ?_
    (fun entry hentry => hplay ⟨entry, hentry, rfl⟩) hevents rfl h
  · intro first second moment event hsettings hlevel _ hnot
    have hevent := of_decide_eq_false hnot
    rw [← hsettings, not_and_or, not_not, not_not] at hevent
    exact hlevel.unnoticed moment hevent
  · intro first second moment other event hsettings hlevel hroom _
    rw [← hsettings]
    exact hlevel.handle hrooms hroom moment other

end Level

/-- Whatever happened before, the bot says nothing to what it does not look at. -/
lemma reply_eq_none_of_unheeded {bot : Bot} {events : List (Moment × Event)} {exchange : Exchange}
    (hmem : exchange ∈ bot.exchanges events)
    (h : exchange.event.IsUnheeded bot.settings.access) : exchange.reply = none := by
  rw [← settings_of_mem_exchanges hmem] at h
  rw [Exchange.reply, handle_of_unheeded h.heeds_eq_false]

end Bot

/-! ## Nobody notices -/

namespace Session

/-- A bot is started on whatever is stored and meets some events; another one meets them without
those that it does not look at and without those of strangers, maybe at other times. If the rooms in
play have different digests, then the two bots give the same reply to every event that is left,
unless chance has a part in it, and in the end they have the same registry and the same documents,
times aside. What the bot does not look at gets no reply. -/
theorem strangers_unnoticed {settings : Settings} {directory : Directory} {first : Bot}
    (hstart : start none settings directory = running first) (xs zs : List (Moment × Event))
    (hevents : (xs.map Prod.snd).filter (fun event =>
        ¬ event.IsUnheeded settings.access ∧ ¬ event.IsByStranger settings.access) =
      zs.map Prod.snd)
    (hrooms : Set.InjOn digest (roomsOf xs)) :
    (∀ exchange ∈ first.exchanges xs, exchange.event.IsUnheeded settings.access →
      exchange.reply = none) ∧
    List.Forall₂ (Exchange.Matches settings.mark fun _ => True)
      ((first.exchanges xs).filter fun exchange =>
        ¬ exchange.event.IsUnheeded settings.access ∧ ¬ exchange.event.IsByStranger settings.access)
      (first.exchanges zs) ∧
    (first.run xs).2.book.registry.entries = (first.run zs).2.book.registry.entries ∧
    (first.run xs).2.book.vault.store.directory.AlikeDocuments
      (first.run zs).2.book.vault.store.directory := by
  obtain ⟨store, -, hstarted⟩ := exists_store_of_start hstart
  obtain ⟨_, told, -, -, hfirst⟩ := Book.exists_adopted_of_start (by simp) hstarted
  have hpending : first.book.vault.pending = none := by
    rw [hfirst, Book.vault_foldl_adopt]
  have hself : Bot.Level (roomsOf xs) first first :=
    ⟨rfl, ⟨rfl, rfl, hpending, hpending, .refl _ _⟩, Book.foreign?_of_start (by simp) hstarted⟩
  obtain rfl : first.settings = settings := congrArg Bot.settings hfirst
  obtain ⟨hmatches, hlast⟩ := hself.run hrooms subset_rfl hevents
  exact ⟨fun _ => Bot.reply_eq_none_of_unheeded, hmatches,
    congrArg Registry.entries hlast.books.registry, hlast.books.stores.documents⟩

/-- Somebody who may not do so tries to define a name and to remove it: the editor's command is
stored and answered as if nothing had happened. -/
theorem strangers_unnoticed_oneEditor :
    let settings : Settings := ⟨'!', false, ⟨[], ["1"]⟩⟩
    let moment : Moment := ⟨"noon", ⟨0, by decide⟩, fun _ _ => 1⟩
    let other : Moment := ⟨"midnight", ⟨1, by decide⟩, fun _ _ => 2⟩
    let say (sender body : String) : Event := ⟨"a", some sender, .text, body⟩
    let xs : List (Moment × Event) :=
      [(moment, say "2" "!addcommand hi Ho"), (moment, say "1" "!addcommand hi Hey"),
        (moment, say "2" "!remcommand hi"), (moment, say "1" "!hi")]
    let zs : List (Moment × Event) :=
      [(other, say "1" "!addcommand hi Hey"), (other, say "1" "!hi")]
    (xs.map Prod.snd).filter (fun event =>
        ¬ event.IsUnheeded settings.access ∧ ¬ event.IsByStranger settings.access) =
      zs.map Prod.snd ∧
    Set.InjOn digest (roomsOf xs) ∧
    ∃ first exchange, start none settings (.present ∅) = running first ∧
      exchange ∈ first.exchanges xs ∧ exchange.event = say "1" "!hi" ∧
      exchange.reply = some "Hey" := by
  intro settings moment other say xs zs
  have hevents : (xs.map Prod.snd).filter (fun event =>
        ¬ event.IsUnheeded settings.access ∧ ¬ event.IsByStranger settings.access) =
      zs.map Prod.snd := by
    decide
  have hrooms : Set.InjOn digest (roomsOf xs) := by
    have hroom : ∀ room ∈ roomsOf xs, room = "a" := by
      rintro room ⟨entry, hentry, rfl⟩
      simp only [xs, List.mem_cons, List.not_mem_nil, or_false] at hentry
      rcases hentry with rfl | rfl | rfl | rfl <;> rfl
    intro one hone two htwo _
    rw [hroom one hone, hroom two htwo]
  have hstart : start none settings (.present ∅) =
      running ⟨settings, ⟨Registry.standing, ∅, ⟨⟨.present ∅, ∅⟩, none⟩⟩⟩ :=
    start_eq rfl (Book.start_empty settings)
  have hreplies : (start none settings (.present ∅)).replies zs =
      [some "New command saved: !hi", some "Hey"] := by
    decide +kernel
  generalize (⟨settings, ⟨Registry.standing, ∅, ⟨⟨.present ∅, ∅⟩, none⟩⟩⟩ : Bot) = first at hstart
  obtain ⟨-, hmatches, -, -⟩ := strangers_unnoticed hstart xs zs hevents hrooms
  have hluck : (say "1" "!hi").SameLuck settings.mark moment other := by
    right
    rintro ⟨call, hfound, hname⟩
    have hcall : Command.Call.ofText? '!' "!hi" = some ⟨"hi", ""⟩ := by decide +kernel
    obtain rfl := Option.some.inj (hcall.symm.trans hfound)
    simp at hname
  -- The stranger's two events are left out.
  let second := (first.handle moment (say "2" "!addcommand hi Ho")).2
  let fourth := ((second.handle moment (say "1" "!addcommand hi Hey")).2.handle moment
    (say "2" "!remcommand hi")).2
  have hkept : (first.exchanges xs).filter (fun exchange =>
      ¬ exchange.event.IsUnheeded settings.access ∧
        ¬ exchange.event.IsByStranger settings.access) =
      [⟨second, moment, say "1" "!addcommand hi Hey"⟩, ⟨fourth, moment, say "1" "!hi"⟩] := rfl
  rw [hkept] at hmatches
  simp only [zs, Bot.exchanges, List.forall₂_cons] at hmatches
  obtain ⟨-, ⟨-, hmatch⟩, -⟩ := hmatches
  simp only [hstart, replies, ← Bot.map_reply_exchanges, zs, Bot.exchanges, List.map_cons,
    List.map_nil, List.cons.injEq] at hreplies
  refine ⟨hevents, hrooms, first, _, hstart, ?_, rfl, (hmatch trivial hluck).trans hreplies.2.1⟩
  simp [xs, Bot.exchanges, fourth, second]

end Session

end RoomBot
