import RoomBot.Proofs.Book.Outcome
import RoomBot.Proofs.Session

/-!
# Sessions in which nothing is refused

As long as the store is refused nothing (`Occurrence.Smooth`), a session that has begun on an empty
directory never comes to a stop: there always is a bot, its book is in order, and its store holds
some commands for each room (`Session.Sound`).

What happens in such a session changes these commands in one way only.  An event asks for an edit,
the bot confirms it (`Session.Confirms`), and the edit has been applied to the commands of the room
where the event happened; everything else, restarts included, leaves all rooms as they are
(`Session.Sound.meet`).

Rooms may share a file here.  What a room loses to another in this way is still among the commands
that the store is said to hold, but only the bot that has written it can tell it.
-/

namespace RoomBot

/-! ## Occurrences -/

namespace Occurrence

/-- The store is refused nothing. -/
def Smooth : Occurrence → Prop
  | event refusal _ _ => refusal = none
  | restart refusal _ => refusal = none

/-- The rooms in which something happens. -/
def rooms (occurrences : List Occurrence) : Set String :=
  {room | ∃ refusal moment event,
    Occurrence.event refusal moment event ∈ occurrences ∧ event.room = room}

variable {occurrence : Occurrence} {occurrences others : List Occurrence}

@[simp] lemma rooms_append :
    rooms (occurrences ++ others) = rooms occurrences ∪ rooms others := by
  ext room
  simp only [rooms, List.mem_append, or_and_right, exists_or, Set.mem_ofPred_eq, Set.mem_union]

lemma rooms_cons_subset_iff {inside : Set String} :
    rooms (occurrence :: occurrences) ⊆ inside ↔
      rooms [occurrence] ⊆ inside ∧ rooms occurrences ⊆ inside := by
  rw [← List.singleton_append, rooms_append, Set.union_subset_iff]

/-- The settings of the bot after an occurrence, if it had these before. -/
def settingsAfter (settings : Settings) : Occurrence → Settings
  | event _ _ _ => settings
  | restart _ settings => settings

end Occurrence

/-! ## Sound bots -/

/-- The book of the bot is in order, and its store holds these commands. -/
structure Bot.Sound (rooms : Set String) (contents : String → Commands) (bot : Bot) : Prop where
  agrees : bot.book.Agrees
  standing : bot.book.Standing
  holds : bot.book.vault.store.Holds rooms contents

variable {rooms : Set String} {contents : String → Commands} {bot : Bot}

lemma Bot.Sound.arm (h : bot.Sound rooms contents) (refusal : Option Refusal) :
    (Session.arm refusal bot).Sound rooms contents where
  agrees := h.agrees.withVault ⟨bot.book.vault.store, refusal.map Refusal.failure⟩ (.refl _)
  standing := ⟨h.standing.definers, h.standing.counts, h.standing.owner⟩
  holds := h.holds

/-- A sound bot that meets an event has done nothing, or it has done what it confirms. -/
lemma Bot.Sound.handle (h : bot.Sound rooms contents) (moment : Moment) {event : Event}
    (hroom : event.room ∈ rooms) :
    (bot.handle moment event).2.Sound rooms contents ∨
    ∃ edit new, event.edit? bot.settings.mark = some edit ∧
      (bot.handle moment event).1 = some (edit.confirmation bot.settings.mark) ∧
      edit.apply event.room moment.now (contents event.room) = .ok new ∧
      (bot.handle moment event).2.Sound rooms (Function.update contents event.room new) := by
  have hstep := handle_step moment event bot
  have hagrees := h.agrees.step hstep
  have hstanding := h.standing.step h.agrees hstep
  rcases handle_outcome h.agrees h.standing.guarded moment event with
    hkept | ⟨edit, old, new, hasked, hreply, hedited⟩
  · exact .inl ⟨hagrees, hstanding, h.holds.untouched hkept.store⟩
  · obtain rfl : old = contents event.room := h.holds.eq_of_commands hedited.known
    exact .inr ⟨edit, new, hasked, hreply, hedited.apply, hagrees, hstanding,
      h.holds.edited hroom hedited⟩

/-! ## Sound sessions -/

namespace Session

/-- A sound bot with these settings is running. -/
def Sound (settings : Settings) (rooms : Set String) (contents : String → Commands) :
    Session → Prop
  | running bot => bot.settings = settings ∧ bot.Sound rooms contents
  | stopped _ => False

/-- The event asks for the edit, and the bot confirms it. -/
def Confirms (moment : Moment) (event : Event) (edit : Edit) : Session → Prop
  | running bot => event.edit? bot.settings.mark = some edit ∧
      ((arm none bot).handle moment event).1 = some (edit.confirmation bot.settings.mark)
  | stopped _ => False

lemma sound_start {directory : Directory} (hholds : Store.Holds rooms contents ⟨directory, ∅⟩)
    (hreserved : ∀ name ∈ reservedNames, Store.Definers name ∅ ⟨directory, ∅⟩)
    (settings : Settings) : (start none settings directory).Sound settings rooms contents := by
  have hfaithful := Store.faithful_of_cache_empty directory
  obtain ⟨found, hfound⟩ := hholds.exists_rooms
  obtain ⟨told, htold⟩ := hfaithful.exists_told hfound
  obtain ⟨bot, hstart, hsettings, hagrees, hstanding, hvault⟩ :=
    Book.exists_start_of_all hfaithful htold hreserved settings
  rw [start_eq hholds.reopen.1 hstart]
  refine ⟨hsettings, hagrees, hstanding, ?_⟩
  rw [hvault]
  exact hholds.untouched (Store.all_spec _).2

lemma sound_start_empty (rooms : Set String) (settings : Settings) :
    (start none settings (.present ∅)).Sound settings rooms fun _ => ∅ := by
  have hholds := Store.Holds.empty rooms
  refine sound_start hholds (fun name _ room => ?_) settings
  refine iff_of_false (Finset.notMem_empty room) fun hdefines => ?_
  obtain ⟨commands, hcommands, hname⟩ := Store.defines_iff.1 hdefines
  rw [hholds.eq_of_commands hcommands] at hname
  simp at hname

lemma sound_restart (h : bot.Sound rooms contents) (settings : Settings) :
    (start none settings bot.book.vault.store.directory).Sound settings rooms contents := by
  refine sound_start h.holds.reopen.2 (fun name hname room => ?_) settings
  refine iff_of_false (Finset.notMem_empty room) fun hdefines => ?_
  -- What the documents tell the new store, the old one knew.
  obtain ⟨commands, hcommands, hmem⟩ := Store.defines_iff.1 hdefines
  rw [Store.commands_of_uncached Std.ExtTreeMap.getElem?_empty] at hcommands
  have hbefore := Store.defines_iff.2 ⟨commands, h.holds.commands_of_directory hcommands, hmem⟩
  exact absurd ((h.standing.definers name hname room).2 hbefore) (Finset.notMem_empty room)

variable {session : Session} {settings : Settings} {occurrence : Occurrence}
  {occurrences : List Occurrence}

lemma Sound.exists_running (h : session.Sound settings rooms contents) :
    ∃ bot, session = running bot ∧ bot.settings = settings ∧ bot.Sound rooms contents := by
  cases session with
  | stopped directory => exact h.elim
  | running bot => exact ⟨bot, rfl, h.1, h.2⟩

/-- Whatever happens to a sound session, it stays sound, and what it holds is as before but for
the edit that it confirms. -/
theorem Sound.meet (h : session.Sound settings rooms contents) (hsmooth : occurrence.Smooth)
    (hrooms : Occurrence.rooms [occurrence] ⊆ rooms) :
    (session.meet occurrence).Sound (occurrence.settingsAfter settings) rooms contents ∨
    ∃ moment event edit new, occurrence = .event none moment event ∧
      session.Confirms moment event edit ∧
      edit.apply event.room moment.now (contents event.room) = .ok new ∧
      (session.meet occurrence).Sound settings rooms
        (Function.update contents event.room new) := by
  obtain ⟨bot, rfl, hsettings, hbot⟩ := h.exists_running
  cases occurrence with
  | restart refusal settings =>
    obtain rfl : refusal = none := hsmooth
    exact .inl (sound_restart hbot settings)
  | event refusal moment event =>
    obtain rfl : refusal = none := hsmooth
    have hroom : event.room ∈ rooms :=
      hrooms ⟨none, moment, event, List.mem_singleton_self _, rfl⟩
    have hafter := (Bot.handle_settings moment event (arm none bot)).trans hsettings
    rcases (hbot.arm none).handle moment hroom with
      hkept | ⟨edit, new, hasked, hreply, happly, hedited⟩
    · exact .inl ⟨hafter, hkept⟩
    · exact .inr ⟨moment, event, edit, new, rfl, ⟨hasked, hreply⟩, happly, hafter, hedited⟩

/-- A smooth session stays sound, whatever happens and however much. -/
lemma Sound.exists_foldl_meet (h : session.Sound settings rooms contents)
    (hsmooth : ∀ occurrence ∈ occurrences, occurrence.Smooth)
    (hrooms : Occurrence.rooms occurrences ⊆ rooms) :
    ∃ contents, (occurrences.foldl Session.meet session).Sound
      (occurrences.foldl Occurrence.settingsAfter settings) rooms contents := by
  induction occurrences generalizing session settings contents with
  | nil => exact ⟨contents, h⟩
  | cons occurrence occurrences ih =>
    rw [List.forall_mem_cons] at hsmooth
    obtain ⟨hfirst, hrest⟩ := Occurrence.rooms_cons_subset_iff.1 hrooms
    rcases h.meet hsmooth.1 hfirst with hafter | ⟨_, _, _, _, rfl, -, -, hafter⟩
    · exact ih hafter hsmooth.2 hrest
    · exact ih hafter hsmooth.2 hrest

end Session

end RoomBot
