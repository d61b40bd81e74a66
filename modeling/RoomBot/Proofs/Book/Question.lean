import RoomBot.Proofs.Book.Step

/-!
# Events that only ask

An event that manages nothing, or that comes from somebody who may not manage anything, can only ask
(`Bot.handle_asked`).  The names, the counts and the directory are the same afterwards, down to the
last file.  The store may remember more rooms, and that is all.
-/

namespace RoomBot

namespace Book

/-- The store has been asked something, and nothing else has happened. -/
structure Asked (before after : Book) : Prop where
  registry : after.registry = before.registry
  counts : after.counts = before.counts
  store : Store.Asked before.vault.store after.vault.store

variable {book : Book}

lemma Asked.refl (book : Book) : Asked book book := ⟨rfl, rfl, .refl _, rfl⟩

lemma call_asked {α : Type} {ask : Store → Except Failure α × Store}
    (hask : ∀ store, Store.Asked store (ask store).2) (book : Book) :
    Asked book (book.call ask).2 := by
  rcases call_cases ask book with ⟨failure, hcall⟩ | hcall
  · rw [hcall]
    exact ⟨rfl, rfl, .refl _, rfl⟩
  · rw [hcall]
    exact ⟨rfl, rfl, hask _⟩

/-- A call that manages nothing, or that may not manage, only asks. -/
lemma serve_asked (settings : Settings) (moment : Moment) (owner : Owner) (request : Request)
    (hquiet : request.call.name ∈ managementNames →
      settings.access.canEdit request.sender = false) (book : Book) :
    Asked book (book.serve settings moment owner request).2 := by
  cases owner with
  | listCommands =>
    have hlist : ∀ store, Store.Asked store (Store.list request.room store).2 :=
      fun store => store.load_asked request.room
    simp only [serve]
    rw [listing_book]
    exact call_asked hlist book
  | help => exact .refl book
  | ping => exact .refl book
  | eightBall => exact .refl book
  | roller => exact .refl book
  | customCommands =>
    have hlookup : ∀ store, Store.Asked store
        (Store.lookup request.room request.call.name store).2 :=
      fun store => store.load_asked request.room
    simp only [serve, customCommand]
    by_cases hname : request.call.name ∈ managementNames
    · rw [if_pos (by simp [hname, hquiet hname])]
      exact .refl book
    · rw [if_neg (by simp [hname])]
      simp only [managementNames, List.mem_cons, List.not_mem_nil, or_false, not_or] at hname
      obtain ⟨hadd, hmodify, hremove⟩ := hname
      split
      · contradiction
      · contradiction
      · contradiction
      · rw [run_book]
        exact call_asked hlookup book

end Book

/-- An event that manages nothing, or that may not manage, only asks. -/
theorem Bot.handle_asked {bot : Bot} {event : Event}
    (hquiet : ∀ call, Command.Call.ofText? bot.settings.mark event.body = some call →
      call.name ∈ managementNames → bot.settings.access.canEdit event.sender = false)
    (moment : Moment) : Book.Asked bot.book (bot.handle moment event).2.book := by
  unfold handle
  split
  · cases hfound : bot.book.registry.dispatch bot.settings.mark event.body with
    | none => exact .refl bot.book
    | some found =>
      have hcall := (Registry.dispatch_eq_some hfound).1
      have hasked := bot.book.serve_asked bot.settings moment found.owner
        ⟨event.room, event.sender, found.call⟩ (hquiet found.call hcall)
      simp only
      split
      · rename_i hserved
        rwa [hserved] at hasked
      · rename_i hserved
        rwa [hserved] at hasked
  · exact .refl bot.book

/-- An event that is not heeded is met with silence and changes nothing. -/
lemma Bot.handle_of_unheeded {bot : Bot} {event : Event}
    (h : heeds bot.settings event = false) (moment : Moment) :
    bot.handle moment event = (none, bot) := by
  simp only [handle, h, Bool.false_eq_true, if_false]

end RoomBot
