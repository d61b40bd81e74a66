import RoomBot.Proofs.Book.Tally
import RoomBot.Proofs.Store.View

/-!
# What an event can do to a book

An event changes a book in one of six ways (`Book.Step`), whatever its text, its sender and the
settings of the bot are.  It leaves the book alone; it asks the store something; it defines a
command, which was claimed before; it fails to define one and gives the name back; it modifies a
command; or it removes one and gives the name back.

The store takes part in two ways only.  A call that fails, for a reason of its own or because the
vault refuses it, leaves the store untouched; an edit that is carried out has changed one room.
Whatever holds of a book at all times is shown for the six ways and need not be shown again for
each command.

What becomes of each command, the answer included, is told once (`add_cases`, `modify_cases`,
`remove_cases`); that it is a step is read off there.
-/

namespace RoomBot

/-- The words that confirm an edit. -/
def Edit.confirmation (mark : Char) : Edit → String
  | add name _ => s!"New command saved: {mark}{name}"
  | modify name _ => s!"{mark}{name} modified."
  | remove name => s!"{mark}{name} removed."

namespace Book

/-! ## Calling the store -/

/-- The book after its store has been called. -/
def withStore (store : Store) (book : Book) : Book := { book with vault := ⟨store, none⟩ }

lemma call_cases {α : Type} (ask : Store → Except Failure α × Store) (book : Book) :
    (∃ failure, book.call ask = (.error failure, book.withStore book.vault.store)) ∨
      book.call ask = ((ask book.vault.store).1, book.withStore (ask book.vault.store).2) := by
  simp only [call, Vault.call, withStore]
  cases book.vault.pending with
  | some failure => exact .inl ⟨failure, rfl⟩
  | none => exact .inr rfl

lemma call_untouched {α : Type} (ask : Store → Except Failure α × Store)
    (hask : ∀ store, Store.Untouched store (ask store).2) (book : Book) :
    ∃ store, Store.Untouched book.vault.store store ∧ (book.call ask).2 = book.withStore store := by
  rcases call_cases ask book with ⟨failure, hcall⟩ | hcall
  · exact ⟨_, .refl _, by rw [hcall]⟩
  · exact ⟨_, hask _, by rw [hcall]⟩

lemma call_edit_cases (room now : String) (edit : Edit) (book : Book) :
    (∃ failure store, Store.Untouched book.vault.store store ∧
      book.call (Store.edit room now edit none) = (.error failure, book.withStore store)) ∨
    ∃ old new store, Store.Edited room now edit old new book.vault.store store ∧
      book.call (Store.edit room now edit none) = (.ok (), book.withStore store) := by
  rcases call_cases (Store.edit room now edit none) book with ⟨failure, hcall⟩ | hcall
  · exact .inl ⟨failure, _, .refl _, hcall⟩
  · rcases Store.edit_cases book.vault.store room now edit none with
      ⟨failure, hanswer, huntouched⟩ | ⟨hanswer, -, old, new, hedited⟩
    · exact .inl ⟨failure, _, huntouched, by rw [hcall, hanswer]⟩
    · exact .inr ⟨old, new, _, hedited, by rw [hcall, hanswer]⟩

/-! ## Six ways -/

/-- A book before and after an event in a room. -/
inductive Step (room : String) (before : Book) : Book → Prop
  | idle : Step room before before
  | asked {store : Store} (untouched : Store.Untouched before.vault.store store) :
      Step room before (before.withStore store)
  | added {now name response : String} {old new : Commands} {store : Store} {claimed : Book}
      (free : name ∉ managementNames) (claim : before.claim? name = some claimed)
      (edited : Store.Edited room now (.add name response) old new before.vault.store store) :
      Step room before (claimed.withStore store)
  | refused {name : String} {store : Store} {claimed : Book}
      (free : name ∉ managementNames) (claim : before.claim? name = some claimed)
      (untouched : Store.Untouched before.vault.store store) :
      Step room before ((claimed.withStore store).release name)
  | modified {now name response : String} {old new : Commands} {store : Store}
      (edited : Store.Edited room now (.modify name response) old new before.vault.store store) :
      Step room before (before.withStore store)
  | removed {now name : String} {old new : Commands} {store : Store}
      (edited : Store.Edited room now (.remove name) old new before.vault.store store) :
      Step room before ((before.withStore store).release name)

/-- The names of the other owners stay with them, and custom commands leave them no others. -/
lemma Step.foreign? {room : String} {before after : Book} (h : Step room before after) :
    after.registry.foreign? = before.registry.foreign? := by
  cases h with
  | idle => rfl
  | asked _ => rfl
  | added _ claim _ =>
    rw [← claim?_foreign? claim]
    rfl
  | refused _ claim _ =>
    rw [release_foreign?, ← claim?_foreign? claim]
    rfl
  | modified _ => rfl
  | removed _ => exact release_foreign? _ _

lemma Step.pending {room : String} {before after : Book} (h : Step room before after)
    (hbefore : before.vault.pending = none) : after.vault.pending = none := by
  cases h with
  | idle => exact hbefore
  | asked _ => rfl
  | added _ _ _ => rfl
  | refused _ _ _ => rw [(release_touchesOnly _ _).vault]; rfl
  | modified _ => rfl
  | removed _ => rw [(release_touchesOnly _ _).vault]; rfl

variable (mark : Char) (now room name args : String) (book : Book)

/-! ## What each command comes to -/

/-- A command is refused outright, or its name is claimed; then it is stored and confirmed, or not
stored and the name given back. -/
theorem add_cases :
    (∃ failure, book.add mark now room args = (.error failure, book)) ∨
    ∃ name response claimed, definition? mark args = some (name, response) ∧
      name ∉ managementNames ∧ book.claim? name = some claimed ∧
      ((∃ failure store, Store.Untouched book.vault.store store ∧
          book.add mark now room args =
            (.error failure, (claimed.withStore store).release name)) ∨
        ∃ old new store,
          Store.Edited room now (.add name response) old new book.vault.store store ∧
          book.add mark now room args =
            (.ok ((Edit.add name response).confirmation mark), claimed.withStore store)) := by
  simp only [add]
  cases definition? mark args with
  | none => exact .inl ⟨_, rfl⟩
  | some definition =>
    obtain ⟨name, response⟩ := definition
    simp only
    cases Command.checkName name with
    | error failure => exact .inl ⟨_, rfl⟩
    | ok _ =>
      by_cases hmanagement : managementNames.contains name
      · simp only [if_pos hmanagement]
        exact .inl ⟨_, rfl⟩
      simp only [if_neg hmanagement]
      cases hclaim : book.claim? name with
      | none => exact .inl ⟨_, rfl⟩
      | some claimed =>
        refine .inr ⟨name, response, claimed, rfl, by simpa using hmanagement, hclaim, ?_⟩
        rw [← (claim?_touchesOnly hclaim).vault]
        rcases call_edit_cases room now (.add name response) claimed with
          ⟨failure, store, huntouched, hcall⟩ | ⟨old, new, store, hedited, hcall⟩
        · simp only [hcall]
          cases failure <;> exact .inl ⟨_, store, huntouched, rfl⟩
        · simp only [hcall]
          exact .inr ⟨old, new, store, hedited, rfl⟩

theorem modify_cases :
    (∃ failure, book.modify mark now room args = (.error failure, book)) ∨
    ∃ name response, definition? mark args = some (name, response) ∧
      ((∃ failure store, Store.Untouched book.vault.store store ∧
          book.modify mark now room args = (.error failure, book.withStore store)) ∨
        ∃ old new store,
          Store.Edited room now (.modify name response) old new book.vault.store store ∧
          book.modify mark now room args =
            (.ok ((Edit.modify name response).confirmation mark), book.withStore store)) := by
  simp only [modify]
  cases definition? mark args with
  | none => exact .inl ⟨_, rfl⟩
  | some definition =>
    obtain ⟨name, response⟩ := definition
    refine .inr ⟨name, response, rfl, ?_⟩
    rcases call_edit_cases room now (.modify name response) book with
      ⟨failure, store, huntouched, hcall⟩ | ⟨old, new, store, hedited, hcall⟩
    · simp only [hcall]
      cases failure <;> exact .inl ⟨_, store, huntouched, rfl⟩
    · simp only [hcall]
      exact .inr ⟨old, new, store, hedited, rfl⟩

theorem remove_cases :
    (∃ failure, book.remove mark now room args = (.error failure, book)) ∨
    ∃ name, removedName? mark args = some name ∧
      ((∃ failure store, Store.Untouched book.vault.store store ∧
          book.remove mark now room args = (.error failure, book.withStore store)) ∨
        ∃ old new store, Store.Edited room now (.remove name) old new book.vault.store store ∧
          book.remove mark now room args =
            (.ok ((Edit.remove name).confirmation mark), (book.withStore store).release name)) := by
  simp only [remove]
  cases removedName? mark args with
  | none => exact .inl ⟨_, rfl⟩
  | some name =>
    refine .inr ⟨name, rfl, ?_⟩
    rcases call_edit_cases room now (.remove name) book with
      ⟨failure, store, huntouched, hcall⟩ | ⟨old, new, store, hedited, hcall⟩
    · simp only [hcall]
      cases failure <;> exact .inl ⟨_, store, huntouched, rfl⟩
    · simp only [hcall]
      exact .inr ⟨old, new, store, hedited, rfl⟩

lemma run_book :
    (book.run mark room name).2 = (book.call (Store.lookup room name)).2 := by
  simp only [run]
  split <;> simp_all

lemma listing_book : (book.listing mark room).2 = (book.call (Store.list room)).2 := by
  simp only [listing]
  split <;> simp_all

lemma run_asks : ∃ store, Store.Untouched book.vault.store store ∧
    (book.run mark room name).2 = book.withStore store := by
  rw [run_book]
  exact call_untouched (Store.lookup room name) (fun store => Store.load_untouched store room) book

lemma listing_asks : ∃ store, Store.Untouched book.vault.store store ∧
    (book.listing mark room).2 = book.withStore store := by
  rw [listing_book]
  exact call_untouched (Store.list room) (fun store => Store.load_untouched store room) book

/-! ## Every event is a step -/

lemma add_step : Step room book (book.add mark now room args).2 := by
  rcases add_cases mark now room args book with
    ⟨failure, h⟩ | ⟨name, response, claimed, -, hfree, hclaim, hrest⟩
  · rw [h]
    exact .idle
  · rcases hrest with ⟨failure, store, huntouched, h⟩ | ⟨old, new, store, hedited, h⟩
    · rw [h]
      exact .refused hfree hclaim huntouched
    · rw [h]
      exact .added hfree hclaim hedited

lemma modify_step : Step room book (book.modify mark now room args).2 := by
  rcases modify_cases mark now room args book with
    ⟨failure, h⟩ | ⟨name, response, -, ⟨failure, store, huntouched, h⟩ |
      ⟨old, new, store, hedited, h⟩⟩
  · rw [h]
    exact .idle
  · rw [h]
    exact .asked huntouched
  · rw [h]
    exact .modified hedited

lemma remove_step : Step room book (book.remove mark now room args).2 := by
  rcases remove_cases mark now room args book with
    ⟨failure, h⟩ | ⟨name, -, ⟨failure, store, huntouched, h⟩ | ⟨old, new, store, hedited, h⟩⟩
  · rw [h]
    exact .idle
  · rw [h]
    exact .asked huntouched
  · rw [h]
    exact .removed hedited

lemma run_step : Step room book (book.run mark room name).2 := by
  obtain ⟨store, huntouched, h⟩ := run_asks mark room name book
  rw [h]
  exact .asked huntouched

lemma listing_step : Step room book (book.listing mark room).2 := by
  obtain ⟨store, huntouched, h⟩ := listing_asks mark room book
  rw [h]
  exact .asked huntouched

lemma serve_step (settings : Settings) (moment : Moment) (owner : Owner) (request : Request) :
    Step request.room book (book.serve settings moment owner request).2 := by
  cases owner with
  | listCommands => exact listing_step settings.mark request.room book
  | help => exact .idle
  | ping => exact .idle
  | eightBall => exact .idle
  | roller => exact .idle
  | customCommands =>
    simp only [serve, customCommand]
    split
    · exact .idle
    · split
      · exact add_step settings.mark moment.now request.room request.call.args book
      · exact modify_step settings.mark moment.now request.room request.call.args book
      · exact remove_step settings.mark moment.now request.room request.call.args book
      · exact run_step settings.mark request.room request.call.name book

end Book

/-- A bot that meets an event makes one step. -/
lemma Bot.handle_step (moment : Moment) (event : Event) (bot : Bot) :
    Book.Step event.room bot.book (bot.handle moment event).2.book := by
  simp only [handle]
  split
  · cases bot.book.registry.dispatch bot.settings.mark event.body with
    | none => exact .idle
    | some found =>
      have hstep := bot.book.serve_step bot.settings moment found.owner
        ⟨event.room, event.sender, found.call⟩
      simp only
      split
      · rename_i hserved
        rwa [hserved] at hstep
      · rename_i hserved
        rwa [hserved] at hstep
  · exact .idle

end RoomBot
