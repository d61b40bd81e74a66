import RoomBot.Proofs.Book.Standing

/-!
# What comes of a call

A call may ask for an edit (`Book.edit?`).  When it is answered with the words that confirm the
edit, the store has carried it out.  Otherwise nothing has happened (`Book.Kept`): the registry and
the counts are the same, and the store is untouched.

The second half needs care with a new command, whose name is claimed before the store is asked.  A
claim that is released again leaves no trace, but only where the count is right
(`Tallies.release_claimed`); and a name that belongs to another owner is never claimed at all,
because nothing takes such a name away from its owner (`Book.Guarded`).
-/

namespace RoomBot

namespace Book

variable {book claimed : Book} {room name : String} {number : Nat}

/-! ## Claims that are undone -/

/-- A claim that is released again has left no trace, whatever has become of the store. -/
theorem Tallies.release_claimed (h : book.Tallies name number)
    (hclaim : book.claim? name = some claimed) (store : Store) :
    ((claimed.withStore store).release name).registry = book.registry ∧
      ((claimed.withStore store).release name).counts = book.counts := by
  obtain ⟨after, hafter, hcounted⟩ := h.claim?
  obtain rfl := Option.some.inj (hclaim.symm.trans hafter)
  have hback : ((claimed.withStore store).release name).Tallies name number :=
    Tallies.release ⟨hcounted.counts, hcounted.owner⟩
  have hclaimed := claim?_touchesOnly hclaim
  have hreleased := release_touchesOnly name (claimed.withStore store)
  constructor
  · refine Registry.eq_of_owner? fun other => ?_
    by_cases hne : other = name
    · rw [hne]
      exact hback.owner.trans h.owner.symm
    · exact (hreleased.owner other hne).trans (hclaimed.owner other hne)
  · refine Std.ExtTreeMap.ext_getElem? fun other => ?_
    by_cases hne : other = name
    · rw [hne]
      exact hback.counts.trans h.counts.symm
    · exact (hreleased.counts other hne).trans (hclaimed.counts other hne)

/-! ## Two outcomes -/

/-- The same names, the same counts, and a store that nothing has happened to. -/
structure Kept (before after : Book) : Prop where
  registry : after.registry = before.registry
  counts : after.counts = before.counts
  store : Store.Untouched before.vault.store after.vault.store

lemma Kept.refl (book : Book) : Kept book book := ⟨rfl, rfl, .refl _⟩

/-- The edit that a call asks for, if it is one of the management and says what it should. -/
def edit? (mark : Char) (call : Command.Call) : Option Edit :=
  match call.name with
  | "addcommand" => (definition? mark call.args).map fun (name, response) => .add name response
  | "modcommand" => (definition? mark call.args).map fun (name, response) => .modify name response
  | "remcommand" => (removedName? mark call.args).map .remove
  | _ => none

/-- Either the book is kept, and no edit was asked for or it has failed; or the edit that was
asked for has been carried out and is confirmed. -/
def Outcome (mark : Char) (room now : String) (asked : Option Edit) (before : Book)
    (result : Except Failure String × Book) : Prop :=
  (Kept before result.2 ∧ (asked = none ∨ ∃ failure, result.1 = .error failure)) ∨
  ∃ edit old new, asked = some edit ∧ result.1 = .ok (edit.confirmation mark) ∧
    Store.Edited room now edit old new before.vault.store result.2.vault.store

variable (mark : Char) (now args : String)

lemma add_outcome (h : book.Agrees) (hguarded : book.Guarded) :
    Outcome mark room now
      ((definition? mark args).map fun (name, response) => .add name response) book
      (book.add mark now room args) := by
  rcases add_cases mark now room args book with
    ⟨failure, hanswer⟩ | ⟨name, response, claimed, hasked, hfree, hclaim, hrest⟩
  · rw [hanswer]
    exact .inl ⟨.refl book, .inr ⟨failure, rfl⟩⟩
  · rcases hrest with ⟨failure, store, huntouched, hanswer⟩ | ⟨old, new, store, hedited, hanswer⟩
    · obtain ⟨rooms, -, htallies⟩ := h.tallies name (hguarded.notMem_of_claim? hfree hclaim)
      obtain ⟨hregistry, hcounts⟩ := htallies.release_claimed hclaim store
      rw [hanswer]
      refine .inl ⟨⟨hregistry, hcounts, ?_⟩, .inr ⟨failure, rfl⟩⟩
      rw [(release_touchesOnly name _).vault]
      exact huntouched
    · rw [hanswer, hasked]
      exact .inr ⟨_, old, new, rfl, rfl, hedited⟩

lemma modify_outcome (book : Book) :
    Outcome mark room now
      ((definition? mark args).map fun (name, response) => .modify name response) book
      (book.modify mark now room args) := by
  rcases modify_cases mark now room args book with
    ⟨failure, hanswer⟩ | ⟨name, response, hasked, ⟨failure, store, huntouched, hanswer⟩ |
      ⟨old, new, store, hedited, hanswer⟩⟩
  · rw [hanswer]
    exact .inl ⟨.refl book, .inr ⟨failure, rfl⟩⟩
  · rw [hanswer]
    exact .inl ⟨⟨rfl, rfl, huntouched⟩, .inr ⟨failure, rfl⟩⟩
  · rw [hanswer, hasked]
    exact .inr ⟨_, old, new, rfl, rfl, hedited⟩

lemma remove_outcome (book : Book) :
    Outcome mark room now ((removedName? mark args).map .remove) book
      (book.remove mark now room args) := by
  rcases remove_cases mark now room args book with
    ⟨failure, hanswer⟩ | ⟨name, hasked, ⟨failure, store, huntouched, hanswer⟩ |
      ⟨old, new, store, hedited, hanswer⟩⟩
  · rw [hanswer]
    exact .inl ⟨.refl book, .inr ⟨failure, rfl⟩⟩
  · rw [hanswer]
    exact .inl ⟨⟨rfl, rfl, huntouched⟩, .inr ⟨failure, rfl⟩⟩
  · rw [hanswer, hasked]
    refine .inr ⟨_, old, new, rfl, rfl, ?_⟩
    rw [(release_touchesOnly name _).vault]
    exact hedited

/-- Custom commands keep the book, or carry out the edit that they are called for. -/
lemma customCommand_outcome (h : book.Agrees) (hguarded : book.Guarded) (settings : Settings)
    (moment : Moment) (request : Request) :
    Outcome settings.mark request.room moment.now (edit? settings.mark request.call) book
      (book.customCommand settings moment request) := by
  simp only [customCommand]
  split
  · exact .inl ⟨.refl book, .inr ⟨_, rfl⟩⟩
  · split
    · rename_i hname
      simp only [edit?, hname]
      exact add_outcome settings.mark moment.now request.call.args h hguarded
    · rename_i hname
      simp only [edit?, hname]
      exact modify_outcome settings.mark moment.now request.call.args book
    · rename_i hname
      simp only [edit?, hname]
      exact remove_outcome settings.mark moment.now request.call.args book
    · have hasked : edit? settings.mark request.call = none := by simp only [edit?]
      obtain ⟨store, huntouched, hafter⟩ :=
        run_asks settings.mark request.room request.call.name book
      refine .inl ⟨?_, .inl hasked⟩
      rw [hafter]
      exact ⟨rfl, rfl, huntouched⟩

/-- The other owners keep the book. -/
lemma serve_kept {owner : Owner} (howner : owner ≠ .customCommands) (settings : Settings)
    (moment : Moment) (request : Request) :
    Kept book (book.serve settings moment owner request).2 := by
  cases owner with
  | listCommands =>
    obtain ⟨store, huntouched, hafter⟩ := listing_asks settings.mark request.room book
    simp only [serve]
    rw [hafter]
    exact ⟨rfl, rfl, huntouched⟩
  | help => exact .refl book
  | ping => exact .refl book
  | eightBall => exact .refl book
  | roller => exact .refl book
  | customCommands => contradiction

end Book

/-! ## Events -/

/-- The edit that an event asks for. -/
def Event.edit? (mark : Char) (event : Event) : Option Edit :=
  (Command.Call.ofText? mark event.body).bind (Book.edit? mark)

/-- An event that is not answered with the confirmation of the edit that it asks for leaves the
book as it was. One that is has its edit carried out. -/
lemma Bot.handle_outcome {bot : Bot} (h : bot.book.Agrees) (hguarded : bot.book.Guarded)
    (moment : Moment) (event : Event) :
    bot.book.Kept (bot.handle moment event).2.book ∨
    ∃ edit old new, event.edit? bot.settings.mark = some edit ∧
      (bot.handle moment event).1 = some (edit.confirmation bot.settings.mark) ∧
      Store.Edited event.room moment.now edit old new bot.book.vault.store
        (bot.handle moment event).2.book.vault.store := by
  simp only [handle]
  split
  · cases hfound : bot.book.registry.dispatch bot.settings.mark event.body with
    | none => exact .inl (.refl _)
    | some found =>
      have hcall := (Registry.dispatch_eq_some hfound).1
      simp only
      by_cases howner : found.owner = .customCommands
      · have houtcome := Book.customCommand_outcome h hguarded bot.settings moment
          ⟨event.room, event.sender, found.call⟩
        simp only [howner, Book.serve]
        generalize bot.book.customCommand bot.settings moment
          ⟨event.room, event.sender, found.call⟩ = result at houtcome ⊢
        obtain ⟨answer, after⟩ := result
        rcases houtcome with ⟨hkept, -⟩ | ⟨edit, old, new, hasked, hanswer, hedited⟩
        · left
          cases answer <;> exact hkept
        · obtain rfl : answer = .ok (edit.confirmation bot.settings.mark) := hanswer
          refine .inr ⟨edit, old, new, ?_, rfl, hedited⟩
          rw [Event.edit?, hcall]
          exact hasked
      · have hkept := bot.book.serve_kept howner bot.settings moment
          ⟨event.room, event.sender, found.call⟩
        left
        split
        · rename_i hserved
          rwa [hserved] at hkept
        · rename_i hserved
          rwa [hserved] at hkept
  · exact .inl (.refl _)

end RoomBot
