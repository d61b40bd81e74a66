import RoomBot.Proofs.Store.Atomicity

/-!
# What an edit leaves alone

An edit writes the whole document of a room anew, from what the store knows of the room.  So every
other command passes through the text too, with its response and its two times, and it may have
come from a document that somebody has laid out in another way: with arrays for records, with
fields that mean nothing here, with a name that is written down twice.  What changes all the same is
one command, in one of three ways (`Edit.Turns`).

In the directory, what changes is one file.  Its name is a digest (`isHexadecimal_digest`), so that
it leads nowhere else, whatever the room is called; and it gets its content by one writing and one
renaming of the temporary file beside it (`Store.Edited.steps`).
-/

namespace RoomBot

/-! ## One command -/

namespace Edit

/-- What an edit makes of the command that it names: it comes with both its times now, it gets a new
response and keeps the time at which it was made, or it goes. -/
inductive Turns (now : String) : Edit → Option StoredCommand → Option StoredCommand → Prop
  | add (name response : String) :
      Turns now (.add name response) none (some ⟨response, now, now⟩)
  | modify (name response : String) (command : StoredCommand) :
      Turns now (.modify name response) (some command) (some ⟨response, command.created, now⟩)
  | remove (name : String) (command : StoredCommand) :
      Turns now (.remove name) (some command) none

variable {edit : Edit} {now : String} {old new : Commands}

lemma Yields.turns (h : edit.Yields now old new) :
    edit.Turns now old[edit.name]? new[edit.name]? := by
  cases h with
  | add hnone =>
    simp only [Edit.name, hnone, Std.ExtTreeMap.getElem?_insert_self]
    exact .add _ _
  | modify hsome =>
    simp only [Edit.name, hsome, Std.ExtTreeMap.getElem?_insert_self]
    exact .modify _ _ _
  | remove hsome =>
    simp only [Edit.name, hsome, Std.ExtTreeMap.getElem?_erase_self]
    exact .remove _ _

end Edit

/-! ## One file -/

/-- So many hexadecimal digits, in lower case. -/
def IsHexadecimal (count : Nat) (text : String) : Prop :=
  text.length = count ∧ ∀ c ∈ text.toList, c ∈ "0123456789abcdef".toList

lemma Text.hexDigit_mem (n : Nat) : Text.hexDigit n ∈ "0123456789abcdef".toList := by
  rw [Text.hexDigit, List.getD_eq_getElem?_getD]
  cases hdigit : "0123456789abcdef".toList[n]? with
  | none => decide
  | some c => exact List.mem_of_getElem? hdigit

theorem isHexadecimal_digest (text : String) : IsHexadecimal 64 (digest text) := by
  refine ⟨length_digest text, fun c hc => ?_⟩
  rw [digest, String.toList_ofList, List.mem_flatMap] at hc
  obtain ⟨word, -, hc⟩ := hc
  obtain ⟨i, -, rfl⟩ := List.mem_map.1 hc
  exact Text.hexDigit_mem _

/-- An edit has replaced the document of a room: what the document was and is now, by which steps the
directory came from one to the other, and what is in the files. -/
structure Directory.Rewritten (room now : String) (edit : Edit) (old new : Commands)
    (before after : Directory) : Prop where
  previous : before.document? (documentName room) = .ok none ∧ old = ∅ ∨
    before.document? (documentName room) = .ok (some ⟨room, old⟩)
  reread : after.document? (documentName room) = .ok (some ⟨room, new⟩)
  named : edit.Turns now old[edit.name]? new[edit.name]?
  others : ∀ other, other ≠ edit.name → new[other]? = old[other]?
  steps : ∃ middle, before.write? (temporaryName (documentName room))
      (Document.text ⟨room, new⟩).toUTF8 = some middle ∧
    middle.rename? (temporaryName (documentName room)) (documentName room) = some after
  temporary : after.read (temporaryName (documentName room)) = .absent
  files : ∀ name, name ≠ documentName room → name ≠ temporaryName (documentName room) →
    after.read name = before.read name

namespace Store

variable {store : Store} {room now : String} {edit : Edit} {halt : Option Halt}
  {old new : Commands}

/-- An edit that succeeds writes the new document to the temporary file, which then takes the name of
the document. -/
theorem Edited.steps (hok : (store.edit room now edit halt).1 = .ok ())
    (h : Edited room now edit old new store (store.edit room now edit halt).2) :
    ∃ middle, store.directory.write? (temporaryName (documentName room))
        (Document.text ⟨room, new⟩).toUTF8 = some middle ∧
      middle.rename? (temporaryName (documentName room)) (documentName room) =
        some (store.edit room now edit halt).2.directory := by
  have hsave : store.edit room now edit halt = (store.load room).2.save room new halt := by
    simp only [edit_eq, h.check, h.known, h.apply]
  rw [hsave] at hok ⊢
  rcases save_cases (store.load room).2 room new halt with
    ⟨failure, herror, -⟩ | ⟨directory, hsaved, hreplace⟩
  · rw [hok] at herror
    contradiction
  · rw [load_directory] at hreplace
    rw [hsaved]
    rcases Directory.replace_cases hreplace with ⟨_, herror, -⟩ | ⟨-, -, hsteps⟩
    · contradiction
    · exact hsteps

/-- An edit that succeeds changes one command of the document of the room, and of the files it
changes that document, whose name is made of the digest of the room. Every other command keeps its
response and its times, and every other file what is in it, but for the temporary file, which is
gone. No file is a link to another one, so that a file is changed under its own name only. -/
theorem edit_rewrites (h : store.Faithful) (hok : (store.edit room now edit halt).1 = .ok ()) :
    (∃ old new, Directory.Rewritten room now edit old new store.directory
      (store.edit room now edit halt).2.directory) ∧
    documentName room = digest room ++ ".json" ∧ IsHexadecimal 64 (digest room) := by
  refine ⟨?_, rfl, isHexadecimal_digest room⟩
  rcases edit_cases store room now edit halt with ⟨failure, herror, -⟩ | ⟨-, -, old, new, hedited⟩
  · rw [hok] at herror
    contradiction
  have hyields := Edit.yields_of_apply hedited.apply
  refine ⟨old, new, ?_⟩
  exact {
    previous := by
      rw [← Directory.commands_eq_ok_iff, ← h.commands]
      exact hedited.known
    reread := Directory.document?_of_text (by rw [hedited.read, if_pos rfl])
    named := hyields.turns
    others := fun other hne => hyields.getElem?_of_ne hne
    steps := hedited.steps hok
    temporary := by
      rw [hedited.read, if_neg (documentName_ne_temporaryName room _).symm, if_pos rfl]
    files := fun name hname htemporary => by
      rw [hedited.read, if_neg hname, if_neg htemporary] }

/-- Somebody has written the document in arrays, with one command twice. The later of the two gets a
new response and keeps the time at which it was made, and the other command stays as it was. -/
theorem edit_rewrites_arrays :
    let layout := "[\"a\",\x7b\"x\":[\"\",\"\",\"\"],\"x\":[\"Ho\",\"2\",\"3\"],\"y\":[\"Hey\",\"4\",\"5\"]\x7d]"
    let entries : Std.ExtTreeMap String Entry :=
      (∅ : Std.ExtTreeMap String Entry).insert (documentName "a") (.file layout.toUTF8)
    let store : Store := ⟨.present entries, ∅⟩
    let edited := store.edit "a" "6" (.modify "x" "Bye") none
    store.Faithful ∧ edited.1 = .ok () ∧
      ∃ old new, Directory.Rewritten "a" "6" (.modify "x" "Bye") old new store.directory
          edited.2.directory ∧
        new["x"]? = some ⟨"Bye", "2", "6"⟩ ∧ new["y"]? = some ⟨"Hey", "4", "5"⟩ := by
  intro layout entries store edited
  have hfaithful : store.Faithful := faithful_of_cache_empty _
  have hlayout : ((Document.ofText? layout).map fun document =>
      (document.room, document.commands.toList)) =
      some ("a", [("x", ⟨"Ho", "2", "3"⟩), ("y", ⟨"Hey", "4", "5"⟩)]) := by
    decide +kernel
  have hblank : Text.isBlankText layout.toList = false := by decide +kernel
  obtain ⟨⟨room, commands⟩, htext, hdocument⟩ := Option.map_eq_some_iff.1 hlayout
  obtain ⟨rfl, hcommands⟩ := Prod.mk.inj hdocument
  have hx : commands["x"]? = some ⟨"Ho", "2", "3"⟩ := by
    rw [← Std.ExtTreeMap.mem_toList_iff_getElem?_eq_some, hcommands]
    decide
  have hy : commands["y"]? = some ⟨"Hey", "4", "5"⟩ := by
    rw [← Std.ExtTreeMap.mem_toList_iff_getElem?_eq_some, hcommands]
    decide
  have hread : store.directory.read (documentName "a") = .content layout.toUTF8 := by
    simp [store, entries, Directory.read]
  have hfile : store.directory.document? (documentName "a") = .ok (some ⟨"a", commands⟩) := by
    simp only [Directory.document?, hread, Directory.fromUTF8?_toUTF8, hblank, htext,
      Bool.false_eq_true, if_false]
  have hknown : store.commands "a" = .ok commands := by
    rw [hfaithful.commands]
    exact Directory.commands_eq_ok_iff.2 (.inr hfile)
  have happly : (Edit.modify "x" "Bye").apply "a" "6" commands =
      .ok (commands.insert "x" ⟨"Bye", "2", "6"⟩) := by
    simp only [Edit.apply, hx]
  have hok : edited.1 = .ok () := by
    have hloaded : (store.load "a").2 = ⟨store.directory, (store.load "a").2.cache⟩ := by
      rw [← load_directory store "a"]
    have htemporary : entries[temporaryName (documentName "a")]? ≠ some Entry.folder := by
      simp [entries]
    have hname : entries[documentName "a"]? ≠ some Entry.folder := by simp [entries]
    obtain ⟨saved, hsave⟩ := exists_save htemporary hname
      (commands.insert "x" ⟨"Bye", "2", "6"⟩) (store.load "a").2.cache
    have hcheck : (Edit.modify "x" "Bye").check = .ok () := rfl
    simp only [edited, edit_eq, hcheck, hknown, happly]
    rw [hloaded, hsave]
  obtain ⟨⟨old, new, hrewritten⟩, -⟩ := edit_rewrites hfaithful hok
  obtain rfl : old = commands := by
    have hprevious := hrewritten.previous
    rw [hfile] at hprevious
    simpa [eq_comm] using hprevious
  refine ⟨hfaithful, hok, old, new, hrewritten, ?_, ?_⟩
  · have hnamed := hrewritten.named
    simp only [Edit.name, hx] at hnamed
    generalize new["x"]? = found at hnamed
    cases hnamed
    rfl
  · exact (hrewritten.others "y" (by decide)).trans hy

end Store

end RoomBot
