import RoomBot.Proofs.Store.View

/-!
# Edits happen completely or not at all

An edit can stop in many places: the edit may be refused, the document may be unreadable, the
temporary file may not be made or only in part, the flush or the renaming may fail, and the
program may die between any two of these steps (`Halt`).  Whoever looks afterwards, through the
same store or through one that is opened on what is left of the directory, finds one of two
things: everything as it was (`Unchanged`), or the new document in the place of the old one
(`Replaced`).  What a half-written temporary file holds never matters, because its name is not
that of a document.

The store is `Faithful` to begin with: what it remembers of a room is what the document says.  A
store that has just been opened is, and one whose edit has failed still is.
-/

namespace RoomBot.Store

/-! ## Faithful stores -/

/-- What the store remembers of a room is what the document of the room says. -/
def Faithful (store : Store) : Prop :=
  ∀ (room : String) (commands : Commands), store.cache[room]? = some commands →
    store.directory.commands room = .ok commands

lemma faithful_of_cache_empty (directory : Directory) : Faithful ⟨directory, ∅⟩ := by
  intro room commands h
  simp at h

lemma faithful_of_ofDirectory {directory : Directory} {store : Store}
    (h : ofDirectory directory = .ok store) : store.Faithful := by
  simp only [ofDirectory] at h
  split at h
  · rename_i created _
    rw [← Except.ok.inj h]
    exact faithful_of_cache_empty created
  · contradiction

lemma Faithful.commands {store : Store} (h : store.Faithful) (room : String) :
    store.commands room = store.directory.commands room := by
  cases hcache : store.cache[room]? with
  | some found => rw [commands_of_cached hcache, h room found hcache]
  | none => exact commands_of_uncached hcache

lemma Untouched.faithful {before after : Store} (h : Untouched before after)
    (hbefore : before.Faithful) : after.Faithful := by
  intro room commands hcache
  rw [h.directory_commands]
  cases hknown : before.cache[room]? with
  | none => exact h.learned room commands hknown hcache
  | some known =>
    have hremembered := h.remembered room known hknown
    rw [hcache] at hremembered
    rw [Option.some.inj hremembered]
    exact hbefore room known hknown

/-! ## Opening a store again -/

/-- Two directories on which a new store is refused alike or answers alike. -/
def ReopensAlike (one two : Directory) : Prop :=
  (∃ failure, ofDirectory one = .error failure ∧ ofDirectory two = .error failure) ∨
  ∃ a b, ofDirectory one = .ok a ∧ ofDirectory two = .ok b ∧ AnswersAlike a b

lemma ReopensAlike.refl (directory : Directory) : ReopensAlike directory directory := by
  cases hopen : ofDirectory directory with
  | error failure => exact .inl ⟨failure, hopen, hopen⟩
  | ok fresh => exact .inr ⟨fresh, fresh, hopen, hopen, answersAlike_of_commands rfl fun _ => rfl⟩

lemma Untouched.directory_cases {before after : Store} (h : Untouched before after) :
    after.directory = before.directory ∨
    ∃ entries others, before.directory = .present entries ∧ after.directory = .present others := by
  have hread := h.read _ (isDocumentName_documentName "")
  have hnames := h.documentNames
  cases hbefore : before.directory <;> cases hafter : after.directory <;>
    rw [hbefore, hafter] at hread hnames
  case missing.missing => exact .inl rfl
  case blocked.blocked => exact .inl rfl
  case present.present => exact .inr ⟨_, _, rfl, rfl⟩
  all_goals contradiction

lemma Untouched.reopensAlike {before after : Store} (h : Untouched before after) :
    ReopensAlike after.directory before.directory := by
  rcases h.directory_cases with hsame | ⟨entries, others, hbefore, hafter⟩
  · rw [hsame]
    exact .refl before.directory
  · have hcommands := h.directory_commands
    have hrooms := h.rooms
    rw [hbefore, hafter] at hcommands hrooms ⊢
    refine .inr ⟨_, _, rfl, rfl, answersAlike_of_commands hrooms fun room => ?_⟩
    rw [commands_of_uncached (by simp), commands_of_uncached (by simp)]
    exact hcommands room

/-! ## The two outcomes -/

/-- Nothing has happened that anybody could notice. -/
structure Unchanged (before after : Store) : Prop where
  documents : ∀ name, isDocumentName name = true →
    after.directory.read name = before.directory.read name
  remembered : ∀ (room : String) (commands : Commands), before.cache[room]? = some commands →
    after.cache[room]? = some commands
  faithful : after.Faithful
  answers : AnswersAlike after before
  reopened : ReopensAlike after.directory before.directory

/-- The room has a new document, no other document is different, and a store that is opened on the
directory knows of the room what was to be written and of the others what it would have known. -/
structure Replaced (room : String) (new : Commands) (before after : Store) : Prop where
  documents : ∀ name, isDocumentName name = true → after.directory.read name =
    if name = documentName room then .content (Document.text ⟨room, new⟩).toUTF8
    else before.directory.read name
  reopened : ∃ fresh, ofDirectory after.directory = .ok fresh ∧ fresh.commands room = .ok new ∧
    ∀ other, documentName other ≠ documentName room →
      fresh.commands other = before.directory.commands other

lemma Untouched.unchanged {before after : Store} (h : Untouched before after)
    (hbefore : before.Faithful) : Unchanged before after where
  documents := h.read
  remembered := h.remembered
  faithful := h.faithful hbefore
  answers := h.answersAlike
  reopened := h.reopensAlike

lemma Edited.replaced {room now : String} {edit : Edit} {old new : Commands}
    {before after : Store} (h : Edited room now edit old new before after) :
    Replaced room new before after := by
  have hself : after.directory.read (documentName room) =
      .content (Document.text ⟨room, new⟩).toUTF8 := by
    rw [h.read, if_pos rfl]
  refine ⟨?_, ?_⟩
  · intro name hname
    rw [h.read]
    split
    · rfl
    · rw [if_neg]
      rintro rfl
      rw [isDocumentName_temporaryName] at hname
      contradiction
  · obtain ⟨names, hnames⟩ := Directory.exists_documentNames? hself
    have hfresh : ∀ other, (⟨after.directory, ∅⟩ : Store).commands other =
        after.directory.commands other :=
      fun other => commands_of_uncached (by simp)
    refine ⟨⟨after.directory, ∅⟩, ofDirectory_eq hnames, ?_, fun other hne => ?_⟩
    · rw [hfresh]
      exact Directory.commands_of_text hself
    · rw [hfresh]
      exact h.directory_commands_of_ne hne

/-- Wherever an edit stops, it has either failed and nothing has happened, or it was not stopped
and the document has been replaced. There is no third outcome. The documents stand in a directory
without links, where every file can be read. -/
theorem edit_allOrNothing {store : Store} (h : store.Faithful) (room now : String) (edit : Edit)
    (halt : Option Halt) :
    (∃ failure, (store.edit room now edit halt).1 = .error failure ∧
      Unchanged store (store.edit room now edit halt).2) ∨
    ((store.edit room now edit halt).1 = .ok () ∧ halt = none ∧
      ∃ old new, store.directory.commands room = .ok old ∧
        edit.apply room now old = .ok new ∧
        Replaced room new store (store.edit room now edit halt).2) := by
  rcases edit_cases store room now edit halt with
    ⟨failure, hanswer, huntouched⟩ | ⟨hanswer, hhalt, old, new, hedited⟩
  · exact .inl ⟨failure, hanswer, huntouched.unchanged h⟩
  · refine .inr ⟨hanswer, hhalt, old, new, ?_, hedited.apply, hedited.replaced⟩
    rw [← h.commands]
    exact hedited.known

/-- The temporary file has received five bytes when the program dies: the room, which the store
has met before, keeps its command. -/
theorem edit_allOrNothing_halfWritten :
    let commands : Commands := (∅ : Commands).insert "hello" ⟨"Welcome!", "noon", "noon"⟩
    let entries : Std.ExtTreeMap String Entry :=
      (∅ : Std.ExtTreeMap String Entry).insert (documentName "a")
        (.file (Document.text ⟨"a", commands⟩).toUTF8)
    let store : Store :=
      ⟨.present entries, (∅ : Std.ExtTreeMap String Commands).insert "a" commands⟩
    store.Faithful ∧ ∃ failure,
      (store.edit "a" "one" (.modify "hello" "Bye!") (some (.writing 5))).1 = .error failure ∧
      Unchanged store (store.edit "a" "one" (.modify "hello" "Bye!") (some (.writing 5))).2 := by
  intro commands entries store
  have hfaithful : store.Faithful := by
    intro room found hcache
    simp only [store, Std.ExtTreeMap.getElem?_insert] at hcache
    split at hcache
    · rename_i heq
      obtain rfl : "a" = room := by simpa using heq
      obtain rfl := Option.some.inj hcache
      apply Directory.commands_of_text
      simp [store, entries, Directory.read]
    · simp at hcache
  refine ⟨hfaithful, ?_⟩
  rcases edit_allOrNothing hfaithful "a" "one" (.modify "hello" "Bye!") (some (.writing 5)) with
    h | ⟨-, hhalt, -⟩
  · exact h
  · contradiction

end RoomBot.Store
