import RoomBot.Proofs.Store.Files

/-!
# What a store knows

To whoever asks, a store is a function from rooms to commands (`Store.commands`): what it
remembers of a room, and what the directory says about a room that it has not met.  Every question
can be answered from that function and from the list of rooms in the directory.

Meeting a room does not change the function, and neither does an edit that fails.  Both leave the
store `Untouched`: the documents are the same, byte for byte, everything that was remembered still
is, and what has been learned since is what the documents say.  The store is taken apart in two
places only, `load_cases` and `edit_cases`; everything later argues from them.
-/

namespace RoomBot

/-! ## What comes of an edit -/

namespace Edit

/-- The name that the edit is about. -/
def name : Edit → String
  | add name _ => name
  | modify name _ => name
  | remove name => name

/-- What an edit that is accepted makes of the commands of a room. -/
inductive Yields (now : String) (old : Commands) : Edit → Commands → Prop
  | add {name response : String} : old[name]? = none →
      Yields now old (.add name response) (old.insert name ⟨response, now, now⟩)
  | modify {name response : String} {command : StoredCommand} : old[name]? = some command →
      Yields now old (.modify name response)
        (old.insert name { command with response, updated := now })
  | remove {name : String} {command : StoredCommand} : old[name]? = some command →
      Yields now old (.remove name) (old.erase name)

lemma yields_of_apply {edit : Edit} {room now : String} {old new : Commands}
    (h : edit.apply room now old = .ok new) : edit.Yields now old new := by
  cases edit with
  | add name response =>
    simp only [apply] at h
    split at h
    · contradiction
    · rename_i hnone
      exact Except.ok.inj h ▸ .add hnone
  | modify name response =>
    simp only [apply] at h
    split at h
    · rename_i hsome
      exact Except.ok.inj h ▸ .modify hsome
    · contradiction
  | remove name =>
    simp only [apply] at h
    split at h
    · rename_i hsome
      exact Except.ok.inj h ▸ .remove hsome
    · contradiction

lemma Yields.getElem?_of_ne {edit : Edit} {now other : String} {old new : Commands}
    (h : edit.Yields now old new) (hne : other ≠ edit.name) : new[other]? = old[other]? := by
  have hname : ¬ compare edit.name other = .eq := by simpa using Ne.symm hne
  cases h with
  | add _ => exact Std.ExtTreeMap.getElem?_insert.trans (if_neg hname)
  | modify _ => exact Std.ExtTreeMap.getElem?_insert.trans (if_neg hname)
  | remove _ => exact Std.ExtTreeMap.getElem?_erase.trans (if_neg hname)

end Edit

namespace Store

/-- The commands of a room, as far as the store knows. -/
def commands (room : String) (store : Store) : Except Failure Commands := (store.load room).1

lemma commands_of_cached {store : Store} {room : String} {commands : Commands}
    (h : store.cache[room]? = some commands) : store.commands room = .ok commands := by
  simp only [Store.commands, load, h]

lemma commands_of_uncached {store : Store} {room : String} (h : store.cache[room]? = none) :
    store.commands room = store.directory.commands room := by
  simp only [Store.commands, load, h]
  cases store.directory.commands room <;> rfl

lemma ofDirectory_eq {directory : Directory} {names : List String}
    (h : directory.documentNames? = some names) : ofDirectory directory = .ok ⟨directory, ∅⟩ := by
  obtain ⟨entries, hentries⟩ := Directory.exists_present h
  rw [hentries]
  rfl

/-- Either the store has met the room before, or it meets it now, or it cannot read it. -/
theorem load_cases (store : Store) (room : String) :
    (store.load room).2 = store ∨
    ∃ commands, store.cache[room]? = none ∧ store.directory.commands room = .ok commands ∧
      (store.load room).2 = { store with cache := store.cache.insert room commands } := by
  simp only [load]
  cases hcache : store.cache[room]? with
  | some commands => exact .inl rfl
  | none =>
    cases hread : store.directory.commands room with
    | error failure => exact .inl rfl
    | ok commands => exact .inr ⟨commands, rfl, rfl, rfl⟩

@[simp] lemma load_directory (store : Store) (room : String) :
    (store.load room).2.directory = store.directory := by
  rcases load_cases store room with h | ⟨_, _, _, h⟩ <;> rw [h]

lemma load_cache_of_ne (store : Store) {room other : String} (hne : other ≠ room) :
    (store.load room).2.cache[other]? = store.cache[other]? := by
  rcases load_cases store room with h | ⟨_, _, _, h⟩
  · rw [h]
  · rw [h, Std.ExtTreeMap.getElem?_insert, if_neg (by simpa using Ne.symm hne)]

/-! ## Nothing has happened -/

/-- The documents are the same, and so is what the store knows of them. -/
structure Untouched (before after : Store) : Prop where
  documentNames : after.directory.documentNames? = before.directory.documentNames?
  read : ∀ name, isDocumentName name = true →
    after.directory.read name = before.directory.read name
  unreadable : ∀ name, after.directory.read name = .unreadable →
    before.directory.read name = .unreadable
  remembered : ∀ (room : String) (commands : Commands), before.cache[room]? = some commands →
    after.cache[room]? = some commands
  learned : ∀ (room : String) (commands : Commands), before.cache[room]? = none →
    after.cache[room]? = some commands → before.directory.commands room = .ok commands

namespace Untouched

variable {before middle after : Store}

lemma refl (store : Store) : Untouched store store where
  documentNames := rfl
  read _ _ := rfl
  unreadable _ h := h
  remembered _ _ h := h
  learned _ _ hnone hsome := by
    rw [hnone] at hsome
    contradiction

lemma directory_commands (h : Untouched before after) (room : String) :
    after.directory.commands room = before.directory.commands room :=
  Directory.commands_congr (h.read _ (isDocumentName_documentName room))

lemma trans (hbefore : Untouched before middle) (hafter : Untouched middle after) :
    Untouched before after where
  documentNames := hafter.documentNames.trans hbefore.documentNames
  read name hname := (hafter.read name hname).trans (hbefore.read name hname)
  unreadable name h := hbefore.unreadable name (hafter.unreadable name h)
  remembered room commands h := hafter.remembered room commands (hbefore.remembered room commands h)
  learned room commands hnone hsome := by
    cases hmiddle : middle.cache[room]? with
    | none =>
      rw [← hbefore.directory_commands]
      exact hafter.learned room commands hmiddle hsome
    | some found =>
      have hfound := hafter.remembered room found hmiddle
      rw [hsome] at hfound
      rw [Option.some.inj hfound]
      exact hbefore.learned room found hnone hmiddle

/-- An untouched store knows what it knew. -/
theorem commands (h : Untouched before after) (room : String) :
    after.commands room = before.commands room := by
  cases hbefore : before.cache[room]? with
  | some known =>
    rw [commands_of_cached hbefore, commands_of_cached (h.remembered room known hbefore)]
  | none =>
    rw [commands_of_uncached hbefore]
    cases hafter : after.cache[room]? with
    | some learned => rw [commands_of_cached hafter, h.learned room learned hbefore hafter]
    | none => rw [commands_of_uncached hafter, h.directory_commands]

lemma rooms (h : Untouched before after) : after.directory.rooms = before.directory.rooms :=
  Directory.rooms_congr h.documentNames h.read

end Untouched

lemma load_untouched (store : Store) (room : String) : Untouched store (store.load room).2 where
  documentNames := by simp
  read name _ := by simp
  unreadable name h := by simpa using h
  remembered other commands h := by
    by_cases hne : other = room
    · subst hne
      rcases load_cases store other with hsame | ⟨_, hnone, -, -⟩
      · rwa [hsame]
      · rw [hnone] at h
        contradiction
    · rwa [load_cache_of_ne store hne]
  learned other commands hnone hsome := by
    by_cases hne : other = room
    · subst hne
      rcases load_cases store other with hsame | ⟨found, -, hread, hload⟩
      · rw [hsame, hnone] at hsome
        contradiction
      · rw [hload, Std.ExtTreeMap.getElem?_insert_self] at hsome
        rw [hread, Option.some.inj hsome]
    · rw [load_cache_of_ne store hne, hnone] at hsome
      contradiction

/-! ## Questions -/

/-- The store has been asked something: the directory is the same, and what the store remembers is
what it knew. -/
structure Asked (before after : Store) : Prop where
  untouched : Untouched before after
  directory : after.directory = before.directory

lemma load_asked (store : Store) (room : String) : Asked store (store.load room).2 :=
  ⟨load_untouched store room, load_directory store room⟩

lemma lookup_eq (store : Store) (room name : String) :
    store.lookup room name =
      ((store.commands room).map fun commands => commands[name]?.map (·.response),
        (store.load room).2) :=
  rfl

lemma list_eq (store : Store) (room : String) :
    store.list room =
      ((store.commands room).map fun commands => commands.keys, (store.load room).2) :=
  rfl

/-- The definitions of some rooms are what the store knows of them, one after another. -/
lemma collect_spec (rooms : List String) (store : Store) :
    (store.collect rooms).1 =
        (rooms.mapM fun room => (store.commands room).map (definitions room)).map List.flatten ∧
      Untouched store (store.collect rooms).2 := by
  induction rooms generalizing store with
  | nil => exact ⟨rfl, .refl store⟩
  | cons room rooms ih =>
    have hload := load_untouched store room
    have hknown : store.commands room = (store.load room).1 := rfl
    rw [List.mapM_cons, collect]
    cases h : store.load room with
    | mk answer after =>
      rw [h] at hload hknown
      cases answer with
      | error failure =>
        rw [hknown]
        exact ⟨rfl, hload⟩
      | ok found =>
        obtain ⟨hanswer, hrest⟩ := ih after
        refine ⟨?_, hload.trans hrest⟩
        have hcommands : (fun room => (after.commands room).map (definitions room)) =
            fun room => (store.commands room).map (definitions room) := by
          funext other
          rw [hload.commands]
        rw [hcommands] at hanswer
        simp only [hknown, hanswer]
        cases rooms.mapM fun room => (store.commands room).map (definitions room) <;> rfl

lemma all_spec (store : Store) :
    store.all.1 = (store.directory.rooms.bind fun rooms =>
        (rooms.mapM fun room => (store.commands room).map (definitions room)).map List.flatten) ∧
      Untouched store store.all.2 := by
  simp only [all]
  cases h : store.directory.rooms with
  | error failure => exact ⟨rfl, .refl store⟩
  | ok rooms => exact collect_spec rooms store

lemma isPersistence_of_commands {store : Store} {room : String} {failure : Failure}
    (h : store.commands room = .error failure) : failure.isPersistence = true := by
  cases hcache : store.cache[room]? with
  | some commands =>
    rw [commands_of_cached hcache] at h
    contradiction
  | none =>
    rw [commands_of_uncached hcache] at h
    exact Directory.isPersistence_of_commands h

/-- If not all can be told, then something could not be read. -/
lemma isPersistence_of_all {store : Store} {failure : Failure}
    (h : store.all.1 = .error failure) : failure.isPersistence = true := by
  rw [(all_spec store).1] at h
  cases hrooms : store.directory.rooms with
  | error other =>
    obtain rfl : other = failure := by simpa [hrooms, Except.bind] using h
    exact Directory.isPersistence_of_rooms hrooms
  | ok rooms =>
    cases hparts : rooms.mapM fun room => (store.commands room).map (definitions room) with
    | ok parts =>
      simp only [hrooms, Except.bind, hparts] at h
      contradiction
    | error other =>
      simp only [hrooms, Except.bind, hparts] at h
      obtain rfl : other = failure := Except.error.inj h
      obtain ⟨room, -, hroom⟩ := exists_of_mapM_eq_error hparts
      cases hcommands : store.commands room with
      | ok commands => simp [hcommands, Except.map] at hroom
      | error cause =>
        obtain rfl : cause = other := by simpa [hcommands, Except.map] using hroom
        exact isPersistence_of_commands hcommands

/-- Two stores that answer every question alike. -/
structure AnswersAlike (one two : Store) : Prop where
  lookup : ∀ room name, (one.lookup room name).1 = (two.lookup room name).1
  list : ∀ room, (one.list room).1 = (two.list room).1
  all : one.all.1 = two.all.1

/-- Answers depend on what is known of the rooms and on which rooms there are. -/
lemma answersAlike_of_commands {one two : Store}
    (hrooms : one.directory.rooms = two.directory.rooms)
    (hcommands : ∀ room, one.commands room = two.commands room) : AnswersAlike one two where
  lookup room name := by simp only [lookup_eq, hcommands]
  list room := by simp only [list_eq, hcommands]
  all := by simp only [(all_spec _).1, hrooms, hcommands]

lemma Untouched.answersAlike {before after : Store} (h : Untouched before after) :
    AnswersAlike after before :=
  answersAlike_of_commands h.rooms h.commands

/-! ## Edits -/

/-- What an edit has changed once it has succeeded: the room has the edited commands, on disk and
in memory, and no other file is different but the temporary one, which is gone. -/
structure Edited (room now : String) (edit : Edit) (old new : Commands) (before after : Store) :
    Prop where
  check : edit.check = .ok ()
  known : before.commands room = .ok old
  apply : edit.apply room now old = .ok new
  cache : after.cache = (before.load room).2.cache.insert room new
  read : ∀ name, after.directory.read name =
    if name = documentName room then .content (Document.text ⟨room, new⟩).toUTF8
    else if name = temporaryName (documentName room) then .absent
    else before.directory.read name

/-- Saving fails and leaves the store untouched, or the document has been replaced and the commands
are remembered. -/
lemma save_cases (store : Store) (room : String) (commands : Commands) (halt : Option Halt) :
    (∃ failure, (store.save room commands halt).1 = .error failure ∧
      failure.isPersistence = true ∧ Untouched store (store.save room commands halt).2) ∨
    ∃ directory,
      store.save room commands halt = (.ok (), ⟨directory, store.cache.insert room commands⟩) ∧
      store.directory.replace (documentName room) (Document.text ⟨room, commands⟩).toUTF8 halt =
        (.ok (), directory) := by
  simp only [save]
  cases hreplace : store.directory.replace (documentName room)
      (Document.text ⟨room, commands⟩).toUTF8 halt with
  | mk outcome directory =>
    cases outcome with
    | error failure =>
      left
      obtain ⟨hfailure, hnames, hread, hunreadable⟩ := Directory.replace_error hreplace
      refine ⟨failure, rfl, hfailure, ⟨hnames, ?_, hunreadable, fun _ _ h => h, ?_⟩⟩
      · intro name hname
        apply hread
        rintro rfl
        rw [isDocumentName_temporaryName] at hname
        contradiction
      · intro other commands hnone hsome
        rw [hnone] at hsome
        contradiction
    | ok _ => exact .inr ⟨directory, rfl, rfl⟩

/-- An edit is judged, then the room is loaded, then the edit is judged again, and what comes of it
is saved. -/
lemma edit_eq (store : Store) (room now : String) (edit : Edit) (halt : Option Halt) :
    store.edit room now edit halt =
      match edit.check with
      | .error failure => (.error failure, store)
      | .ok () =>
        match store.commands room with
        | .error failure => (.error failure, (store.load room).2)
        | .ok commands =>
          match edit.apply room now commands with
          | .error failure => (.error failure, (store.load room).2)
          | .ok commands => (store.load room).2.save room commands halt := by
  unfold Store.edit Store.commands
  cases edit.check with
  | error failure => rfl
  | ok _ =>
    obtain ⟨answer, loaded⟩ := store.load room
    cases answer <;> rfl

/-- An edit fails and leaves the store untouched, or it is carried out. -/
theorem edit_cases (store : Store) (room now : String) (edit : Edit) (halt : Option Halt) :
    (∃ failure, (store.edit room now edit halt).1 = .error failure ∧
      Untouched store (store.edit room now edit halt).2) ∨
    ((store.edit room now edit halt).1 = .ok () ∧ halt = none ∧
      ∃ old new, Edited room now edit old new store (store.edit room now edit halt).2) := by
  have hload := load_untouched store room
  rw [edit_eq]
  cases hcheck : edit.check with
  | error failure => exact .inl ⟨failure, rfl, .refl store⟩
  | ok _ =>
    cases hknown : store.commands room with
    | error failure => exact .inl ⟨failure, rfl, hload⟩
    | ok old =>
      simp only
      cases happly : edit.apply room now old with
      | error failure => exact .inl ⟨failure, rfl, hload⟩
      | ok new =>
        rcases save_cases (store.load room).2 room new halt with
          ⟨failure, hfailure, -, hsaved⟩ | ⟨directory, hsaved, hreplace⟩
        · exact .inl ⟨failure, hfailure, hload.trans hsaved⟩
        · obtain ⟨hhalt, hread⟩ := Directory.replace_ok hreplace
          rw [load_directory] at hread
          simp only
          rw [hsaved]
          exact .inr ⟨rfl, hhalt, old, new, hcheck, hknown, happly, rfl, hread⟩

namespace Edited

variable {room now other : String} {edit : Edit} {old new : Commands} {before after : Store}

lemma commands_self (h : Edited room now edit old new before after) :
    after.commands room = .ok new := by
  apply commands_of_cached
  rw [h.cache]
  exact Std.ExtTreeMap.getElem?_insert_self

lemma cache_of_ne (h : Edited room now edit old new before after) (hne : other ≠ room) :
    after.cache[other]? = before.cache[other]? := by
  rw [h.cache, Std.ExtTreeMap.getElem?_insert, if_neg (by simpa using Ne.symm hne)]
  exact load_cache_of_ne before hne

lemma directory_commands_of_ne (h : Edited room now edit old new before after)
    (hne : documentName other ≠ documentName room) :
    after.directory.commands other = before.directory.commands other := by
  apply Directory.commands_congr
  rw [h.read, if_neg hne, if_neg (documentName_ne_temporaryName other _)]

/-- A room that has not been met and whose file has been written for another room cannot be read
any more. -/
lemma directory_commands_of_shared (h : Edited room now edit old new before after)
    (hne : other ≠ room) (hname : documentName other = documentName room) :
    ∃ failure, after.directory.commands other = .error failure := by
  apply Directory.commands_of_other_text (Ne.symm hne)
  rw [h.read, if_pos hname]

/-- What is known of another room stays known, unless it was not met yet and the two rooms share
a file. -/
lemma commands_of_ne (h : Edited room now edit old new before after) (hne : other ≠ room) :
    after.commands other = before.commands other ∨
      before.cache[other]? = none ∧ ∃ failure, after.commands other = .error failure := by
  have hcache := h.cache_of_ne hne
  cases hbefore : before.cache[other]? with
  | some commands =>
    rw [hbefore] at hcache
    exact .inl (by rw [commands_of_cached hbefore, commands_of_cached hcache])
  | none =>
    rw [hbefore] at hcache
    rw [commands_of_uncached hbefore, commands_of_uncached hcache]
    by_cases hname : documentName other = documentName room
    · exact .inr ⟨rfl, h.directory_commands_of_shared hne hname⟩
    · exact .inl (h.directory_commands_of_ne hname)

end Edited

end Store

end RoomBot
