import Mathlib.Data.List.Sort
import RoomBot.Proofs.Store.Dictionary
import RoomBot.Proofs.Store.View

/-!
# The store is a dictionary

Whatever is asked of a store that was opened on an empty directory, in whatever order, and however
often another store takes over the directory, the answers are those of a dictionary that was empty
to begin with.

The rooms in play are a set on which the digest is injective, for rooms with one digest share a
file.  The invariant is that the directory holds documents of such rooms and nothing else that
could be taken for a document (`Store.Holds`); it says what each room has written without saying
which rooms the store has met.  An operation that leaves the store `Untouched` keeps it, and an
edit that is carried out changes it for one room.
-/

namespace RoomBot

/-! ## What a store holds -/

namespace Store

/-- No other of the rooms shares the file of this one. -/
def Alone (rooms : Set String) (room : String) : Prop :=
  ∀ other ∈ rooms, digest other = digest room → other = room

lemma Alone.of_injOn {rooms : Set String} {room : String} (hrooms : Set.InjOn digest rooms)
    (hroom : room ∈ rooms) : Alone rooms room :=
  fun _ hother hdigest => hrooms hother hroom hdigest

/-- Each of the rooms has these commands, in its document if it has one and in memory if it has
been met, and nothing else is stored. -/
structure Holds (rooms : Set String) (contents : String → Commands) (store : Store) : Prop where
  listed : ∃ names, store.directory.documentNames? = some names
  readable : ∀ name, store.directory.read name ≠ .unreadable
  document : ∀ name, isDocumentName name = true → store.directory.read name = .absent ∨
    ∃ room ∈ rooms, documentName room = name ∧
      store.directory.read name = .content (Document.text ⟨room, contents room⟩).toUTF8
  absent : ∀ room, store.directory.read (documentName room) = .absent → contents room = ∅
  outside : ∀ room, room ∉ rooms → contents room = ∅
  remembered : ∀ (room : String) (commands : Commands), store.cache[room]? = some commands →
    commands = contents room

namespace Holds

variable {rooms : Set String} {contents : String → Commands} {room : String} {store : Store}

lemma empty (rooms : Set String) : Holds rooms (fun _ => ∅) ⟨.present ∅, ∅⟩ where
  listed := ⟨_, rfl⟩
  readable name := by simp [Directory.read]
  document name _ := .inl (by simp [Directory.read])
  absent _ _ := rfl
  outside _ _ := rfl
  remembered room commands h := by simp at h

lemma eq_of_directory_commands (h : store.Holds rooms contents) {commands : Commands}
    (hread : store.directory.commands room = .ok commands) : commands = contents room := by
  rcases h.document _ (isDocumentName_documentName room) with habsent | ⟨owner, -, -, htext⟩
  · rw [h.absent room habsent]
    simpa [Directory.commands, Directory.document?, habsent] using hread.symm
  · by_cases howner : owner = room
    · subst howner
      rw [Directory.commands_of_text htext] at hread
      exact (Except.ok.inj hread).symm
    · obtain ⟨failure, hfailure⟩ := Directory.commands_of_other_text howner htext
      rw [hfailure] at hread
      contradiction

lemma document_self (h : store.Holds rooms contents) (halone : Alone rooms room) :
    store.directory.read (documentName room) = .absent ∨
      store.directory.read (documentName room) =
        .content (Document.text ⟨room, contents room⟩).toUTF8 := by
  rcases h.document _ (isDocumentName_documentName room) with
    habsent | ⟨owner, howner, hname, htext⟩
  · exact .inl habsent
  · obtain rfl := halone owner howner (documentName_inj.1 hname)
    exact .inr htext

lemma directory_commands (h : store.Holds rooms contents) (halone : Alone rooms room) :
    store.directory.commands room = .ok (contents room) := by
  rcases h.document_self halone with habsent | htext
  · rw [h.absent room habsent]
    simp [Directory.commands, Directory.document?, habsent]
  · exact Directory.commands_of_text htext

lemma commands (h : store.Holds rooms contents) (halone : Alone rooms room) :
    store.commands room = .ok (contents room) := by
  cases hcache : store.cache[room]? with
  | some found => rw [commands_of_cached hcache, h.remembered room found hcache]
  | none => rw [commands_of_uncached hcache, h.directory_commands halone]

/-- What is known of a room, if it can be told, is what it holds. -/
lemma eq_of_commands (h : store.Holds rooms contents) {commands : Commands}
    (hknown : store.commands room = .ok commands) : commands = contents room := by
  cases hcache : store.cache[room]? with
  | some found =>
    rw [commands_of_cached hcache] at hknown
    rw [← Except.ok.inj hknown]
    exact h.remembered room found hcache
  | none =>
    rw [commands_of_uncached hcache] at hknown
    exact h.eq_of_directory_commands hknown

lemma untouched {after : Store} (h : store.Holds rooms contents)
    (hafter : Untouched store after) : after.Holds rooms contents where
  listed := by
    rw [hafter.documentNames]
    exact h.listed
  readable name hname := h.readable name (hafter.unreadable name hname)
  document name hname := by
    rw [hafter.read name hname]
    exact h.document name hname
  absent room habsent := by
    rw [hafter.read _ (isDocumentName_documentName room)] at habsent
    exact h.absent room habsent
  outside := h.outside
  remembered room commands hcache := by
    cases hbefore : store.cache[room]? with
    | none => exact h.eq_of_directory_commands (hafter.learned room commands hbefore hcache)
    | some known =>
      have hknown := hafter.remembered room known hbefore
      rw [hcache] at hknown
      rw [Option.some.inj hknown]
      exact h.remembered room known hbefore

/-- After an edit the room has the edited commands, and every other room has what it had. -/
lemma edited {now : String} {edit : Edit} {old new : Commands} {after : Store}
    (h : store.Holds rooms contents) (hroom : room ∈ rooms)
    (hafter : Edited room now edit old new store after) :
    after.Holds rooms (Function.update contents room new) where
  listed := by
    have hself : after.directory.read (documentName room) =
        .content (Document.text ⟨room, new⟩).toUTF8 := by
      rw [hafter.read, if_pos rfl]
    exact Directory.exists_documentNames? hself
  readable name hname := by
    rw [hafter.read] at hname
    split at hname
    · contradiction
    split at hname
    · contradiction
    · exact h.readable name hname
  document name hname := by
    rw [hafter.read]
    split
    · rename_i heq
      refine .inr ⟨room, hroom, heq.symm, ?_⟩
      rw [Function.update_self]
    split
    · exact .inl rfl
    · rename_i hne _
      rcases h.document name hname with habsent | ⟨owner, howner, rfl, htext⟩
      · exact .inl habsent
      · refine .inr ⟨owner, howner, rfl, ?_⟩
        rw [Function.update_of_ne fun heq => hne (congrArg documentName heq)]
        exact htext
  absent other habsent := by
    rw [hafter.read] at habsent
    split at habsent
    · contradiction
    · rename_i hne
      rw [if_neg (documentName_ne_temporaryName other _)] at habsent
      rw [Function.update_of_ne fun heq => hne (congrArg documentName heq)]
      exact h.absent other habsent
  outside other hother := by
    have hne : other ≠ room := by
      rintro rfl
      exact hother hroom
    rw [Function.update_of_ne hne]
    exact h.outside other hother
  remembered other commands hcache := by
    by_cases hne : other = room
    · subst hne
      rw [hafter.cache, Std.ExtTreeMap.getElem?_insert_self] at hcache
      rw [Function.update_self, Option.some.inj hcache]
    · rw [hafter.cache_of_ne hne] at hcache
      rw [Function.update_of_ne hne]
      exact h.remembered other commands hcache

lemma reopen (h : store.Holds rooms contents) :
    ofDirectory store.directory = .ok ⟨store.directory, ∅⟩ ∧
      Holds rooms contents ⟨store.directory, ∅⟩ := by
  obtain ⟨names, hnames⟩ := h.listed
  refine ⟨ofDirectory_eq hnames, h.listed, h.readable, h.document, h.absent, h.outside, ?_⟩
  intro room commands hcache
  simp at hcache

lemma commands_of_directory (h : store.Holds rooms contents) {commands : Commands}
    (hread : store.directory.commands room = .ok commands) :
    store.commands room = .ok commands := by
  cases hcache : store.cache[room]? with
  | none => rw [commands_of_uncached hcache, hread]
  | some found =>
    rw [commands_of_cached hcache, h.remembered room found hcache, h.eq_of_directory_commands hread]

end Holds

/-! ## The rooms of the directory -/

variable {rooms : Set String} {contents : String → Commands} {store : Store}

lemma Holds.mem_of_hasDocument {room : String} (h : store.Holds rooms contents)
    (hroom : store.directory.HasDocument room) : room ∈ rooms := by
  obtain ⟨commands, hfile⟩ := hroom
  rcases h.document _ (isDocumentName_documentName room) with habsent | ⟨owner, howner, -, htext⟩
  · simp [Directory.document?, habsent] at hfile
  · rw [Directory.document?_of_text htext] at hfile
    obtain ⟨rfl, -⟩ : owner = room ∧ contents owner = commands := by simpa using hfile
    exact howner

lemma Holds.mem_of_ne_empty {room : String} (h : store.Holds rooms contents)
    (hroom : contents room ≠ ∅) : room ∈ rooms := by
  by_contra hnot
  exact hroom (h.outside room hnot)

lemma Holds.hasDocument {room : String} (h : store.Holds rooms contents)
    (hrooms : Set.InjOn digest rooms) (hroom : contents room ≠ ∅) :
    store.directory.HasDocument room := by
  rcases h.document_self (.of_injOn hrooms (h.mem_of_ne_empty hroom)) with habsent | htext
  · exact absurd (h.absent room habsent) hroom
  · exact ⟨_, Directory.document?_of_text htext⟩

lemma Holds.exists_rooms (h : store.Holds rooms contents) :
    ∃ found, store.directory.rooms = .ok found := by
  obtain ⟨names, hnames⟩ := h.listed
  have hfound : ∀ name ∈ names, ∃ room, store.directory.roomOf? name = .ok room := by
    intro name hname
    have hdocument := ((Directory.mem_documentNames?_iff hnames name).1 hname).1
    rcases h.document name hdocument with habsent | ⟨owner, -, -, htext⟩
    · exact ⟨none, by simp [Directory.roomOf?, Directory.document?, habsent, Except.map]⟩
    · exact ⟨_, by rw [Directory.roomOf?, Directory.document?_of_text htext]; rfl⟩
  obtain ⟨found, hfound⟩ := exists_mapM_eq_ok hfound
  simp only [Directory.rooms_eq, hnames, hfound]
  exact ⟨_, rfl⟩

/-! ## Answers -/

lemma mem_definitions_iff {room : String} {commands : Commands} {definition : Definition} :
    definition ∈ definitions room commands ↔ definition.room = room ∧
      commands[definition.name]?.map StoredCommand.response = some definition.response := by
  rw [definitions, List.mem_map]
  constructor
  · rintro ⟨⟨name, command⟩, hmem, rfl⟩
    rw [Std.ExtTreeMap.mem_toList_iff_getElem?_eq_some.1 hmem]
    exact ⟨rfl, rfl⟩
  · rintro ⟨rfl, hresponse⟩
    obtain ⟨command, hcommand, hresponse⟩ := Option.map_eq_some_iff.1 hresponse
    refine ⟨(definition.name, command),
      Std.ExtTreeMap.mem_toList_iff_getElem?_eq_some.2 hcommand, ?_⟩
    simp only [hresponse]

lemma pairwise_definitions (room : String) (commands : Commands) :
    (definitions room commands).Pairwise Definition.Before := by
  rw [definitions, List.pairwise_map]
  exact Std.ExtTreeMap.ordered_keys_toList.imp fun h => .inr ⟨rfl, compare_lt_iff_lt.1 h⟩

/-- The definitions of sorted rooms are sorted. -/
lemma pairwise_flatten_definitions {found : List String} (h : found.Pairwise (· < ·))
    (contents : String → Commands) :
    (found.map fun room => definitions room (contents room)).flatten.Pairwise
      Definition.Before := by
  rw [List.pairwise_flatten, List.pairwise_map]
  constructor
  · intro part hpart
    obtain ⟨room, -, rfl⟩ := List.mem_map.1 hpart
    exact pairwise_definitions room (contents room)
  · refine h.imp ?_
    intro one two hlt a ha b hb
    left
    rwa [(mem_definitions_iff.1 ha).1, (mem_definitions_iff.1 hb).1]

/-- All definitions are those of the dictionary, in the same order. -/
lemma Holds.all_eq {dictionary : Dictionary} (h : store.Holds rooms contents)
    (hrooms : Set.InjOn digest rooms) (hd : ∀ room, dictionary.Matches room (contents room)) :
    store.all.1 = .ok dictionary.all := by
  obtain ⟨found, hfound⟩ := h.exists_rooms
  obtain ⟨hsorted, hmem⟩ := Directory.rooms_spec hfound
  have hknown : ∀ room ∈ found, (store.commands room).map (definitions room) =
      .ok (definitions room (contents room)) := by
    intro room hroom
    rw [h.commands (.of_injOn hrooms (h.mem_of_hasDocument ((hmem room).1 hroom)))]
    rfl
  have hall : store.all.1 =
      .ok (found.map fun room => definitions room (contents room)).flatten := by
    rw [(all_spec store).1, hfound]
    simp only [Except.bind, mapM_eq_ok_map hknown]
    rfl
  rw [hall]
  congr 1
  apply (pairwise_flatten_definitions hsorted contents).eq_of_mem_iff dictionary.pairwise_all
  intro definition
  rw [Dictionary.mem_all_iff, hd definition.room, List.mem_flatten]
  constructor
  · rintro ⟨part, hpart, hdefinition⟩
    obtain ⟨room, -, rfl⟩ := List.mem_map.1 hpart
    obtain ⟨rfl, hresponse⟩ := mem_definitions_iff.1 hdefinition
    exact hresponse
  · intro hresponse
    have hroom : store.directory.HasDocument definition.room := by
      apply h.hasDocument hrooms
      intro hempty
      simp [hempty] at hresponse
    exact ⟨_, List.mem_map.2 ⟨definition.room, (hmem _).2 hroom, rfl⟩,
      mem_definitions_iff.2 ⟨rfl, hresponse⟩⟩

/-- Every file can be read, so an edit fails for its own reasons only. -/
lemma Holds.edit_eq {room : String} (h : store.Holds rooms contents)
    (halone : Alone rooms room) (now : String) (edit : Edit) :
    (store.edit room now edit none).1 =
      (edit.check.bind fun _ => edit.apply room now (contents room)).map fun _ => () := by
  obtain ⟨names, hnames⟩ := h.listed
  obtain ⟨entries, hentries⟩ := Directory.exists_present hnames
  have hfile : ∀ name : String, entries[name]? ≠ some Entry.folder := by
    intro name hfolder
    apply h.readable name
    rw [hentries]
    simp only [Directory.read, hfolder]
  rw [Store.edit_eq, h.commands halone]
  cases edit.check with
  | error failure => rfl
  | ok _ =>
    simp only [Except.bind]
    cases edit.apply room now (contents room) with
    | error failure => rfl
    | ok new =>
      have hsaved := Directory.replace_present (Document.text ⟨room, new⟩).toUTF8
        (hfile (temporaryName (documentName room))) (hfile (documentName room))
      rw [← hentries, ← load_directory store room] at hsaved
      simp only [save, hsaved]
      rfl

/-! ## One operation -/

/-- What the store holds are the entries of the dictionary. -/
def Refines (rooms : Set String) (dictionary : Dictionary) (store : Store) : Prop :=
  ∃ contents, store.Holds rooms contents ∧ ∀ room, dictionary.Matches room (contents room)

namespace Refines

variable {dictionary : Dictionary} {room : String}

lemma empty (rooms : Set String) : Refines rooms ∅ ⟨.present ∅, ∅⟩ := by
  refine ⟨fun _ => ∅, .empty rooms, fun room name => ?_⟩
  simp

lemma untouched {after : Store} (h : store.Refines rooms dictionary)
    (hafter : Untouched store after) : after.Refines rooms dictionary := by
  obtain ⟨contents, hholds, hd⟩ := h
  exact ⟨contents, hholds.untouched hafter, hd⟩

lemma lookup (h : store.Refines rooms dictionary) (hrooms : Set.InjOn digest rooms)
    (hroom : room ∈ rooms) (name : String) :
    (store.lookup room name).1 = .ok dictionary[(room, name)]? ∧
      (store.lookup room name).2.Refines rooms dictionary := by
  refine ⟨?_, h.untouched (load_untouched store room)⟩
  obtain ⟨contents, hholds, hd⟩ := h
  rw [lookup_eq, hholds.commands (.of_injOn hrooms hroom), hd room name]
  rfl

lemma list (h : store.Refines rooms dictionary) (hrooms : Set.InjOn digest rooms)
    (hroom : room ∈ rooms) :
    (store.list room).1 = .ok (dictionary.list room) ∧
      (store.list room).2.Refines rooms dictionary := by
  refine ⟨?_, h.untouched (load_untouched store room)⟩
  obtain ⟨contents, hholds, hd⟩ := h
  have hkeys : (contents room).keys = dictionary.list room := by
    have hsorted : (contents room).keys.Pairwise (· < ·) :=
      Std.ExtTreeMap.ordered_keys.imp compare_lt_iff_lt.1
    apply hsorted.eq_of_mem_iff (dictionary.pairwise_list room)
    intro name
    rw [Dictionary.mem_list_iff, (hd room).mem_iff, Std.ExtTreeMap.mem_keys]
  rw [list_eq, hholds.commands (.of_injOn hrooms hroom), ← hkeys]
  rfl

lemma all (h : store.Refines rooms dictionary) (hrooms : Set.InjOn digest rooms) :
    store.all.1 = .ok dictionary.all ∧ store.all.2.Refines rooms dictionary := by
  refine ⟨?_, h.untouched (all_spec store).2⟩
  obtain ⟨contents, hholds, hd⟩ := h
  exact hholds.all_eq hrooms hd

lemma edit (h : store.Refines rooms dictionary) (hrooms : Set.InjOn digest rooms)
    (hroom : room ∈ rooms) (now : String) (edit : Edit) :
    (store.edit room now edit none).1 = (dictionary.edit room edit).1 ∧
      (store.edit room now edit none).2.Refines rooms (dictionary.edit room edit).2 := by
  obtain ⟨contents, hholds, hd⟩ := h
  have halone := Alone.of_injOn hrooms hroom
  have hanswer := hholds.edit_eq halone now edit
  rcases edit_cases store room now edit none with
    ⟨failure, herror, huntouched⟩ | ⟨hok, -, old, new, hedited⟩
  · rcases Dictionary.edit_cases (hd room) now edit with
      ⟨refusal, hrefusal, hentries⟩ | ⟨new, after, hnew, -, -, -⟩
    · rw [hentries, hanswer, hrefusal]
      exact ⟨rfl, contents, hholds.untouched huntouched, hd⟩
    · rw [hanswer, hnew] at herror
      contradiction
  · obtain rfl : old = contents room :=
      Except.ok.inj (hedited.known.symm.trans (hholds.commands halone))
    have happly : (edit.check.bind fun _ => edit.apply room now (contents room)) = .ok new := by
      rw [hedited.check]
      exact hedited.apply
    rcases Dictionary.edit_cases (hd room) now edit with
      ⟨refusal, hrefusal, -⟩ | ⟨_, after, hnew, hentries, hself, hother⟩
    · rw [happly] at hrefusal
      contradiction
    · obtain rfl := Except.ok.inj (happly.symm.trans hnew)
      rw [hentries]
      refine ⟨hok, _, hholds.edited hroom hedited, fun other => ?_⟩
      by_cases hne : other = room
      · rw [hne, Function.update_self]
        exact hself
      · rw [Function.update_of_ne hne]
        exact hother other _ hne (hd other)

lemma reopen (h : store.Refines rooms dictionary) :
    ∃ fresh, ofDirectory store.directory = .ok fresh ∧ fresh.Refines rooms dictionary := by
  obtain ⟨contents, hholds, hd⟩ := h
  exact ⟨_, hholds.reopen.1, contents, hholds.reopen.2, hd⟩

/-- An operation on a room in play has the same answer in the store and in the dictionary, and
the store goes on to hold what the dictionary tells. -/
lemma perform (h : store.Refines rooms dictionary) (hrooms : Set.InjOn digest rooms)
    (operation : Operation) (hroom : ∀ room, operation.room? = some room → room ∈ rooms) :
    (store.perform operation).1 = (dictionary.perform operation).1 ∧
      (store.perform operation).2.Refines rooms (dictionary.perform operation).2 := by
  cases operation with
  | edit room now edit =>
    obtain ⟨hanswer, hafter⟩ := h.edit hrooms (hroom room rfl) now edit
    exact ⟨congrArg Answer.edited hanswer, hafter⟩
  | lookup room name =>
    obtain ⟨hanswer, hafter⟩ := h.lookup hrooms (hroom room rfl) name
    exact ⟨congrArg Answer.response hanswer, hafter⟩
  | list room =>
    obtain ⟨hanswer, hafter⟩ := h.list hrooms (hroom room rfl)
    exact ⟨congrArg Answer.names hanswer, hafter⟩
  | all =>
    obtain ⟨hanswer, hafter⟩ := h.all hrooms
    exact ⟨congrArg Answer.definitions hanswer, hafter⟩
  | reopen =>
    obtain ⟨fresh, hfresh, hafter⟩ := h.reopen
    simp only [Store.perform, hfresh]
    exact ⟨rfl, hafter⟩

end Refines

/-! ## Any number of operations -/

/-- Whatever is asked of a store and a dictionary that hold the same is answered alike. -/
lemma Refines.run {dictionary : Dictionary} (h : store.Refines rooms dictionary)
    (hrooms : Set.InjOn digest rooms) (operations : List Operation)
    (hplay : Operation.roomsOf operations ⊆ rooms) :
    (Operation.run Store.perform operations store).1 =
        (Operation.run Dictionary.perform operations dictionary).1 ∧
      (Operation.run Store.perform operations store).2.Refines rooms
        (Operation.run Dictionary.perform operations dictionary).2 := by
  induction operations generalizing store dictionary with
  | nil => exact ⟨rfl, h⟩
  | cons operation operations ih =>
    obtain ⟨hfirst, hafter⟩ := h.perform hrooms operation fun room hroom =>
      hplay ⟨operation, List.mem_cons_self, hroom⟩
    obtain ⟨hrest, hlast⟩ := ih hafter fun room ⟨other, ho, hroom⟩ =>
      hplay ⟨other, List.mem_cons_of_mem operation ho, hroom⟩
    exact ⟨congrArg₂ List.cons hfirst hrest, hlast⟩

/-- A store that is opened on an empty directory answers any operations as a dictionary does that
was empty to begin with, if the rooms in play have different digests. The dictionary lists the
names of a room, and all its entries, completely and in strictly ascending order. -/
theorem run_eq_dictionary (operations : List Operation)
    (h : Set.InjOn digest (Operation.roomsOf operations)) :
    ∃ store, ofDirectory (.present ∅) = .ok store ∧
      (Operation.run Store.perform operations store).1 =
        (Operation.run Dictionary.perform operations ∅).1 ∧
      ∀ dictionary : Dictionary,
        (∀ room, (dictionary.list room).Pairwise (· < ·) ∧
          ∀ name, name ∈ dictionary.list room ↔ (room, name) ∈ dictionary) ∧
        dictionary.all.Pairwise Definition.Before ∧
        ∀ definition, definition ∈ dictionary.all ↔
          dictionary[(definition.room, definition.name)]? = some definition.response := by
  refine ⟨⟨.present ∅, ∅⟩, rfl, ?_, fun dictionary => ⟨fun room => ⟨?_, ?_⟩, ?_, ?_⟩⟩
  · exact ((Refines.empty _).run h operations subset_rfl).1
  · exact dictionary.pairwise_list room
  · exact fun _ => Dictionary.mem_list_iff
  · exact dictionary.pairwise_all
  · exact fun _ => Dictionary.mem_all_iff

/-- Two rooms define the same name, and the first still has its response after another store has
taken over. -/
theorem run_eq_dictionary_twoRooms :
    let operations : List Operation :=
      [.edit "a" "noon" (.add "hello" "Welcome!"), .edit "b" "one" (.add "hello" "Ahoy!"), .reopen,
        .edit "a" "two" (.add "hello" "Again"), .lookup "a" "hello", .all]
    Set.InjOn digest (Operation.roomsOf operations) ∧
    ∃ store, ofDirectory (.present ∅) = .ok store ∧
      (Operation.run Store.perform operations store).1 =
        [.edited (.ok ()), .edited (.ok ()), .reopened (.ok ()),
          .edited (.error (.duplicateName "hello in scope a")), .response (.ok (some "Welcome!")),
          .definitions (.ok [⟨"a", "hello", "Welcome!"⟩, ⟨"b", "hello", "Ahoy!"⟩])] := by
  intro operations
  have hinj : Set.InjOn digest (Operation.roomsOf operations) := by
    have hne : digest "a" ≠ digest "b" := by decide +kernel
    have hrooms : ∀ room ∈ Operation.roomsOf operations, room = "a" ∨ room = "b" := by
      rintro room ⟨operation, hmem, hroom⟩
      simp only [operations, List.mem_cons, List.not_mem_nil, or_false] at hmem
      rcases hmem with rfl | rfl | rfl | rfl | rfl | rfl <;>
        simp_all [Operation.room?, eq_comm]
    intro one hone two htwo heq
    rcases hrooms one hone with rfl | rfl <;> rcases hrooms two htwo with rfl | rfl
    · rfl
    · exact absurd heq hne
    · exact absurd heq.symm hne
    · rfl
  obtain ⟨store, hstore, hanswers, -⟩ := run_eq_dictionary operations hinj
  exact ⟨hinj, store, hstore, hanswers.trans rfl⟩

end Store

end RoomBot
