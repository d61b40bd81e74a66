import RoomBot.Proofs.Store.Definers

/-!
# Telling everything

There are two ways to a document.  A question about one room goes from the room to the name of its
file and then looks whether the document is of that room; telling everything goes through the
files, takes the room from each document and then looks whether the file has its name.  On a
directory that others have written to as well the two could come apart, for there may be folders,
temporary files that stayed behind, documents under the name of another room and files that only
look like documents.

They never do.  What keeps a store from telling everything is a file with the name of a document
that is none (`Directory.Spoilt`), and nothing else.  If there is no such file, then whatever is told
is what the store answers about the room and the name, and the other way round (`Store.Enumerates`).
-/

namespace RoomBot

/-! ## Files that only look like documents -/

/-- A name of a document is the ending with something in front of it. -/
lemma isDocumentName_iff {name : String} :
    isDocumentName name = true ↔ ∃ stem, stem ≠ "" ∧ name = stem ++ ".json" := by
  simp only [isDocumentName, Bool.and_eq_true, List.isSuffixOf_iff_suffix, decide_eq_true_eq]
  constructor
  · rintro ⟨⟨stem, hname⟩, hlength⟩
    refine ⟨String.ofList stem, ?_, ?_⟩
    · intro hempty
      rw [← hname, List.length_append, String.ofList_eq_empty_iff.1 hempty] at hlength
      simp at hlength
    · rw [← String.toList_inj, ← hname, String.toList_append, String.toList_ofList]
      rfl
  · rintro ⟨stem, hstem, rfl⟩
    rw [String.toList_append]
    refine ⟨List.suffix_append _ _, ?_⟩
    have hpositive : 0 < stem.toList.length := by
      rw [List.length_pos_iff]
      simpa using hstem
    simp only [documentEnding, List.length_append]
    omega

namespace Directory

/-- There is something under the name, and it is no document: a folder or whatever else cannot be
read, bytes that are no text, a text in which there is nothing to see, or a text that says
something else. -/
inductive Spoilt (directory : Directory) (name : String) : Prop
  | unreadable : directory.read name = .unreadable → Spoilt directory name
  | undecodable {bytes : ByteArray} : directory.read name = .content bytes →
      String.fromUTF8? bytes = none → Spoilt directory name
  | blank {bytes : ByteArray} {text : String} : directory.read name = .content bytes →
      String.fromUTF8? bytes = some text → Text.isBlankText text.toList = true →
      Spoilt directory name
  | foreign {bytes : ByteArray} {text : String} : directory.read name = .content bytes →
      String.fromUTF8? bytes = some text → Document.ofText? text = none → Spoilt directory name

variable {directory : Directory} {name : String}

lemma Spoilt.congr {before after : Directory} (hread : after.read name = before.read name)
    (h : before.Spoilt name) : after.Spoilt name := by
  cases h with
  | unreadable hfile => exact .unreadable (hread.trans hfile)
  | undecodable hfile hbytes => exact .undecodable (hread.trans hfile) hbytes
  | blank hfile htext hblank => exact .blank (hread.trans hfile) htext hblank
  | foreign hfile htext hnone => exact .foreign (hread.trans hfile) htext hnone

lemma Spoilt.read_ne_absent (h : directory.Spoilt name) : directory.read name ≠ .absent := by
  intro habsent
  cases h <;> simp_all

/-- A file is spoilt if it fails to give a document. -/
lemma spoilt_iff :
    directory.Spoilt name ↔ ∃ failure, directory.document? name = .error failure := by
  constructor
  · intro h
    rw [document?]
    cases h with
    | unreadable hfile =>
      rw [hfile]
      exact ⟨_, rfl⟩
    | undecodable hfile hbytes =>
      simp only [hfile, hbytes]
      exact ⟨_, rfl⟩
    | blank hfile htext hblank =>
      simp only [hfile, htext, hblank, if_true]
      exact ⟨_, rfl⟩
    | foreign hfile htext hnone =>
      simp only [hfile, htext, hnone]
      split <;> exact ⟨_, rfl⟩
  · rintro ⟨failure, h⟩
    simp only [document?] at h
    split at h
    · contradiction
    · rename_i hfile
      exact .unreadable hfile
    · rename_i bytes hfile
      split at h
      · rename_i hbytes
        exact .undecodable hfile hbytes
      · rename_i text htext
        split at h
        · rename_i hblank
          exact .blank hfile htext hblank
        · split at h
          · rename_i hnone
            exact .foreign hfile htext hnone
          · contradiction

lemma roomOf?_eq_error_iff {failure : Failure} :
    directory.roomOf? name = .error failure ↔ directory.document? name = .error failure := by
  rw [roomOf?]
  cases directory.document? name <;> simp [Except.map]

/-- The rooms of a directory that can be listed are told unless a file is spoilt that has the name
of a document. -/
lemma exists_rooms_eq_error_iff {names : List String}
    (hnames : directory.documentNames? = some names) :
    (∃ failure, directory.rooms = .error failure) ↔
      ∃ name, isDocumentName name = true ∧ directory.Spoilt name := by
  rw [rooms_eq, hnames]
  constructor
  · rintro ⟨failure, h⟩
    cases hfound : names.mapM directory.roomOf? with
    | ok found => simp [hfound, Except.map] at h
    | error cause =>
      obtain ⟨name, hname, hcause⟩ := exists_of_mapM_eq_error hfound
      exact ⟨name, ((mem_documentNames?_iff hnames name).1 hname).1,
        spoilt_iff.2 ⟨cause, roomOf?_eq_error_iff.1 hcause⟩⟩
  · rintro ⟨name, hname, hspoilt⟩
    have hmem : name ∈ names :=
      (mem_documentNames?_iff hnames name).2 ⟨hname, hspoilt.read_ne_absent⟩
    obtain ⟨cause, hcause⟩ := spoilt_iff.1 hspoilt
    cases hfound : names.mapM directory.roomOf? with
    | error failure => exact ⟨failure, by simp only [hfound, Except.map]⟩
    | ok found =>
      obtain ⟨room, hroom⟩ := exists_of_mapM_eq_ok hfound name hmem
      rw [roomOf?_eq_error_iff.2 hcause] at hroom
      contradiction

end Directory

namespace Store

variable {directory : Directory} {store : Store} {told : List Definition} {room name : String}

/-! ## What is told and what is answered -/

lemma ofDirectory_files (h : ofDirectory directory = .ok store) :
    (∃ names, store.directory.documentNames? = some names) ∧
      ∀ name, store.directory.read name = directory.read name := by
  cases directory with
  | blocked => contradiction
  | missing =>
    rw [← Except.ok.inj h]
    exact ⟨⟨_, rfl⟩, fun name => by simp [Directory.read]⟩
  | present entries =>
    rw [← Except.ok.inj h]
    exact ⟨⟨_, rfl⟩, fun _ => rfl⟩

/-- If anything keeps a store from telling everything, it is a file. -/
lemma Faithful.exists_all_eq_error_iff (h : store.Faithful) :
    (∃ failure, store.all.1 = .error failure) ↔
      ∃ failure, store.directory.rooms = .error failure := by
  cases hfound : store.directory.rooms with
  | error failure => simp [all, hfound]
  | ok found =>
    obtain ⟨told, htold⟩ := h.exists_told hfound
    simp [htold]

/-- What is told agrees with what is answered about one room, and it is in order. -/
structure Enumerates (store : Store) (told : List Definition) : Prop where
  lookup : ∀ room name response, ⟨room, name, response⟩ ∈ told ↔
    (store.lookup room name).1 = .ok (some response)
  list : ∀ room names, (store.list room).1 = .ok names →
    names = (told.filter fun definition => definition.room = room).map Definition.name
  sorted : told.Pairwise Definition.Before

lemma pairwise_names (h : told.Pairwise Definition.Before) (room : String) :
    ((told.filter fun definition => definition.room = room).map Definition.name).Pairwise
      (· < ·) := by
  rw [List.pairwise_map, List.pairwise_filter]
  refine h.imp ?_
  rintro a b (hroom | ⟨-, hname⟩) ha hb
  · rw [of_decide_eq_true ha, of_decide_eq_true hb] at hroom
    exact absurd hroom (String.lt_irrefl room)
  · exact hname

/-- A store that remembers what the documents say enumerates what it tells. -/
lemma Faithful.enumerates (h : store.Faithful) (htold : store.all.1 = .ok told) :
    store.Enumerates told where
  lookup _ _ response := h.mem_told_iff htold response
  sorted := pairwise_told htold
  list room names hlist := by
    obtain ⟨commands, hcommands, rfl⟩ : ∃ commands, store.commands room = .ok commands ∧
        commands.keys = names := by
      rw [list_eq] at hlist
      cases hcommands : store.commands room <;> simp_all [Except.map]
    have hkeys : commands.keys.Pairwise (· < ·) :=
      Std.ExtTreeMap.ordered_keys.imp compare_lt_iff_lt.1
    apply hkeys.eq_of_mem_iff (pairwise_names (pairwise_told htold) room)
    intro name
    rw [Std.ExtTreeMap.mem_keys, ← defines_iff_of_commands hcommands,
      ← exists_mem_told_iff h htold]
    simp [and_comm, and_left_comm, and_assoc]

/-- A store that has been opened on a directory tells everything unless a file there has the name
of a document and is none. What it tells is what it answers about the rooms, and telling it makes
no difference to later answers. The directory holds files that can be read and folders; a link that
leads nowhere, or a file that may not be read, is not among the things that can have such a name. -/
theorem ofDirectory_enumerates (h : ofDirectory directory = .ok store) :
    ((∃ failure, store.all.1 = .error failure) ↔
      ∃ stem, stem ≠ "" ∧ directory.Spoilt (stem ++ ".json")) ∧
    (∀ told, store.all.1 = .ok told → store.Enumerates told) ∧
    AnswersAlike store.all.2 store := by
  have hfaithful := faithful_of_ofDirectory h
  obtain ⟨⟨names, hnames⟩, hread⟩ := ofDirectory_files h
  refine ⟨?_, fun told htold => hfaithful.enumerates htold, (all_spec store).2.answersAlike⟩
  rw [hfaithful.exists_all_eq_error_iff, Directory.exists_rooms_eq_error_iff hnames]
  constructor
  · rintro ⟨name, hname, hspoilt⟩
    obtain ⟨stem, hstem, rfl⟩ := isDocumentName_iff.1 hname
    exact ⟨stem, hstem, hspoilt.congr (hread _).symm⟩
  · rintro ⟨stem, hstem, hspoilt⟩
    exact ⟨_, isDocumentName_iff.2 ⟨stem, hstem, rfl⟩, hspoilt.congr (hread _)⟩

/-- A folder, a temporary file that stayed behind and a document of another room keep nobody from
telling what the one document says that has the right name. -/
theorem ofDirectory_enumerates_misplaced :
    let commands (response : String) : Commands :=
      (∅ : Commands).insert "hello" ⟨response, "noon", "noon"⟩
    let entries : Std.ExtTreeMap String Entry :=
      (((∅ : Std.ExtTreeMap String Entry).insert "old" .folder).insert
        (temporaryName (documentName "a")) (.file .empty)).insert
        "misplaced.json" (.file (Document.text ⟨"b", commands "Ahoy!"⟩).toUTF8) |>.insert
        (documentName "a") (.file (Document.text ⟨"a", commands "Welcome!"⟩).toUTF8)
    ∃ store told, ofDirectory (.present entries) = .ok store ∧ store.all.1 = .ok told ∧
      store.Enumerates told ∧ ⟨"a", "hello", "Welcome!"⟩ ∈ told ∧ ⟨"b", "hello", "Ahoy!"⟩ ∉ told := by
  intro commands entries
  have hread : ∀ name, (Directory.present entries).read name =
      if name = documentName "a" then
        .content (Document.text ⟨"a", commands "Welcome!"⟩).toUTF8
      else if name = "misplaced.json" then
        .content (Document.text ⟨"b", commands "Ahoy!"⟩).toUTF8
      else if name = temporaryName (documentName "a") then .content .empty
      else if name = "old" then .unreadable
      else .absent := by
    intro name
    simp only [Directory.read, entries, Std.ExtTreeMap.getElem?_insert,
      Std.compare_eq_iff_eq, eq_comm (a := name)]
    split_ifs <;> simp
  have hopens : ofDirectory (.present entries) = .ok ⟨.present entries, ∅⟩ := rfl
  obtain ⟨hfails, henumerates, -⟩ := ofDirectory_enumerates hopens
  have htells : ¬ ∃ stem, stem ≠ "" ∧ (Directory.present entries).Spoilt (stem ++ ".json") := by
    rintro ⟨stem, hstem, hspoilt⟩
    have hname := isDocumentName_iff.2 ⟨stem, hstem, rfl⟩
    obtain ⟨failure, hfailure⟩ := Directory.spoilt_iff.1 hspoilt
    have hfile := hread (stem ++ ".json")
    split_ifs at hfile with ha hb htemporary hold
    · rw [Directory.document?_of_text hfile] at hfailure
      contradiction
    · rw [Directory.document?_of_text hfile] at hfailure
      contradiction
    · rw [htemporary, isDocumentName_temporaryName] at hname
      contradiction
    · rw [hold] at hname
      revert hname
      decide
    · exact hspoilt.read_ne_absent hfile
  cases htold : (Store.all ⟨.present entries, ∅⟩).1 with
  | error failure => exact absurd (hfails.1 ⟨failure, htold⟩) htells
  | ok told =>
    have hmem := (henumerates told htold).lookup
    refine ⟨_, told, hopens, htold, henumerates told htold, ?_, ?_⟩
    · have hcommands : (Directory.present entries).commands "a" = .ok (commands "Welcome!") :=
        Directory.commands_of_text (by rw [hread, if_pos rfl])
      rw [hmem, lookup_eq, commands_of_uncached (by simp), hcommands]
      simp [commands, Except.map]
    · have habsent : (Directory.present entries).read (documentName "b") = .absent := by
        have ha : documentName "b" ≠ documentName "a" := by decide +kernel
        have hb : documentName "b" ≠ "misplaced.json" := by decide +kernel
        have hold : documentName "b" ≠ "old" := by decide +kernel
        rw [hread, if_neg ha, if_neg hb, if_neg (documentName_ne_temporaryName "b" _), if_neg hold]
      rw [hmem, lookup_eq, commands_of_uncached (by simp), Directory.commands, Directory.document?,
        habsent]
      simp [Except.map]

end Store

end RoomBot
