import RoomBot.Proofs.Document.RoundTrip
import RoomBot.Store.Basic

/-!
# Files of a store

What a store reads from its directory depends on the documents alone, and what a replacement does
to them can be told in two sentences.  One that fails leaves every file but the temporary one as
it was, and the temporary file is no document.  One that succeeds puts the new text in the place
of the old one and takes the temporary file away.

A document that the store has written is read back (`document?_of_text`), because its text is
UTF-8, is not blank and is read as it was written.  So whatever is saved can be read, character for
character (`Store.read_back`).
-/

namespace RoomBot

/-! ## Working through a list that may fail -/

section MapM

variable {α β ε : Type} {f g : α → Except ε β}

lemma mapM_congr {items : List α} (h : ∀ item ∈ items, f item = g item) :
    items.mapM f = items.mapM g := by
  induction items with
  | nil => rfl
  | cons item items ih =>
    rw [List.mapM_cons, List.mapM_cons, h item List.mem_cons_self,
      ih fun other ho => h other (List.mem_cons_of_mem item ho)]

lemma mapM_cons_eq_ok_iff {item : α} {items : List α} {found : List β} :
    (item :: items).mapM f = .ok found ↔
      ∃ value values, f item = .ok value ∧ items.mapM f = .ok values ∧ found = value :: values := by
  rw [List.mapM_cons]
  cases f item with
  | error failure =>
    refine ⟨fun h => (nomatch h), ?_⟩
    rintro ⟨_, _, h, -⟩
    contradiction
  | ok value =>
    cases items.mapM f with
    | error failure =>
      refine ⟨fun h => (nomatch h), ?_⟩
      rintro ⟨_, _, -, h, -⟩
      contradiction
    | ok values =>
      constructor
      · intro h
        exact ⟨value, values, rfl, rfl, (Except.ok.inj h).symm⟩
      · rintro ⟨_, _, hvalue, hvalues, rfl⟩
        cases hvalue
        cases hvalues
        rfl

lemma mem_of_mapM_eq_ok {items : List α} {found : List β} (h : items.mapM f = .ok found)
    (value : β) : value ∈ found ↔ ∃ item ∈ items, f item = .ok value := by
  induction items generalizing found with
  | nil =>
    obtain rfl : [] = found := Except.ok.inj h
    simp
  | cons item items ih =>
    obtain ⟨first, rest, hfirst, hrest, rfl⟩ := mapM_cons_eq_ok_iff.1 h
    rw [List.mem_cons, ih hrest]
    constructor
    · rintro (rfl | ⟨other, ho, hvalue⟩)
      · exact ⟨item, List.mem_cons_self, hfirst⟩
      · exact ⟨other, List.mem_cons_of_mem item ho, hvalue⟩
    · rintro ⟨other, ho, hvalue⟩
      rcases List.mem_cons.1 ho with rfl | ho
      · exact .inl (Except.ok.inj (hvalue.symm.trans hfirst))
      · exact .inr ⟨other, ho, hvalue⟩

lemma exists_mapM_eq_ok {items : List α} (h : ∀ item ∈ items, ∃ value, f item = .ok value) :
    ∃ found, items.mapM f = .ok found := by
  induction items with
  | nil => exact ⟨[], rfl⟩
  | cons item items ih =>
    obtain ⟨value, hvalue⟩ := h item List.mem_cons_self
    obtain ⟨values, hvalues⟩ := ih fun other ho => h other (List.mem_cons_of_mem item ho)
    exact ⟨_, mapM_cons_eq_ok_iff.2 ⟨value, values, hvalue, hvalues, rfl⟩⟩

lemma mapM_eq_ok_map {items : List α} {value : α → β}
    (h : ∀ item ∈ items, f item = .ok (value item)) : items.mapM f = .ok (items.map value) := by
  induction items with
  | nil => rfl
  | cons item items ih =>
    have hrest := ih fun other ho => h other (List.mem_cons_of_mem item ho)
    exact mapM_cons_eq_ok_iff.2 ⟨_, _, h item List.mem_cons_self, hrest, rfl⟩

lemma exists_of_mapM_eq_ok {items : List α} {found : List β} (h : items.mapM f = .ok found) :
    ∀ item ∈ items, ∃ value, f item = .ok value := by
  induction items generalizing found with
  | nil =>
    intro item hitem
    contradiction
  | cons first items ih =>
    obtain ⟨value, values, hvalue, hvalues, -⟩ := mapM_cons_eq_ok_iff.1 h
    intro item hitem
    rcases List.mem_cons.1 hitem with rfl | hitem
    · exact ⟨value, hvalue⟩
    · exact ih hvalues item hitem

lemma exists_of_mapM_eq_error {items : List α} {failure : ε}
    (h : items.mapM f = .error failure) : ∃ item ∈ items, f item = .error failure := by
  induction items with
  | nil => contradiction
  | cons first items ih =>
    rw [List.mapM_cons] at h
    cases hfirst : f first with
    | error other =>
      rw [hfirst] at h
      obtain rfl := Except.error.inj h
      exact ⟨first, List.mem_cons_self, hfirst⟩
    | ok value =>
      rw [hfirst] at h
      cases hrest : items.mapM f with
      | error other =>
        rw [hrest] at h
        obtain rfl := Except.error.inj h
        obtain ⟨item, hitem, hfailure⟩ := ih hrest
        exact ⟨item, List.mem_cons_of_mem first hitem, hfailure⟩
      | ok values =>
        rw [hrest] at h
        contradiction

/-- When no value comes of two items, a list without repetitions gives none either. -/
lemma nodup_filterMap_of_mapM_eq_ok {f : α → Except ε (Option β)} {items : List α}
    {found : List (Option β)} (h : items.mapM f = .ok found) (hitems : items.Nodup)
    (hf : ∀ a b value, f a = .ok (some value) → f b = .ok (some value) → a = b) :
    (found.filterMap id).Nodup := by
  induction items generalizing found with
  | nil =>
    obtain rfl : [] = found := Except.ok.inj h
    exact List.nodup_nil
  | cons item items ih =>
    obtain ⟨first, rest, hfirst, hrest, rfl⟩ := mapM_cons_eq_ok_iff.1 h
    obtain ⟨hitem, hitems⟩ := List.nodup_cons.1 hitems
    have hnodup := ih hrest hitems
    cases first with
    | none => exact hnodup
    | some value =>
      refine List.nodup_cons.2 ⟨?_, hnodup⟩
      intro hmem
      have hvalue : some value ∈ rest := by simpa using hmem
      obtain ⟨other, ho, hother⟩ := (mem_of_mapM_eq_ok hrest _).1 hvalue
      exact hitem (hf item other value hfirst hother ▸ ho)

end MapM

/-! ## Names of files -/

@[simp] lemma documentName_inj {a b : String} :
    documentName a = documentName b ↔ digest a = digest b := by
  rw [documentName, documentName, String.append_left_inj]

@[simp] lemma isDocumentName_documentName (room : String) :
    isDocumentName (documentName room) = true := by
  have hlength : (digest room).toList.length = 64 := length_digest room
  simp only [isDocumentName, documentName, String.toList_append, String.toList_ofList,
    Bool.and_eq_true, decide_eq_true_eq, List.isSuffixOf_iff_suffix, List.length_append]
  exact ⟨List.suffix_append _ _, by omega⟩

@[simp] lemma isDocumentName_temporaryName (name : String) :
    isDocumentName (temporaryName name) = false := by
  rw [isDocumentName, temporaryName, Bool.and_eq_false_iff, ← Bool.not_eq_true,
    List.isSuffixOf_iff_suffix]
  left
  intro h
  have hlast := h.getLast (by decide)
  simp [documentEnding] at hlast

@[simp] lemma documentName_ne_temporaryName (room name : String) :
    documentName room ≠ temporaryName name := by
  intro h
  have hdocument := isDocumentName_documentName room
  rw [h, isDocumentName_temporaryName] at hdocument
  contradiction

lemma temporaryName_ne_self (name : String) : temporaryName name ≠ name := by
  intro h
  have hlength := congrArg String.length h
  rw [temporaryName, String.length_append] at hlength
  simp at hlength

namespace Directory

/-! ## Reading documents -/

lemma document?_congr {before after : Directory} {name : String}
    (h : after.read name = before.read name) : after.document? name = before.document? name := by
  rw [document?, document?, h]

lemma commands_congr {before after : Directory} {room : String}
    (h : after.read (documentName room) = before.read (documentName room)) :
    after.commands room = before.commands room := by
  rw [commands, commands, document?_congr h]

@[simp] lemma fromUTF8?_toUTF8 (text : String) : String.fromUTF8? text.toUTF8 = some text := by
  rw [String.fromUTF8?, String.toUTF8_eq_toByteArray, dif_pos text.isValidUTF8]
  rfl

/-- The commands of a room are those of its document, if it has one. -/
lemma commands_eq_ok_iff {directory : Directory} {room : String} {commands : Commands} :
    directory.commands room = .ok commands ↔
      directory.document? (documentName room) = .ok none ∧ commands = ∅ ∨
      directory.document? (documentName room) = .ok (some ⟨room, commands⟩) := by
  rw [Directory.commands]
  cases directory.document? (documentName room) with
  | error failure => simp
  | ok found =>
    cases found with
    | none => simp [eq_comm]
    | some document =>
      obtain ⟨owner, found⟩ := document
      by_cases howner : owner = room <;> simp [howner]

/-- A file with the text of a document holds that document. -/
theorem document?_of_text {directory : Directory} {name : String} {document : Document}
    (h : directory.read name = .content (Document.text document).toUTF8) :
    directory.document? name = .ok (some document) := by
  simp only [document?, h, fromUTF8?_toUTF8, Document.isBlankText_text, Document.ofText?_text,
    Bool.false_eq_true, if_false]

lemma commands_of_text {directory : Directory} {room : String} {commands : Commands}
    (h : directory.read (documentName room) =
      .content (Document.text ⟨room, commands⟩).toUTF8) :
    directory.commands room = .ok commands := by
  simp [Directory.commands, document?_of_text h]

lemma commands_of_other_text {directory : Directory} {room other : String}
    {commands : Commands} (hne : other ≠ room)
    (h : directory.read (documentName room) =
      .content (Document.text ⟨other, commands⟩).toUTF8) :
    ∃ failure, directory.commands room = .error failure := by
  simp only [Directory.commands, document?_of_text h, if_neg hne]
  exact ⟨_, rfl⟩

/-- Whatever is wrong with a document is for the operator. -/
lemma isPersistence_of_document? {directory : Directory} {name : String} {failure : Failure}
    (h : directory.document? name = .error failure) : failure.isPersistence = true := by
  simp only [document?] at h
  split at h
  · contradiction
  · obtain rfl := Except.error.inj h
    rfl
  · split at h
    · obtain rfl := Except.error.inj h
      rfl
    · split at h
      · obtain rfl := Except.error.inj h
        rfl
      · split at h
        · obtain rfl := Except.error.inj h
          rfl
        · contradiction

lemma isPersistence_of_commands {directory : Directory} {room : String} {failure : Failure}
    (h : directory.commands room = .error failure) : failure.isPersistence = true := by
  simp only [commands] at h
  split at h
  · rename_i hfile
    obtain rfl := Except.error.inj h
    exact isPersistence_of_document? hfile
  · contradiction
  · split at h
    · contradiction
    · obtain rfl := Except.error.inj h
      rfl

/-! ## The list of documents -/

/-- The names that documents could have, sorted, if the directory can be listed. -/
def documentNames? (directory : Directory) : Option (List String) :=
  directory.names?.map fun names => names.filter isDocumentName

lemma mem_documentNames?_iff {directory : Directory} {names : List String}
    (h : directory.documentNames? = some names) (name : String) :
    name ∈ names ↔ isDocumentName name = true ∧ directory.read name ≠ .absent := by
  match directory with
  | missing => simp [documentNames?, names?] at h
  | blocked => simp [documentNames?, names?] at h
  | present entries =>
    obtain rfl := Option.some.inj h
    rw [List.mem_filter, Std.ExtTreeMap.mem_keys, Std.ExtTreeMap.mem_iff_isSome_getElem?, and_comm]
    cases hentry : entries[name]? with
    | none => simp [read, hentry]
    | some entry => cases entry <;> simp [read, hentry]

lemma nodup_documentNames? {directory : Directory} {names : List String}
    (h : directory.documentNames? = some names) : names.Nodup := by
  match directory with
  | missing => simp [documentNames?, names?] at h
  | blocked => simp [documentNames?, names?] at h
  | present entries =>
    obtain rfl := Option.some.inj h
    exact Std.ExtTreeMap.nodup_keys.filter _

lemma exists_present {directory : Directory} {names : List String}
    (h : directory.documentNames? = some names) : ∃ entries, directory = present entries := by
  match directory with
  | missing => contradiction
  | blocked => contradiction
  | present entries => exact ⟨entries, rfl⟩

lemma exists_documentNames? {directory : Directory} {name : String} {content : ByteArray}
    (h : directory.read name = .content content) :
    ∃ names, directory.documentNames? = some names := by
  match directory with
  | missing => contradiction
  | blocked => contradiction
  | present entries => exact ⟨_, rfl⟩

/-- Writing a file that is no document does not change the list. -/
lemma documentNames?_write? {before after : Directory} {name : String} {content : ByteArray}
    (hname : isDocumentName name = false) (h : before.write? name content = some after) :
    after.documentNames? = before.documentNames? := by
  match before with
  | missing => simp [write?] at h
  | blocked => simp [write?] at h
  | present entries =>
    simp only [write?] at h
    split at h
    · simp at h
    · obtain rfl := Option.some.inj h
      have hfilter :
          (entries.insert name (.file content)).filter (fun name _ => isDocumentName name) =
            entries.filter (fun name _ => isDocumentName name) := by
        apply Std.ExtTreeMap.ext_getElem?
        intro other
        by_cases ho : name = other
        · subst ho
          simp [hname]
        · simp [Std.ExtTreeMap.getElem?_insert, ho]
      simp only [documentNames?, names?, Option.map_some]
      rw [← Std.ExtTreeMap.keys_filter_key, ← Std.ExtTreeMap.keys_filter_key, hfilter]

/-! ## Replacing a file -/

variable {before after : Directory} {name : String} {content : ByteArray} {halt : Option Halt}

/-- A replacement that fails has at most written to the temporary file; one that succeeds has
written all of the text there and renamed the file. -/
lemma replace_cases {answer : Except Failure Unit}
    (h : before.replace name content halt = (answer, after)) :
    (∃ failure, answer = .error failure ∧ failure.isPersistence = true ∧
      (after = before ∨ ∃ bytes, before.write? (temporaryName name) bytes = some after)) ∨
    (answer = .ok () ∧ halt = none ∧ ∃ middle,
      before.write? (temporaryName name) content = some middle ∧
      middle.rename? (temporaryName name) name = some after) := by
  simp only [replace] at h
  split at h
  case h_1 =>
    obtain ⟨rfl, rfl⟩ := Prod.mk.inj h
    exact .inl ⟨_, rfl, rfl, .inl rfl⟩
  case h_2 =>
    obtain ⟨rfl, rfl⟩ := Prod.mk.inj h
    exact .inl ⟨_, rfl, rfl, .inl rfl⟩
  case h_3 hwrite =>
    obtain ⟨rfl, rfl⟩ := Prod.mk.inj h
    exact .inl ⟨_, rfl, rfl, .inr ⟨_, hwrite⟩⟩
  case h_4 hwrite =>
    obtain ⟨rfl, rfl⟩ := Prod.mk.inj h
    exact .inl ⟨_, rfl, rfl, .inr ⟨_, hwrite⟩⟩
  case h_5 hwrite =>
    obtain ⟨rfl, rfl⟩ := Prod.mk.inj h
    exact .inl ⟨_, rfl, rfl, .inr ⟨_, hwrite⟩⟩
  case h_6 middle hwrite =>
    split at h
    · obtain ⟨rfl, rfl⟩ := Prod.mk.inj h
      exact .inl ⟨_, rfl, rfl, .inr ⟨_, hwrite⟩⟩
    · rename_i hrename
      obtain ⟨rfl, rfl⟩ := Prod.mk.inj h
      exact .inr ⟨rfl, rfl, middle, hwrite, hrename⟩

/-- A replacement that fails leaves every other file as it was, and so the list of documents. The
temporary file can be read, if it could before. -/
lemma replace_error {failure : Failure}
    (h : before.replace name content halt = (.error failure, after)) :
    failure.isPersistence = true ∧ after.documentNames? = before.documentNames? ∧
      (∀ other, other ≠ temporaryName name → after.read other = before.read other) ∧
      ∀ other, after.read other = .unreadable → before.read other = .unreadable := by
  rcases replace_cases h with ⟨_, he, hf, rfl | ⟨bytes, hwrite⟩⟩ | ⟨he, -⟩
  · obtain rfl := Except.error.inj he
    exact ⟨hf, rfl, fun _ _ => rfl, fun _ h => h⟩
  · obtain rfl := Except.error.inj he
    refine ⟨hf, documentNames?_write? (isDocumentName_temporaryName name) hwrite, ?_, ?_⟩
    · intro other ho
      rw [read_write? hwrite, if_neg ho]
    · intro other hafter
      rw [read_write? hwrite] at hafter
      split at hafter
      · contradiction
      · exact hafter
  · contradiction

/-- A replacement that succeeds was not stopped, and has changed the file and nothing else but the
temporary file, which is gone. -/
lemma replace_ok (h : before.replace name content halt = (.ok (), after)) :
    halt = none ∧ ∀ other, after.read other =
      if other = name then .content content
      else if other = temporaryName name then .absent
      else before.read other := by
  rcases replace_cases h with ⟨_, he, -⟩ | ⟨-, hhalt, middle, hwrite, hrename⟩
  · contradiction
  · refine ⟨hhalt, fun other => ?_⟩
    rw [read_rename? hrename, read_write? hwrite, if_pos rfl, read_write? hwrite]
    split
    · rfl
    · split
      · rfl
      · rfl

lemma rename?_present {entries : Std.ExtTreeMap String Entry} {source target : String}
    (hsource : entries[source]? = some (Entry.file content))
    (htarget : entries[target]? ≠ some Entry.folder) :
    (present entries).rename? source target =
      some (present ((entries.erase source).insert target (.file content))) := by
  simp only [rename?, hsource]

/-- Where no folder is in the way, a replacement that nothing stops succeeds. -/
lemma replace_present {entries : Std.ExtTreeMap String Entry} (content : ByteArray)
    (htemporary : entries[temporaryName name]? ≠ some Entry.folder)
    (hname : entries[name]? ≠ some Entry.folder) :
    (present entries).replace name content none =
      (.ok (), present ((entries.erase (temporaryName name)).insert name (.file content))) := by
  have hwrite : (present entries).write? (temporaryName name) content =
      some (present (entries.insert (temporaryName name) (.file content))) := by
    simp only [write?, if_neg htemporary]
  have hother : (entries.insert (temporaryName name) (.file content))[name]? ≠
      some Entry.folder := by
    rwa [Std.ExtTreeMap.getElem?_insert, if_neg (by simpa using temporaryName_ne_self name)]
  have herase : (entries.insert (temporaryName name) (.file content)).erase (temporaryName name) =
      entries.erase (temporaryName name) := by
    apply Std.ExtTreeMap.ext_getElem?
    intro other
    by_cases ho : temporaryName name = other
    · simp [ho]
    · simp [Std.ExtTreeMap.getElem?_erase, Std.ExtTreeMap.getElem?_insert, ho]
  have hrename := rename?_present Std.ExtTreeMap.getElem?_insert_self hother
  rw [herase] at hrename
  simp only [replace, written, hwrite, hrename]

/-! ## The rooms of a directory -/

/-- There is a document of the room, under the name that it should have. -/
def HasDocument (directory : Directory) (room : String) : Prop :=
  ∃ commands, directory.document? (documentName room) = .ok (some ⟨room, commands⟩)

lemma HasDocument.read_ne_absent {directory : Directory} {room : String}
    (h : directory.HasDocument room) : directory.read (documentName room) ≠ .absent := by
  obtain ⟨commands, hfile⟩ := h
  intro habsent
  simp [document?, habsent] at hfile

lemma hasDocument_of_mem {directory : Directory} {room name : String} {commands : Commands}
    (h : directory.commands room = .ok commands) (hname : name ∈ commands) :
    directory.HasDocument room := by
  rcases commands_eq_ok_iff.1 h with ⟨-, rfl⟩ | hfile
  · simp at hname
  · exact ⟨commands, hfile⟩

lemma rooms_eq (directory : Directory) :
    directory.rooms = match directory.documentNames? with
      | none => .error (.persistence "" "the directory could not be read")
      | some names =>
        (names.mapM directory.roomOf?).map fun found => (found.filterMap id).mergeSort := by
  unfold rooms documentNames?
  cases directory.names? with
  | none => rfl
  | some names =>
    simp only [Option.map_some]
    cases (names.filter isDocumentName).mapM directory.roomOf? <;> rfl

lemma rooms_congr (hnames : after.documentNames? = before.documentNames?)
    (hread : ∀ name, isDocumentName name = true → after.read name = before.read name) :
    after.rooms = before.rooms := by
  rw [rooms_eq, rooms_eq, hnames]
  cases h : before.documentNames? with
  | none => rfl
  | some names =>
    have hroom : ∀ name ∈ names, after.roomOf? name = before.roomOf? name := by
      intro name hn
      have hread := hread name ((mem_documentNames?_iff h name).1 hn).1
      rw [roomOf?, roomOf?, document?_congr hread]
    simp only [mapM_congr hroom]

lemma roomOf?_eq_some_iff {directory : Directory} {name room : String} :
    directory.roomOf? name = .ok (some room) ↔
      documentName room = name ∧ directory.HasDocument room := by
  unfold roomOf? HasDocument
  constructor
  · intro h
    cases hfile : directory.document? name with
    | error failure => simp [hfile, Except.map] at h
    | ok found =>
      obtain ⟨document, ⟨rfl, hname⟩, rfl⟩ : ∃ document, (found = some document ∧
          documentName document.room = name) ∧ document.room = room := by
        simpa [hfile, Except.map, Option.filter_eq_some_iff] using h
      exact ⟨hname, document.commands, by rw [hname, hfile]⟩
  · rintro ⟨rfl, commands, hfile⟩
    simp [hfile, Except.map, Option.filter]

lemma isPersistence_of_rooms {directory : Directory} {failure : Failure}
    (h : directory.rooms = .error failure) : failure.isPersistence = true := by
  rw [rooms_eq] at h
  cases hnames : directory.documentNames? with
  | none =>
    obtain rfl : _ = failure := by simpa [hnames] using h
    rfl
  | some names =>
    cases hfound : names.mapM directory.roomOf? with
    | ok found => simp [hnames, hfound, Except.map] at h
    | error other =>
      obtain rfl : other = failure := by simpa [hnames, hfound, Except.map] using h
      obtain ⟨name, -, hname⟩ := exists_of_mapM_eq_error hfound
      cases hfile : directory.document? name with
      | ok document => simp [roomOf?, hfile, Except.map] at hname
      | error cause =>
        obtain rfl : cause = other := by simpa [roomOf?, hfile, Except.map] using hname
        exact isPersistence_of_document? hfile

/-- The list of rooms is sorted, names no room twice, and has exactly those with a document. -/
lemma rooms_spec {directory : Directory} {rooms : List String}
    (h : directory.rooms = .ok rooms) :
    rooms.Pairwise (· < ·) ∧ ∀ room, room ∈ rooms ↔ directory.HasDocument room := by
  rw [rooms_eq] at h
  cases hnames : directory.documentNames? with
  | none => simp [hnames] at h
  | some names =>
    cases hfound : names.mapM directory.roomOf? with
    | error failure => simp [hnames, hfound, Except.map] at h
    | ok found =>
      obtain rfl : (found.filterMap id).mergeSort = rooms := by
        simpa [hnames, hfound, Except.map] using h
      have hmem := mem_of_mapM_eq_ok hfound
      have hperm := List.mergeSort_perm (found.filterMap id) fun a b => decide (a ≤ b)
      have hnodup : (found.filterMap id).Nodup := by
        refine nodup_filterMap_of_mapM_eq_ok hfound (nodup_documentNames? hnames) ?_
        intro a b room ha hb
        rw [← (roomOf?_eq_some_iff.1 ha).1, (roomOf?_eq_some_iff.1 hb).1]
      refine ⟨?_, fun room => ?_⟩
      · have hsorted : ((found.filterMap id).mergeSort).Pairwise (· ≤ ·) := by
          simpa using @List.pairwise_mergeSort _ (fun a b : String => decide (a ≤ b))
            (by simpa using fun _ _ _ => String.le_trans) (by simpa using String.le_total)
            (found.filterMap id)
        have hdistinct := hperm.nodup_iff.2 hnodup
        exact (hsorted.and hdistinct).imp fun ⟨hle, hne⟩ => Std.lt_of_le_of_ne hle hne
      · have hname : documentName room ∈ names ↔ directory.read (documentName room) ≠ .absent := by
          simp [mem_documentNames?_iff hnames]
        rw [hperm.mem_iff, List.mem_filterMap]
        constructor
        · rintro ⟨_, hsome, rfl⟩
          obtain ⟨name, -, hroom⟩ := (hmem _).1 hsome
          exact (roomOf?_eq_some_iff.1 hroom).2
        · intro hroom
          have hread : documentName room ∈ names := hname.2 hroom.read_ne_absent
          exact ⟨some room, (hmem _).2 ⟨_, hread, roomOf?_eq_some_iff.2 ⟨rfl, hroom⟩⟩, rfl⟩

end Directory

/-! ## Saving and reading back -/

namespace Store

lemma exists_save {entries : Std.ExtTreeMap String Entry} {room : String}
    (htemporary : entries[temporaryName (documentName room)]? ≠ some Entry.folder)
    (hname : entries[documentName room]? ≠ some Entry.folder) (commands : Commands)
    (cache : Std.ExtTreeMap String Commands) :
    ∃ after, save room commands none ⟨.present entries, cache⟩ = (.ok (), after) := by
  simp only [save, Directory.replace_present _ htemporary hname]
  exact ⟨_, rfl⟩

/-- The text of a document is not taken for a file without text, and it is read as the room and the
commands that were written, whatever characters there are in them. Wherever it has been saved, the
file that has it is found to hold them. -/
theorem read_back (room : String) (commands : Commands) :
    Text.isBlankText (Document.text ⟨room, commands⟩).toList = false ∧
    Document.ofText? (Document.text ⟨room, commands⟩) = some ⟨room, commands⟩ ∧
    ∀ store after : Store, store.save room commands none = (.ok (), after) →
      after.directory.read (documentName room) =
        .content (Document.text ⟨room, commands⟩).toUTF8 ∧
      after.directory.document? (documentName room) = .ok (some ⟨room, commands⟩) := by
  refine ⟨Document.isBlankText_text _, Document.ofText?_text _, fun store after h => ?_⟩
  have hread : after.directory.read (documentName room) =
      .content (Document.text ⟨room, commands⟩).toUTF8 := by
    simp only [save] at h
    cases hreplace : store.directory.replace (documentName room)
        (Document.text ⟨room, commands⟩).toUTF8 none with
    | mk answer directory =>
      rw [hreplace] at h
      cases answer with
      | error failure =>
        obtain ⟨hfails, -⟩ := Prod.mk.inj h
        contradiction
      | ok _ =>
        obtain ⟨-, rfl⟩ := Prod.mk.inj h
        rw [(Directory.replace_ok hreplace).2, if_pos rfl]
  exact ⟨hread, Directory.document?_of_text hread⟩

/-- A room with quotes in its name has a command without a name and one whose response has a
character of every kind that is escaped. -/
theorem read_back_escapes :
    let room := "\"\\\n😀"
    let commands : Commands :=
      ((∅ : Commands).insert "" ⟨"", "noon", ""⟩).insert "\x00" ⟨"\x7f\"\t\\u0041😀", "\r", "\x1f"⟩
    ∃ after, save room commands none ⟨.present ∅, ∅⟩ = (.ok (), after) ∧
      after.directory.document? (documentName room) = .ok (some ⟨room, commands⟩) := by
  intro room commands
  obtain ⟨after, hsave⟩ :=
    @exists_save ∅ room (by simp) (by simp) commands ∅
  exact ⟨after, hsave, ((read_back room commands).2.2 _ after hsave).2⟩

end Store

end RoomBot
