import RoomBot.Proofs.Store.Refinement

/-!
# Stores that are alike

Two stores may have come to hold the same commands at different times and by way of different
questions.  What they tell of a room is the same then, but for the times at which its commands were
made and changed (`Commands.responses`), and they meet the same obstacles when they write its
document (`Directory.clearance`).  Such stores are alike in the room (`Store.AlikeIn`): they give the
same answer to everything that is asked about it, and are alike in it afterwards.

What counts as an obstacle, namely a folder where a file should be, never changes.
-/

namespace RoomBot

/-! ## Commands, times aside -/

/-- The commands of a room without the times at which they were made and changed. -/
def Commands.responses (commands : Commands) : Std.ExtTreeMap String String :=
  commands.map fun _ command => command.response

namespace Commands

variable {commands one two : Commands} {name : String}

@[simp] lemma getElem?_responses (commands : Commands) (name : String) :
    (responses commands)[name]? = commands[name]?.map StoredCommand.response :=
  Std.ExtTreeMap.getElem?_map

lemma responses_insert (commands : Commands) (name : String) (command : StoredCommand) :
    responses (commands.insert name command) =
      (responses commands).insert name command.response := by
  refine Std.ExtTreeMap.ext_getElem? fun other => ?_
  rw [getElem?_responses, Std.ExtTreeMap.getElem?_insert, Std.ExtTreeMap.getElem?_insert,
    getElem?_responses]
  split <;> rfl

lemma responses_erase (commands : Commands) (name : String) :
    responses (commands.erase name) = (responses commands).erase name := by
  refine Std.ExtTreeMap.ext_getElem? fun other => ?_
  rw [getElem?_responses, Std.ExtTreeMap.getElem?_erase, Std.ExtTreeMap.getElem?_erase,
    getElem?_responses]
  split <;> rfl

lemma keys_eq_of_responses (h : responses one = responses two) : one.keys = two.keys := by
  have hkeys := congrArg Std.ExtTreeMap.keys h
  rwa [responses, responses, Std.ExtTreeMap.keys_map, Std.ExtTreeMap.keys_map] at hkeys

/-- Either both have the command or none has it. -/
lemma getElem?_cases (h : responses one = responses two) (name : String) :
    (one[name]? = none ∧ two[name]? = none) ∨
      ∃ command other, one[name]? = some command ∧ two[name]? = some other := by
  have hname : one[name]?.map StoredCommand.response = two[name]?.map StoredCommand.response := by
    rw [← getElem?_responses, h, getElem?_responses]
  cases hone : one[name]? with
  | none =>
    rw [hone, Option.map_none, eq_comm, Option.map_eq_none_iff] at hname
    exact .inl ⟨rfl, hname⟩
  | some command =>
    rw [hone, Option.map_some, eq_comm, Option.map_eq_some_iff] at hname
    obtain ⟨other, hother, -⟩ := hname
    exact .inr ⟨command, other, rfl, hother⟩

end Commands

/-- What comes of an edit, times aside, does not depend on times. -/
lemma Edit.map_responses_apply {one two : Commands}
    (h : Commands.responses one = Commands.responses two) (room now later : String) (edit : Edit) :
    (edit.apply room now one).map Commands.responses =
      (edit.apply room later two).map Commands.responses := by
  cases edit with
  | add name response =>
    rcases Commands.getElem?_cases h name with ⟨hone, htwo⟩ | ⟨_, _, hone, htwo⟩
    · simp only [apply, hone, htwo, Except.map, Commands.responses_insert, h]
    · simp only [apply, hone, htwo, Except.map]
  | modify name response =>
    rcases Commands.getElem?_cases h name with ⟨hone, htwo⟩ | ⟨_, _, hone, htwo⟩
    · simp only [apply, hone, htwo, Except.map]
    · simp only [apply, hone, htwo, Except.map, Commands.responses_insert, h]
  | remove name =>
    rcases Commands.getElem?_cases h name with ⟨hone, htwo⟩ | ⟨_, _, hone, htwo⟩
    · simp only [apply, hone, htwo, Except.map]
    · simp only [apply, hone, htwo, Except.map, Commands.responses_erase, h]

/-! ## Obstacles -/

namespace Directory

variable {before after : Directory} {name : String} {content : ByteArray} {halt : Option Halt}

/-- Whether a file can be replaced, and if not, why. -/
def clearance (name : String) (directory : Directory) : Except Failure Unit :=
  if directory.names? = none ∨ directory.read (temporaryName name) = .unreadable then
    .error (.persistence (temporaryName name) "the file could not be written")
  else if directory.read name = .unreadable then
    .error (.persistence name "the file could not be replaced")
  else .ok ()

lemma read_present_eq_unreadable_iff {entries : Std.ExtTreeMap String Entry} :
    (present entries).read name = .unreadable ↔ entries[name]? = some Entry.folder := by
  rw [read]
  cases entries[name]? with
  | none => simp
  | some entry => cases entry <;> simp

/-- A replacement that nothing stops meets the obstacles that there are. -/
lemma replace_answer (name : String) (content : ByteArray) (directory : Directory) :
    (directory.replace name content none).1 = directory.clearance name := by
  match directory with
  | missing => simp [replace, write?, clearance, names?]
  | blocked => simp [replace, write?, clearance, names?]
  | present entries =>
    simp only [clearance, names?, read_present_eq_unreadable_iff, reduceCtorEq, false_or]
    by_cases htemporary : entries[temporaryName name]? = some Entry.folder
    · simp [replace, write?, htemporary]
    by_cases hname : entries[name]? = some Entry.folder
    · have hother := temporaryName_ne_self name
      simp [replace, write?, rename?, htemporary, hname, hother, Std.ExtTreeMap.getElem?_insert]
    · rw [replace_present content htemporary hname, if_neg htemporary, if_neg hname]

lemma clearance_present_congr {entries others : Std.ExtTreeMap String Entry}
    (h : ∀ name : String, others[name]? = some Entry.folder ↔ entries[name]? = some Entry.folder)
    (name : String) : (present others).clearance name = (present entries).clearance name := by
  simp only [clearance, names?, read_present_eq_unreadable_iff, h, reduceCtorEq]

/-- No obstacle comes or goes when a file is written. -/
lemma clearance_write? (h : before.write? name content = some after) (other : String) :
    after.clearance other = before.clearance other := by
  match before with
  | missing => simp [write?] at h
  | blocked => simp [write?] at h
  | present entries =>
    simp only [write?] at h
    split at h
    · contradiction
    · rename_i hfree
      obtain rfl := Option.some.inj h
      refine clearance_present_congr (fun found => ?_) other
      rw [Std.ExtTreeMap.getElem?_insert]
      by_cases hfound : name = found
      · subst hfound
        simp [hfree]
      · simp [hfound]

/-- No obstacle comes or goes when a file is renamed. -/
lemma clearance_rename? {source target : String} (h : before.rename? source target = some after)
    (other : String) : after.clearance other = before.clearance other := by
  match before with
  | missing => simp [rename?] at h
  | blocked => simp [rename?] at h
  | present entries =>
    simp only [rename?] at h
    split at h
    · contradiction
    · rename_i content hsource htarget
      obtain rfl := Option.some.inj h
      refine clearance_present_congr (fun found => ?_) other
      rw [Std.ExtTreeMap.getElem?_insert, Std.ExtTreeMap.getElem?_erase]
      by_cases hfound : target = found
      · subst hfound
        simpa using htarget
      · by_cases hsame : source = found
        · subst hsame
          simp [hfound, hsource]
        · simp [hfound, hsame]
    · contradiction

lemma clearance_replace (name : String) (content : ByteArray) (halt : Option Halt)
    (directory : Directory) (other : String) :
    (directory.replace name content halt).2.clearance other = directory.clearance other := by
  rcases replace_cases (Prod.eta (directory.replace name content halt)).symm with
    ⟨_, -, -, hsame | ⟨bytes, hwrite⟩⟩ | ⟨-, -, middle, hwrite, hrename⟩
  · rw [hsame]
  · exact clearance_write? hwrite other
  · rw [clearance_rename? hrename, clearance_write? hwrite]

end Directory

/-! ## Stores that are alike in a room -/

namespace Store

lemma save_answer (store : Store) (room : String) (commands : Commands) :
    (store.save room commands none).1 = store.directory.clearance (documentName room) := by
  rw [← Directory.replace_answer _ (Document.text ⟨room, commands⟩).toUTF8]
  simp only [save]
  generalize store.directory.replace (documentName room) _ none = result
  obtain ⟨outcome, directory⟩ := result
  cases outcome <;> rfl

lemma clearance_save (store : Store) (room : String) (commands : Commands) (halt : Option Halt)
    (name : String) :
    (store.save room commands halt).2.directory.clearance name =
      store.directory.clearance name := by
  have hreplace := Directory.clearance_replace (documentName room)
    (Document.text ⟨room, commands⟩).toUTF8 halt store.directory name
  simp only [save]
  generalize store.directory.replace (documentName room) _ halt = result at hreplace ⊢
  obtain ⟨outcome, directory⟩ := result
  cases outcome <;> exact hreplace

/-- An edit is refused because of what it says, because the room cannot be read, because of what the
room has defined, or because there is an obstacle. -/
lemma edit_answer (store : Store) (room now : String) (edit : Edit) :
    (store.edit room now edit none).1 = edit.check.bind fun _ =>
      (store.commands room).bind fun commands =>
        (edit.apply room now commands).bind fun _ =>
          store.directory.clearance (documentName room) := by
  rw [edit_eq]
  cases edit.check with
  | error failure => rfl
  | ok _ =>
    cases store.commands room with
    | error failure => rfl
    | ok commands =>
      simp only [Except.bind]
      cases edit.apply room now commands with
      | error failure => rfl
      | ok new =>
        rw [← load_directory store room]
        exact save_answer (store.load room).2 room new

/-- An edit makes no obstacles and clears none. -/
lemma clearance_edit (store : Store) (room now : String) (edit : Edit) (halt : Option Halt)
    (name : String) :
    (store.edit room now edit halt).2.directory.clearance name =
      store.directory.clearance name := by
  rw [edit_eq]
  cases edit.check with
  | error failure => rfl
  | ok _ =>
    cases store.commands room with
    | error failure => simp
    | ok commands =>
      simp only
      cases edit.apply room now commands with
      | error failure => simp
      | ok new => simp [clearance_save]

/-- Two stores that tell the same of a room, times aside, and can both write its document or both
cannot. -/
structure AlikeIn (room : String) (one two : Store) : Prop where
  responses : (one.commands room).map Commands.responses =
    (two.commands room).map Commands.responses
  clearance : one.directory.clearance (documentName room) =
    two.directory.clearance (documentName room)

namespace AlikeIn

variable {room : String} {one two : Store}

lemma refl (room : String) (store : Store) : AlikeIn room store store := ⟨rfl, rfl⟩

lemma symm (h : AlikeIn room one two) : AlikeIn room two one :=
  ⟨h.responses.symm, h.clearance.symm⟩

lemma asked {after : Store} (h : AlikeIn room one two) (hafter : Asked one after) :
    AlikeIn room after two := by
  refine ⟨?_, ?_⟩
  · rw [hafter.untouched.commands]
    exact h.responses
  · rw [hafter.directory]
    exact h.clearance

lemma load (h : AlikeIn room one two) (other : String) :
    AlikeIn room (one.load other).2 (two.load other).2 :=
  ((h.asked (one.load_asked other)).symm.asked (two.load_asked other)).symm

/-- Stores that are alike either cannot read the room, for the same reason, or both can. -/
lemma cases (h : AlikeIn room one two) :
    (∃ failure, one.commands room = .error failure ∧ two.commands room = .error failure) ∨
      ∃ commands others, one.commands room = .ok commands ∧ two.commands room = .ok others ∧
        Commands.responses commands = Commands.responses others := by
  have hresponses := h.responses
  cases hone : one.commands room <;> cases htwo : two.commands room <;>
    rw [hone, htwo] at hresponses
  · rename_i failure other
    obtain rfl : failure = other := Except.error.inj hresponses
    exact .inl ⟨failure, rfl, rfl⟩
  · contradiction
  · contradiction
  · exact .inr ⟨_, _, rfl, rfl, Except.ok.inj hresponses⟩

lemma lookup (h : AlikeIn room one two) (name : String) :
    (one.lookup room name).1 = (two.lookup room name).1 := by
  rw [lookup_eq, lookup_eq]
  rcases h.cases with ⟨failure, hone, htwo⟩ | ⟨commands, others, hone, htwo, hresponses⟩
  · rw [hone, htwo]
  · rw [hone, htwo]
    simp only [Except.map, ← Commands.getElem?_responses, hresponses]

lemma list (h : AlikeIn room one two) : (one.list room).1 = (two.list room).1 := by
  rw [list_eq, list_eq]
  rcases h.cases with ⟨failure, hone, htwo⟩ | ⟨commands, others, hone, htwo, hresponses⟩
  · rw [hone, htwo]
  · rw [hone, htwo]
    simp only [Except.map, Commands.keys_eq_of_responses hresponses]

/-- The same edit has the same answer, whenever it is made. -/
lemma edit_answer (h : AlikeIn room one two) (now later : String) (edit : Edit) :
    (one.edit room now edit none).1 = (two.edit room later edit none).1 := by
  rw [Store.edit_answer, Store.edit_answer, h.clearance]
  rcases h.cases with ⟨failure, hone, htwo⟩ | ⟨commands, others, hone, htwo, hresponses⟩
  · rw [hone, htwo]
    rfl
  · have happly := edit.map_responses_apply hresponses room now later
    rw [hone, htwo]
    cases edit.check with
    | error failure => rfl
    | ok _ =>
      simp only [Except.bind]
      cases hleft : edit.apply room now commands <;>
        cases hright : edit.apply room later others <;> rw [hleft, hright] at happly
      · exact congrArg Except.error (Except.error.inj happly)
      · contradiction
      · contradiction

/-- The same edit fails in both stores, or it is carried out in both and leaves them the same
commands, times aside. -/
lemma edit_cases (h : AlikeIn room one two) (now later : String) (edit : Edit) :
    (Untouched one (one.edit room now edit none).2 ∧
      Untouched two (two.edit room later edit none).2) ∨
    ∃ old new other newer, Edited room now edit old new one (one.edit room now edit none).2 ∧
      Edited room later edit other newer two (two.edit room later edit none).2 ∧
      Commands.responses new = Commands.responses newer := by
  have hanswer := h.edit_answer now later edit
  rcases Store.edit_cases one room now edit none with
    ⟨_, hone, hleft⟩ | ⟨hone, -, old, new, hleft⟩ <;>
    rcases Store.edit_cases two room later edit none with
      ⟨_, htwo, hright⟩ | ⟨htwo, -, other, newer, hright⟩ <;>
    rw [hone, htwo] at hanswer
  · exact .inl ⟨hleft, hright⟩
  · contradiction
  · contradiction
  · have hresponses := h.responses
    rw [hleft.known, hright.known] at hresponses
    have happly := edit.map_responses_apply (Except.ok.inj hresponses) room now later
    rw [hleft.apply, hright.apply] at happly
    exact .inr ⟨old, new, other, newer, hleft, hright, Except.ok.inj happly⟩

lemma edit (h : AlikeIn room one two) (now later : String) (edit : Edit) :
    AlikeIn room (one.edit room now edit none).2 (two.edit room later edit none).2 := by
  refine ⟨?_, ?_⟩
  · rcases h.edit_cases now later edit with
      ⟨hleft, hright⟩ | ⟨_, _, _, _, hleft, hright, hresponses⟩
    · rw [hleft.commands, hright.commands]
      exact h.responses
    · rw [hleft.commands_self, hright.commands_self]
      exact congrArg Except.ok hresponses
  · rw [clearance_edit, clearance_edit]
    exact h.clearance

end AlikeIn

/-- An edit of a room does not concern a room with another file. -/
lemma commands_edit_of_ne (store : Store) {room other : String}
    (hne : documentName other ≠ documentName room) (now : String) (edit : Edit)
    (halt : Option Halt) :
    (store.edit room now edit halt).2.commands other = store.commands other := by
  rcases edit_cases store room now edit halt with ⟨_, -, huntouched⟩ | ⟨-, -, old, new, hedited⟩
  · exact huntouched.commands other
  · have hcache := hedited.cache_of_ne fun hsame => hne (congrArg documentName hsame)
    cases hbefore : store.cache[other]? with
    | some commands =>
      rw [hbefore] at hcache
      rw [commands_of_cached hbefore, commands_of_cached hcache]
    | none =>
      rw [hbefore] at hcache
      rw [commands_of_uncached hbefore, commands_of_uncached hcache]
      exact hedited.directory_commands_of_ne hne

lemma AlikeIn.edit_of_ne {room other : String} {one two : Store} (h : AlikeIn other one two)
    (hne : documentName other ≠ documentName room) (now later : String) (edit : Edit) :
    AlikeIn other (one.edit room now edit none).2 (two.edit room later edit none).2 := by
  refine ⟨?_, ?_⟩
  · rw [commands_edit_of_ne one hne, commands_edit_of_ne two hne]
    exact h.responses
  · rw [clearance_edit, clearance_edit]
    exact h.clearance

/-- In a store in order there are no obstacles. -/
theorem Holds.clearance {rooms : Set String} {contents : String → Commands} {store : Store}
    (h : store.Holds rooms contents) (name : String) :
    store.directory.clearance name = .ok () := by
  obtain ⟨names, hnames⟩ := h.listed
  obtain ⟨entries, hentries⟩ := Directory.exists_present hnames
  unfold Directory.clearance
  rw [if_neg, if_neg (h.readable name)]
  rintro (hmissing | hfolder)
  · rw [hentries] at hmissing
    contradiction
  · exact h.readable _ hfolder

end Store

/-! ## Documents that are alike -/

namespace Directory

/-- Two findings that are the same, or documents of one room that differ in times only. -/
def Finding.Alike (one two : Finding) : Prop :=
  one = two ∨ ∃ room commands others, Commands.responses commands = Commands.responses others ∧
    one = .content (Document.text ⟨room, commands⟩).toUTF8 ∧
    two = .content (Document.text ⟨room, others⟩).toUTF8

/-- Two directories with the same documents, times aside. -/
def AlikeDocuments (one two : Directory) : Prop :=
  ∀ name, isDocumentName name = true → (one.read name).Alike (two.read name)

lemma AlikeDocuments.refl (directory : Directory) : AlikeDocuments directory directory :=
  fun _ _ => .inl rfl

end Directory

/-- After the same edit alike stores have written alike documents. -/
lemma Store.AlikeIn.edit_documents {room : String} {one two : Store} (h : AlikeIn room one two)
    (hdocuments : one.directory.AlikeDocuments two.directory) (now later : String) (edit : Edit) :
    (one.edit room now edit none).2.directory.AlikeDocuments
      (two.edit room later edit none).2.directory := by
  intro name hname
  rcases h.edit_cases now later edit with
    ⟨hleft, hright⟩ | ⟨_, new, _, newer, hleft, hright, hresponses⟩
  · rw [hleft.read name hname, hright.read name hname]
    exact hdocuments name hname
  · rw [hleft.read, hright.read]
    split
    · exact .inr ⟨room, new, newer, hresponses, rfl, rfl⟩
    split
    · exact .inl rfl
    · exact hdocuments name hname

end RoomBot
