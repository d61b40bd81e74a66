import RoomBot.Proofs.Command.Typed
import RoomBot.Proofs.Course

/-!
# Custom commands say what they have been taught

Somebody teaches a room a command (`Event.Teaches`): the event adds a name that the room has not
defined, or modifies one that it has.  The bot confirms it, and from then on every call of the name
in that room is answered with the response, to the letter, whatever it is called with
(`Session.answers_as_taught`).  That ends only when another edit of the command is confirmed in the
room (`Session.Undisturbed`); edits in other rooms, edits that fail and restarts do not matter.

On its way the response is cut out of the text, checked, written to a file, read again and looked
up.  What was typed is `RoomBot.Proofs.Command.Typed`, what the store holds is
`RoomBot.Proofs.Course`.  Here the two are joined: the name has an owner because the room defines
it, and so a call of it reaches the store.

The room is not to share its file with another room where something happens, for then the other
could take the file away.
-/

namespace RoomBot

/-! ## Edits and the command they are about -/

namespace Edit

/-- The edit gives the command another response, or removes it. -/
def Changes (name : String) : Edit → Prop
  | add _ _ => False
  | modify other _ => other = name
  | remove other => other = name

variable {edit : Edit} {room now name : String} {old new : Commands} {command : StoredCommand}

/-- Every other edit leaves the command alone. Adding does, because the name is taken. -/
lemma getElem?_of_not_changes (happly : edit.apply room now old = .ok new)
    (hchanges : ¬ edit.Changes name) (hold : old[name]? = some command) :
    new[name]? = some command := by
  have hyields := yields_of_apply happly
  have hne : name ≠ edit.name := by
    rintro rfl
    cases hyields with
    | add hnone =>
      rw [Edit.name, hnone] at hold
      contradiction
    | modify _ => exact hchanges rfl
    | remove _ => exact hchanges rfl
  rw [hyields.getElem?_of_ne hne, hold]

end Edit

/-! ## Custom commands at work -/

namespace Book

variable {book claimed after : Book} {mark : Char} {now room name response args : String}
  {rooms : Set String} {contents : String → Commands}

lemma call_of_pending {α : Type} (hpending : book.vault.pending = none)
    (ask : Store → Except Failure α × Store) :
    book.call ask = ((ask book.vault.store).1, book.withStore (ask book.vault.store).2) := by
  simp only [call, Vault.call, hpending, withStore]

/-- An edit that the commands of the room allow is carried out. -/
lemma exists_call_edit (hpending : book.vault.pending = none)
    (hholds : book.vault.store.Holds rooms contents) (halone : Store.Alone rooms room)
    {edit : Edit} {new : Commands} (hcheck : edit.check = .ok ())
    (happly : edit.apply room now (contents room) = .ok new) :
    ∃ store, Store.Edited room now edit (contents room) new book.vault.store store ∧
      book.call (Store.edit room now edit none) = (.ok (), book.withStore store) := by
  have hanswer : (book.vault.store.edit room now edit none).1 = .ok () := by
    rw [hholds.edit_eq halone, hcheck]
    simp only [Except.bind, happly]
    rfl
  rcases Store.edit_cases book.vault.store room now edit none with
    ⟨failure, herror, -⟩ | ⟨-, -, old, next, hedited⟩
  · rw [hanswer] at herror
    contradiction
  · obtain rfl := Except.ok.inj (hedited.known.symm.trans (hholds.commands halone))
    obtain rfl := Except.ok.inj (hedited.apply.symm.trans happly)
    exact ⟨_, hedited, by rw [call_of_pending hpending, hanswer]⟩

lemma add_eq_confirmation (hdefinition : definition? mark args = some (name, response))
    (hname : Command.isName name = true) (hfree : name ∉ managementNames)
    (hclaim : book.claim? name = some claimed)
    (hcall : claimed.call (Store.edit room now (.add name response) none) = (.ok (), after)) :
    book.add mark now room args = (.ok ((Edit.add name response).confirmation mark), after) := by
  have hcheck := Command.checkName_eq_ok_iff.2 hname
  have hmanagement : managementNames.contains name = false := by simpa using hfree
  simp only [add, hdefinition, hcheck, hmanagement, Bool.false_eq_true, if_false, hclaim, hcall]
  rfl

lemma modify_eq_confirmation (hdefinition : definition? mark args = some (name, response))
    (hcall : book.call (Store.edit room now (.modify name response) none) = (.ok (), after)) :
    book.modify mark now room args =
      (.ok ((Edit.modify name response).confirmation mark), after) := by
  simp only [modify, hdefinition, hcall]
  rfl

/-- A name that does not belong to the management is run, whoever calls it. -/
lemma customCommand_eq_run {settings : Settings} {moment : Moment} {request : Request}
    (h : request.call.name ∉ managementNames) :
    book.customCommand settings moment request =
      book.run settings.mark request.room request.call.name := by
  have hmanagement : managementNames.contains request.call.name = false := by simpa using h
  simp only [customCommand, hmanagement, Bool.false_and, Bool.false_eq_true, if_false]
  split
  · simp_all [managementNames]
  · simp_all [managementNames]
  · simp_all [managementNames]
  · rfl

lemma run_eq_response (mark : Char) (hpending : book.vault.pending = none)
    (hlookup : (book.vault.store.lookup room name).1 = .ok (some response)) :
    (book.run mark room name).1 = .ok response := by
  simp only [run, call_of_pending hpending, hlookup]

/-- A new name with a response is added. -/
lemma exists_add (now : String) (h : book.Agrees) (hpending : book.vault.pending = none)
    (hholds : book.vault.store.Holds rooms contents) (halone : Store.Alone rooms room)
    (hroom : room ∈ rooms) (hdefinition : definition? mark args = some (name, response))
    (hname : Command.isName name = true) (hfree : name ∉ reservedNames)
    (hresponse : Text.isBlankText response.toList = false) (hnew : (contents room)[name]? = none) :
    ∃ after, book.add mark now room args =
        (.ok ((Edit.add name response).confirmation mark), after) ∧
      after.vault.store.Holds rooms
        (Function.update contents room ((contents room).insert name ⟨response, now, now⟩)) := by
  obtain ⟨_, -, htallies⟩ := h.tallies name hfree
  obtain ⟨claimed, hclaim, -⟩ := htallies.claim?
  have hvault := (claim?_touchesOnly hclaim).vault
  have hcheck : (Edit.add name response).check = .ok () := by
    simp only [Edit.check, Command.checkName_eq_ok_iff.2 hname, Edit.checkResponse, hresponse,
      Bool.false_eq_true, if_false]
    rfl
  have happly : (Edit.add name response).apply room now (contents room) =
      .ok ((contents room).insert name ⟨response, now, now⟩) := by
    simp only [Edit.apply, hnew]
  rw [← hvault] at hpending hholds
  obtain ⟨store, hedited, hcall⟩ := exists_call_edit hpending hholds halone hcheck happly
  have hmanagement := fun hmem => hfree (managementNames_subset hmem)
  exact ⟨_, add_eq_confirmation hdefinition hname hmanagement hclaim hcall,
    hholds.edited hroom hedited⟩

/-- A name that the room has defined is modified. -/
lemma exists_modify (now : String) (hpending : book.vault.pending = none)
    (hholds : book.vault.store.Holds rooms contents) (halone : Store.Alone rooms room)
    (hroom : room ∈ rooms) (hdefinition : definition? mark args = some (name, response))
    (hresponse : Text.isBlankText response.toList = false) {command : StoredCommand}
    (hold : (contents room)[name]? = some command) :
    ∃ after, book.modify mark now room args =
        (.ok ((Edit.modify name response).confirmation mark), after) ∧
      after.vault.store.Holds rooms (Function.update contents room
        ((contents room).insert name { command with response, updated := now })) := by
  have hcheck : (Edit.modify name response).check = .ok () := by
    simp [Edit.check, Edit.checkResponse, hresponse]
  have happly : (Edit.modify name response).apply room now (contents room) =
      .ok ((contents room).insert name { command with response, updated := now }) := by
    simp only [Edit.apply, hold]
  obtain ⟨store, hedited, hcall⟩ := exists_call_edit hpending hholds halone hcheck happly
  exact ⟨_, modify_eq_confirmation hdefinition hcall, hholds.edited hroom hedited⟩

end Book

/-! ## Teaching -/

/-- The event teaches its room a command: by adding it where the room has not defined it, and by
modifying it where it has. The sender may do so, and the name and the response are ones that can be
stored. -/
structure Event.Teaches (bot : Bot) (edit : Edit) (name response : String) (event : Event) :
    Prop where
  heeded : Bot.heeds bot.settings event = true
  allowed : bot.settings.access.canEdit event.sender = true
  visible : Text.isBlank bot.settings.mark = false
  valid : Command.isName name = true
  free : name ∉ reservedNames
  trimmed : Text.IsTrimmed response.toList
  gives :
    (edit = .add name response ∧ ¬ bot.book.vault.store.Defines event.room name ∧
      Command.Gives bot.settings.mark "addcommand" name response event.body) ∨
    (edit = .modify name response ∧ bot.book.vault.store.Defines event.room name ∧
      Command.Gives bot.settings.mark "modcommand" name response event.body)

/-- A command of a room has this response. -/
def Says (contents : String → Commands) (room name response : String) : Prop :=
  (contents room)[name]?.map StoredCommand.response = some response

namespace Bot

variable {bot : Bot} {rooms : Set String} {contents : String → Commands} {event : Event}
  {edit : Edit} {name response : String}

lemma handle_eq_of_customCommand {moment : Moment} {call : Command.Call} {text : String}
    {book : Book} (hheeds : heeds bot.settings event = true)
    (hcall : Command.Call.ofText? bot.settings.mark event.body = some call)
    (howner : bot.book.registry.owner? call.name = some .customCommands)
    (hanswer : bot.book.customCommand bot.settings moment ⟨event.room, event.sender, call⟩ =
      (.ok text, book)) :
    bot.handle moment event = (some text, { bot with book }) := by
  have hdispatch : bot.book.registry.dispatch bot.settings.mark event.body =
      some ⟨call, .customCommands⟩ := by
    simp [Registry.dispatch, hcall, howner]
  simp only [handle, hheeds, if_true, hdispatch, Book.serve, hanswer]

/-- A room says what it has been taught. -/
lemma Sound.teach (h : bot.Sound rooms contents) (hpending : bot.book.vault.pending = none)
    (halone : Store.Alone rooms event.room) (hroom : event.room ∈ rooms)
    (hteaches : event.Teaches bot edit name response) (moment : Moment) :
    (bot.handle moment event).1 = some (edit.confirmation bot.settings.mark) ∧
      ∃ contents, (bot.handle moment event).2.Sound rooms contents ∧
        Says contents event.room name response := by
  obtain ⟨hheeds, hallowed, hvisible, hname, hfree, htrimmed, hgives⟩ := hteaches
  have hblank := htrimmed.not_isBlankText
  have hdefines : bot.book.vault.store.Defines event.room name ↔ name ∈ contents event.room :=
    Store.defines_iff_of_commands (h.holds.commands halone)
  -- It is enough to see what custom commands make of it.
  suffices hanswer : ∃ command args after contents,
      Command.Call.ofText? bot.settings.mark event.body = some ⟨command, args⟩ ∧
      command ∈ managementNames ∧
      bot.book.customCommand bot.settings moment ⟨event.room, event.sender, ⟨command, args⟩⟩ =
        (.ok (edit.confirmation bot.settings.mark), after) ∧
      after.vault.store.Holds rooms contents ∧ Says contents event.room name response by
    obtain ⟨command, args, after, contents, hcall, hcommand, hanswer, hholds, hsaid⟩ := hanswer
    have hreply := handle_eq_of_customCommand hheeds hcall
      (h.standing.owner?_management hcommand) hanswer
    have hstep := handle_step moment event bot
    refine ⟨by rw [hreply], contents, ⟨h.agrees.step hstep, ?_, ?_⟩, hsaid⟩
    · exact h.standing.step h.agrees hstep
    · rw [hreply]
      exact hholds
  rcases hgives with ⟨rfl, hnew, hgives⟩ | ⟨rfl, hold, hgives⟩
  · obtain ⟨args, hcall, hdefinition⟩ :=
      hgives.exists_ofText? hvisible (Command.isWord_of_isName rfl) hname htrimmed
    rw [hdefines, Std.ExtTreeMap.mem_iff_isSome_getElem?, Option.not_isSome_iff_eq_none] at hnew
    obtain ⟨after, hadd, hholds⟩ := Book.exists_add moment.now h.agrees hpending h.holds halone
      hroom hdefinition hname hfree hblank hnew
    refine ⟨_, args, after, _, hcall, by decide, ?_, hholds, ?_⟩
    · simpa [Book.customCommand, hallowed] using hadd
    · simp [Says]
  · obtain ⟨args, hcall, hdefinition⟩ :=
      hgives.exists_ofText? hvisible (Command.isWord_of_isName rfl) hname htrimmed
    rw [hdefines, Std.ExtTreeMap.mem_iff_isSome_getElem?, Option.isSome_iff_exists] at hold
    obtain ⟨command, hold⟩ := hold
    obtain ⟨after, hmodify, hholds⟩ := Book.exists_modify moment.now hpending h.holds halone
      hroom hdefinition hblank hold
    refine ⟨_, args, after, _, hcall, by decide, ?_, hholds, ?_⟩
    · simpa [Book.customCommand, hallowed] using hmodify
    · simp [Says]

/-- What a room says is the reply to every call. -/
lemma Sound.answer (h : bot.Sound rooms contents) (hpending : bot.book.vault.pending = none)
    (halone : Store.Alone rooms event.room) (hname : Command.isName name = true)
    (hfree : name ∉ reservedNames) (hsaid : Says contents event.room name response)
    (hheeds : heeds bot.settings event = true)
    (hcalls : Command.Calls bot.settings.mark name event.body) (moment : Moment) :
    (bot.handle moment event).1 = some response := by
  obtain ⟨args, hcall⟩ := hcalls.exists_ofText? (Command.isWord_of_isName hname)
  have hlookup : (bot.book.vault.store.lookup event.room name).1 = .ok (some response) := by
    rw [Store.lookup_eq, h.holds.commands halone]
    exact congrArg Except.ok hsaid
  have howner := h.agrees.owner?_of_defines hfree ⟨response, hlookup⟩
  have hmanagement : name ∉ managementNames := fun hmem => hfree (managementNames_subset hmem)
  have hanswer := Book.run_eq_response bot.settings.mark hpending hlookup
  rw [← @Book.customCommand_eq_run _ bot.settings moment
    ⟨event.room, event.sender, ⟨name, args⟩⟩ hmanagement] at hanswer
  rw [handle_eq_of_customCommand hheeds hcall howner (Prod.ext hanswer rfl)]

end Bot

/-! ## Until somebody changes it -/

namespace Session

/-- In the course of these occurrences no edit that changes the command is confirmed in the room. -/
def Undisturbed (room name : String) : Session → List Occurrence → Prop
  | _, [] => True
  | session, occurrence :: occurrences =>
    (∀ moment event edit, occurrence = .event none moment event → event.room = room →
      edit.Changes name → ¬ session.Confirms moment event edit) ∧
    Undisturbed room name (session.meet occurrence) occurrences

variable {session : Session} {settings : Settings} {rooms : Set String}
  {contents : String → Commands} {occurrences : List Occurrence} {room name response : String}

/-- A room goes on to say what it says. -/
lemma Sound.foldl_meet (h : session.Sound settings rooms contents)
    (hsaid : Says contents room name response)
    (hsmooth : ∀ occurrence ∈ occurrences, occurrence.Smooth)
    (hrooms : Occurrence.rooms occurrences ⊆ rooms)
    (hundisturbed : session.Undisturbed room name occurrences) :
    ∃ contents, (occurrences.foldl Session.meet session).Sound
      (occurrences.foldl Occurrence.settingsAfter settings) rooms contents ∧
      Says contents room name response := by
  induction occurrences generalizing session settings contents with
  | nil => exact ⟨contents, h, hsaid⟩
  | cons occurrence occurrences ih =>
    rw [List.forall_mem_cons] at hsmooth
    obtain ⟨hfirst, hrest⟩ := Occurrence.rooms_cons_subset_iff.1 hrooms
    obtain ⟨hspared, hundisturbed⟩ := hundisturbed
    rcases h.meet hsmooth.1 hfirst with
      hafter | ⟨moment, event, edit, new, rfl, hconfirms, happly, hafter⟩
    · exact ih hafter hsaid hsmooth.2 hrest hundisturbed
    · refine ih hafter ?_ hsmooth.2 hrest hundisturbed
      rw [Says, Function.update_apply]
      split
      · rename_i hroom
        obtain ⟨command, hcommand, hresponse⟩ := Option.map_eq_some_iff.1 hsaid
        rw [hroom] at hcommand
        have hchanges : ¬ edit.Changes name := fun hchanges =>
          hspared moment event edit rfl hroom.symm hchanges hconfirms
        rw [edit.getElem?_of_not_changes happly hchanges hcommand, ← hresponse]
        rfl
      · exact hsaid

/-- In a smooth session that began on an empty directory a bot is taught a command, in a room that
shares its file with no other. The bot confirms it, and as long as nobody changes the command there,
a bot is running, and whoever calls the command in the room is answered with the response. -/
theorem answers_as_taught {past later : List Occurrence} {bot : Bot} {event : Event} {edit : Edit}
    (hsmooth : ∀ occurrence ∈ past ++ later, occurrence.Smooth)
    (halone : Store.Alone (Occurrence.rooms (past ++ later)) event.room)
    (hpast : run none settings (.present ∅) past = running bot)
    (hteaches : event.Teaches bot edit name response) (moment : Moment) :
    ((arm none bot).handle moment event).1 = some (edit.confirmation bot.settings.mark) ∧
    (((running bot).meet (.event none moment event)).Undisturbed event.room name later →
      ∃ after, later.foldl meet ((running bot).meet (.event none moment event)) = running after ∧
        after.settings = later.foldl Occurrence.settingsAfter bot.settings ∧
        ∀ (moment : Moment) (question : Event), question.room = event.room →
          Bot.heeds after.settings question = true →
          Command.Calls after.settings.mark name question.body →
          ((arm none after).handle moment question).1 = some response) := by
  let rooms := insert event.room (Occurrence.rooms (past ++ later))
  have hrooms : Occurrence.rooms past ⊆ rooms ∧ Occurrence.rooms later ⊆ rooms := by
    rw [← Set.union_subset_iff, ← Occurrence.rooms_append]
    exact Set.subset_insert _ _
  have halone : Store.Alone rooms event.room := by
    rintro other (rfl | hother) hdigest
    · rfl
    · exact halone other hother hdigest
  rw [List.forall_mem_append] at hsmooth
  obtain ⟨before, hbefore⟩ :=
    (sound_start_empty rooms settings).exists_foldl_meet hsmooth.1 hrooms.1
  rw [← run, hpast] at hbefore
  obtain ⟨hreply, contents, htaught, hsaid⟩ :=
    (hbefore.2.arm none).teach rfl halone (Set.mem_insert _ _) ⟨hteaches.heeded, hteaches.allowed,
      hteaches.visible, hteaches.valid, hteaches.free, hteaches.trimmed, hteaches.gives⟩ moment
  have hsound : ((running bot).meet (.event none moment event)).Sound bot.settings rooms contents :=
    ⟨Bot.handle_settings moment event (arm none bot), htaught⟩
  refine ⟨hreply, fun hundisturbed => ?_⟩
  obtain ⟨contents, hafter, hsaid⟩ := hsound.foldl_meet hsaid hsmooth.2 hrooms.2 hundisturbed
  obtain ⟨after, hrunning, hsettings, hsound⟩ := hafter.exists_running
  refine ⟨after, hrunning, hsettings, fun moment question hroom hheeds hcalls => ?_⟩
  rw [← hroom] at halone hsaid
  exact (hsound.arm none).answer rfl halone hteaches.valid hteaches.free hsaid hheeds hcalls moment

/-- A response of two lines is said as it is, to whatever question, although another room has the
same command and the bot has been restarted. -/
theorem answers_as_taught_twoLines :
    let moment : Moment := ⟨"noon", ⟨0, by decide⟩, fun _ _ => 1⟩
    let event : Event := ⟨"a", none, .text, "!addcommand \n !hi  \"Hey\"\nyou"⟩
    let later : List Occurrence :=
      [.event none moment ⟨"b", none, .text, "!addcommand hi Ho"⟩, .restart none .usual]
    let question : Event := ⟨"a", none, .text, "!hi  there"⟩
    ∃ bot after, run none .usual (.present ∅) [] = running bot ∧
      later.foldl meet ((running bot).meet (.event none moment event)) = running after ∧
      ((arm none after).handle moment question).1 = some "\"Hey\"\nyou" := by
  intro moment event later question
  let bot : Bot := ⟨.usual, ⟨Registry.standing, ∅, ⟨⟨.present ∅, ∅⟩, none⟩⟩⟩
  have hstart : run none .usual (.present ∅) [] = running bot :=
    @start_eq .usual (.present ∅) ⟨.present ∅, ∅⟩ bot rfl (Book.start_empty .usual)
  have hsmooth : ∀ occurrence ∈ [] ++ later, occurrence.Smooth := by
    simp [later, Occurrence.Smooth]
  have halone : Store.Alone (Occurrence.rooms ([] ++ later)) event.room := by
    rintro room ⟨refusal, other, posted, hmem, rfl⟩ hdigest
    obtain ⟨-, -, rfl⟩ : refusal = none ∧ other = moment ∧
        posted = ⟨"b", none, .text, "!addcommand hi Ho"⟩ := by
      simpa [later] using hmem
    have hne : digest "b" ≠ digest "a" := by decide +kernel
    exact absurd hdigest hne
  have hresponse : Text.IsTrimmed "\"Hey\"\nyou".toList :=
    ⟨⟨'"', _, rfl, rfl⟩, ⟨"\"Hey\"\nyo".toList, 'u', rfl, rfl⟩⟩
  have hgap : Text.IsGap [' ', '\n', ' '] := ⟨by simp, List.all_eq_true.1 rfl⟩
  have hspace : Text.IsGap [' ', ' '] := ⟨by simp, List.all_eq_true.1 rfl⟩
  have hgives : Command.Gives '!' "addcommand" "hi" "\"Hey\"\nyou" event.body :=
    ⟨_, ['!', 'h', 'i'], _, hgap, hspace, .inl rfl, by decide +kernel⟩
  have hnew : ¬ bot.book.vault.store.Defines event.room "hi" := by
    rw [Store.defines_iff]
    rintro ⟨commands, hcommands, hname⟩
    rw [(Store.Holds.empty ∅).eq_of_commands hcommands] at hname
    simp at hname
  have hteaches : event.Teaches bot (.add "hi" "\"Hey\"\nyou") "hi" "\"Hey\"\nyou" :=
    ⟨rfl, rfl, rfl, rfl, by decide, hresponse, .inl ⟨rfl, hnew, hgives⟩⟩
  obtain ⟨-, hafter⟩ := answers_as_taught hsmooth halone hstart hteaches moment
  have hundisturbed :
      ((running bot).meet (.event none moment event)).Undisturbed event.room "hi" later := by
    refine ⟨?_, ?_, trivial⟩
    · rintro _ _ edit ⟨⟩ hroom
      simp [event] at hroom
    · rintro _ _ edit ⟨⟩
  obtain ⟨after, hlast, hsettings, hquestions⟩ := hafter hundisturbed
  refine ⟨bot, after, hstart, hlast, hquestions moment question rfl ?_ ?_⟩
  · rw [hsettings]
    rfl
  · rw [hsettings]
    exact ⟨_, hspace.breaks "there".toList, by decide +kernel⟩

end Session

end RoomBot
