import RoomBot.Proofs.Book.Listing
import RoomBot.Proofs.Regularity
import RoomBot.Proofs.Reply

/-!
# The list of commands tells what runs

What `listcommands` shows in a room is put together from the registry and from what the room has
stored, while a call is resolved against the registry alone.  The two agree at every moment of every
session (`Session.listing_agrees`): a name is listed exactly when a call of it runs a command and, if
the command is a custom one, the room has defined it.  The half that needs an argument is that a name
that the room has defined has an owner, be it another one than custom commands; this is what makes a
book regular.

There is nothing to agree with where the store cannot tell the names of the room, because a document
lies under the name of another's or cannot be read any more.  Then the bot apologizes and lists
nothing, though other commands still run (`Session.listing_withheld`).
-/

namespace RoomBot

/-- In a regular book the list shows the names that have an owner, if custom commands own them and
they are not of the management only those that the room defines. -/
lemma Book.Regular.mem_namesBeside_iff {book : Book} (h : book.Regular) {room name : String}
    {names : List String} (hnames : name ∈ names ↔ book.vault.store.Defines room name) :
    name ∈ book.namesBeside names ↔ ∃ owner, book.registry.owner? name = some owner ∧
      (owner = .customCommands → name ∉ managementNames → book.vault.store.Defines room name) := by
  rw [Book.mem_namesBeside_iff, hnames]
  constructor
  · rintro (⟨owner, howner, hcustom⟩ | hdefines)
    · exact ⟨owner, howner, fun hown hother => absurd (hcustom hown) hother⟩
    · obtain ⟨owner, howner⟩ := h.exists_owner?_of_defines hdefines
      exact ⟨owner, howner, fun _ _ => hdefines⟩
  · rintro ⟨owner, howner, hcustom⟩
    by_cases hshared : owner = .customCommands → name ∈ managementNames
    · exact .inl ⟨owner, howner, hshared⟩
    · obtain ⟨hown, hother⟩ := Classical.not_imp.1 hshared
      exact .inr (hcustom hown hother)

namespace Session

/-- At every moment of every session, whether or not the next call of the store is refused, a room
that asks for the list of commands hears an apology if the store cannot tell the names of the room.
Otherwise it is told names that ascend, and these are, among the words that can be names, the ones
that run a command when they are typed behind the mark; of those that custom commands own, the
management apart, only the ones that the room defines. -/
theorem listing_agrees {refusal failing : Option Refusal} {settings : Settings}
    {directory : Directory} {occurrences : List Occurrence} {bot : Bot}
    (h : run refusal settings directory occurrences = running bot) {event : Event}
    (hheeded : Bot.heeds bot.settings event = true)
    (hcalls : Command.Calls bot.settings.mark "listcommands" event.body) (moment : Moment) :
    let told := ((arm failing bot).book.call (Store.list event.room)).1
    let reply := ((arm failing bot).handle moment event).1
    (∀ failure, told = .error failure →
      reply = some "Sorry, I could not save or load that right now. Please try again later.") ∧
    (∀ names, told = .ok names → ∃ listed, reply = some (Book.report bot.settings.mark listed) ∧
      listed.Pairwise (· < ·) ∧ ∀ name, Command.isName name = true → (name ∈ listed ↔
        ∃ found, bot.book.registry.dispatch bot.settings.mark s!"{bot.settings.mark}{name}" =
            some found ∧
          (found.owner = .customCommands → name ∉ managementNames →
            bot.book.vault.store.Defines event.room name))) := by
  intro told reply
  have hregular : (arm failing bot).book.Regular :=
    lasting_regular.refused _ (lasting_regular.of_run h)
  have hreply : reply =
      some (Book.wording ((arm failing bot).book.listing bot.settings.mark event.room).1) := by
    obtain ⟨args, hdispatch⟩ :=
      Registry.exists_dispatch_eq hcalls (Command.isWord_of_isName rfl) bot.book.registry
    have howner : bot.book.registry.owner? "listcommands" = some .listCommands :=
      hregular.owner?_of_mem_names (by simp) (List.mem_singleton_self _)
    rw [howner] at hdispatch
    exact congrArg Prod.fst (Bot.handle_of_dispatch (arm failing bot) moment hheeded hdispatch)
  refine ⟨fun failure hfailed => ?_, fun names hnames => ?_⟩
  · rw [hreply, (callable_arm failing bot).wording_listing_of_error hfailed]
  · refine ⟨_, hreply.trans (congrArg some (Book.wording_listing_of_ok hnames)),
      Book.pairwise_namesBeside _ _, fun name hname => ?_⟩
    have hdefines : name ∈ names ↔ (arm failing bot).book.vault.store.Defines event.room name :=
      Book.mem_iff_defines_of_list hnames
    obtain ⟨args, hdispatch⟩ := Registry.exists_dispatch_eq
      (Command.calls_bare bot.settings.mark name) (Command.isWord_of_isName hname)
      bot.book.registry
    refine (hregular.mem_namesBeside_iff hdefines).trans ?_
    rw [hdispatch]
    constructor
    · rintro ⟨owner, howner, hcustom⟩
      exact ⟨⟨⟨name, args⟩, owner⟩, Option.map_eq_some_iff.2 ⟨owner, howner, rfl⟩, hcustom⟩
    · rintro ⟨found, hfound, hcustom⟩
      obtain ⟨owner, howner, rfl⟩ := Option.map_eq_some_iff.1 hfound
      exact ⟨owner, howner, hcustom⟩

/-- A room is shown a name that it has defined though another owner has it, and it is not shown what
another room has defined. -/
theorem listing_agrees_twoRooms :
    let moment : Moment := ⟨"noon", ⟨0, by decide⟩, fun _ _ => 1⟩
    let occurrences : List Occurrence :=
      [.event none moment ⟨"b", none, .text, "!addcommand hi Ho"⟩]
    let event : Event := ⟨"a", none, .text, "!listcommands"⟩
    ∃ bot listed, run none .usual (directoryOf "a" "ping") occurrences = running bot ∧
      Bot.heeds bot.settings event = true ∧
      Command.Calls bot.settings.mark "listcommands" event.body ∧
      ((arm none bot).handle moment event).1 = some (Book.report bot.settings.mark listed) ∧
      Book.report bot.settings.mark listed = "Available commands: !8ball, !addcommand, !help, " ++
        "!listcommands, !modcommand, !ping, !remcommand, !roll" ∧
      listed.Pairwise (· < ·) ∧ ∀ name, Command.isName name = true → (name ∈ listed ↔
        ∃ found, bot.book.registry.dispatch bot.settings.mark s!"{bot.settings.mark}{name}" =
            some found ∧
          (found.owner = .customCommands → name ∉ managementNames →
            bot.book.vault.store.Defines event.room name)) := by
  intro moment occurrences event
  have hsaid : (run none .usual (directoryOf "a" "ping") occurrences).reply? moment event =
      some ('!', "Available commands: !8ball, !addcommand, !help, !listcommands, " ++
        "!modcommand, !ping, !remcommand, !roll") := by
    decide +kernel
  obtain ⟨bot, hrun, -, hreply⟩ := reply?_eq_some hsaid
  have hsettings : bot.settings = .usual :=
    settings_of_run (by simp [occurrences, Occurrence.IsEvent]) hrun
  have hheeded : Bot.heeds bot.settings event = true := by rw [hsettings]; decide
  have hcalls : Command.Calls bot.settings.mark "listcommands" event.body := by
    rw [hsettings]
    exact Command.calls_bare '!' "listcommands"
  obtain ⟨hfailed, htold⟩ :=
    @listing_agrees none none .usual _ _ bot hrun event hheeded hcalls moment
  cases hnames : ((arm none bot).book.call (Store.list event.room)).1 with
  | error failure =>
    rw [hfailed failure hnames] at hreply
    simp at hreply
  | ok names =>
    obtain ⟨listed, hlisted, hsorted, hmem⟩ := htold names hnames
    exact ⟨bot, listed, hrun, hheeded, hcalls, hlisted,
      Option.some.inj (hlisted.symm.trans hreply), hsorted, hmem⟩

/-- A directory in which the document of one room has the name that belongs to another's. -/
def misplaced : Directory :=
  .present <| (∅ : Std.ExtTreeMap String Entry).insert (documentName "a") <|
    .file (Document.text ⟨"b", ∅⟩).toUTF8

/-- The list does not tell what runs in every room: one whose document is another's is not shown any
names, and still it can play ping. -/
theorem listing_withheld :
    ¬ ∀ (settings : Settings) (directory : Directory) (occurrences : List Occurrence) (bot : Bot)
      (moment : Moment) (event : Event),
      run none settings directory occurrences = running bot →
      Bot.heeds bot.settings event = true →
      Command.Calls bot.settings.mark "listcommands" event.body →
      ∃ listed, (((arm none bot).handle moment event).1 =
          some (Book.report bot.settings.mark listed) ∨ listed = []) ∧
        ∀ name, Command.isName name = true → (name ∈ listed ↔
          ∃ found, bot.book.registry.dispatch bot.settings.mark s!"{bot.settings.mark}{name}" =
              some found ∧
            (found.owner = .customCommands → name ∉ managementNames →
              bot.book.vault.store.Defines event.room name)) := by
  intro h
  let moment : Moment := ⟨"noon", ⟨0, by decide⟩, fun _ _ => 1⟩
  let event : Event := ⟨"a", none, .text, "!listcommands"⟩
  have hsaid : (run none .usual misplaced []).reply? moment event = some ('!',
      "Sorry, I could not save or load that right now. Please try again later.") := by
    decide +kernel
  obtain ⟨bot, hrun, -, hreply⟩ := reply?_eq_some hsaid
  have hsettings : bot.settings = .usual := settings_of_run (by simp) hrun
  have hheeded : Bot.heeds bot.settings event = true := by rw [hsettings]; decide
  have hcalls : Command.Calls bot.settings.mark "listcommands" event.body := by
    rw [hsettings]
    exact Command.calls_bare '!' "listcommands"
  obtain ⟨listed, hreported, hmem⟩ := h .usual misplaced [] bot moment event hrun hheeded hcalls
  obtain rfl : listed = [] := by
    refine hreported.resolve_left fun hreport => ?_
    exact Book.report_ne_apology _ _ (Option.some.inj (hreport.symm.trans hreply))
  have howner : bot.book.registry.owner? "ping" = some .ping :=
    (lasting_regular.of_run hrun).owner?_of_mem_names (by simp) (List.mem_singleton_self _)
  obtain ⟨args, hdispatch⟩ := Registry.exists_dispatch_eq
    (Command.calls_bare bot.settings.mark "ping") (Command.isWord_of_isName rfl) bot.book.registry
  rw [howner] at hdispatch
  exact absurd ((hmem "ping" rfl).2 ⟨_, hdispatch, by simp⟩) (List.not_mem_nil)

end Session

end RoomBot
