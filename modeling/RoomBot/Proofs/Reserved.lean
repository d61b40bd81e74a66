import RoomBot.Proofs.Book.Listing
import RoomBot.Proofs.Book.Outcome
import RoomBot.Proofs.Book.Question
import RoomBot.Proofs.Regularity
import RoomBot.Proofs.Reply

/-!
# Custom commands take no other names

The names of the other owners stay with them, whatever documents the bot was started on and whatever
happens.  A call of such a name is never answered with a stored response: exchange all responses in
the store for others, and the reply is the same (`Book.serve_answer_congr`).  And who asks for a
custom command of a reserved name is refused, whether or not some document defines the name, and
nothing changes (`Book.Regular.add_of_reserved`).

The refusal has one gap, which is that of the names of the management.  `addcommand` itself may be a
name that a room defined at the start and that is lost with the last definition.  Then nobody is
refused, because nobody is understood; still nothing changes.  This is put together in
`Bot.Reserves`, and every bot that can come about does reserve its names
(`Session.reserves_of_start`).
-/

namespace RoomBot

namespace Book

variable {book one two : Book} {mark : Char} {now room args name response : String}
  {settings : Settings} {moment : Moment} {request : Request} {owner : Owner}

/-! ## Other owners do not look at responses -/

lemma call_list_congr (hpending : one.vault.pending = two.vault.pending)
    (hlist : (one.vault.store.list room).1 = (two.vault.store.list room).1) :
    (one.call (Store.list room)).1 = (two.call (Store.list room)).1 := by
  simp only [call, Vault.call, hpending]
  cases two.vault.pending with
  | some failure => rfl
  | none => exact hlist

/-- The other owners give the same answer where the registry is the same and the store tells the
same names. -/
theorem serve_answer_congr (howner : owner ≠ .customCommands)
    (hregistry : one.registry = two.registry)
    (hpending : one.vault.pending = two.vault.pending)
    (hlist : (one.vault.store.list request.room).1 = (two.vault.store.list request.room).1) :
    (one.serve settings moment owner request).1 = (two.serve settings moment owner request).1 := by
  cases owner with
  | listCommands =>
    simp only [serve, listing_answer, call_list_congr hpending hlist, namesBeside, hregistry]
  | help => simp only [serve, explain, hregistry]
  | ping => rfl
  | eightBall => rfl
  | roller => rfl
  | customCommands => contradiction

/-! ## Reserved names are not added -/

lemma isName_of_mem_reservedNames (h : name ∈ reservedNames) : Command.isName name = true := by
  have hall : ∀ name ∈ reservedNames, Command.isName name = true := by decide
  exact hall name h

/-- A command of a reserved name is refused, and the book stays as it is. -/
theorem Regular.add_of_reserved (h : book.Regular)
    (hdefinition : definition? mark args = some (name, response)) (hname : name ∈ reservedNames) :
    book.add mark now room args = (.error (taken name), book) := by
  have hcheck := Command.checkName_eq_ok_iff.2 (isName_of_mem_reservedNames hname)
  have hclaim : (if managementNames.contains name then none else book.claim? name) = none := by
    by_cases hmanagement : name ∈ managementNames
    · rw [if_pos (by simpa using hmanagement)]
    · rw [if_neg (by simpa using hmanagement)]
      cases hclaimed : book.claim? name with
      | none => rfl
      | some claimed => exact absurd hname (h.guarded.notMem_of_claim? hmanagement hclaimed)
  simp only [add, hdefinition, hcheck, hclaim]

/-- A call that asks for a new command is a call of `addcommand` with a name and a response. -/
lemma edit?_eq_add {call : Command.Call} (h : edit? mark call = some (.add name response)) :
    call.name = "addcommand" ∧ definition? mark call.args = some (name, response) := by
  simp only [edit?] at h
  split at h
  · rename_i hcall
    obtain ⟨⟨_, _⟩, hdefinition, hedit⟩ := Option.map_eq_some_iff.1 h
    obtain ⟨rfl, rfl⟩ := Edit.add.inj hedit
    exact ⟨hcall, hdefinition⟩
  · obtain ⟨⟨_, _⟩, -, hedit⟩ := Option.map_eq_some_iff.1 h
    contradiction
  · obtain ⟨_, -, hedit⟩ := Option.map_eq_some_iff.1 h
    contradiction
  · contradiction

end Book

namespace Bot

variable {bot : Bot} {event : Event} {name response : String} {owner : Owner}

lemma handle_of_dispatch_eq_none (hheeded : heeds bot.settings event = true)
    (hnone : bot.book.registry.dispatch bot.settings.mark event.body = none) (moment : Moment) :
    bot.handle moment event = (unknownReply bot.settings event.body, bot) := by
  simp only [handle, hheeded, if_true, hnone]

/-- Whoever asks for a command of a reserved name is refused as long as `addcommand` has its owner,
and not understood otherwise. In both cases nothing changes. -/
lemma handle_of_reserved (h : bot.book.Regular) (hheeded : heeds bot.settings event = true)
    (hallowed : bot.settings.access.canEdit event.sender = true)
    (hedit : event.edit? bot.settings.mark = some (.add name response))
    (hname : name ∈ reservedNames) (moment : Moment) : bot.handle moment event =
      (if bot.book.registry.owner? "addcommand" = none then unknownReply bot.settings event.body
        else some s!"`{name}` is already provided by the bot and cannot be redefined.", bot) := by
  obtain ⟨call, hcall, hadd⟩ := Option.bind_eq_some_iff.1 hedit
  obtain ⟨hcommand, hdefinition⟩ := Book.edit?_eq_add hadd
  split
  · rename_i hlost
    refine handle_of_dispatch_eq_none hheeded ?_ moment
    simp [Registry.dispatch, hcall, hcommand, hlost]
  · rename_i howned
    have howner : bot.book.registry.owner? "addcommand" = some .customCommands :=
      (h.owner?_management (by decide)).resolve_left howned
    have hdispatch : bot.book.registry.dispatch bot.settings.mark event.body =
        some ⟨call, .customCommands⟩ := by
      simp [Registry.dispatch, hcall, hcommand, howner]
    rw [handle_of_dispatch bot moment hheeded hdispatch]
    simp only [Book.serve, Book.customCommand, hallowed, Bool.not_true, Bool.and_false,
      Bool.false_eq_true, if_false, hcommand, h.add_of_reserved hdefinition hname]
    rfl

end Bot

/-! ## As long as the bot runs -/

namespace Session

/-- What custom commands have not taken from a bot since it was like the first. -/
structure Reserves (first bot : Bot) : Prop where
  /-- The other owners have their names. -/
  owners : ∀ owner ≠ Owner.customCommands, ∀ name ∈ owner.names,
    bot.book.registry.owner? name = some owner
  /-- Calls of these names have the same replies with any other store that tells the same names. -/
  replies : ∀ owner ≠ Owner.customCommands, ∀ name ∈ owner.names,
    ∀ (failing : Option Refusal) (moment : Moment) (event : Event) (store : Store),
      Command.Calls bot.settings.mark name event.body →
      (store.list event.room).1 = (bot.book.vault.store.list event.room).1 →
      (Bot.handle moment event { arm failing bot with book.vault.store := store }).1 =
        (Bot.handle moment event (arm failing bot)).1
  /-- Nobody who may add commands can add one of a reserved name, and nothing changes. -/
  refuses : ∀ (failing : Option Refusal) (moment : Moment) (event : Event) (name response : String),
    Bot.heeds bot.settings event = true → bot.settings.access.canEdit event.sender = true →
    event.edit? bot.settings.mark = some (.add name response) → name ∈ reservedNames →
      (arm failing bot).handle moment event =
        (if bot.book.registry.owner? "addcommand" = none
          then Bot.unknownReply bot.settings event.body
          else some s!"`{name}` is already provided by the bot and cannot be redefined.",
          arm failing bot)
  /-- The reply is the refusal unless some room had defined `addcommand` and none does any more. -/
  gap : bot.book.registry.owner? "addcommand" = none →
    (∃ room, first.book.vault.store.Defines room "addcommand") ∧
      ∀ room, ¬ bot.book.vault.store.Defines room "addcommand"

/-- Calls of a name that belongs to another owner do not depend on what is stored but for names. -/
lemma reply_congr {bot : Bot} (h : bot.book.Regular) {owner : Owner}
    (howner : owner ≠ .customCommands) {name : String} (hname : name ∈ owner.names)
    (failing : Option Refusal) (moment : Moment) {event : Event} {store : Store}
    (hcalls : Command.Calls bot.settings.mark name event.body)
    (hlist : (store.list event.room).1 = (bot.book.vault.store.list event.room).1) :
    (Bot.handle moment event { arm failing bot with book.vault.store := store }).1 =
      (Bot.handle moment event (arm failing bot)).1 := by
  by_cases hheeded : Bot.heeds bot.settings event = true
  · have hreserved : name ∈ reservedNames := by
      cases owner <;> simp_all [Owner.names, reservedNames]
    obtain ⟨args, hdispatch⟩ := Registry.exists_dispatch_eq hcalls
      (Command.isWord_of_isName (Book.isName_of_mem_reservedNames hreserved)) bot.book.registry
    rw [h.owner?_of_mem_names howner hname] at hdispatch
    have hreply : ∀ vault : Vault, (Bot.handle moment event { bot with book.vault := vault }).1 =
        some (Book.wording (Book.serve bot.settings moment owner
          ⟨event.room, event.sender, ⟨name, args⟩⟩ { bot.book with vault }).1) :=
      fun vault => congrArg Prod.fst
        (Bot.handle_of_dispatch { bot with book.vault := vault } moment hheeded hdispatch)
    refine (hreply _).trans (.trans ?_ (hreply _).symm)
    exact congrArg (fun answer => some (Book.wording answer))
      (Book.serve_answer_congr howner rfl rfl hlist)
  · rw [Bool.not_eq_true] at hheeded
    have hsilent : ∀ vault : Vault,
        (Bot.handle moment event { bot with book.vault := vault }).1 = none :=
      fun vault => congrArg Prod.fst
        (@Bot.handle_of_unheeded { bot with book.vault := vault } event hheeded moment)
    exact (hsilent _).trans (hsilent _).symm

/-- A name of the management that is lost was defined by some room at the start. -/
lemma exists_defines_of_lost {settings : Settings} {directory : Directory} {first bot : Bot}
    (hstart : start none settings directory = running first) {occurrences : List Occurrence}
    (hevents : ∀ occurrence ∈ occurrences, occurrence.IsEvent)
    (hbot : occurrences.foldl Session.meet (running first) = running bot) {name : String}
    (hname : name ∈ managementNames) (hlost : bot.book.registry.owner? name = none) :
    ∃ room, first.book.vault.store.Defines room name := by
  by_contra hundefined
  obtain ⟨store, hopened, hstarted⟩ := exists_store_of_start hstart
  have hfaithful := Store.faithful_of_ofDirectory hopened
  have hfirst := Book.regular_of_start hfaithful (by simp) hstarted
  obtain ⟨rooms, hrooms, hstands⟩ := Book.exists_definers_of_start hfaithful hstarted hname
  obtain rfl : rooms = ∅ :=
    Finset.eq_empty_of_forall_notMem fun room hroom => hundefined ⟨room, (hrooms room).1 hroom⟩
  rw [if_pos rfl] at hstands
  obtain ⟨last, hlast, hgone⟩ := exists_foldl_meet_stands hevents (managementNames_subset hname)
    hfirst.agrees.settled hfirst.guarded hstands
  obtain rfl := Session.running.inj (hbot.symm.trans hlast)
  rw [hgone.owner, Registry.owner?_standing_of_mem hname] at hlost
  contradiction

lemma reserves_of_regular {first bot : Bot} (h : bot.book.Regular)
    (hgap : bot.book.registry.owner? "addcommand" = none →
      ∃ room, first.book.vault.store.Defines room "addcommand") : Reserves first bot where
  owners _ howner _ hname := h.owner?_of_mem_names howner hname
  replies _ howner _ hname failing moment _ _ hcalls hlist :=
    reply_congr h howner hname failing moment hcalls hlist
  refuses failing moment event name response hheeded hallowed hedit hname := by
    have harmed : (arm failing bot).book.Regular := lasting_regular.refused _ h
    exact Bot.handle_of_reserved harmed hheeded hallowed hedit hname moment
  gap hlost := by
    refine ⟨hgap hlost, fun room hdefines => ?_⟩
    obtain ⟨owner, howner⟩ := h.exists_owner?_of_defines hdefines
    rw [hlost] at howner
    contradiction

/-- A bot that has been started, on whatever documents, keeps the reserved names from custom
commands, whatever happens. -/
theorem reserves_of_start {settings : Settings} {directory : Directory} {first : Bot}
    (hstart : start none settings directory = running first) {occurrences : List Occurrence}
    (hevents : ∀ occurrence ∈ occurrences, occurrence.IsEvent) :
    ∃ bot, occurrences.foldl Session.meet (running first) = running bot ∧
      bot.settings = settings ∧ Reserves first bot := by
  have hfirst : first.book.Regular :=
    lasting_regular.of_run (show run none settings directory [] = running first from hstart)
  obtain ⟨bot, hbot, hregular⟩ := exists_foldl_meet_of_step lasting_regular.stepped
    lasting_regular.refused hevents hfirst
  have hrun : run none settings directory occurrences = running bot := by rw [run, hstart, hbot]
  exact ⟨bot, hbot, settings_of_run hevents hrun, reserves_of_regular hregular fun hlost =>
    exists_defines_of_lost hstart hevents hbot (by decide) hlost⟩

/-- A room that has `ping` in its document may modify it, but nobody hears of it, and it cannot be
added. -/
theorem reserves_of_start_shadowed :
    let moment : Moment := ⟨"noon", ⟨0, by decide⟩, fun _ _ => 1⟩
    let occurrences : List Occurrence :=
      [.event none moment ⟨"a", none, .text, "!modcommand ping Hey"⟩]
    let event : Event := ⟨"a", none, .text, "!addcommand !ping Ho"⟩
    ∃ first bot, start none .usual (directoryOf "a" "ping") = running first ∧
      (∀ occurrence ∈ occurrences, occurrence.IsEvent) ∧
      occurrences.foldl Session.meet (running first) = running bot ∧
      bot.book.registry.owner? "ping" = some .ping ∧
      Bot.heeds bot.settings event = true ∧
      bot.settings.access.canEdit event.sender = true ∧
      event.edit? bot.settings.mark = some (.add "ping" "Ho") ∧ "ping" ∈ reservedNames ∧
      (arm none bot).handle moment event =
        (some "`ping` is already provided by the bot and cannot be redefined.", arm none bot) := by
  intro moment occurrences event
  have hevents : ∀ occurrence ∈ occurrences, occurrence.IsEvent := by
    simp [occurrences, Occurrence.IsEvent]
  have hsaid : (run none .usual (directoryOf "a" "ping") occurrences).reply? moment event =
      some ('!', "`ping` is already provided by the bot and cannot be redefined.") := by
    decide +kernel
  obtain ⟨last, hrun, -, hreply⟩ := reply?_eq_some hsaid
  cases hstart : start none .usual (directoryOf "a" "ping") with
  | stopped directory =>
    rw [run, hstart] at hrun
    contradiction
  | running first =>
    rw [run, hstart] at hrun
    obtain ⟨bot, hbot, hsettings, hreserves⟩ := reserves_of_start hstart hevents
    obtain rfl : last = bot := Session.running.inj (hrun.symm.trans hbot)
    have hheeded : Bot.heeds last.settings event = true := by rw [hsettings]; decide
    have hallowed : last.settings.access.canEdit event.sender = true := by rw [hsettings]; rfl
    have hedit : event.edit? last.settings.mark = some (.add "ping" "Ho") := by
      rw [hsettings]
      decide +kernel
    have hrefused := hreserves.refuses none moment event "ping" "Ho" hheeded hallowed hedit
      (by decide)
    rw [hrefused] at hreply
    refine ⟨first, last, rfl, hevents, hbot, ?_, hheeded, hallowed, hedit, by decide, ?_⟩
    · exact hreserves.owners .ping (by simp) "ping" (by simp [Owner.names])
    · rw [hrefused]
      exact Prod.ext hreply rfl

/-- Not everybody who asks for a command of a reserved name is refused: where `addcommand` is lost
there is no reply at all. -/
theorem reserved_unrefused :
    ¬ ∀ (settings : Settings) (directory : Directory) (first bot : Bot)
      (occurrences : List Occurrence) (moment : Moment) (event : Event) (name response : String),
      start none settings directory = running first →
      (∀ occurrence ∈ occurrences, occurrence.IsEvent) →
      occurrences.foldl Session.meet (running first) = running bot →
      Bot.heeds bot.settings event = true → bot.settings.access.canEdit event.sender = true →
      event.edit? bot.settings.mark = some (.add name response) → name ∈ reservedNames →
      ((arm none bot).handle moment event).1 =
        some s!"`{name}` is already provided by the bot and cannot be redefined." := by
  intro h
  let moment : Moment := ⟨"noon", ⟨0, by decide⟩, fun _ _ => 1⟩
  let event : Event := ⟨"a", none, .text, "!addcommand ping Ho"⟩
  obtain ⟨first, bot, hstart, hbot, hlost⟩ := exists_owner?_eq_none
  have hevents : ∀ occurrence ∈ [removal], occurrence.IsEvent := by
    simp [removal, Occurrence.IsEvent]
  have hrun : run none .usual (directoryOf "a" "addcommand") [removal] = running bot := by
    rw [run, hstart, hbot]
  have hsettings : bot.settings = .usual := settings_of_run hevents hrun
  have hheeded : Bot.heeds bot.settings event = true := by rw [hsettings]; decide
  have hallowed : bot.settings.access.canEdit event.sender = true := by rw [hsettings]; rfl
  have hedit : event.edit? bot.settings.mark = some (.add "ping" "Ho") := by
    rw [hsettings]
    decide +kernel
  have hreply := h .usual _ first bot [removal] moment event "ping" "Ho" hstart hevents hbot
    hheeded hallowed hedit (by decide)
  have harmed : (arm none bot).book.Regular :=
    lasting_regular.refused _ (lasting_regular.of_run hrun)
  have hgone : (arm none bot).book.registry.owner? "addcommand" = none := hlost
  rw [Bot.handle_of_reserved harmed hheeded hallowed hedit (by decide), if_pos hgone] at hreply
  have hsilent : Bot.unknownReply (arm none bot).settings event.body = none := by
    rw [show (arm none bot).settings = .usual from hsettings]
    decide +kernel
  rw [hsilent] at hreply
  contradiction

end Session

end RoomBot
