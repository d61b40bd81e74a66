import RoomBot.Proofs.Book.Listing
import RoomBot.Proofs.Book.Question
import RoomBot.Proofs.Course
import RoomBot.Proofs.Store.Likeness
import RoomBot.Proofs.Thinning

/-!
# Rooms do not notice each other

A bot that began on an empty directory meets events in many rooms, and another bot meets only those
of one room.  In that room the two cannot be told apart (`Session.answers_as_alone`): they have
stored the same commands, and they give the same replies.  The names are shared by all rooms, so
this needs an argument.  Whoever else defines a name, releases it or fails to define it, a name that
this room has defined is counted for it and therefore belongs to custom commands; and the reserved
names stand.

What other rooms do shows in two places only.  The help tells whether a name is known anywhere, and a
name that this room has not defined is met with silence or with an answer.

Two bots that have come so far are `Bot.Matched` in the room.  Their registries and counts may
differ, and so one event in the room may run a command for one and none for the other; but then it
only asks (`Bot.handle_asked`).  Where both run the same command, their books are alike in the room,
which is a congruence (`Book.congruence_alikeIn`).
-/

namespace RoomBot

/-! ## Books that are alike in a room -/

namespace Book

variable {book one two : Book} {room name : String} {names : List String}

/-- Where custom commands have the names of the management, the list shows these, those that other
owners have and those of the room. -/
lemma mem_namesBeside_iff_foreign?
    (h : ∀ name ∈ managementNames, book.registry.owner? name = some .customCommands) :
    name ∈ book.namesBeside names ↔
      (∃ holder, book.registry.foreign? name = some holder) ∨ name ∈ managementNames ∨
        name ∈ names := by
  rw [mem_namesBeside_iff, ← or_assoc]
  refine or_congr_left ⟨?_, ?_⟩
  · rintro ⟨owner, howner, hcustom⟩
    by_cases hne : owner = .customCommands
    · exact .inr (hcustom hne)
    · exact .inl ⟨owner, Registry.foreign?_eq_some_iff.2 ⟨howner, hne⟩⟩
  · rintro (⟨holder, hholder⟩ | hname)
    · obtain ⟨howner, hne⟩ := Registry.foreign?_eq_some_iff.1 hholder
      exact ⟨holder, howner, fun hcustom => absurd hcustom hne⟩
    · exact ⟨.customCommands, h name hname, fun _ => hname⟩

lemma namesBeside_congr (hforeign : one.registry.foreign? = two.registry.foreign?)
    (hone : ∀ name ∈ managementNames, one.registry.owner? name = some .customCommands)
    (htwo : ∀ name ∈ managementNames, two.registry.owner? name = some .customCommands)
    (names : List String) : one.namesBeside names = two.namesBeside names := by
  refine (pairwise_namesBeside one names).eq_of_mem_iff (pairwise_namesBeside two names)
    fun name => ?_
  rw [mem_namesBeside_iff_foreign? hone, mem_namesBeside_iff_foreign? htwo, hforeign]

/-- The other owners have the same names, and the stores are alike in the room. -/
structure AlikeIn (room : String) (one two : Book) : Prop where
  left_pending : one.vault.pending = none
  right_pending : two.vault.pending = none
  foreign : one.registry.foreign? = two.registry.foreign?
  stores : Store.AlikeIn room one.vault.store two.vault.store

/-- Whatever is asked of books that are alike in a room, they stay so. -/
theorem congruence_alikeIn (room : String) : Congruence room (AlikeIn room) where
  claim? := by
    intro one two name h
    have hconflict : one.registry.conflict? .customCommands name = none ↔
        two.registry.conflict? .customCommands name = none := by
      rw [Registry.conflict?_eq_none_iff_foreign?, Registry.conflict?_eq_none_iff_foreign?,
        h.foreign]
    rw [claim?_eq, claim?_eq]
    by_cases hfree : one.registry.conflict? .customCommands name = none
    · have hother := hconflict.1 hfree
      rw [if_pos hfree, if_pos hother]
      refine .inr ⟨_, _, rfl, rfl, h.left_pending, h.right_pending, ?_, h.stores⟩
      simp only [Registry.foreign?_claim hfree, Registry.foreign?_claim hother, h.foreign]
    · rw [if_neg hfree, if_neg fun hother => hfree (hconflict.2 hother)]
      exact .inl ⟨rfl, rfl⟩
  release := by
    intro one two name h
    have hone := (release_touchesOnly name one).vault
    have htwo := (release_touchesOnly name two).vault
    refine ⟨?_, ?_, ?_, ?_⟩
    · rw [hone, h.left_pending]
    · rw [htwo, h.right_pending]
    · rw [release_foreign?, release_foreign?, h.foreign]
    · rw [hone, htwo]
      exact h.stores
  edit := by
    intro one two now later edit h
    exact sameAnswer_call h.left_pending h.right_pending (h.stores.edit_answer now later edit)
      ⟨rfl, rfl, h.foreign, h.stores.edit now later edit⟩
  lookup := by
    intro one two name h
    exact sameAnswer_call h.left_pending h.right_pending (h.stores.lookup name)
      ⟨rfl, rfl, h.foreign, h.stores.load room⟩
  list := by
    intro one two h
    exact sameAnswer_call h.left_pending h.right_pending h.stores.list
      ⟨rfl, rfl, h.foreign, h.stores.load room⟩

/-- A book that has only been asked something is alike still. -/
lemma AlikeIn.asked {before after : Book} (h : AlikeIn room before two)
    (hpending : after.vault.pending = none) (hasked : Asked before after) :
    AlikeIn room after two where
  left_pending := hpending
  right_pending := h.right_pending
  foreign := by rw [hasked.registry, h.foreign]
  stores := h.stores.asked hasked.store

lemma AlikeIn.symm (h : AlikeIn room one two) : AlikeIn room two one :=
  ⟨h.right_pending, h.left_pending, h.foreign.symm, h.stores.symm⟩

end Book

/-! ## Bots in a room -/

lemma Store.AlikeIn.defines_iff {room : String} {one two : Store} (h : AlikeIn room one two)
    (name : String) : one.Defines room name ↔ two.Defines room name := by
  unfold Defines
  rw [h.lookup]

/-- The event does not call for help, and if it calls a command, then one that is reserved or that
the room has defined by now. -/
def Exchange.IsLocal (exchange : Exchange) : Prop :=
  ∀ call, Command.Call.ofText? exchange.bot.settings.mark exchange.event.body = some call →
    call.name ≠ "help" ∧ (call.name ∈ reservedNames ∨
      exchange.bot.book.vault.store.Defines exchange.event.room call.name)

namespace Bot

variable {rooms : Set String} {room : String} {one two : Bot} {event : Event}

lemma Sound.exists_handle {contents : String → Commands} {bot : Bot}
    (h : bot.Sound rooms contents) (moment : Moment) (hroom : event.room ∈ rooms) :
    ∃ after, (bot.handle moment event).2.Sound rooms after ∧
      ∀ other, other ≠ event.room → after other = contents other := by
  rcases h.handle moment hroom with hkept | ⟨edit, new, -, -, -, hedited⟩
  · exact ⟨contents, hkept, fun _ _ => rfl⟩
  · exact ⟨_, hedited, fun other hne => Function.update_of_ne hne _ _⟩

/-- Two bots that cannot be told apart in the room. -/
structure Matched (rooms : Set String) (room : String) (one two : Bot) : Prop where
  settings : one.settings = two.settings
  left : ∃ contents, one.Sound rooms contents
  right : ∃ contents, two.Sound rooms contents
  books : Book.AlikeIn room one.book two.book

namespace Matched

/-- What happens in another room makes no difference, if that room has a file of its own. -/
lemma elsewhere (h : Matched rooms room one two) (halone : Store.Alone rooms room)
    (moment : Moment) (hroom : event.room ∈ rooms) (hne : event.room ≠ room) :
    Matched rooms room (one.handle moment event).2 two := by
  have hstep := handle_step moment event one
  obtain ⟨before, hbefore⟩ := h.left
  obtain ⟨after, hafter, hothers⟩ := hbefore.exists_handle moment hroom
  refine ⟨(handle_settings moment event one).trans h.settings, ⟨after, hafter⟩, h.right, ?_⟩
  refine ⟨hstep.pending h.books.left_pending, h.books.right_pending,
    hstep.foreign?.trans h.books.foreign, ?_, ?_⟩
  · rw [hafter.holds.commands halone, hothers room (Ne.symm hne), ← hbefore.holds.commands halone]
    exact h.books.stores.responses
  · rw [hafter.holds.clearance, ← hbefore.holds.clearance (documentName room)]
    exact h.books.stores.clearance

/-- Only a name that is neither reserved nor defined in the room may be registered for one bot and
not for the other. -/
lemma dispatch_cases (h : Matched rooms room one two) (text : String) :
    one.book.registry.dispatch one.settings.mark text =
        two.book.registry.dispatch one.settings.mark text ∨
      ∃ call, Command.Call.ofText? one.settings.mark text = some call ∧
        call.name ∉ reservedNames ∧ ¬ one.book.vault.store.Defines room call.name := by
  obtain ⟨_, hone⟩ := h.left
  obtain ⟨_, htwo⟩ := h.right
  by_cases hsame : ∀ call, Command.Call.ofText? one.settings.mark text = some call →
      one.book.registry.owner? call.name = two.book.registry.owner? call.name
  · exact .inl (Registry.dispatch_congr hsame)
  · push Not at hsame
    obtain ⟨call, hcall, howners⟩ := hsame
    refine .inr ⟨call, hcall, fun hreserved => howners ?_, fun hdefines => howners ?_⟩
    · rw [hone.standing.owner _ hreserved, htwo.standing.owner _ hreserved]
    · by_cases hreserved : call.name ∈ reservedNames
      · rw [hone.standing.owner _ hreserved, htwo.standing.owner _ hreserved]
      · rw [hone.agrees.owner?_of_defines hreserved hdefines,
          htwo.agrees.owner?_of_defines hreserved
            ((h.books.stores.defines_iff call.name).1 hdefines)]

/-- In the room both bots give the same reply, as far as it is theirs to give. -/
lemma handle (h : Matched rooms event.room one two) (hroom : event.room ∈ rooms)
    (moment other : Moment) :
    Exchange.Matches one.settings.mark Exchange.IsLocal ⟨one, moment, event⟩ ⟨two, other, event⟩ ∧
      Matched rooms event.room (one.handle moment event).2 (two.handle other event).2 := by
  obtain ⟨_, hone⟩ := h.left
  obtain ⟨_, htwo⟩ := h.right
  obtain ⟨before, hbefore, -⟩ := hone.exists_handle moment hroom
  obtain ⟨after, hafter, -⟩ := htwo.exists_handle other hroom
  have hsettings : (one.handle moment event).2.settings = (two.handle other event).2.settings := by
    simp [h.settings]
  rcases h.dispatch_cases event.body with hdispatch | ⟨call, hcall, hreserved, hundefined⟩
  · obtain ⟨hreply, hbooks⟩ := (Book.congruence_alikeIn event.room).handle h.books
      (Book.namesBeside_congr h.books.foreign (fun _ => hone.standing.owner?_management)
        (fun _ => htwo.standing.owner?_management)) h.settings hdispatch moment other
    refine ⟨⟨rfl, fun hlocal hluck => hreply fun found hfound => ⟨?_, fun hhelp => ?_⟩⟩,
      hsettings, ⟨before, hbefore⟩, ⟨after, hafter⟩, hbooks⟩
    · exact Book.sameChance_of_foreign? (hone.standing.foreign? hone.agrees) hfound hluck
    · -- The help belongs to one name only, and that is not called here.
      obtain ⟨hcall, howner⟩ := Registry.dispatch_eq_some hfound
      have hentry := Registry.mem_standing_entries (hone.standing.foreign? hone.agrees) howner
      refine absurd ?_ (hlocal found.call hcall).1
      simpa [hhelp, Registry.standing_entries] using hentry
  · have hquiet : ∀ {bot : Bot}, bot.settings = one.settings →
        ∀ found, Command.Call.ofText? bot.settings.mark event.body = some found →
          found.name ∈ managementNames → bot.settings.access.canEdit event.sender = false := by
      intro bot hsame found hfound hname
      rw [hsame, hcall] at hfound
      obtain rfl := Option.some.inj hfound
      exact absurd (managementNames_subset hname) hreserved
    have hleft := (handle_step moment event one).pending h.books.left_pending
    have hright := (handle_step other event two).pending h.books.right_pending
    refine ⟨⟨rfl, fun hlocal _ => ?_⟩, hsettings, ⟨before, hbefore⟩, ⟨after, hafter⟩, ?_⟩
    · rcases (hlocal call hcall).2 with hname | hdefines
      · contradiction
      · contradiction
    · exact ((h.books.asked hleft (handle_asked (hquiet rfl) moment)).symm.asked hright
        (handle_asked (hquiet h.settings.symm) other)).symm

/-- The two bots go on to match in the room, whatever happens there to both and elsewhere to the
first. -/
lemma run (h : Matched rooms room one two) (halone : Store.Alone rooms room)
    {xs zs : List (Moment × Event)} (hplay : roomsOf xs ⊆ rooms)
    (hevents : (xs.map Prod.snd).filter (fun event => event.room = room) = zs.map Prod.snd) :
    List.Forall₂ (Exchange.Matches one.settings.mark Exchange.IsLocal)
        ((one.exchanges xs).filter fun exchange => exchange.event.room = room)
        (two.exchanges zs) ∧
      Matched rooms room (one.run xs).2 (two.run zs).2 := by
  refine forall₂_exchanges {event | event.room ∈ rooms} (fun event => event.room = room) ?_ ?_
    (fun entry hentry => hplay ⟨entry, hentry, rfl⟩) hevents rfl h
  · intro first second moment event _ hmatched hroom hne
    exact hmatched.elsewhere halone moment hroom (of_decide_eq_false hne)
  · intro first second moment other event hsettings hmatched hroom heq
    obtain rfl := of_decide_eq_true heq
    rw [← hsettings]
    exact hmatched.handle hroom moment other

/-- In the end the room has stored the same, in memory and in the directory. -/
lemma exists_commands (h : Matched rooms room one two) (halone : Store.Alone rooms room) :
    ∃ commands others, Commands.responses commands = Commands.responses others ∧
      one.book.vault.store.commands room = .ok commands ∧
      one.book.vault.store.directory.commands room = .ok commands ∧
      two.book.vault.store.commands room = .ok others ∧
      two.book.vault.store.directory.commands room = .ok others := by
  obtain ⟨mine, hone⟩ := h.left
  obtain ⟨yours, htwo⟩ := h.right
  have hresponses := h.books.stores.responses
  rw [hone.holds.commands halone, htwo.holds.commands halone] at hresponses
  exact ⟨mine room, yours room, Except.ok.inj hresponses, hone.holds.commands halone,
    hone.holds.directory_commands halone, htwo.holds.commands halone,
    htwo.holds.directory_commands halone⟩

end Matched

end Bot

/-! ## A room on its own -/

namespace Session

/-- A bot that begins on an empty directory meets some events, and another meets only those of one
room, maybe at other times. If no other room in play shares its file, then the two bots give the
same reply to every event of the room that does not call for help and calls no name but those that
are reserved or that the room has defined by then, unless chance has a part in it. In the end both
have stored the same commands for the room, times aside, in memory and in the directory. -/
theorem answers_as_alone (settings : Settings) (room : String) (xs zs : List (Moment × Event))
    (hevents : (xs.map Prod.snd).filter (fun event => event.room = room) = zs.map Prod.snd)
    (halone : Store.Alone (roomsOf xs) room) :
    ∃ first, start none settings (.present ∅) = running first ∧
      List.Forall₂ (Exchange.Matches settings.mark Exchange.IsLocal)
        ((first.exchanges xs).filter fun exchange => exchange.event.room = room)
        (first.exchanges zs) ∧
      let crowded := (first.run xs).2.book.vault.store
      let alone := (first.run zs).2.book.vault.store
      ∃ commands others, Commands.responses commands = Commands.responses others ∧
        crowded.commands room = .ok commands ∧ crowded.directory.commands room = .ok commands ∧
        alone.commands room = .ok others ∧ alone.directory.commands room = .ok others := by
  have hstart : start none settings (.present ∅) =
      running ⟨settings, ⟨Registry.standing, ∅, ⟨⟨.present ∅, ∅⟩, none⟩⟩⟩ :=
    start_eq rfl (Book.start_empty settings)
  obtain ⟨first, hfirst, hsettings, hsound⟩ :=
    (sound_start_empty (roomsOf xs) settings).exists_running
  have hpending : first.book.vault.pending = none := by
    rw [Session.running.inj (hfirst.symm.trans hstart)]
  have hself : Bot.Matched (roomsOf xs) room first first :=
    ⟨rfl, ⟨_, hsound⟩, ⟨_, hsound⟩, hpending, hpending, rfl, .refl room _⟩
  obtain ⟨hmatches, hlast⟩ := hself.run halone subset_rfl hevents
  rw [hsettings] at hmatches
  exact ⟨first, hfirst, hmatches, hlast.exists_commands halone⟩

/-- Another room defines the same name before and removes it: the list of commands still shows what
the room has defined, and nothing else. -/
theorem answers_as_alone_twoRooms :
    let moment : Moment := ⟨"noon", ⟨0, by decide⟩, fun _ _ => 1⟩
    let other : Moment := ⟨"midnight", ⟨1, by decide⟩, fun _ _ => 2⟩
    let say (room body : String) : Event := ⟨room, none, .text, body⟩
    let xs : List (Moment × Event) :=
      [(moment, say "b" "!addcommand hi Ho"), (moment, say "a" "!addcommand hi Hey"),
        (moment, say "b" "!remcommand hi"), (moment, say "a" "!listcommands")]
    let zs : List (Moment × Event) :=
      [(other, say "a" "!addcommand hi Hey"), (other, say "a" "!listcommands")]
    (xs.map Prod.snd).filter (fun event => event.room = "a") = zs.map Prod.snd ∧
    Store.Alone (roomsOf xs) "a" ∧
    ∃ first exchange, start none .usual (.present ∅) = running first ∧
      exchange ∈ first.exchanges xs ∧ exchange.event = say "a" "!listcommands" ∧
      exchange.reply = some ("Available commands: !8ball, !addcommand, !help, !hi, " ++
        "!listcommands, !modcommand, !ping, !remcommand, !roll") := by
  intro moment other say xs zs
  have hevents : (xs.map Prod.snd).filter (fun event => event.room = "a") = zs.map Prod.snd := rfl
  have halone : Store.Alone (roomsOf xs) "a" := by
    have hne : digest "b" ≠ digest "a" := by decide +kernel
    rintro room ⟨entry, hentry, rfl⟩ hdigest
    simp only [xs, List.mem_cons, List.not_mem_nil, or_false] at hentry
    rcases hentry with rfl | rfl | rfl | rfl
    · exact absurd hdigest hne
    · rfl
    · exact absurd hdigest hne
    · rfl
  obtain ⟨first, hfirst, hmatches, -⟩ := answers_as_alone .usual "a" xs zs hevents halone
  have hreplies : (start none .usual (.present ∅)).replies zs =
      [some "New command saved: !hi", some ("Available commands: !8ball, !addcommand, !help, " ++
        "!hi, !listcommands, !modcommand, !ping, !remcommand, !roll")] := by
    decide +kernel
  have hstart : start none .usual (.present ∅) =
      running ⟨.usual, ⟨Registry.standing, ∅, ⟨⟨.present ∅, ∅⟩, none⟩⟩⟩ :=
    start_eq rfl (Book.start_empty .usual)
  have hsettings : first.settings = .usual :=
    congrArg Bot.settings (Session.running.inj (hfirst.symm.trans hstart))
  have hcall : Command.Call.ofText? '!' "!listcommands" = some ⟨"listcommands", ""⟩ := by
    decide +kernel
  have hlocal : ∀ bot : Bot, bot.settings = .usual →
      Exchange.IsLocal ⟨bot, moment, say "a" "!listcommands"⟩ := by
    intro bot hbot call hfound
    simp only [hbot] at hfound
    obtain rfl := Option.some.inj (hcall.symm.trans hfound)
    exact ⟨by decide, .inl (by decide)⟩
  have hluck : (say "a" "!listcommands").SameLuck '!' moment other := by
    right
    rintro ⟨call, hfound, hname⟩
    obtain rfl := Option.some.inj (hcall.symm.trans hfound)
    simp at hname
  simp only [xs, zs, say, Bot.exchanges, List.filter_cons, String.reduceEq, decide_false,
    decide_true, if_true, if_false, Bool.false_eq_true, List.filter_nil,
    List.forall₂_cons] at hmatches
  obtain ⟨-, ⟨-, hmatch⟩, -⟩ := hmatches
  have hreply := hmatch (hlocal _ (by simp only [Bot.handle_settings, hsettings])) hluck
  simp only [hfirst, replies, ← Bot.map_reply_exchanges, zs, say, Bot.exchanges, List.map_cons,
    List.map_nil, List.cons.injEq] at hreplies
  refine ⟨hevents, halone, first, _, hfirst, ?_, rfl, hreply.trans ?_⟩
  · simp [xs, say, Bot.exchanges]
  · exact hreplies.2.1

end Session

end RoomBot
