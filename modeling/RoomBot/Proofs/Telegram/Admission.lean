import RoomBot.Proofs.Settings.Listed
import RoomBot.Proofs.Strangers
import RoomBot.Proofs.Telegram.Chats
import RoomBot.Telegram.Reception

/-!
# The lists in the variables are obeyed

A post is a bot with the line on which its notices go out.  Message after message comes in; each is
met by the bot, and the notice that it gets, if any, goes out on the line.  Where it goes is told
here; how long it may have to wait is not.

Two variables list the chats that the bot serves and the senders who may manage commands, as numbers.
By the time that somebody asks for something the numbers have been read as texts, the chat of the
message has become the name of a room, and the reply is sent to the chat that this name is read as.
All this fits together (`lists_obeyed`): a message from a chat that is not listed has no effect; in a
chat that is listed everything is as if there were no list of chats, and what is sent goes to that
chat; and where senders are listed nobody else changes what is stored.
-/

namespace RoomBot

/-! ## With and without a list of rooms -/

/-- The settings without a list of rooms. -/
def Settings.everywhere (settings : Settings) : Settings := { settings with access.rooms := [] }

/-- The same bot with other settings. -/
def Bot.withSettings (bot : Bot) (settings : Settings) : Bot := { bot with settings }

lemma Book.serve_everywhere (settings : Settings) (moment : Moment) (owner : Owner)
    (request : Request) (book : Book) :
    book.serve settings.everywhere moment owner request =
      book.serve settings moment owner request := by
  cases owner <;> rfl

/-- In a room that is listed a bot does what it would do without a list. -/
lemma Bot.handle_everywhere {bot : Bot} {event : Event}
    (h : bot.settings.access.allowsRoom event.room = true) (moment : Moment) :
    (bot.withSettings bot.settings.everywhere).handle moment event =
      ((bot.handle moment event).1,
        (bot.handle moment event).2.withSettings bot.settings.everywhere) := by
  have hheeds : heeds bot.settings.everywhere event = heeds bot.settings event := by
    rw [heeds, heeds, h]
    rfl
  have hmark : bot.settings.everywhere.mark = bot.settings.mark := rfl
  simp only [handle, withSettings, hheeds, hmark, Book.serve_everywhere]
  split
  · cases bot.book.registry.dispatch bot.settings.mark event.body with
    | none => rfl
    | some found =>
      simp only
      cases bot.book.serve bot.settings moment found.owner
        ⟨event.room, event.sender, found.call⟩ with
      | mk answer book => cases answer <;> rfl
  · rfl

/-- A bot is started in the same way, whatever its settings are. -/
lemma Session.start_withSettings {refusal : Option Refusal} {settings : Settings}
    {directory : Directory} {bot : Bot} (h : start refusal settings directory = running bot)
    (other : Settings) : start refusal other directory = running (bot.withSettings other) := by
  unfold start at h ⊢
  cases hstore : Store.ofDirectory directory with
  | error failure =>
    rw [hstore] at h
    contradiction
  | ok store =>
    rw [hstore] at h
    simp only [Bot.start] at h ⊢
    split at h
    · contradiction
    · rename_i hstarted
      rw [← Session.running.inj h]
      split at hstarted
      · rw [← Except.ok.inj hstarted]
        rfl
      · rw [← Except.ok.inj hstarted]
        rfl
      · contradiction

namespace Telegram

/-! ## A post -/

/-- A message as it comes in. The next call of the store may be refused. -/
structure Arrival where
  refusal : Option RoomBot.Refusal
  moment : Moment
  message : Message

/-- A bot and the line on which its notices go out. -/
structure Post where
  bot : Bot
  line : Line

namespace Post

/-- The same post with other settings of its bot. -/
def withSettings (post : Post) (settings : Settings) : Post :=
  { post with bot := post.bot.withSettings settings }

/-- The notice that a message gets. -/
def notice (username : Option String) (post : Post) (arrival : Arrival) : Option Notice :=
  (receive username arrival.moment arrival.message (Session.arm arrival.refusal post.bot)).1

/-- Meets a message and sends the notice that it gets. What cannot be sent is lost. -/
def meet (username : Option String) (post : Post) (arrival : Arrival) : Post where
  bot := (receive username arrival.moment arrival.message (Session.arm arrival.refusal post.bot)).2
  line := match post.notice username arrival with
    | none => post.line
    | some notice => (sendNotice post.line notice.room notice.text).2

/-- Meets messages, one after another. -/
def run (username : Option String) (post : Post) (arrivals : List Arrival) : Post :=
  arrivals.foldl (meet username) post

variable {username : Option String} {post : Post} {arrival : Arrival}

@[simp] lemma settings_meet (username : Option String) (post : Post) (arrival : Arrival) :
    (post.meet username arrival).bot.settings = post.bot.settings :=
  Bot.handle_settings _ _ _

lemma settings_run (username : Option String) (post : Post) (arrivals : List Arrival) :
    (post.run username arrivals).bot.settings = post.bot.settings := by
  induction arrivals generalizing post with
  | nil => rfl
  | cons arrival arrivals ih =>
    exact (ih (post.meet username arrival)).trans (settings_meet username post arrival)

end Post

/-! ## One message -/

@[simp] lemma room_toEvent (message : Message) (username : Option String) :
    (message.toEvent username).room = roomOfChat message.chat := by
  unfold Message.toEvent
  cases message.content <;> rfl

/-- The sender of an event is that of the message, if any is known. -/
lemma sender_toEvent {message : Message} {username : Option String} {sender : String}
    (h : sender ∈ (message.toEvent username).sender) :
    ∃ n ∈ message.sender, toString (n : Int) = sender := by
  have hsender : sender ∈ message.sender.map toString := by
    unfold Message.toEvent at h
    cases hcontent : message.content with
    | title name =>
      rw [hcontent] at h
      contradiction
    | _ =>
      rw [hcontent] at h
      exact h
  obtain ⟨n, hn, rfl⟩ := Option.mem_map.1 hsender
  exact ⟨n, hn, rfl⟩

lemma allowsRoom_of_listed {policy : AccessPolicy} {chats : List Int} {chat : Int}
    (hrooms : policy.rooms = chats.map toString) (hchat : chat ∈ chats) :
    policy.allowsRoom (roomOfChat chat) = true := by
  have hmem : roomOfChat chat ∈ policy.rooms := by
    rw [hrooms]
    exact List.mem_map_of_mem hchat
  rw [AccessPolicy.allowsRoom, isAdmitted_iff (List.ne_nil_of_mem hmem)]
  exact ⟨_, hmem, rfl⟩

lemma receive_everywhere {bot : Bot} {message : Message}
    (h : bot.settings.access.allowsRoom (roomOfChat message.chat) = true)
    (username : Option String) (moment : Moment) :
    receive username moment message (bot.withSettings bot.settings.everywhere) =
      ((receive username moment message bot).1,
        (receive username moment message bot).2.withSettings bot.settings.everywhere) := by
  rw [← room_toEvent message username] at h
  simp only [receive, Bot.handle_everywhere h]

namespace Post

variable {username : Option String} {post : Post} {arrival : Arrival} {chats editors : List Int}

/-- A message from a chat that is not listed gets no notice, and nothing comes of it. -/
lemma meet_of_unlisted (hrooms : post.bot.settings.access.rooms = chats.map toString)
    (hsome : chats ≠ []) (hchat : arrival.message.chat ∉ chats) :
    post.notice username arrival = none ∧
      post.meet username arrival = ⟨Session.arm arrival.refusal post.bot, post.line⟩ := by
  have hunheeded : (arrival.message.toEvent username).IsUnheeded post.bot.settings.access := by
    refine .inr ⟨?_, ?_⟩
    · simpa [hrooms] using hsome
    · rw [hrooms, room_toEvent, roomOfChat, List.mem_map_of_injective Text.toString_injective]
      exact hchat
  have hheeds : Bot.heeds (Session.arm arrival.refusal post.bot).settings
      (arrival.message.toEvent username) = false := hunheeded.heeds_eq_false
  have hreceive : receive username arrival.moment arrival.message
      (Session.arm arrival.refusal post.bot) = (none, Session.arm arrival.refusal post.bot) := by
    simp only [receive, Bot.handle_of_unheeded hheeds, Option.map_none]
  have hnone : post.notice username arrival = none := by
    rw [notice, hreceive]
  refine ⟨hnone, ?_⟩
  rw [meet, hnone, hreceive]

/-- A message from a chat that is listed is met as it would be without a list. -/
lemma meet_of_listed (username : Option String) (post : Post)
    (hrooms : post.bot.settings.access.rooms = chats.map toString)
    (hchat : arrival.message.chat ∈ chats) :
    (post.withSettings post.bot.settings.everywhere).notice username arrival =
        post.notice username arrival ∧
      (post.withSettings post.bot.settings.everywhere).meet username arrival =
        (post.meet username arrival).withSettings post.bot.settings.everywhere := by
  have hallowed : (Session.arm arrival.refusal post.bot).settings.access.allowsRoom
      (roomOfChat arrival.message.chat) = true := allowsRoom_of_listed hrooms hchat
  have hreceive : receive username arrival.moment arrival.message
        (Session.arm arrival.refusal (post.withSettings post.bot.settings.everywhere).bot) =
      ((receive username arrival.moment arrival.message (Session.arm arrival.refusal post.bot)).1,
        (receive username arrival.moment arrival.message
          (Session.arm arrival.refusal post.bot)).2.withSettings post.bot.settings.everywhere) :=
    receive_everywhere hallowed username arrival.moment
  have hnotice : (post.withSettings post.bot.settings.everywhere).notice username arrival =
      post.notice username arrival := by
    rw [notice, hreceive]
    rfl
  refine ⟨hnotice, ?_⟩
  rw [meet, hnotice, hreceive]
  rfl

/-- What is sent for a message goes to its chat. -/
lemma addressed_meet (username : Option String) (post : Post)
    (hchat : IsChat arrival.message.chat) :
    (∀ notice ∈ post.notice username arrival,
        chatOfRoom? notice.room = some arrival.message.chat) ∧
      post.line.Addressed arrival.message.chat (post.meet username arrival).line := by
  have hroom : ∀ notice ∈ post.notice username arrival,
      chatOfRoom? notice.room = some arrival.message.chat := by
    intro notice hnotice
    obtain ⟨text, -, rfl⟩ := Option.mem_map.1 hnotice
    rw [room_toEvent, chatOfRoom?_roomOfChat hchat]
  refine ⟨hroom, ?_⟩
  simp only [meet]
  split
  · exact .refl _ _
  · rename_i notice hnotice
    exact addressed_sendNotice (hroom notice hnotice) post.line notice.text

/-- Where senders are listed, whoever is not among them can only ask. -/
lemma asked_meet (hlist : post.bot.settings.access.editors = editors.map toString)
    (hsome : editors ≠ []) (hsender : ∀ n ∈ arrival.message.sender, (n : Int) ∉ editors) :
    Book.Asked post.bot.book (post.meet username arrival).bot.book := by
  have hstranger : (arrival.message.toEvent username).IsByStranger post.bot.settings.access := by
    refine ⟨by simpa [hlist] using hsome, fun sender hmem => ?_⟩
    obtain ⟨n, hn, rfl⟩ := sender_toEvent hmem
    rw [hlist, List.mem_map_of_injective Text.toString_injective]
    exact hsender n hn
  have hquiet : (Session.arm arrival.refusal post.bot).settings.access.canEdit
      (arrival.message.toEvent username).sender = false := hstranger.canEdit_eq_false
  have hasked := Bot.handle_asked (fun _ _ _ => hquiet) arrival.moment
  exact ⟨hasked.registry, hasked.counts, hasked.store⟩

/-! ## Sessions side by side -/

/-- Two posts of which the second has no list of rooms, and which are otherwise the same. A refusal
that is waiting does not count, since every message brings its own. -/
structure Parallel (one two : Post) : Prop where
  settings : two.bot.settings = one.bot.settings.everywhere
  registry : two.bot.book.registry = one.bot.book.registry
  counts : two.bot.book.counts = one.bot.book.counts
  store : two.bot.book.vault.store = one.bot.book.vault.store
  line : two.line = one.line

namespace Parallel

variable {one two : Post}

lemma withSettings (post : Post) :
    Parallel post (post.withSettings post.bot.settings.everywhere) :=
  ⟨rfl, rfl, rfl, rfl, rfl⟩

/-- When a message comes in, nothing but the list of rooms makes a difference any more. -/
lemma arm_eq (h : Parallel one two) (refusal : Option RoomBot.Refusal) :
    Session.arm refusal two.bot =
      Session.arm refusal (one.withSettings one.bot.settings.everywhere).bot := by
  obtain ⟨⟨settings, ⟨registry, counts, ⟨store, pending⟩⟩⟩, line⟩ := two
  obtain ⟨hsettings, hregistry, hcounts, hstore, -⟩ := h
  simp only at hsettings hregistry hcounts hstore
  subst hsettings hregistry hcounts hstore
  rfl

lemma meet_of_unlisted (h : Parallel one two)
    (hrooms : one.bot.settings.access.rooms = chats.map toString) (hsome : chats ≠ [])
    (hchat : arrival.message.chat ∉ chats) : Parallel (one.meet username arrival) two := by
  rw [(Post.meet_of_unlisted hrooms hsome hchat).2]
  exact ⟨h.settings, h.registry, h.counts, h.store, h.line⟩

lemma meet_of_listed (h : Parallel one two)
    (hrooms : one.bot.settings.access.rooms = chats.map toString)
    (hchat : arrival.message.chat ∈ chats) :
    Parallel (one.meet username arrival) (two.meet username arrival) := by
  have hmeet : two.meet username arrival =
      (one.withSettings one.bot.settings.everywhere).meet username arrival := by
    simp only [meet, notice, h.arm_eq, h.line]
    rfl
  rw [hmeet, (one.meet_of_listed username hrooms hchat).2, ← one.settings_meet username arrival]
  exact withSettings _

/-- In the end nobody can tell whether there was a list of rooms, or whether it was only the
messages from those rooms that came in. -/
lemma run (h : Parallel one two) (hrooms : one.bot.settings.access.rooms = chats.map toString)
    (hsome : chats ≠ []) (username : Option String) (arrivals : List Arrival) :
    Parallel (one.run username arrivals)
      (two.run username (arrivals.filter fun arrival => arrival.message.chat ∈ chats)) := by
  induction arrivals generalizing one two with
  | nil => exact h
  | cons arrival arrivals ih =>
    have hnext : (one.meet username arrival).bot.settings.access.rooms = chats.map toString := by
      simp [hrooms]
    by_cases hchat : arrival.message.chat ∈ chats
    · rw [List.filter_cons_of_pos (by simpa using hchat)]
      exact ih (h.meet_of_listed hrooms hchat) hnext
    · rw [List.filter_cons_of_neg (by simpa using hchat)]
      exact ih (h.meet_of_unlisted hrooms hsome hchat) hnext

end Parallel

end Post

/-! ## The lists -/

/-- Chats and senders are listed in two variables, as numbers in decimal, with commas between the
fields of a list and blanks wherever there is room. A bot with this configuration is started on
whatever is stored and meets whatever messages come in.

A message from a chat that is not listed gets no notice, nothing is sent for it, and the book stays
as it is. A message from a chat that is listed gets the notice that it would get if the first
variable were not set, everything else is as it would be then, and what is sent for it goes to its
chat. Where senders are listed, a message from anybody else changes nothing that is stored. And the
post is in the end where one without a list of chats would be that has met the messages from the
listed chats only. -/
theorem lists_obeyed {var : String → Option String} {config : Config} {chats editors : List Int}
    (hconfig : Config.ofVariables var = .ok config)
    (hchats : Config.IsListOf (chats.map toString) ((var "ALLOWED_CHATS").getD ""))
    (hsome : chats ≠ []) (hrange : ∀ chat ∈ chats, IsChat chat)
    (heditors : Config.IsListOf (editors.map toString) ((var "COMMAND_EDITORS").getD ""))
    {refusal : Option RoomBot.Refusal} {directory : Directory} {first : Post}
    (hstart : Session.start refusal config.settings directory = .running first.bot)
    (username : Option String) (arrivals : List Arrival) {post : Post}
    (hpost : first.run username arrivals = post) :
    ∃ unlisted : Config,
      Config.ofVariables (Function.update var "ALLOWED_CHATS" none) = .ok unlisted ∧
      (∀ arrival : Arrival,
        (arrival.message.chat ∉ chats → post.notice username arrival = none ∧
          post.meet username arrival = ⟨Session.arm arrival.refusal post.bot, post.line⟩) ∧
        (arrival.message.chat ∈ chats →
          (post.withSettings unlisted.settings).notice username arrival =
            post.notice username arrival ∧
          (post.withSettings unlisted.settings).meet username arrival =
            (post.meet username arrival).withSettings unlisted.settings ∧
          (∀ notice ∈ post.notice username arrival,
            chatOfRoom? notice.room = some arrival.message.chat) ∧
          post.line.Addressed arrival.message.chat (post.meet username arrival).line) ∧
        (editors ≠ [] → (∀ n ∈ arrival.message.sender, (n : Int) ∉ editors) →
          Book.Asked post.bot.book (post.meet username arrival).bot.book)) ∧
      Session.start refusal unlisted.settings directory =
        .running (first.withSettings unlisted.settings).bot ∧
      Post.Parallel post ((first.withSettings unlisted.settings).run username
        (arrivals.filter fun arrival => arrival.message.chat ∈ chats)) := by
  have haccess := Config.access_of_ofVariables hconfig
  rw [Config.listed_numbers hchats, Config.listed_numbers heditors] at haccess
  have hfirst : first.bot.settings = config.settings := Session.settings_of_start hstart
  have hsettings : post.bot.settings = config.settings := by
    rw [← hpost, Post.settings_run, hfirst]
  have hrooms : config.settings.access.rooms = chats.map toString :=
    congrArg AccessPolicy.rooms haccess
  have hlist : config.settings.access.editors = editors.map toString :=
    congrArg AccessPolicy.editors haccess
  refine ⟨{ config with access.rooms := [] }, Config.ofVariables_unset hconfig,
    fun arrival => ⟨fun hchat => ?_, fun hchat => ?_, fun hne hsender => ?_⟩,
    Session.start_withSettings hstart _, ?_⟩
  · exact Post.meet_of_unlisted (hsettings ▸ hrooms) hsome hchat
  · obtain ⟨hnotice, hmeet⟩ := post.meet_of_listed username (hsettings ▸ hrooms) hchat
    rw [hsettings] at hnotice hmeet
    exact ⟨hnotice, hmeet, post.addressed_meet username (hrange _ hchat)⟩
  · exact Post.asked_meet (hsettings ▸ hlist) hne hsender
  · have hparallel := (Post.Parallel.withSettings first).run (hfirst ▸ hrooms) hsome username
      arrivals
    rw [hfirst, hpost] at hparallel
    exact hparallel

/-- The chats with the least and the greatest number of all are listed, and a message from the first
of them is answered there. -/
theorem lists_obeyed_bothExtremes :
    let var : String → Option String := fun key =>
      if key = "TELEGRAM_BOT_TOKEN" then some "token"
      else if key = "ALLOWED_CHATS" then some " -9223372036854775808 ,, 9223372036854775807\t"
      else if key = "COMMAND_EDITORS" then some "7 , "
      else none
    let chats : List Int := [-9223372036854775808, 9223372036854775807]
    let ping : Arrival :=
      ⟨none, ⟨"noon", ⟨0, by decide⟩, fun _ _ => 1⟩, ⟨-9223372036854775808, none, .text "!ping"⟩⟩
    Config.IsListOf (chats.map toString) ((var "ALLOWED_CHATS").getD "") ∧
    Config.IsListOf (([7] : List Int).map toString) ((var "COMMAND_EDITORS").getD "") ∧
    ∃ (config : Config) (first : Post), Config.ofVariables var = .ok config ∧
      Session.start none config.settings (.present ∅) = .running first.bot ∧
      first.notice none ping = some ⟨"-9223372036854775808", "Pong!"⟩ ∧
      chatOfRoom? "-9223372036854775808" = some (-9223372036854775808) := by
  intro var chats ping
  have hchats : Config.IsListOf (chats.map toString) ((var "ALLOWED_CHATS").getD "") := by
    refine ⟨[[' '] ++ ((toString (-9223372036854775808 : Int)).toList ++ [' ']), [],
      [' '] ++ ((toString (9223372036854775807 : Int)).toList ++ ['\t'])],
      .word rfl rfl (.blank rfl (.word rfl rfl .nil)), by decide +kernel⟩
  have heditors : Config.IsListOf (([7] : List Int).map toString)
      ((var "COMMAND_EDITORS").getD "") := by
    refine ⟨[[] ++ ((toString (7 : Int)).toList ++ [' ']), [' ']],
      .word rfl rfl (.blank rfl .nil), by decide +kernel⟩
  have hrange : ∀ chat ∈ chats, IsChat chat := by decide
  let config : Config := ⟨"token", '!', false, "./data",
    ⟨["-9223372036854775808", "9223372036854775807"], ["7"]⟩, none, false⟩
  have hconfig : Config.ofVariables var = .ok config := by decide +kernel
  let first : Post :=
    ⟨⟨config.settings, ⟨Registry.standing, ∅, ⟨⟨.present ∅, ∅⟩, none⟩⟩⟩, ⟨true, [], []⟩⟩
  have hstart : Session.start none config.settings (.present ∅) = .running first.bot :=
    Session.start_eq rfl (Book.start_empty config.settings)
  have hnotice : first.notice none ping = some ⟨"-9223372036854775808", "Pong!"⟩ := by
    decide +kernel
  have hobeyed := lists_obeyed hconfig hchats (by decide) hrange heditors hstart none [] rfl
  obtain ⟨unlisted, -, heach, -⟩ := hobeyed
  obtain ⟨-, -, hroom, -⟩ := (heach ping).2.1 (by decide)
  exact ⟨hchats, heditors, config, first, hconfig, hstart, hnotice, hroom _ hnotice⟩

end Telegram

end RoomBot
