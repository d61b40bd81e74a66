import RoomBot.Proofs.Book.Agreement

/-!
# Sessions

A session is the life of a bot over one directory.  It meets events and is restarted, with whatever
settings, as often as one likes, and every call of the store may be refused.  A bot that could not
be started leaves the directory behind, and another start may be tried.

What every start gives and neither an event nor a refusal spoils holds of the book of a running bot
at every moment of every session, whatever the directory held at first (`Session.Lasting.of_run`).
In particular the book agrees with its store (`Session.agrees_of_run`).
-/

namespace RoomBot

@[simp] lemma Bot.handle_settings (moment : Moment) (event : Event) (bot : Bot) :
    (bot.handle moment event).2.settings = bot.settings := by
  simp only [handle]
  split
  · split
    · rfl
    · split <;> rfl
  · rfl

/-- The reason why a call of the store is refused: the file and what is wrong with it. -/
structure Refusal where
  path : String
  reason : String
deriving DecidableEq, Repr

def Refusal.failure (refusal : Refusal) : Failure := .persistence refusal.path refusal.reason

lemma Refusal.isPersistence_of_map {refusal : Option Refusal} (failure : Failure)
    (h : refusal.map Refusal.failure = some failure) : failure.isPersistence = true := by
  obtain ⟨cause, -, rfl⟩ := Option.map_eq_some_iff.1 h
  rfl

/-- What happens in a session. The next call of the store may be refused. -/
inductive Occurrence
  | event (refusal : Option Refusal) (moment : Moment) (event : Event)
  | restart (refusal : Option Refusal) (settings : Settings)

/-- A bot that is running, or the directory on which none could be started. -/
inductive Session
  | running (bot : Bot)
  | stopped (directory : Directory)

namespace Session

/-- The directory of a session. -/
def directory : Session → Directory
  | running bot => bot.book.vault.store.directory
  | stopped directory => directory

/-- Opens a store on a directory and starts a bot on it. -/
def start (refusal : Option Refusal) (settings : Settings) (directory : Directory) : Session :=
  match Store.ofDirectory directory with
  | .error _ => stopped directory
  | .ok store =>
    match Bot.start settings ⟨store, refusal.map Refusal.failure⟩ with
    | .error _ => stopped store.directory
    | .ok bot => running bot

lemma start_eq {settings : Settings} {directory : Directory} {store : Store} {bot : Bot}
    (hstore : Store.ofDirectory directory = .ok store)
    (hbot : Bot.start settings ⟨store, none⟩ = .ok bot) :
    start none settings directory = running bot := by
  simp only [start, hstore, Option.map_none, hbot]

/-- A bot that is running was started on a store that was opened on the directory. -/
lemma exists_store_of_start {settings : Settings} {directory : Directory} {bot : Bot}
    (h : start none settings directory = running bot) :
    ∃ store, Store.ofDirectory directory = .ok store ∧
      Bot.start settings ⟨store, none⟩ = .ok bot := by
  unfold start at h
  cases hstore : Store.ofDirectory directory with
  | error failure =>
    rw [hstore] at h
    contradiction
  | ok store =>
    rw [hstore] at h
    refine ⟨store, rfl, ?_⟩
    simp only [Option.map_none] at h
    cases hbot : Bot.start settings ⟨store, none⟩ with
    | error failure =>
      rw [hbot] at h
      contradiction
    | ok first =>
      rw [hbot] at h
      rw [Session.running.inj h]

/-- A bot has the settings with which it was started. -/
lemma settings_of_start {refusal : Option Refusal} {settings : Settings} {directory : Directory}
    {bot : Bot} (h : start refusal settings directory = running bot) : bot.settings = settings := by
  unfold start at h
  cases hstore : Store.ofDirectory directory with
  | error failure =>
    rw [hstore] at h
    contradiction
  | ok store =>
    simp only [hstore, Bot.start] at h
    split at h
    · contradiction
    · rename_i hbot
      obtain rfl := Session.running.inj h
      split at hbot
      · rw [← Except.ok.inj hbot]
      · rw [← Except.ok.inj hbot]
      · contradiction

/-- A bot whose next call of the store will be refused, or none will. -/
def arm (refusal : Option Refusal) (bot : Bot) : Bot :=
  { bot with book.vault.pending := refusal.map Refusal.failure }

/-- Goes on with a session. -/
def meet (session : Session) (occurrence : Occurrence) : Session :=
  match occurrence, session with
  | .event refusal moment event, running bot => running ((arm refusal bot).handle moment event).2
  | .event _ _ _, stopped directory => stopped directory
  | .restart refusal settings, session => start refusal settings session.directory

/-- A session from its beginning. -/
def run (refusal : Option Refusal) (settings : Settings) (directory : Directory)
    (occurrences : List Occurrence) : Session :=
  occurrences.foldl meet (start refusal settings directory)

/-! ## What lasts -/

/-- If a bot is running, its book is like this. -/
def Shows (P : Book → Prop) : Session → Prop
  | running bot => P bot.book
  | stopped _ => True

/-- What holds of every bot that has started, and what neither a refusal that is waiting nor an
event spoils. -/
structure Lasting (P : Book → Prop) : Prop where
  started : ∀ {settings : Settings} {vault : Vault} {bot : Bot}, vault.store.Faithful →
    (∀ failure, vault.pending = some failure → failure.isPersistence = true) →
    Bot.start settings vault = .ok bot → P bot.book
  refused : ∀ {book : Book} (pending : Option Failure), P book →
    P { book with vault.pending := pending }
  stepped : ∀ {room : String} {before after : Book}, P before → Book.Step room before after → P after

namespace Lasting

variable {P : Book → Prop}

lemma shows_start (h : Lasting P) (refusal : Option Refusal) (settings : Settings)
    (directory : Directory) : (start refusal settings directory).Shows P := by
  simp only [start]
  cases hstore : Store.ofDirectory directory with
  | error failure => trivial
  | ok store =>
    simp only
    cases hstart : Bot.start settings ⟨store, refusal.map Refusal.failure⟩ with
    | error failure => trivial
    | ok bot =>
      exact h.started (Store.faithful_of_ofDirectory hstore) Refusal.isPersistence_of_map hstart

lemma shows_meet (h : Lasting P) {session : Session} (hsession : session.Shows P)
    (occurrence : Occurrence) : (session.meet occurrence).Shows P := by
  cases occurrence with
  | restart refusal settings => exact h.shows_start refusal settings session.directory
  | event refusal moment event =>
    cases session with
    | stopped directory => trivial
    | running bot =>
      have harmed : P (arm refusal bot).book := h.refused (refusal.map Refusal.failure) hsession
      exact h.stepped harmed (Bot.handle_step moment event (arm refusal bot))

lemma shows_foldl_meet (h : Lasting P) {session : Session} (hsession : session.Shows P)
    (occurrences : List Occurrence) : (occurrences.foldl Session.meet session).Shows P := by
  induction occurrences generalizing session with
  | nil => exact hsession
  | cons occurrence occurrences ih => exact ih (h.shows_meet hsession occurrence)

/-- What lasts holds at every moment of every session. -/
theorem of_run (h : Lasting P) {refusal : Option Refusal} {settings : Settings}
    {directory : Directory} {occurrences : List Occurrence} {bot : Bot}
    (hrun : run refusal settings directory occurrences = running bot) : P bot.book := by
  have hlast := h.shows_foldl_meet (h.shows_start refusal settings directory) occurrences
  rwa [← run, hrun] at hlast

end Lasting

/-! ## Agreement at every moment -/

/-- Whatever happens, an agreeing book goes on to agree. -/
lemma lasting_agrees : Lasting Book.Agrees where
  started := Book.agrees_of_start
  refused {book} pending h := h.withVault ⟨book.vault.store, pending⟩ (.refl _)
  stepped := Book.Agrees.step

/-- If a bot is running, its book agrees. -/
def Agrees : Session → Prop
  | running bot => bot.book.Agrees
  | stopped _ => True

lemma agrees_start (refusal : Option Refusal) (settings : Settings) (directory : Directory) :
    (start refusal settings directory).Agrees :=
  lasting_agrees.shows_start refusal settings directory

lemma Agrees.foldl_meet {session : Session} (h : session.Agrees)
    (occurrences : List Occurrence) : (occurrences.foldl Session.meet session).Agrees :=
  lasting_agrees.shows_foldl_meet h occurrences

/-- In every session, at every moment at which a bot is running, a name that is not reserved has as
its count the number of rooms that define it, or none when there are none, and custom commands
own it exactly when there are some. -/
theorem agrees_of_run {refusal : Option Refusal} {settings : Settings} {directory : Directory}
    {occurrences : List Occurrence} {bot : Bot}
    (h : run refusal settings directory occurrences = running bot) (name : String)
    (hname : name ∉ reservedNames) :
    ∃ rooms : Finset String,
      (∀ room, room ∈ rooms ↔
        ∃ response, (bot.book.vault.store.lookup room name).1 = .ok (some response)) ∧
      bot.book.counts[name]? = (if rooms.card = 0 then none else some rooms.card) ∧
      bot.book.registry.owner? name =
        if rooms.card = 0 then none else some .customCommands := by
  have hagrees := (agrees_start refusal settings directory).foldl_meet occurrences
  rw [← run, h] at hagrees
  obtain ⟨rooms, hrooms, htallies⟩ := hagrees.tallies name hname
  exact ⟨rooms, hrooms, htallies.counts, htallies.owner⟩

/-- The count of a name, if a bot is running. -/
def count? (name : String) : Session → Option Nat
  | running bot => bot.book.counts[name]?
  | stopped _ => none

/-- A name that was refused once and defined after a restart is counted once. -/
theorem agrees_of_run_afterRefusal :
    let moment : Moment := ⟨"noon", ⟨0, by decide⟩, fun _ _ => 1⟩
    let event : Event := ⟨"a", none, .text, "!addcommand hi Hey"⟩
    let occurrences : List Occurrence :=
      [.event (some ⟨"", "no space left"⟩) moment event, .restart none .usual,
        .event none moment event]
    ∃ bot, run none .usual (.present ∅) occurrences = running bot ∧ "hi" ∉ reservedNames ∧
      ∃ rooms : Finset String, rooms.card = 1 ∧
        (∀ room, room ∈ rooms ↔
          ∃ response, (bot.book.vault.store.lookup room "hi").1 = .ok (some response)) ∧
        bot.book.counts["hi"]? = some 1 ∧
        bot.book.registry.owner? "hi" = some .customCommands := by
  intro moment event occurrences
  have hcount : (run none .usual (.present ∅) occurrences).count? "hi" = some 1 := by
    decide +kernel
  cases hrun : run none .usual (.present ∅) occurrences with
  | stopped directory =>
    rw [hrun] at hcount
    contradiction
  | running bot =>
    rw [hrun] at hcount
    have hname : "hi" ∉ reservedNames := by decide
    obtain ⟨rooms, hrooms, hcounts, howner⟩ := agrees_of_run hrun "hi" hname
    have hcard : rooms.card = 1 := by
      rw [show bot.book.counts["hi"]? = some 1 from hcount] at hcounts
      split at hcounts
      · contradiction
      · exact (Option.some.inj hcounts).symm
    rw [hcard, if_neg Nat.one_ne_zero] at howner
    exact ⟨bot, rfl, hname, rooms, hcard, hrooms, hcount, howner⟩

end Session

end RoomBot
