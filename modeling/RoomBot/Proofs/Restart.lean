import RoomBot.Proofs.Book.Alike
import RoomBot.Proofs.Book.Standing
import RoomBot.Proofs.Session

/-!
# Restarts do not show

A bot that began on an empty directory has met some events.  Another bot is started on its
directory and takes its place.  From then on the two give the same replies to the same events,
whenever these come and however many there are: the registry, the counts and what the store holds
were built up step by step in the one and computed from the documents in the other, and they are
the same (`Bot.Twins`).

Only chance can make a difference, and only where it is asked: the fates and the dice may fall
differently for the two.
-/

namespace RoomBot

/-- The event calls the eight ball or the dice. -/
def Event.CallsChance (mark : Char) (event : Event) : Prop :=
  ∃ call, Command.Call.ofText? mark event.body = some call ∧
    (call.name = "8ball" ∨ call.name = "roll")

/-- Chance falls the same at two moments, or has no part in the reply to the event. -/
def Event.SameLuck (mark : Char) (event : Event) (moment other : Moment) : Prop :=
  (moment.fate = other.fate ∧ moment.face = other.face) ∨ ¬ event.CallsChance mark

/-- Where the other owners have the names that they had first, only two names ask for chance. -/
lemma Book.sameChance_of_foreign? {book : Book} {mark : Char} {event : Event}
    {found : Registry.Invocation} {moment other : Moment}
    (h : book.registry.foreign? = Registry.standing.foreign?)
    (hfound : book.registry.dispatch mark event.body = some found)
    (hluck : event.SameLuck mark moment other) : SameChance found.owner moment other := by
  obtain ⟨hcall, howner⟩ := Registry.dispatch_eq_some hfound
  rcases hluck with hsame | hnot
  · exact .inl hsame
  have hentry := Registry.mem_standing_entries h howner
  refine .inr ⟨fun hball => hnot ⟨found.call, hcall, .inl ?_⟩,
    fun hroller => hnot ⟨found.call, hcall, .inr ?_⟩⟩
  · simpa [hball, Registry.standing_entries] using hentry
  · simpa [hroller, Registry.standing_entries] using hentry

/-- The rooms in which something happened. -/
def roomsOf (events : List (Moment × Event)) : Set String :=
  {room | ∃ entry ∈ events, entry.2.room = room}

namespace Bot

/-! ## Starting on what another bot has left -/

/-- A bot can be started on a store that holds what a dictionary tells. If no reserved name is
defined there, the reserved names stand. -/
lemma exists_start {rooms : Set String} {dictionary : Dictionary} {store : Store}
    (hfaithful : store.Faithful) (hrefines : store.Refines rooms dictionary)
    (hrooms : Set.InjOn digest rooms)
    (hreserved : ∀ room, ∀ name ∈ reservedNames, (room, name) ∉ dictionary)
    (settings : Settings) :
    ∃ bot, start settings ⟨store, none⟩ = .ok bot ∧ bot.settings = settings ∧
      bot.book.Agrees ∧ bot.book.Standing ∧ bot.book.vault.pending = none ∧
      bot.book.vault.store.Refines rooms dictionary := by
  obtain ⟨htold, hafter⟩ := hrefines.all hrooms
  have hdefiners : ∀ name ∈ reservedNames, store.Definers name ∅ := by
    intro name hname room
    rw [hrefines.defines_iff hrooms]
    exact iff_of_false (Finset.notMem_empty room) (hreserved room name hname)
  obtain ⟨bot, hstart, hsettings, hagrees, hstanding, hvault⟩ :=
    Book.exists_start_of_all hfaithful htold hdefiners settings
  refine ⟨bot, hstart, hsettings, hagrees, hstanding, ?_, ?_⟩
  · rw [hvault]
  · rw [hvault]
    exact hafter

/-! ## Two bots at the same events -/

/-- Meets some events, one after another, and gives the replies. -/
def run : List (Moment × Event) → Bot → List (Option String) × Bot
  | [], bot => ([], bot)
  | (moment, event) :: rest, bot =>
    let (reply, bot) := bot.handle moment event
    let (replies, bot) := run rest bot
    (reply :: replies, bot)

/-- Two bots that cannot be told apart in the rooms in play. -/
structure Twins (rooms : Set String) (one two : Bot) : Prop where
  settings : one.settings = two.settings
  books : ∃ dictionary, Book.Alike rooms dictionary one.book two.book
  agrees : one.book.Agrees
  standing : one.book.Standing

variable {rooms : Set String} {one two : Bot}

/-- Twins give the same reply to the same event, unless chance has a part in it, and their books
are alike afterwards. -/
lemma Twins.reply (h : Twins rooms one two) (hrooms : Set.InjOn digest rooms)
    (moment other : Moment) {event : Event} (hroom : event.room ∈ rooms) :
    (event.SameLuck one.settings.mark moment other →
      (one.handle moment event).1 = (two.handle other event).1) ∧
    ∃ dictionary, Book.Alike rooms dictionary (one.handle moment event).2.book
      (two.handle other event).2.book := by
  obtain ⟨hreply, hafter⟩ := (Book.congruence_alike hrooms hroom).handle_paired
    (Book.exists_alike_iff.1 h.books) h.settings moment other
  refine ⟨fun hluck => hreply fun found hfound => ?_, Book.exists_alike_iff.2 hafter⟩
  exact Book.sameChance_of_foreign? (h.standing.foreign? h.agrees) hfound hluck

lemma Twins.handle (h : Twins rooms one two) (hrooms : Set.InjOn digest rooms)
    (moment other : Moment) {event : Event} (hroom : event.room ∈ rooms) :
    Twins rooms (one.handle moment event).2 (two.handle other event).2 where
  settings := by simp [h.settings]
  books := (h.reply hrooms moment other hroom).2
  agrees := h.agrees.step (handle_step moment event one)
  standing := h.standing.step h.agrees (handle_step moment event one)

@[simp] lemma run_settings (events : List (Moment × Event)) (bot : Bot) :
    (bot.run events).2.settings = bot.settings := by
  induction events generalizing bot with
  | nil => rfl
  | cons entry events ih => exact (ih _).trans (handle_settings entry.1 entry.2 bot)

/-- Twins go on to be twins, whatever happens in the rooms in play, and whenever it happens to
either of them. Each reply is the same unless chance has a part in it. -/
lemma Twins.run (h : Twins rooms one two) (hrooms : Set.InjOn digest rooms)
    {ys zs : List (Moment × Event)} (hevents : ys.map Prod.snd = zs.map Prod.snd)
    (hplay : roomsOf ys ⊆ rooms) :
    (∀ (i : Nat) (moment other : Moment) (event : Event),
      ys[i]? = some (moment, event) → zs[i]? = some (other, event) →
      event.SameLuck one.settings.mark moment other →
      ∃ reply, (one.run ys).1[i]? = some reply ∧ (two.run zs).1[i]? = some reply) ∧
    Twins rooms (one.run ys).2 (two.run zs).2 := by
  induction ys generalizing zs one two with
  | nil =>
    obtain rfl : zs = [] := by simpa using hevents.symm
    refine ⟨fun i moment other event hy => ?_, h⟩
    simp at hy
  | cons y ys ih =>
    cases zs with
    | nil => simp at hevents
    | cons z zs =>
      obtain ⟨moment, event⟩ := y
      obtain ⟨other, _⟩ := z
      obtain ⟨rfl, hrest⟩ := List.cons.inj hevents
      have hroom : event.room ∈ rooms := hplay ⟨_, List.mem_cons_self, rfl⟩
      have hreply := (h.reply hrooms moment other hroom).1
      have htwins := h.handle hrooms moment other hroom
      obtain ⟨hreplies, hlast⟩ := ih htwins hrest fun room ⟨entry, hentry, hroom⟩ =>
        hplay ⟨entry, List.mem_cons_of_mem _ hentry, hroom⟩
      refine ⟨fun i => ?_, hlast⟩
      cases i with
      | zero =>
        intro now later found hy hz hsame
        obtain ⟨rfl, rfl⟩ : moment = now ∧ event = found := by simpa using hy
        obtain rfl : other = later := by simpa using hz
        exact ⟨_, rfl, congrArg some (hreply hsame).symm⟩
      | succ i =>
        intro now later found hy hz hsame
        rw [← handle_settings moment event one] at hsame
        exact hreplies i now later found hy hz hsame

end Bot

/-! ## A bot in the place of another -/

namespace Session

/-- On what a bot has left another can be started, and the two are twins. -/
lemma exists_twin {rooms : Set String} {kept : Bot} (h : Bot.Twins rooms kept kept)
    (hrooms : Set.InjOn digest rooms) :
    ∃ fresh, start none kept.settings kept.book.vault.store.directory = running fresh ∧
      Bot.Twins rooms kept fresh := by
  obtain ⟨dictionary, hbooks⟩ := h.books
  obtain ⟨store, hstore, hrefines⟩ := hbooks.left.reopen
  have hreserved : ∀ room, ∀ name ∈ reservedNames, (room, name) ∉ dictionary := by
    intro room name hname
    rw [← hbooks.left.defines_iff hrooms, ← h.standing.definers name hname]
    exact Finset.notMem_empty room
  obtain ⟨fresh, hfresh, hsettings, hagrees, hstanding, hpending, hafter⟩ :=
    Bot.exists_start (Store.faithful_of_ofDirectory hstore) hrefines hrooms hreserved kept.settings
  have hsame := Book.eq_of_defines_iff h.agrees hagrees h.standing hstanding fun room name => by
    rw [hbooks.left.defines_iff hrooms, hafter.defines_iff hrooms]
  refine ⟨fresh, start_eq hstore hfresh, hsettings.symm, ⟨dictionary, ?_⟩, h.agrees, h.standing⟩
  exact ⟨hsame.1, hsame.2, hbooks.left_pending, hpending, hbooks.left, hafter⟩

/-- Between two sequences of events a bot that began on an empty directory may be replaced by
another on the same directory. If the rooms in play have different digests, then both bots do
start, and no reply to a later event changes unless chance has a part in it, nor do the entries of
the registry and the definitions that are stored in the end. The events may come to the two bots
at different times. -/
theorem restart_transparent (settings : Settings) (xs ys zs : List (Moment × Event))
    (hevents : ys.map Prod.snd = zs.map Prod.snd)
    (hrooms : Set.InjOn digest (roomsOf (xs ++ ys))) :
    ∃ first fresh, start none settings (.present ∅) = running first ∧
      let kept := (first.run xs).2
      start none settings kept.book.vault.store.directory = running fresh ∧
      (∀ (i : Nat) (moment other : Moment) (event : Event),
        ys[i]? = some (moment, event) → zs[i]? = some (other, event) →
        event.SameLuck settings.mark moment other →
        ∃ reply, (kept.run ys).1[i]? = some reply ∧ (fresh.run zs).1[i]? = some reply) ∧
      (kept.run ys).2.book.registry.entries = (fresh.run zs).2.book.registry.entries ∧
      ∃ definitions, (kept.run ys).2.book.vault.store.all.1 = .ok definitions ∧
        (fresh.run zs).2.book.vault.store.all.1 = .ok definitions := by
  have hstored : ∀ room, ∀ name ∈ reservedNames, (room, name) ∉ (∅ : Dictionary) := by
    intro room name _
    exact Std.ExtTreeMap.not_mem_empty
  obtain ⟨first, hfirst, hsettings, hagrees, hstanding, hpending, hrefines⟩ :=
    Bot.exists_start (Store.faithful_of_cache_empty (.present ∅)) (.empty (roomsOf (xs ++ ys)))
      hrooms hstored settings
  have hself : Bot.Twins (roomsOf (xs ++ ys)) first first :=
    ⟨rfl, ⟨∅, rfl, rfl, hpending, hpending, hrefines, hrefines⟩, hagrees, hstanding⟩
  have hxs : roomsOf xs ⊆ roomsOf (xs ++ ys) := fun room ⟨entry, hentry, hroom⟩ =>
    ⟨entry, List.mem_append_left ys hentry, hroom⟩
  have hys : roomsOf ys ⊆ roomsOf (xs ++ ys) := fun room ⟨entry, hentry, hroom⟩ =>
    ⟨entry, List.mem_append_right xs hentry, hroom⟩
  obtain ⟨-, hkept⟩ := hself.run hrooms (Eq.refl (xs.map Prod.snd)) hxs
  obtain ⟨fresh, hfresh, htwins⟩ := exists_twin hkept hrooms
  rw [Bot.run_settings, hsettings] at hfresh
  obtain ⟨hreplies, hlast⟩ := htwins.run hrooms hevents hys
  rw [Bot.run_settings, hsettings] at hreplies
  obtain ⟨dictionary, hbooks⟩ := hlast.books
  refine ⟨first, fresh, start_eq rfl hfirst, hfresh, hreplies, ?_, dictionary.all, ?_, ?_⟩
  · rw [hbooks.registry]
  · exact (hbooks.left.all hrooms).1
  · exact (hbooks.right.all hrooms).1

/-- The replies to some events, if a bot is running. -/
def replies (events : List (Moment × Event)) : Session → List (Option String)
  | running bot => (bot.run events).1
  | stopped _ => []

/-- A command that was defined before the restart is answered after it, another day, as it would
have been. -/
theorem restart_transparent_oneRoom :
    let moment : Moment := ⟨"noon", ⟨0, by decide⟩, fun _ _ => 1⟩
    let other : Moment := ⟨"midnight", ⟨1, by decide⟩, fun _ _ => 2⟩
    let definition : Event := ⟨"a", none, .text, "!addcommand hi Hey"⟩
    let question : Event := ⟨"a", none, .text, "!hi"⟩
    Set.InjOn digest (roomsOf ([(moment, definition)] ++ [(moment, question)])) ∧
    ∃ first fresh, start none .usual (.present ∅) = running first ∧
      start none .usual (first.run [(moment, definition)]).2.book.vault.store.directory =
        running fresh ∧
      (fresh.run [(other, question)]).1[0]? = some (some "Hey") := by
  intro moment other definition question
  have hrooms : Set.InjOn digest (roomsOf ([(moment, definition)] ++ [(moment, question)])) := by
    have hroom : ∀ room ∈ roomsOf ([(moment, definition)] ++ [(moment, question)]),
        room = "a" := by
      rintro room ⟨entry, hentry, rfl⟩
      simp only [List.cons_append, List.nil_append, List.mem_cons, List.not_mem_nil,
        or_false] at hentry
      rcases hentry with rfl | rfl <;> rfl
    intro one hone two htwo _
    rw [hroom one hone, hroom two htwo]
  have hcalm : question.SameLuck '!' moment other := by
    right
    rintro ⟨call, hcall, hname⟩
    have hhi : call = ⟨"hi", ""⟩ := Option.some.inj (hcall.symm.trans (by decide +kernel))
    rw [hhi] at hname
    simp at hname
  have hkept : (start none .usual (.present ∅)).replies
      [(moment, definition), (moment, question)] =
      [some "New command saved: !hi", some "Hey"] := by
    decide +kernel
  obtain ⟨first, fresh, hfirst, hfresh, hreplies, -, -⟩ :=
    restart_transparent .usual [(moment, definition)] [(moment, question)] [(other, question)]
      rfl hrooms
  refine ⟨hrooms, first, fresh, hfirst, hfresh, ?_⟩
  obtain ⟨reply, hbefore, hafter⟩ := hreplies 0 moment other question rfl rfl hcalm
  rw [hfirst] at hkept
  obtain ⟨-, hkept⟩ := List.cons.inj hkept
  have hhey : ((first.run [(moment, definition)]).2.run [(moment, question)]).1 =
      [some "Hey"] := hkept
  rw [hhey] at hbefore
  rw [hafter, ← hbefore]
  rfl

end Session

end RoomBot
