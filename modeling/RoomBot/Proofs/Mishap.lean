import RoomBot.Proofs.Book.Outcome
import RoomBot.Proofs.Session

/-!
# What is not confirmed has not happened

A command that manages custom commands can fail for many reasons: the sender may not give it, it is
not understood, its name is not a name or is taken, the room has defined the command already or has
not defined it, and the store may fail at the call, wherever it got stuck (`Mishap`).  In each case
the bot does not confirm the edit, and then nothing has happened: the registry, the counts and
whatever the store answers are as before (`Bot.unchanged_of_unconfirmed`).

This holds of every bot that can come about (`Bot.Reachable`), whatever its directory held at first
and whatever went wrong in the past.
-/

namespace RoomBot

/-! ## Calls of the store that fail -/

/-- A call of the store that fails: what it is refused with, and how it leaves the store, in which
nothing that counts has changed. -/
structure Mishap (store : Store) where
  refusal : Refusal
  left : Store
  untouched : Store.Untouched store left

namespace Mishap

/-- An edit stops half-way. -/
def stopped (refusal : Refusal) (store : Store) (room now : String) (edit : Edit) (halt : Halt) :
    Mishap store where
  refusal := refusal
  left := (store.edit room now edit (some halt)).2
  untouched := by
    rcases Store.edit_cases store room now edit (some halt) with ⟨_, -, h⟩ | ⟨-, h, -⟩
    · exact h
    · contradiction

end Mishap

namespace Bot

/-- A bot whose next call of the store fails. -/
def strike (bot : Bot) (mishap : Mishap bot.book.vault.store) : Bot :=
  { bot with book.vault := ⟨mishap.left, some mishap.refusal.failure⟩ }

/-- Meets an event in whose course a call of the store may fail. -/
def meet (moment : Moment) (event : Event) (bot : Bot) :
    Option (Mishap bot.book.vault.store) → Option String × Bot
  | none => bot.handle moment event
  | some mishap => (bot.strike mishap).handle moment event

/-- The bots that can come about. -/
inductive Reachable : Bot → Prop
  | start {settings : Settings} {directory : Directory} {store : Store} {bot : Bot}
      (opened : Store.ofDirectory directory = .ok store)
      (started : Bot.start settings ⟨store, none⟩ = .ok bot) : Reachable bot
  | meet {bot : Bot} (before : Reachable bot) (moment : Moment) (event : Event)
      (mishap : Option (Mishap bot.book.vault.store)) :
      Reachable (bot.meet moment event mishap).2

lemma agrees_strike {bot : Bot} (h : bot.book.Agrees) (mishap : Mishap bot.book.vault.store) :
    (bot.strike mishap).book.Agrees :=
  h.withVault _ mishap.untouched

/-- The counts of a bot that can come about are right, and nobody has lost a name to it. -/
lemma Reachable.agrees_guarded {bot : Bot} (h : bot.Reachable) :
    bot.book.Agrees ∧ bot.book.Guarded := by
  induction h with
  | start opened started =>
    have hpending : ∀ failure : Failure, (none : Option Failure) = some failure →
        failure.isPersistence = true := by
      intro failure hsome
      contradiction
    exact ⟨Book.agrees_of_start (Store.faithful_of_ofDirectory opened) hpending started,
      Book.guarded_of_foreign? (Book.foreign?_of_start hpending started)⟩
  | @meet bot _ moment event mishap ih =>
    obtain ⟨hagrees, hguarded⟩ := ih
    cases mishap with
    | none =>
      have hstep := handle_step moment event bot
      exact ⟨hagrees.step hstep, hguarded.step hstep⟩
    | some mishap =>
      have hstep := handle_step moment event (bot.strike mishap)
      have hstruck : (bot.strike mishap).book.Guarded := hguarded
      exact ⟨(agrees_strike hagrees mishap).step hstep, hstruck.step hstep⟩

/-- Whatever event is not answered with the confirmation of the edit that it asks for, be it
because the store has failed or for a reason of its own, has changed neither the registry nor the
counts, and the store answers everything as before. So does one that is opened on the directory. -/
theorem unchanged_of_unconfirmed {bot : Bot} (h : bot.Reachable) (moment : Moment) (event : Event)
    (mishap : Option (Mishap bot.book.vault.store))
    (hreply : ∀ edit, event.edit? bot.settings.mark = some edit →
      (bot.meet moment event mishap).1 ≠ some (edit.confirmation bot.settings.mark)) :
    (bot.meet moment event mishap).2.book.registry = bot.book.registry ∧
      (bot.meet moment event mishap).2.book.counts = bot.book.counts ∧
      Store.AnswersAlike (bot.meet moment event mishap).2.book.vault.store
        bot.book.vault.store ∧
      Store.ReopensAlike (bot.meet moment event mishap).2.book.vault.store.directory
        bot.book.vault.store.directory := by
  obtain ⟨hagrees, hguarded⟩ := h.agrees_guarded
  cases mishap with
  | none =>
    rcases handle_outcome hagrees hguarded moment event with
      hkept | ⟨edit, -, -, hasked, hconfirmed, -⟩
    · exact ⟨hkept.registry, hkept.counts, hkept.store.answersAlike, hkept.store.reopensAlike⟩
    · exact absurd hconfirmed (hreply edit hasked)
  | some mishap =>
    rcases handle_outcome (agrees_strike hagrees mishap) hguarded moment event with
      hkept | ⟨edit, -, -, hasked, hconfirmed, -⟩
    · have huntouched := mishap.untouched.trans hkept.store
      exact ⟨hkept.registry, hkept.counts, huntouched.answersAlike, huntouched.reopensAlike⟩
    · exact absurd hconfirmed (hreply edit hasked)

/-- A second room cannot define a name because the disk is full: the first room keeps it. -/
theorem unchanged_of_unconfirmed_diskFull :
    let moment : Moment := ⟨"noon", ⟨0, by decide⟩, fun _ _ => 1⟩
    let first : Bot := ⟨.usual, ⟨Registry.standing, ∅, ⟨⟨.present ∅, ∅⟩, none⟩⟩⟩
    let bot := (first.meet moment ⟨"a", none, .text, "!addcommand hi Hey"⟩ none).2
    let event : Event := ⟨"b", none, .text, "!addcommand hi Ho"⟩
    let mishap : Mishap bot.book.vault.store :=
      .stopped ⟨"", "no space left"⟩ _ "b" "noon" (.add "hi" "Ho") (.writing 5)
    bot.Reachable ∧ event.edit? bot.settings.mark = some (.add "hi" "Ho") ∧
      (bot.meet moment event (some mishap)).1 =
        some "Sorry, I could not save or load that right now. Please try again later." ∧
      (bot.meet moment event (some mishap)).2.book.counts["hi"]? = some 1 ∧
      (bot.meet moment event (some mishap)).2.book.registry.owner? "hi" =
        some .customCommands := by
  intro moment first bot event mishap
  have hreachable : bot.Reachable := by
    refine Reachable.meet ?_ moment ⟨"a", none, .text, "!addcommand hi Hey"⟩ none
    exact @Reachable.start .usual (.present ∅) ⟨.present ∅, ∅⟩ first rfl (Book.start_empty .usual)
  have hmark : bot.settings.mark = '!' :=
    congrArg Settings.mark (handle_settings moment ⟨"a", none, .text, "!addcommand hi Hey"⟩ first)
  have hasked : event.edit? bot.settings.mark = some (.add "hi" "Ho") := by
    rw [hmark]
    decide +kernel
  have hbefore : bot.book.counts["hi"]? = some 1 ∧
      bot.book.registry.owner? "hi" = some .customCommands := by
    decide +kernel
  have hreply : (bot.meet moment event (some mishap)).1 =
      some "Sorry, I could not save or load that right now. Please try again later." := by
    decide +kernel
  obtain ⟨hregistry, hcounts, -, -⟩ :=
    unchanged_of_unconfirmed hreachable moment event (some mishap) fun edit hedit => by
      obtain rfl := Option.some.inj (hedit.symm.trans hasked)
      rw [hreply, hmark]
      decide +kernel
  rw [hregistry, hcounts]
  exact ⟨hreachable, hasked, hreply, hbefore⟩

end Bot

end RoomBot
