import RoomBot.Proofs.Book.Standing
import RoomBot.Proofs.Session

/-!
# The names of the management

Custom commands have the three names with which they are managed from the start, and no event makes
a command of such a name: `addcommand` refuses them.  A document may hold one all the same.  A bot
that starts on it counts the name like any other, which nobody notices until the last room that
defines the command removes it.  Then the count is down to zero, and the name is given back.

So a management name is lost exactly where some room defined it at the start and no room does any
more (`Session.managementNames_owned`); as no room can begin to define it, it does not come back
before the next start.  On a directory without such commands the three names stand.
-/

namespace RoomBot

namespace Book

variable {before after : Book} {room other name : String}

/-- No event makes a room define a management name. -/
lemma Step.defines_of_management (h : Step room before after)
    (hsettled : before.vault.store.Settled) (hname : name ∈ managementNames)
    (hdefines : after.vault.store.Defines other name) : before.vault.store.Defines other name := by
  -- An edit adds no management name to its room and does not concern the others.
  have hedit : ∀ {now : String} {edit : Edit} {old new : Commands} {store : Store},
      Store.Edited room now edit old new before.vault.store store → (name ∈ new → name ∈ old) →
      store.Defines other name → before.vault.store.Defines other name := by
    intro now edit old new store hedited hnames hdefines
    by_cases hne : other = room
    · rw [hne, hedited.defines_after] at hdefines
      rw [hne, hedited.defines_before]
      exact hnames hdefines
    · rwa [hedited.defines_of_ne hsettled hne] at hdefines
  cases h with
  | idle => exact hdefines
  | asked untouched => exact untouched.defines_iff.1 hdefines
  | added free _ edited =>
    refine hedit edited (fun hnew => ?_) hdefines
    rcases ((Edit.mem_of_add edited.apply).2 name).1 hnew with rfl | hold
    · contradiction
    · exact hold
  | refused _ _ untouched =>
    rw [(release_touchesOnly _ _).vault] at hdefines
    exact untouched.defines_iff.1 hdefines
  | modified edited => exact hedit edited (Edit.mem_of_modify edited.apply name).1 hdefines
  | removed edited =>
    rw [(release_touchesOnly _ _).vault] at hdefines
    exact hedit edited (fun hnew => (((Edit.mem_of_remove edited.apply).2 name).1 hnew).2) hdefines

/-- The rooms that define a management name at the start are finitely many. If there are any, the
name is counted like others, and if there are none, it stands. -/
lemma exists_definers_of_start {settings : Settings} {store : Store} {bot : Bot}
    (hfaithful : store.Faithful) (h : Bot.start settings ⟨store, none⟩ = .ok bot)
    (hname : name ∈ managementNames) :
    ∃ rooms, bot.book.vault.store.Definers name rooms ∧
      (if rooms = ∅ then bot.book.Stands name else bot.book.Accounted name) := by
  obtain ⟨_, told, hvault, htold, rfl⟩ := exists_adopted_of_start (by simp) h
  obtain ⟨rfl, -⟩ := Vault.mk.inj hvault
  obtain ⟨rooms, hrooms, hcard⟩ := Store.exists_definers_of_all hfaithful htold name
  unfold Accounted
  simp only [vault_foldl_adopt]
  refine ⟨rooms, hrooms, ?_⟩
  by_cases hempty : rooms = ∅
  · subst hempty
    rw [if_pos rfl]
    refine stands_of_all hfaithful htold fun room => ?_
    rw [hrooms room, (Store.all_spec store).2.defines_iff]
  · rw [if_neg hempty]
    refine ⟨rooms, hrooms, ?_⟩
    obtain ⟨room, hroom⟩ := Finset.nonempty_iff_ne_empty.2 hempty
    rw [hrooms, (Store.all_spec store).2.defines_iff] at hroom
    obtain ⟨definition, hdefinition, hsame, -⟩ :=
      (Store.exists_mem_told_iff hfaithful htold).2 hroom
    rw [hcard]
    exact tallies_foldl_adopt Std.ExtTreeMap.getElem?_empty
      (Registry.owner?_standing_of_mem hname) ⟨definition, hdefinition, hsame⟩

end Book

/-! ## Events without a restart -/

/-- The bot goes on running. -/
def Occurrence.IsEvent (occurrence : Occurrence) : Prop :=
  ∃ refusal moment event, occurrence = .event refusal moment event

namespace Session

/-- What no step of a book spoils, and no refusal that is waiting, holds as long as the bot runs. -/
lemma exists_foldl_meet_of_step {P : Book → Prop}
    (hstep : ∀ {room : String} {before after : Book}, P before → Book.Step room before after →
      P after)
    (hpending : ∀ {book : Book} (pending : Option Failure), P book →
      P { book with vault.pending := pending })
    {occurrences : List Occurrence} (hevents : ∀ occurrence ∈ occurrences, occurrence.IsEvent)
    {bot : Bot} (h : P bot.book) :
    ∃ last, occurrences.foldl Session.meet (running bot) = running last ∧ P last.book := by
  induction occurrences generalizing bot with
  | nil => exact ⟨bot, rfl, h⟩
  | cons occurrence occurrences ih =>
    rw [List.forall_mem_cons] at hevents
    obtain ⟨⟨refusal, moment, event, rfl⟩, hrest⟩ := hevents
    have harmed : P (arm refusal bot).book := hpending _ h
    exact ih hrest (hstep harmed (Bot.handle_step moment event (arm refusal bot)))

/-- The settings are the same as long as the bot runs. -/
lemma settings_of_foldl_meet {settings : Settings} {occurrences : List Occurrence}
    (hevents : ∀ occurrence ∈ occurrences, occurrence.IsEvent) {session : Session}
    (hfirst : ∀ bot, session = running bot → bot.settings = settings) {bot : Bot}
    (h : occurrences.foldl Session.meet session = running bot) : bot.settings = settings := by
  induction occurrences generalizing session with
  | nil => exact hfirst bot h
  | cons occurrence occurrences ih =>
    rw [List.forall_mem_cons] at hevents
    obtain ⟨⟨refusal, moment, event, rfl⟩, hrest⟩ := hevents
    refine ih hrest (fun next hnext => ?_) h
    cases session with
    | stopped directory => contradiction
    | running first =>
      rw [← Session.running.inj hnext, Bot.handle_settings]
      exact hfirst first rfl

lemma settings_of_run {refusal : Option Refusal} {settings : Settings} {directory : Directory}
    {occurrences : List Occurrence} (hevents : ∀ occurrence ∈ occurrences, occurrence.IsEvent)
    {bot : Bot} (h : run refusal settings directory occurrences = running bot) :
    bot.settings = settings :=
  settings_of_foldl_meet hevents (fun _ => settings_of_start) h

section Events

variable {occurrences : List Occurrence} {bot : Bot} {name : String}

/-- A reserved name that stands goes on to stand. -/
lemma exists_foldl_meet_stands (hevents : ∀ occurrence ∈ occurrences, occurrence.IsEvent)
    (hname : name ∈ reservedNames) (hsettled : bot.book.vault.store.Settled)
    (hguarded : bot.book.Guarded) (h : bot.book.Stands name) :
    ∃ last, occurrences.foldl Session.meet (running bot) = running last ∧
      last.book.Stands name := by
  let P : Book → Prop := fun book =>
    book.vault.store.Settled ∧ book.Guarded ∧ book.Stands name
  have hstep : ∀ {room : String} {before after : Book}, P before →
      Book.Step room before after → P after := by
    rintro room before after ⟨hsettled, hguarded, hstands⟩ hstep
    exact ⟨hstep.settled hsettled, hguarded.step hstep,
      hstands.step hname hguarded hsettled hstep⟩
  have hpending : ∀ {book : Book} (pending : Option Failure), P book →
      P { book with vault.pending := pending } := by
    rintro book pending ⟨hsettled, hguarded, hstands⟩
    exact ⟨hsettled, hguarded, hstands.definers, hstands.counts, hstands.owner⟩
  obtain ⟨last, hlast, -, -, hstands⟩ :=
    exists_foldl_meet_of_step hstep hpending hevents ⟨hsettled, hguarded, h⟩
  exact ⟨last, hlast, hstands⟩

/-- A management name that is counted goes on to be counted, and the rooms that define it do not
become more. -/
lemma exists_foldl_meet_accounted (hevents : ∀ occurrence ∈ occurrences, occurrence.IsEvent)
    (hname : name ∈ managementNames) (hsettled : bot.book.vault.store.Settled)
    {before : Finset String} (hbefore : bot.book.vault.store.Definers name before)
    (h : bot.book.Accounted name) :
    ∃ last after, occurrences.foldl Session.meet (running bot) = running last ∧
      last.book.vault.store.Definers name after ∧ last.book.Tallies name after.card ∧
      after ⊆ before := by
  let P : Book → Prop := fun book => book.vault.store.Settled ∧ book.Accounted name ∧
    ∀ room, book.vault.store.Defines room name → room ∈ before
  have hstep : ∀ {room : String} {before after : Book}, P before →
      Book.Step room before after → P after := by
    rintro room before after ⟨hsettled, haccounted, hrooms⟩ hstep
    exact ⟨hstep.settled hsettled, haccounted.step hsettled hstep,
      fun room hroom => hrooms room (hstep.defines_of_management hsettled hname hroom)⟩
  have hpending : ∀ {book : Book} (pending : Option Failure), P book →
      P { book with vault.pending := pending } := by
    rintro book pending ⟨hsettled, haccounted, hrooms⟩
    exact ⟨hsettled, haccounted.withVault ⟨book.vault.store, pending⟩ (.refl _), hrooms⟩
  obtain ⟨last, hlast, -, ⟨after, hafter, htallies⟩, hrooms⟩ :=
    exists_foldl_meet_of_step hstep hpending hevents
      ⟨hsettled, h, fun room => (hbefore room).2⟩
  exact ⟨last, after, hlast, hafter, htallies, fun room hroom => hrooms room ((hafter room).1 hroom)⟩

end Events

/-- A management name belongs to custom commands, whatever happens while the bot runs, unless some
room defined it at the start and none does any more. Then nobody has it, and no room will ever
define it again. -/
theorem managementNames_owned {settings : Settings} {directory : Directory} {first : Bot}
    (hstart : start none settings directory = running first) {name : String}
    (hname : name ∈ managementNames) {occurrences : List Occurrence}
    (hevents : ∀ occurrence ∈ occurrences, occurrence.IsEvent) :
    ∃ bot before after, occurrences.foldl Session.meet (running first) = running bot ∧
      first.book.vault.store.Definers name before ∧
      bot.book.vault.store.Definers name after ∧ after ⊆ before ∧
      bot.book.registry.owner? name =
        if before ≠ ∅ ∧ after = ∅ then none else some .customCommands := by
  obtain ⟨store, hopened, hstarted⟩ := exists_store_of_start hstart
  have hfaithful := Store.faithful_of_ofDirectory hopened
  have hagrees := Book.agrees_of_start hfaithful (by simp) hstarted
  obtain ⟨before, hbefore, hfirst⟩ := Book.exists_definers_of_start hfaithful hstarted hname
  by_cases hempty : before = ∅
  · rw [if_pos hempty] at hfirst
    subst hempty
    have hguarded := Book.guarded_of_foreign? (Book.foreign?_of_start (by simp) hstarted)
    obtain ⟨bot, hbot, hstands⟩ := exists_foldl_meet_stands hevents
      (managementNames_subset hname) hagrees.settled hguarded hfirst
    refine ⟨bot, ∅, ∅, hbot, hbefore, hstands.definers, subset_rfl, ?_⟩
    rw [if_neg fun hlost => hlost.1 rfl, hstands.owner, Registry.owner?_standing_of_mem hname]
  · rw [if_neg hempty] at hfirst
    obtain ⟨bot, after, hbot, hafter, htallies, hsubset⟩ :=
      exists_foldl_meet_accounted hevents hname hagrees.settled hbefore hfirst
    refine ⟨bot, before, after, hbot, hbefore, hafter, hsubset, ?_⟩
    rw [htallies.owner]
    simp only [Finset.card_eq_zero, ne_eq, hempty, not_false_eq_true, true_and]

/-- No bot is running that has given the name away. -/
def keeps (name : String) : Session → Bool
  | running bot => bot.book.registry.owner? name ≠ none
  | stopped _ => true

/-- A directory in which one room has stored a command of this name. -/
def directoryOf (room name : String) : Directory :=
  .present <| (∅ : Std.ExtTreeMap String Entry).insert (documentName room) <|
    .file (Document.text ⟨room, (∅ : Commands).insert name ⟨"Hey", "noon", "noon"⟩⟩).toUTF8

/-- A room removes the command by which commands are added. -/
def removal : Occurrence :=
  .event none ⟨"noon", ⟨0, by decide⟩, fun _ _ => 1⟩ ⟨"a", none, .text, "!remcommand addcommand"⟩

lemma exists_owner?_eq_none :
    ∃ first bot, start none .usual (directoryOf "a" "addcommand") = running first ∧
      [removal].foldl Session.meet (running first) = running bot ∧
      bot.book.registry.owner? "addcommand" = none := by
  have hgone : ((start none .usual (directoryOf "a" "addcommand")).meet removal).keeps
      "addcommand" = false := by
    decide +kernel
  cases hstart : start none .usual (directoryOf "a" "addcommand") with
  | stopped directory =>
    rw [hstart] at hgone
    contradiction
  | running first =>
    rw [hstart] at hgone
    exact ⟨first, _, rfl, rfl, not_not.1 (of_decide_eq_false hgone)⟩

/-- A room that has stored a command of a management name removes it, and the name is lost. -/
theorem managementNames_owned_oneRoom :
    ∃ first bot before, start none .usual (directoryOf "a" "addcommand") = running first ∧
      "addcommand" ∈ managementNames ∧ (∀ occurrence ∈ [removal], occurrence.IsEvent) ∧
      [removal].foldl Session.meet (running first) = running bot ∧
      first.book.vault.store.Definers "addcommand" before ∧ before ≠ ∅ ∧
      bot.book.vault.store.Definers "addcommand" ∅ ∧
      bot.book.registry.owner? "addcommand" = none := by
  obtain ⟨first, last, hstart, hlast, hnone⟩ := exists_owner?_eq_none
  have hname : "addcommand" ∈ managementNames := by decide
  have hevents : ∀ occurrence ∈ [removal], occurrence.IsEvent := by
    intro occurrence hoccurrence
    rw [List.mem_singleton.1 hoccurrence]
    exact ⟨_, _, _, rfl⟩
  obtain ⟨bot, before, after, hbot, hbefore, hafter, -, howner⟩ :=
    managementNames_owned hstart hname hevents
  obtain rfl : last = bot := Session.running.inj (hlast.symm.trans hbot)
  rw [hnone] at howner
  split at howner
  · rename_i hlost
    obtain ⟨hsome, rfl⟩ := hlost
    exact ⟨first, last, before, hstart, hname, hevents, hlast, hbefore, hsome, hafter, hnone⟩
  · contradiction

/-- The names of the management do not stay with custom commands in every session. -/
theorem managementNames_lost :
    ¬ ∀ (settings : Settings) (directory : Directory) (first bot : Bot) (name : String)
      (occurrences : List Occurrence), start none settings directory = running first →
      (∀ occurrence ∈ occurrences, occurrence.IsEvent) →
      occurrences.foldl Session.meet (running first) = running bot →
      name ∈ managementNames → bot.book.registry.owner? name = some .customCommands := by
  intro h
  obtain ⟨first, last, hstart, hlast, hnone⟩ := exists_owner?_eq_none
  have hstays := h .usual (directoryOf "a" "addcommand") first last "addcommand" [removal] hstart
    (by simp [removal, Occurrence.IsEvent]) hlast (by decide)
  rw [hnone] at hstays
  contradiction

end Session

end RoomBot
