import RoomBot.Proofs.Reserved
import RoomBot.Proofs.Settings.Listed
import RoomBot.Proofs.Settings.Mark

/-!
# Names with the mark and without it

Whoever asks for help on a command, or wants to add, change or remove one, may type its name bare or
with the mark in front of it (`Command.Names`).  It makes no difference which, neither to the reply
nor to what is done (`Session.spelled_alike`).

There is one thing that cannot be had.  Where the mark is a letter, a word that begins with it is a
name, and it is the mark and a shorter name.  Such a word is always read in the second way, so the
name must have the mark in front of it when it begins with one itself
(`Session.spelled_differently`).
-/

namespace RoomBot

namespace Command

open Text

/-! ## Names behind commands -/

/-- The text is a command with a name behind it, as it may be typed, and `tail` behind the name. -/
def Names (mark : Char) (command name : String) (tail : List Char) (text : String) : Prop :=
  ∃ gap word, IsGap gap ∧ Spells mark name.toList word ∧
    text.toList = mark :: (command.toList ++ (gap ++ (word ++ tail)))

/-- What a text of this kind asks of the management, if it says all that it should: the response is
what stands between the blanks behind the name. -/
inductive Means (name : String) : (command : String) → (tail : List Char) → Edit → Prop
  | add {space blanks : List Char} {response : String} : IsGap space →
      IsTrimmed response.toList → isBlankText blanks = true →
      Means name "addcommand" (space ++ (response.toList ++ blanks)) (.add name response)
  | modify {space blanks : List Char} {response : String} : IsGap space →
      IsTrimmed response.toList → isBlankText blanks = true →
      Means name "modcommand" (space ++ (response.toList ++ blanks)) (.modify name response)
  | remove {blanks : List Char} : isBlankText blanks = true →
      Means name "remcommand" blanks (.remove name)

variable {mark : Char} {command name text : String} {tail word : List Char}

lemma Spells.dropMark_append (h : Spells mark name.toList word) (hne : name.toList ≠ [])
    (tail : List Char) : dropMark mark (word ++ tail) = name.toList ++ tail := by
  have hdrop := h.dropMark_eq
  obtain ⟨c, rest, hword⟩ := List.exists_cons_of_ne_nil (h.ne_nil hne)
  rw [hword, dropMark] at hdrop
  rw [hword, List.cons_append, dropMark]
  split at hdrop
  · rename_i hc
    rw [if_pos hc, hdrop]
  · rename_i hc
    rw [if_neg hc, ← hdrop, List.cons_append]

lemma Spells.isTrimmed (h : Spells mark name.toList word) (hmark : isBlank mark = false)
    (hname : isName name = true) : IsTrimmed word :=
  (h.isWord hmark (isWord_of_isName hname)).isTrimmed (h.ne_nil (ne_nil_of_isName hname))

lemma Names.exists_ofText? (h : Names mark command name tail text)
    (hmark : isBlank mark = false) (hcommand : IsWord command.toList)
    (hname : isName name = true) :
    ∃ word, Spells mark name.toList word ∧
      Call.ofText? mark text = some ⟨command, String.ofList (word ++ trimEnd tail)⟩ := by
  obtain ⟨gap, word, hgap, hword, htext⟩ := h
  refine ⟨word, hword, ?_⟩
  have hblank : isBlankText gap = true := List.all_eq_true.2 hgap.blank
  rw [ofText?_of_toList hcommand (hgap.breaks _) htext,
    (hword.isTrimmed hmark hname).trim_append_append hblank]

end Command

namespace Book

open Text Command

variable {book : Book} {settings : Settings} {moment : Moment} {mark : Char}
  {command name : String} {tail word other : List Char}

/-! ## Reading what is typed -/

/-- What there is to say about a name. -/
def helpOn (mark : Char) (name : String) (book : Book) : String :=
  match book.registry.owner? name with
  | none => s!"Unknown command: {mark}{name}. Type {mark}listcommands to see what is available."
  | some owner => owner.usage mark name

section Reading

variable (hword : Spells mark name.toList word) (hmark : isBlank mark = false)
  (hname : isName name = true)

include hword hmark hname

lemma explain_spelled (htail : Breaks tail) :
    book.explain mark (String.ofList (word ++ trimEnd tail)) = book.helpOn mark name := by
  have htrimmed := (hword.isTrimmed hmark hname).append_trimEnd tail
  have hsome : name.toList.isEmpty = false := by simpa using ne_nil_of_isName hname
  simp only [explain, String.toList_ofList, htrimmed.trimStart_eq,
    firstWord_append (hword.isWord hmark (isWord_of_isName hname)) (breaks_trimEnd htail),
    hword.dropMark_eq, hsome, Bool.false_eq_true, if_false, String.ofList_toList]
  rfl

lemma definition?_spelled (htail : Breaks tail) :
    definition? mark (String.ofList (word ++ trimEnd tail)) =
      let response := trim (trimEnd tail)
      if response.isEmpty then none else some (name, String.ofList response) := by
  have htrimmed := (hword.isTrimmed hmark hname).append_trimEnd tail
  have hbare := hword.isWord hmark (isWord_of_isName hname)
  have hsome : name.toList.isEmpty = false := by simpa using ne_nil_of_isName hname
  simp only [definition?, String.toList_ofList, htrimmed.trim_eq,
    firstWord_append hbare (breaks_trimEnd htail),
    afterFirstWord_append hbare (breaks_trimEnd htail), hword.dropMark_eq, hsome, Bool.false_or,
    String.ofList_toList]

lemma removedName?_spelled (tail : List Char) :
    removedName? mark (String.ofList (word ++ trimEnd tail)) =
      some (String.ofList (name.toList ++ trimEnd tail)) := by
  have htrimmed := (hword.isTrimmed hmark hname).append_trimEnd tail
  have hne := ne_nil_of_isName hname
  have hsome : (name.toList ++ trimEnd tail).isEmpty = false := by simp [hne]
  simp only [removedName?, String.toList_ofList, htrimmed.trim_eq, hword.dropMark_append hne,
    hsome, Bool.false_eq_true, if_false]

lemma definition?_spelled_between {space blanks : List Char} {response : String}
    (hspace : IsGap space) (hresponse : IsTrimmed response.toList)
    (hblanks : isBlankText blanks = true) :
    definition? mark
        (String.ofList (word ++ trimEnd (space ++ (response.toList ++ blanks)))) =
      some (name, response) := by
  have hsome : response.toList.isEmpty = false := by
    obtain ⟨c, rest, hfirst, -⟩ := hresponse.first
    rw [hfirst, List.isEmpty_cons]
  rw [definition?_spelled hword hmark hname (hspace.breaks _),
    hresponse.trimEnd_between space hblanks, hresponse.trim_append hspace.blank]
  simp only [hsome, Bool.false_eq_true, if_false, String.ofList_toList]

/-- What the management is asked for is what the text means. -/
lemma edit?_spelled {edit : Edit} (h : Means name command tail edit) :
    edit? mark ⟨command, String.ofList (word ++ trimEnd tail)⟩ = some edit := by
  cases h with
  | add hspace hresponse hblanks =>
    simp only [edit?, definition?_spelled_between hword hmark hname hspace hresponse hblanks]
    rfl
  | modify hspace hresponse hblanks =>
    simp only [edit?, definition?_spelled_between hword hmark hname hspace hresponse hblanks]
    rfl
  | remove hblanks =>
    simp only [edit?]
    rw [removedName?_spelled hword hmark hname, trimEnd_eq_nil_iff.2 hblanks, List.append_nil,
      String.ofList_toList]
    rfl

end Reading

/-- The owner of the name answers in the same way, however the name behind it is spelled. -/
lemma Regular.serve_spelled (h : book.Regular) {owner : Owner}
    (howner : book.registry.owner? command = some owner)
    (hcommand : command = "help" ∨ command ∈ managementNames)
    (hword : Spells settings.mark name.toList word)
    (hother : Spells settings.mark name.toList other) (hmark : isBlank settings.mark = false)
    (hname : isName name = true) (htail : Breaks tail) (room : String) (sender : Option String) :
    book.serve settings moment owner
        ⟨room, sender, ⟨command, String.ofList (other ++ trimEnd tail)⟩⟩ =
      book.serve settings moment owner
        ⟨room, sender, ⟨command, String.ofList (word ++ trimEnd tail)⟩⟩ := by
  rcases hcommand with rfl | hcommand
  · have hhelp : book.registry.owner? "help" = some .help :=
      h.owner?_of_mem_names (by simp) (List.mem_singleton_self _)
    obtain rfl : Owner.help = owner := Option.some.inj (hhelp.symm.trans howner)
    simp only [serve, explain_spelled hword hmark hname htail,
      explain_spelled hother hmark hname htail]
  · obtain rfl : Owner.customCommands = owner := by
      rcases h.owner?_management hcommand with hnone | hsome
      · rw [hnone] at howner
        contradiction
      · exact Option.some.inj (hsome.symm.trans howner)
    simp only [managementNames, List.mem_cons, List.not_mem_nil, or_false] at hcommand
    rcases hcommand with rfl | rfl | rfl
    · simp only [serve, customCommand, add, definition?_spelled hword hmark hname htail,
        definition?_spelled hother hmark hname htail]
    · simp only [serve, customCommand, modify, definition?_spelled hword hmark hname htail,
        definition?_spelled hother hmark hname htail]
    · simp only [serve, customCommand, remove, removedName?_spelled hword hmark hname,
        removedName?_spelled hother hmark hname]

end Book

/-- Two texts that call the same command have the same effect if the owner of the command answers
both calls in the same way. -/
lemma Bot.handle_congr_body {bot : Bot} {event : Event} {command args others body : String}
    (moment : Moment)
    (hcall : Command.Call.ofText? bot.settings.mark event.body = some ⟨command, args⟩)
    (hother : Command.Call.ofText? bot.settings.mark body = some ⟨command, others⟩)
    (hserve : ∀ owner, bot.book.registry.owner? command = some owner →
      bot.book.serve bot.settings moment owner ⟨event.room, event.sender, ⟨command, others⟩⟩ =
        bot.book.serve bot.settings moment owner ⟨event.room, event.sender, ⟨command, args⟩⟩) :
    bot.handle moment { event with body } = bot.handle moment event := by
  have hheeds : heeds bot.settings { event with body } = heeds bot.settings event := rfl
  cases howner : bot.book.registry.owner? command with
  | none =>
    simp only [handle, hheeds, Registry.dispatch, hcall, hother, howner, unknownReply, bind,
      Option.bind]
  | some owner =>
    simp only [handle, hheeds, Registry.dispatch, hcall, hother, howner, bind, Option.bind, pure,
      hserve owner howner]

namespace Session

open Text Command

variable {bot : Bot} {command name other : String} {tail : List Char} {event : Event}

/-- Names may be typed bare or with the mark, unless they begin with the mark themselves: then they
need another. -/
theorem spelled_alike {refusal : Option Refusal} {settings : Settings} {directory : Directory}
    {occurrences : List Occurrence}
    (hrun : run refusal settings directory occurrences = running bot)
    (haccepts : Config.Accepts bot.settings.mark)
    (hcommand : command = "help" ∨ command ∈ managementNames) (hname : isName name = true)
    (htail : Breaks tail) (hevent : Names bot.settings.mark command name tail event.body)
    (hother : Names bot.settings.mark command name tail other) (failing : Option Refusal)
    (moment : Moment) :
    let result := (arm failing bot).handle moment event
    (arm failing bot).handle moment { event with body := other } = result ∧
      (command = "help" → Bot.heeds bot.settings event = true →
        result.1 = some (bot.book.helpOn bot.settings.mark name)) ∧
      ∀ edit, Means name command tail edit → event.edit? bot.settings.mark = some edit ∧
        ((arm failing bot).book.Kept result.2.book ∨
          result.1 = some (edit.confirmation bot.settings.mark) ∧
            ∃ old new, Store.Edited event.room moment.now edit old new
              bot.book.vault.store result.2.book.vault.store) := by
  intro result
  have hmark := Config.accepts_iff.1 haccepts
  have hregular : (arm failing bot).book.Regular :=
    lasting_regular.refused _ (lasting_regular.of_run hrun)
  have hisWord : IsWord command.toList := by
    refine isWord_of_isName ?_
    rcases hcommand with rfl | hcommand
    · rfl
    · exact Book.isName_of_mem_reservedNames (managementNames_subset hcommand)
  obtain ⟨word, hword, hcall⟩ := hevent.exists_ofText? hmark hisWord hname
  obtain ⟨spelled, hspelled, hcalled⟩ := hother.exists_ofText? hmark hisWord hname
  refine ⟨?_, ?_, ?_⟩
  · exact Bot.handle_congr_body moment hcall hcalled fun owner howner =>
      hregular.serve_spelled howner hcommand hword hspelled hmark hname htail _ _
  · rintro rfl hheeds
    have hhelp : (arm failing bot).book.registry.owner? "help" = some .help :=
      hregular.owner?_of_mem_names (by simp) (List.mem_singleton_self _)
    have hdispatch : (arm failing bot).book.registry.dispatch bot.settings.mark event.body =
        some ⟨⟨"help", String.ofList (word ++ trimEnd tail)⟩, .help⟩ := by
      simp [Registry.dispatch, hcall, hhelp]
    refine (congrArg Prod.fst (Bot.handle_of_dispatch (arm failing bot) moment hheeds
      hdispatch)).trans (congrArg some ?_)
    exact Book.explain_spelled hword hmark hname htail
  · intro edit hedit
    have hasked : event.edit? bot.settings.mark = some edit := by
      rw [Event.edit?, hcall]
      exact Book.edit?_spelled hword hmark hname hedit
    refine ⟨hasked, ?_⟩
    rcases Bot.handle_outcome hregular.agrees hregular.guarded moment event with
      hkept | ⟨found, old, new, hfound, hreply, hedited⟩
    · exact .inl hkept
    · obtain rfl : found = edit := Option.some.inj (hfound.symm.trans hasked)
      exact .inr ⟨hreply, old, new, hedited⟩

/-- A letter as the mark, in front of a name that begins with another letter. -/
theorem spelled_alike_letter :
    let settings : Settings := ⟨'p', false, .unrestricted⟩
    let moment : Moment := ⟨"noon", ⟨0, by decide⟩, fun _ _ => 1⟩
    let event : Event := ⟨"a", none, .text, "paddcommand hi  Hey "⟩
    let other := "paddcommand phi  Hey "
    ∃ bot, run none settings (.present ∅) [] = running bot ∧
      Config.Accepts bot.settings.mark ∧ isName "hi" = true ∧
      Names bot.settings.mark "addcommand" "hi" "  Hey ".toList event.body ∧
      Names bot.settings.mark "addcommand" "hi" "  Hey ".toList other ∧
      ((arm none bot).handle moment event).1 = some "New command saved: phi" ∧
      (arm none bot).handle moment { event with body := other } =
        (arm none bot).handle moment event ∧
      event.edit? bot.settings.mark = some (.add "hi" "Hey") := by
  intro settings moment event other
  have hsaid : (run none settings (.present ∅) []).reply? moment event =
      some ('p', "New command saved: phi") := by decide +kernel
  obtain ⟨bot, hrun, hmark, hreply⟩ := reply?_eq_some hsaid
  have haccepts : Config.Accepts bot.settings.mark := by
    rw [hmark]
    exact Config.accepts_iff.2 (by decide)
  have hgap : IsGap [' '] := ⟨by simp, List.all_eq_true.1 (by decide)⟩
  have hevent : Names bot.settings.mark "addcommand" "hi" "  Hey ".toList event.body := by
    rw [hmark]
    have hbare : ∀ rest, "hi".toList ≠ 'p' :: rest :=
      fun rest heq => absurd (List.cons.inj heq).1 (by decide)
    exact ⟨[' '], "hi".toList, hgap, .inr ⟨rfl, hbare⟩, by decide⟩
  have hother : Names bot.settings.mark "addcommand" "hi" "  Hey ".toList other := by
    rw [hmark]
    exact ⟨[' '], "phi".toList, hgap, .inl (by decide), by decide⟩
  have hspace : IsGap [' ', ' '] := ⟨by simp, List.all_eq_true.1 (by decide)⟩
  have hresponse : IsTrimmed "Hey".toList :=
    (@isWord_of_isName "Hey" (by decide)).isTrimmed (by decide)
  have hmeans : Means "hi" "addcommand" "  Hey ".toList (.add "hi" "Hey") :=
    .add hspace hresponse (show isBlankText [' '] = true by decide)
  have htail : Breaks "  Hey ".toList := by
    rintro c rest heq
    obtain ⟨rfl, -⟩ := List.cons.inj heq
    decide
  obtain ⟨hsame, -, hedit⟩ :=
    spelled_alike hrun haccepts (.inr (by decide)) (by decide) htail hevent hother none moment
  exact ⟨bot, hrun, haccepts, by decide, hevent, hother, hreply, hsame, (hedit _ hmeans).1⟩

/-- It does make a difference in front of a name that begins with the mark: if that is a `p` then
`ping` is the mark and another name. -/
theorem spelled_differently :
    ¬ ∀ (settings : Settings) (directory : Directory) (occurrences : List Occurrence) (bot : Bot)
      (command name room : String) (moment : Moment),
      run none settings directory occurrences = running bot →
      Config.Accepts bot.settings.mark →
      command = "help" ∨ command ∈ managementNames → isName name = true →
      let mark := bot.settings.mark
      let reply (body : String) := ((arm none bot).handle moment ⟨room, none, .text, body⟩).1
      reply s!"{mark}{command} {name}" = reply s!"{mark}{command} {mark}{name}" := by
  intro h
  let settings : Settings := ⟨'p', false, .unrestricted⟩
  let moment : Moment := ⟨"noon", ⟨0, by decide⟩, fun _ _ => 1⟩
  have hbare : (run none settings (.present ∅) []).reply? moment
      ⟨"a", none, .text, "phelp ping"⟩ =
        some ('p', "Unknown command: ping. Type plistcommands to see what is available.") := by
    decide +kernel
  have hmarked : (run none settings (.present ∅) []).reply? moment
      ⟨"a", none, .text, "phelp pping"⟩ =
        some ('p', "Usage: pping - check that the bot is listening.") := by
    decide +kernel
  obtain ⟨bot, hrun, hmark, hreply⟩ := reply?_eq_some hbare
  obtain ⟨other, hother, -, hanswer⟩ := reply?_eq_some hmarked
  obtain rfl : bot = other := Session.running.inj (hrun.symm.trans hother)
  have haccepts : Config.Accepts bot.settings.mark := by
    rw [hmark]
    exact Config.accepts_iff.2 (by decide)
  have hsame := h settings (.present ∅) [] bot "help" "ping" "a" moment hrun haccepts (.inl rfl)
    (by decide)
  simp only [hmark] at hsame
  exact absurd (hreply.symm.trans (hsame.trans hanswer)) (by decide)

end Session

end RoomBot
