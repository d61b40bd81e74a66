import RoomBot.Proofs.Book.Tally
import RoomBot.Proofs.Settings.Mark
import RoomBot.Proofs.Text.Separators
import RoomBot.Telegram.Message

/-!
# Whom a command is meant for

In a group a command may name the bot that it is meant for.  It is run if its first word is the mark
and a name, or if the word goes on with `@` and the name of this bot, whatever the case of the
letters (`Addresses`).  Nothing else is run: not a command for another bot, nor one that is
mentioned further on, nor a text in which the mark comes later (`dispatch_toEvent`).

The mention is taken off before anybody looks for the mark.  All that happens in the first word
(`withoutMention_cases`): the mark is not blank, so it belongs to that word, and what follows the
word stays as it is.

So a command runs in the same way with a mention of this bot and without it, but for one mark
(`dispatch_mentioned`).  Where commands begin with `@`, the mark is taken for the beginning of a
mention that follows nothing, and the text stays as it is.  What it calls is a name with `@` in it,
and no room can give a command such a name (`mention_taken_for_name`).
-/

namespace RoomBot

open Text (Breaks IsWord afterFirstWord breaks_afterFirstWord firstWord firstWord_append
  afterFirstWord_append isBlank isWord_firstWord trim)

/-! ## Calls by their first words -/

/-- A text is a call if its first word is the mark and a name. -/
lemma Command.ofText?_eq_some_iff {mark : Char} (hmark : isBlank mark = false) {text : String}
    {call : Call} :
    Call.ofText? mark text = some call ↔
      firstWord text.toList = mark :: call.name.toList ∧
        call.args = String.ofList (trim (afterFirstWord text.toList)) := by
  constructor
  · intro h
    obtain ⟨word, rest, htext, hword, hrest, rfl⟩ := exists_toList_of_ofText? h
    have hmarked : IsWord (mark :: word) := List.forall_mem_cons.2 ⟨hmark, hword⟩
    rw [htext, ← List.cons_append, firstWord_append hmarked hrest,
      afterFirstWord_append hmarked hrest, String.toList_ofList]
    exact ⟨rfl, rfl⟩
  · rintro ⟨hfirst, hargs⟩
    have hword := isWord_firstWord text.toList
    rw [hfirst] at hword
    have htext := Text.firstWord_append_afterFirstWord text.toList
    rw [hfirst, List.cons_append] at htext
    rw [ofText?_of_toList (List.forall_mem_cons.1 hword).2 (breaks_afterFirstWord text.toList)
      htext.symm, ← hargs]

/-- What is registered under a name, called with what follows the first word. -/
def Registry.invocation? (r : Registry) (name : String) (rest : List Char) :
    Option Registry.Invocation :=
  (r.owner? name).map fun owner => ⟨⟨name, String.ofList (trim rest)⟩, owner⟩

lemma Registry.dispatch_of_firstWord {mark : Char} (hmark : isBlank mark = false) (r : Registry)
    {text name : String} (hfirst : firstWord text.toList = mark :: name.toList) :
    r.dispatch mark text = r.invocation? name (afterFirstWord text.toList) := by
  have hcall : Command.Call.ofText? mark text =
      some ⟨name, String.ofList (trim (afterFirstWord text.toList))⟩ :=
    (Command.ofText?_eq_some_iff hmark).2 ⟨hfirst, rfl⟩
  rw [Registry.dispatch, hcall, Registry.invocation?, Option.map_eq_bind]
  rfl

namespace Telegram

/-! ## Mentions -/

variable {text : String} {username : Option String} {own : String} {command mention : List Char}

lemma withoutMention_of_split (hword : firstWord text.toList = command ++ '@' :: mention)
    (hcommand : '@' ∉ command) (own : String) :
    withoutMention text (some own) =
      if command ≠ [] ∧ mention.map Char.toLower = own.toList.map Char.toLower then
        String.ofList (command ++ afterFirstWord text.toList)
      else text := by
  obtain ⟨htake, hdrop⟩ := Text.span_at hcommand mention
  simp only [withoutMention, hword, htake, hdrop, sameName, Bool.and_eq_true, Bool.not_eq_true',
    List.isEmpty_eq_false_iff, beq_iff_eq]

lemma withoutMention_of_notMem (hword : '@' ∉ firstWord text.toList)
    (username : Option String) : withoutMention text username = text := by
  cases username with
  | none => rfl
  | some own => simp only [withoutMention, Text.dropWhile_of_notMem hword]

/-- A mention of this bot is all that is ever taken off, and it follows something. -/
theorem withoutMention_cases (text : String) (username : Option String) :
    withoutMention text username = text ∨
      ∃ own command mention, username = some own ∧
        mention.map Char.toLower = own.toList.map Char.toLower ∧
        firstWord text.toList = command ++ '@' :: mention ∧ '@' ∉ command ∧ command ≠ [] ∧
        withoutMention text username =
          String.ofList (command ++ afterFirstWord text.toList) := by
  cases username with
  | none => exact .inl rfl
  | some own =>
    by_cases hat : '@' ∈ firstWord text.toList
    · obtain ⟨command, mention, hword, hcommand⟩ := List.eq_append_cons_of_mem hat
      have hsplit := withoutMention_of_split hword hcommand own
      split at hsplit
      · rename_i hown
        exact .inr ⟨own, command, mention, rfl, hown.2, hword, hcommand, hown.1, hsplit⟩
      · exact .inl hsplit
    · exact .inl (withoutMention_of_notMem hat _)

/-- What is left when the end of the first word is taken off. -/
lemma words_of_split (hword : firstWord text.toList = command ++ '@' :: mention) :
    firstWord (String.ofList (command ++ afterFirstWord text.toList)).toList = command ∧
      afterFirstWord (String.ofList (command ++ afterFirstWord text.toList)).toList =
        afterFirstWord text.toList := by
  have hcommand : IsWord command := by
    intro c hc
    refine isWord_firstWord text.toList c ?_
    rw [hword]
    exact List.mem_append_left _ hc
  have hrest := breaks_afterFirstWord text.toList
  rw [String.toList_ofList]
  exact ⟨firstWord_append hcommand hrest, afterFirstWord_append hcommand hrest⟩

/-! ## Commands for this bot -/

/-- The word is the mark and a name, which a mention of this bot may follow unless the mark is what
mentions begin with. -/
def Addresses (mark : Char) (username : Option String) (name word : List Char) : Prop :=
  word = mark :: name ∨
    ∃ own mention, username = some own ∧ mention.map Char.toLower = own.toList.map Char.toLower ∧
      word = mark :: (name ++ '@' :: mention) ∧ mark ≠ '@'

section Words

variable {mark : Char} {name : List Char}

lemma addresses_of_withoutMention
    (h : firstWord (withoutMention text username).toList = mark :: name) :
    Addresses mark username name (firstWord text.toList) ∧
      afterFirstWord (withoutMention text username).toList = afterFirstWord text.toList := by
  rcases withoutMention_cases text username with
    hsame | ⟨own, command, mention, rfl, hown, hword, hcommand, -, hbody⟩
  · rw [hsame] at h ⊢
    exact ⟨.inl h, rfl⟩
  · obtain ⟨hfirst, hafter⟩ := words_of_split hword
    rw [hbody] at h ⊢
    obtain rfl : command = mark :: name := hfirst.symm.trans h
    refine ⟨.inr ⟨own, mention, rfl, hown, hword, ?_⟩, hafter⟩
    rintro rfl
    exact hcommand List.mem_cons_self

lemma Addresses.firstWord_withoutMention
    (h : Addresses mark username name (firstWord text.toList)) (hname : '@' ∉ name) :
    firstWord (withoutMention text username).toList = mark :: name ∧
      afterFirstWord (withoutMention text username).toList = afterFirstWord text.toList := by
  rcases h with hplain | ⟨own, mention, rfl, hown, hword, hmark⟩
  · rcases withoutMention_cases text username with
      hsame | ⟨own, command, mention, rfl, -, hword, hcommand, hsome, -⟩
    · rw [hsame]
      exact ⟨hplain, rfl⟩
    · -- The name would go on with a mention.
      obtain ⟨c, command, rfl⟩ := List.exists_cons_of_ne_nil hsome
      rw [hplain, List.cons_append, List.cons.injEq] at hword
      exact absurd (hword.2 ▸ List.mem_append_right _ List.mem_cons_self) hname
  · have hcommand : '@' ∉ mark :: name := by simpa [hmark.symm] using hname
    have hsplit : firstWord text.toList = (mark :: name) ++ '@' :: mention := hword
    rw [withoutMention_of_split hsplit hcommand, if_pos ⟨List.cons_ne_nil _ _, hown⟩]
    exact words_of_split hsplit

end Words

/-- A text message runs a command only if its first word is the mark and the name, or the mark, the
name and a mention of this bot. The arguments are what follows the word, trimmed. This is so for
whatever mark a configuration may have, and whatever names are registered; and if there is no `@` in
a name then a message that calls it so does run the command. -/
theorem dispatch_toEvent {mark : Char} (haccepts : Config.Accepts mark) (r : Registry)
    (username : Option String) {message : Message} {text : String}
    (hcontent : message.content = .text text) :
    (∀ found, r.dispatch mark (message.toEvent username).body = some found →
      r.owner? found.call.name = some found.owner ∧
        Addresses mark username found.call.name.toList (firstWord text.toList) ∧
        found.call.args = String.ofList (trim (afterFirstWord text.toList))) ∧
    ∀ name owner, r.owner? name = some owner → '@' ∉ name.toList →
      Addresses mark username name.toList (firstWord text.toList) →
      r.dispatch mark (message.toEvent username).body =
        some ⟨⟨name, String.ofList (trim (afterFirstWord text.toList))⟩, owner⟩ := by
  have hmark := Config.accepts_iff.1 haccepts
  have hbody : (message.toEvent username).body = withoutMention text username := by
    rw [Message.toEvent, hcontent]
  rw [hbody]
  constructor
  · intro found hfound
    obtain ⟨hcall, howner⟩ := Registry.dispatch_eq_some hfound
    obtain ⟨hfirst, hargs⟩ := (Command.ofText?_eq_some_iff hmark).1 hcall
    obtain ⟨haddresses, hafter⟩ := addresses_of_withoutMention hfirst
    rw [hafter] at hargs
    exact ⟨howner, haddresses, hargs⟩
  · intro name owner howner hname haddresses
    obtain ⟨hfirst, hafter⟩ := haddresses.firstWord_withoutMention hname
    have hcall : Command.Call.ofText? mark (withoutMention text username) =
        some ⟨name, String.ofList (trim (afterFirstWord text.toList))⟩ :=
      (Command.ofText?_eq_some_iff hmark).2 ⟨hfirst, by rw [hafter]⟩
    exact Option.bind_eq_some_iff.2 ⟨_, hcall, Option.bind_eq_some_iff.2 ⟨owner, howner, rfl⟩⟩

/-- The mention need not be spelled as the bot spells its name. -/
theorem dispatch_toEvent_ownMention :
    let message : Message := ⟨-5, none, .text "/roll@dIcE_bOt  2d6+1 "⟩
    let r := Registry.claim .roller .initial "roll"
    Config.Accepts '/' ∧ r.dispatch '/' (message.toEvent (some "Dice_Bot")).body =
        some ⟨⟨"roll", "2d6+1"⟩, .roller⟩ ∧
      Addresses '/' (some "Dice_Bot") "roll".toList "/roll@dIcE_bOt".toList := by
  intro message r
  have haccepts : Config.Accepts '/' := Config.accepts_iff.2 (by decide)
  have haddresses : Addresses '/' (some "Dice_Bot") "roll".toList "/roll@dIcE_bOt".toList :=
    .inr ⟨"Dice_Bot", "dIcE_bOt".toList, rfl, by decide, by decide, by decide⟩
  obtain ⟨hback, hforth⟩ :=
    dispatch_toEvent haccepts r (some "Dice_Bot") (show message.content = .text _ from rfl)
  have hdispatch := hforth "roll" .roller (by decide +kernel) (by decide) haddresses
  exact ⟨haccepts, hdispatch, (hback _ hdispatch).2.1⟩

/-! ## Commands with a mention and without -/

lemma isBlank_toLower (c : Char) : isBlank c.toLower = isBlank c := by
  by_cases hupper : c.isUpper = true
  · have hletter : ∀ d : Char, d.isAlpha = true → isBlank d = false := fun d hd =>
      Command.isBlank_of_isNameChar (by simp [Command.isNameChar, Char.isAlphanum, hd])
    have hc : c.isAlpha = true := by simp [Char.isAlpha, hupper]
    have hlower : c.toLower.isAlpha = true := by
      rw [Char.isAlpha, Char.isLower_toLower_eq_isAlpha, hc, Bool.or_true]
    rw [hletter c hc, hletter c.toLower hlower]
  · rw [Char.toLower_eq_of_not_isUpper hupper]

lemma isWord_of_map_toLower {own mention : List Char} (hown : IsWord own)
    (hsame : mention.map Char.toLower = own.map Char.toLower) : IsWord mention := by
  intro c hc
  have hlower : c.toLower ∈ own.map Char.toLower := hsame ▸ List.mem_map_of_mem hc
  obtain ⟨d, hd, heq⟩ := List.mem_map.1 hlower
  rw [← isBlank_toLower, ← heq, isBlank_toLower]
  exact hown d hd

/-- A text that begins with `@` stays as it is, since a mention must follow something. -/
lemma withoutMention_of_at {rest : List Char} (hword : firstWord text.toList = '@' :: rest)
    (username : Option String) : withoutMention text username = text := by
  rcases withoutMention_cases text username with
    hsame | ⟨own, command, mention, -, -, hsplit, hcommand, hsome, -⟩
  · exact hsame
  · obtain ⟨c, command, rfl⟩ := List.exists_cons_of_ne_nil hsome
    rw [hword, List.cons_append, List.cons.injEq] at hsplit
    exact absurd (hsplit.1 ▸ List.mem_cons_self) hcommand

section Calls

variable {mark : Char} {name : String} {word rest : List Char}

lemma Addresses.dispatch_withoutMention (h : Addresses mark username name.toList word)
    (hmark : isBlank mark = false) (hname : '@' ∉ name.toList) (hword : IsWord word)
    (hrest : Breaks rest) (htext : text.toList = word ++ rest) (r : Registry) :
    r.dispatch mark (withoutMention text username) = r.invocation? name rest := by
  have hfirst : firstWord text.toList = word := htext ▸ firstWord_append hword hrest
  have hafter : afterFirstWord text.toList = rest := htext ▸ afterFirstWord_append hword hrest
  rw [← hfirst] at h
  obtain ⟨hfirst, hsame⟩ := h.firstWord_withoutMention hname
  rw [Registry.dispatch_of_firstWord hmark r hfirst, hsame, hafter]

/-- Where `@` is the mark, a mention is part of the name that is called. -/
lemma dispatch_withoutMention_of_at (hword : IsWord ('@' :: name.toList)) (hrest : Breaks rest)
    (htext : text.toList = '@' :: name.toList ++ rest) (username : Option String) (r : Registry) :
    r.dispatch '@' (withoutMention text username) = r.invocation? name rest := by
  have hfirst : firstWord text.toList = '@' :: name.toList :=
    htext ▸ firstWord_append hword hrest
  have hafter : afterFirstWord text.toList = rest := htext ▸ afterFirstWord_append hword hrest
  rw [withoutMention_of_at hfirst, Registry.dispatch_of_firstWord (by decide) r hfirst, hafter]

end Calls

/-- A command that mentions this bot runs as it does without the mention, under the same name, for
the same owner and with the same arguments, or not at all, unless its mark is what mentions begin
with. Then it calls a name that has the mention in it. -/
theorem dispatch_mentioned {mark : Char} (haccepts : Config.Accepts mark) (r : Registry)
    {own name mention tail : String} (hown : IsWord own.toList)
    (hname : Command.isName name = true)
    (hsame : mention.toList.map Char.toLower = own.toList.map Char.toLower)
    (htail : Breaks tail.toList) (chat : Int) (sender : Option Nat) :
    let run (text : String) : Option Registry.Invocation :=
      r.dispatch mark (Message.toEvent ⟨chat, sender, .text text⟩ (some own)).body
    run s!"{mark}{name}{tail}" = r.invocation? name tail.toList ∧
      (mark ≠ '@' → run s!"{mark}{name}@{mention}{tail}" = run s!"{mark}{name}{tail}") ∧
      (mark = '@' → run s!"{mark}{name}@{mention}{tail}" =
        r.invocation? s!"{name}@{mention}" tail.toList) := by
  intro run
  have hmark := Config.accepts_iff.1 haccepts
  have hat : '@' ∉ name.toList := fun hmem =>
    absurd (Command.isNameChar_of_mem hname '@' hmem) (by decide)
  have hplain : IsWord (mark :: name.toList) :=
    List.forall_mem_cons.2 ⟨hmark, Command.isWord_of_isName hname⟩
  have hmentioned : IsWord (mark :: name.toList ++ '@' :: mention.toList) :=
    List.forall_mem_append.2 ⟨hplain,
      List.forall_mem_cons.2 ⟨by decide, isWord_of_map_toLower hown hsame⟩⟩
  have hrun : ∀ text, run text = r.dispatch mark (withoutMention text (some own)) := fun _ => rfl
  have hshort : run s!"{mark}{name}{tail}" = r.invocation? name tail.toList := by
    have haddresses : Addresses mark (some own) name.toList (mark :: name.toList) := .inl rfl
    rw [hrun]
    exact haddresses.dispatch_withoutMention hmark hat hplain htail (by simp [toString]) r
  refine ⟨hshort, fun hne => ?_, ?_⟩
  · have haddresses : Addresses mark (some own) name.toList
        (mark :: name.toList ++ '@' :: mention.toList) :=
      .inr ⟨own, mention.toList, rfl, hsame, rfl, hne⟩
    rw [hshort, hrun]
    exact haddresses.dispatch_withoutMention hmark hat hmentioned htail (by simp [toString]) r
  · rintro rfl
    have hcalled : (s!"{name}@{mention}").toList = name.toList ++ '@' :: mention.toList := by
      simp [toString]
    rw [hrun]
    refine dispatch_withoutMention_of_at ?_ htail ?_ (some own) r
    · rwa [hcalled]
    · rw [hcalled]
      simp [toString]

/-- The bot is mentioned in the wrong case, and hears all the same. -/
theorem dispatch_mentioned_capitals :
    let r := Registry.claim .roller .initial "roll"
    Config.Accepts '!' ∧
      r.dispatch '!' (Message.toEvent ⟨-5, none, .text "!roll@DICE_bot 2d6"⟩ (some "dice_bot")).body =
        r.dispatch '!' (Message.toEvent ⟨-5, none, .text "!roll 2d6"⟩ (some "dice_bot")).body := by
  intro r
  have haccepts : Config.Accepts '!' := Config.accepts_iff.2 (by decide)
  have hown : IsWord "dice_bot".toList := Command.isWord_of_isName (by decide)
  have htail : Breaks " 2d6".toList := by
    rintro c rest ⟨⟩
    decide
  have hmentioned := @dispatch_mentioned '!' haccepts r "dice_bot" "roll" "DICE_bot" " 2d6" hown
    (by decide) (by decide) htail (-5) none
  exact ⟨haccepts, hmentioned.2.1 (by decide)⟩

/-- Where commands begin with `@`, a command that mentions this bot does not run. -/
theorem mention_taken_for_name :
    ¬ ∀ (mark : Char) (r : Registry) (own name mention tail : String), Config.Accepts mark →
      Command.isName own = true → Command.isName name = true →
      mention.toList.map Char.toLower = own.toList.map Char.toLower → Breaks tail.toList →
      ∀ (chat : Int) (sender : Option Nat),
        r.dispatch mark
            (Message.toEvent ⟨chat, sender, .text s!"{mark}{name}@{mention}{tail}"⟩
              (some own)).body =
          r.dispatch mark
            (Message.toEvent ⟨chat, sender, .text s!"{mark}{name}{tail}"⟩ (some own)).body := by
  intro h
  have htail : Breaks "".toList := fun c rest heq => by contradiction
  have hsame := h '@' (Registry.claim .ping .initial "ping") "bot" "ping" "bot" ""
    (Config.accepts_iff.2 (by decide)) (by decide) (by decide) rfl htail 1 (some 2)
  revert hsame
  decide +kernel

end Telegram

end RoomBot
