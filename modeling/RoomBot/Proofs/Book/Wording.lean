import RoomBot.Bot
import RoomBot.Proofs.Book.Step
import RoomBot.Proofs.Store.Responses

/-!
# Words in every answer

The owners of commands answer with a text or with a failure, and of a failure the sender hears some
words too.  A text in which there is nothing to see would be no answer, so each of them is looked at
here.  The bot's own words have something in them, whatever the names and arguments are that they
repeat; what a room has defined has been looked at by its store (`Store.Telling`).

The report of a roll has a line for each term (`Dice.length_rollTerms`).  A request that consists of
commas has no terms and is no failure either, and so the report is empty.
-/

namespace RoomBot

open Text

/-! ## Failures -/

/-- What the sender of a command hears of a failure can be seen. -/
def Failure.IsVisible (failure : Failure) : Prop := Text.IsVisible (Bot.apology failure)

lemma Failure.isVisible_of_isPersistence {failure : Failure}
    (h : failure.isPersistence = true) : failure.IsVisible := by
  cases failure with
  | persistence path reason => exact ⟨'S', by simp [Bot.apology], rfl⟩
  | _ => contradiction

namespace Edit

lemma isVisible_of_checkName {name : String} {failure : Failure}
    (h : Command.checkName name = .error failure) : failure.IsVisible := by
  simp only [Command.checkName] at h
  split at h
  · rw [← Except.error.inj h]
    exact ⟨'c', by simp [Bot.apology], rfl⟩
  · split at h
    · contradiction
    · rw [← Except.error.inj h]
      exact ⟨'i', by simp [Bot.apology, toString], rfl⟩

lemma isVisible_of_check {edit : Edit} {failure : Failure} (h : edit.check = .error failure) :
    failure.IsVisible := by
  have hresponse : ∀ {response : String}, checkResponse response = .error failure →
      failure.IsVisible := by
    intro response hfailure
    rw [checkResponse] at hfailure
    split at hfailure
    · rw [← Except.error.inj hfailure]
      exact ⟨'c', by simp [Bot.apology], rfl⟩
    · contradiction
  cases edit with
  | add name response =>
    cases hname : Command.checkName name with
    | error other =>
      rw [check, hname] at h
      obtain rfl := Except.error.inj h
      exact isVisible_of_checkName hname
    | ok _ =>
      rw [check, hname] at h
      exact hresponse h
  | modify name response => exact hresponse h
  | remove name => contradiction

lemma isVisible_of_apply {edit : Edit} {room now : String} {old : Commands} {failure : Failure}
    (h : edit.apply room now old = .error failure) : failure.IsVisible := by
  have hscope : ∀ {name : String}, Text.IsVisible s!"{name} in scope {room}" :=
    fun {name} => ⟨'i', by simp [toString], rfl⟩
  cases edit with
  | add name response =>
    simp only [apply] at h
    split at h
    · rw [← Except.error.inj h]
      exact hscope
    · contradiction
  | modify name response =>
    simp only [apply] at h
    split at h
    · contradiction
    · rw [← Except.error.inj h]
      exact hscope
  | remove name =>
    simp only [apply] at h
    split at h
    · contradiction
    · rw [← Except.error.inj h]
      exact hscope

end Edit

namespace Store

variable {room now name : String} {failure : Failure} {store : Store}

/-- Whatever keeps a store from an edit can be told. -/
lemma isVisible_of_edit {edit : Edit} {halt : Option Halt}
    (h : (store.edit room now edit halt).1 = .error failure) : failure.IsVisible := by
  rw [edit_eq] at h
  cases hcheck : edit.check with
  | error other =>
    rw [hcheck] at h
    obtain rfl := Except.error.inj h
    exact Edit.isVisible_of_check hcheck
  | ok _ =>
    rw [hcheck] at h
    cases hknown : store.commands room with
    | error other =>
      rw [hknown] at h
      obtain rfl := Except.error.inj h
      exact Failure.isVisible_of_isPersistence (isPersistence_of_commands hknown)
    | ok old =>
      simp only [hknown] at h
      cases happly : edit.apply room now old with
      | error other =>
        rw [happly] at h
        obtain rfl := Except.error.inj h
        exact Edit.isVisible_of_apply happly
      | ok new =>
        rw [happly] at h
        rcases save_cases (store.load room).2 room new halt with
          ⟨other, herror, hpersistence, -⟩ | ⟨directory, hsaved, -⟩
        · obtain rfl := Except.error.inj (herror.symm.trans h)
          exact Failure.isVisible_of_isPersistence hpersistence
        · simp only [hsaved] at h
          contradiction

lemma isVisible_of_lookup (h : (store.lookup room name).1 = .error failure) :
    failure.IsVisible := by
  rw [lookup_eq] at h
  cases hcommands : store.commands room with
  | ok commands =>
    rw [hcommands] at h
    contradiction
  | error other =>
    rw [hcommands] at h
    obtain rfl := Except.error.inj h
    exact Failure.isVisible_of_isPersistence (isPersistence_of_commands hcommands)

lemma isPersistence_of_list (h : (store.list room).1 = .error failure) :
    failure.isPersistence = true := by
  rw [list_eq] at h
  cases hcommands : store.commands room with
  | ok commands =>
    rw [hcommands] at h
    contradiction
  | error other =>
    rw [hcommands] at h
    obtain rfl := Except.error.inj h
    exact isPersistence_of_commands hcommands

lemma isVisible_of_list (h : (store.list room).1 = .error failure) : failure.IsVisible :=
  Failure.isVisible_of_isPersistence (isPersistence_of_list h)

end Store

/-! ## Rolls -/

namespace Dice

/-- Blanks aside there is nothing but commas, and at least one. -/
def OnlyCommas (spec : String) : Prop :=
  ∃ n, compact spec.toList = List.replicate (n + 1) ','

lemma terms_cons_comma (cs : List Char) : terms (',' :: cs) = terms cs := by
  simp [terms, List.splitOn_cons_eq_if_modifyHead]

lemma terms_cons_ne_nil {c : Char} (h : c ≠ ',') (cs : List Char) : terms (c :: cs) ≠ [] := by
  obtain ⟨first, rest, hsplit⟩ := List.exists_cons_of_ne_nil (List.splitOn_ne_nil ',' cs)
  rw [terms, List.splitOn_cons_eq_if_modifyHead, if_neg (by simpa using h), hsplit]
  simp

/-- A request has no terms where there is nothing between the commas. -/
lemma terms_eq_nil_iff {cs : List Char} :
    terms cs = [] ↔ cs = List.replicate cs.length ',' := by
  induction cs with
  | nil => simp [terms, List.splitOn_nil]
  | cons c cs ih =>
    rw [List.length_cons, List.replicate_succ, List.cons.injEq, ← ih]
    by_cases hcomma : c = ','
    · rw [hcomma, terms_cons_comma, eq_self, true_and]
    · exact iff_of_false (terms_cons_ne_nil hcomma cs) fun h => hcomma h.1

lemma onlyCommas_iff {spec : String} :
    OnlyCommas spec ↔ compact spec.toList ≠ [] ∧ terms (compact spec.toList) = [] := by
  rw [terms_eq_nil_iff]
  constructor
  · rintro ⟨n, h⟩
    rw [h]
    simp
  · rintro ⟨hsome, hcommas⟩
    obtain ⟨n, hlength⟩ := Nat.exists_eq_add_one_of_ne_zero (mt List.length_eq_zero_iff.1 hsome)
    exact ⟨n, by rw [hcommas, hlength]⟩

variable {σ : Type} (source : Source σ)

/-- A roll has an outcome for each term. -/
theorem length_rollTerms {outcomes : List Outcome} {ts : List (List Char)} {budget : Nat}
    {state : σ} (h : (rollTerms source ts budget state).1 = .ok outcomes) :
    outcomes.length = ts.length := by
  induction ts generalizing outcomes budget state with
  | nil =>
    rw [← Except.ok.inj h]
    rfl
  | cons term ts ih =>
    simp only [rollTerms] at h
    split at h
    · contradiction
    · rename_i outcome left rest _
      cases hrest : (rollTerms source ts left rest).1 with
      | error fault =>
        rw [hrest] at h
        contradiction
      | ok others =>
        rw [hrest] at h
        rw [← Except.ok.inj h, List.length_cons, List.length_cons, ih hrest]

lemma isVisible_report {outcomes : List Outcome} (h : outcomes ≠ []) :
    IsVisible (report outcomes) := by
  obtain ⟨first, rest, rfl⟩ := List.exists_cons_of_ne_nil h
  refine ⟨'R', ?_, rfl⟩
  rw [report, List.map_cons, Outcome.line]
  cases rest with
  | nil => simp [toString]
  | cons second rest => simp [String.intercalate_cons_cons, toString]

end Dice

/-! ## Answers -/

namespace Book

/-- What the sender of a command gets to read. -/
def wording : Except Failure String → String
  | .ok text => text
  | .error failure => Bot.apology failure

/-- The next call of the store is not refused, or for a reason that is for the operator. -/
def Callable (book : Book) : Prop :=
  ∀ failure, book.vault.pending = some failure → failure.isPersistence = true

variable {book : Book} {mark : Char} {room now name args : String}

/-- A call fails because it was refused or because the store has failed. -/
lemma Callable.of_call {α : Type} {ask : Store → Except Failure α × Store} {failure : Failure}
    {conclusion : Prop} (hcallable : book.Callable) (h : (book.call ask).1 = .error failure)
    (hrefused : failure.isPersistence = true → conclusion)
    (hfailed : (ask book.vault.store).1 = .error failure → conclusion) : conclusion := by
  simp only [call, Vault.call] at h
  cases hpending : book.vault.pending with
  | some cause =>
    rw [hpending] at h
    obtain rfl : cause = failure := Except.error.inj h
    exact hrefused (hcallable cause hpending)
  | none =>
    rw [hpending] at h
    exact hfailed h

lemma Callable.isVisible_of_call {α : Type} {ask : Store → Except Failure α × Store}
    {failure : Failure} {after : Book} (hcallable : book.Callable)
    (hask : (ask book.vault.store).1 = .error failure → failure.IsVisible)
    (h : book.call ask = (.error failure, after)) : failure.IsVisible :=
  hcallable.of_call (congrArg Prod.fst h) Failure.isVisible_of_isPersistence hask

lemma isVisible_usage_word : IsVisible "Usage: " := ⟨'U', by simp, rfl⟩

lemma isVisible_usage (owner : Owner) (mark : Char) (name : String) :
    IsVisible (owner.usage mark name) := by
  have hword := isVisible_usage_word
  unfold Owner.usage
  split
  · exact (hword.append _).append _
  · exact (hword.append _).append _
  · exact (hword.append _).append _
  · exact (hword.append _).append _
  · exact ((((hword.append _).append _).append _).append _).append _
  · split
    · exact ((((hword.append _).append _).append _).append _).append _
    · exact (((hword.append _).append _).append _).append _
    · exact (((hword.append _).append _).append _).append _
    · exact ⟨'I', by simp [toString], rfl⟩

lemma isVisible_explain (mark : Char) (args : String) (book : Book) :
    IsVisible (book.explain mark args) := by
  simp only [explain]
  split
  · exact ((((isVisible_usage_word.append _).append _).append _).append _).append _
  · split
    · exact ⟨'U', by simp [toString], rfl⟩
    · exact isVisible_usage _ mark _

lemma isVisible_consult (fate : Fate) (question : String) :
    IsVisible (wording (consult fate question)) := by
  have hfates : ∀ answer ∈ fates, isBlankText answer.toList = false := by decide +kernel
  rw [consult]
  split
  · exact isVisible_iff.2 (hfates _ (List.getElem_mem _))
  · exact ⟨'Y', by simp [wording, Bot.apology], rfl⟩

lemma isVisible_confirmation (mark : Char) (edit : Edit) :
    IsVisible (edit.confirmation mark) := by
  unfold Edit.confirmation
  split
  · exact ⟨'N', by simp [toString], rfl⟩
  · exact ⟨'m', by simp [toString], rfl⟩
  · exact ⟨'r', by simp [toString], rfl⟩

lemma isVisible_add (h : book.Callable) :
    IsVisible (wording (book.add mark now room args).1) := by
  simp only [add]
  cases definition? mark args with
  | none => exact ⟨'U', by simp [wording, Bot.apology, toString], rfl⟩
  | some definition =>
    obtain ⟨name, response⟩ := definition
    simp only
    cases hname : Command.checkName name with
    | error failure => exact Edit.isVisible_of_checkName hname
    | ok _ =>
      have htaken : IsVisible (wording (.error (taken name))) :=
        ⟨'i', by simp [wording, Bot.apology, taken, toString], rfl⟩
      by_cases hmanagement : managementNames.contains name
      · simp only [if_pos hmanagement]
        exact htaken
      simp only [if_neg hmanagement]
      cases hclaim : book.claim? name with
      | none => exact htaken
      | some claimed =>
        have hclaimed : claimed.Callable := by
          rw [Callable, (claim?_touchesOnly hclaim).vault]
          exact h
        simp only
        split
        · exact isVisible_confirmation mark (.add name response)
        · exact ⟨'T', by simp [wording, Bot.apology, defined, toString], rfl⟩
        · rename_i hcall
          exact hclaimed.isVisible_of_call Store.isVisible_of_edit hcall

lemma isVisible_modify (h : book.Callable) :
    IsVisible (wording (book.modify mark now room args).1) := by
  simp only [modify]
  cases definition? mark args with
  | none => exact ⟨'U', by simp [wording, Bot.apology, toString], rfl⟩
  | some definition =>
    obtain ⟨name, response⟩ := definition
    simp only
    split
    · exact isVisible_confirmation mark (.modify name response)
    · exact ⟨'T', by simp [wording, Bot.apology, undefined, toString], rfl⟩
    · rename_i hcall
      exact h.isVisible_of_call Store.isVisible_of_edit hcall

lemma isVisible_remove (h : book.Callable) :
    IsVisible (wording (book.remove mark now room args).1) := by
  simp only [remove]
  cases removedName? mark args with
  | none => exact ⟨'U', by simp [wording, Bot.apology, toString], rfl⟩
  | some name =>
    simp only
    split
    · exact isVisible_confirmation mark (.remove name)
    · exact ⟨'T', by simp [wording, Bot.apology, nothingToRemove], rfl⟩
    · rename_i hcall
      exact h.isVisible_of_call Store.isVisible_of_edit hcall

/-- What a room has defined can be seen, because the store has looked at it. -/
lemma isVisible_of_lookup_call {response : String} {after : Book}
    (h : book.vault.store.Telling)
    (hcall : book.call (Store.lookup room name) = (.ok (some response), after)) :
    IsVisible response := by
  rcases call_cases (Store.lookup room name) book with ⟨failure, hrefused⟩ | hasked
  · rw [hrefused] at hcall
    injection hcall
    contradiction
  · rw [hasked, Store.lookup_eq] at hcall
    have hanswer := congrArg Prod.fst hcall
    cases hcommands : book.vault.store.commands room with
    | error failure =>
      rw [hcommands] at hanswer
      contradiction
    | ok commands =>
      rw [hcommands] at hanswer
      obtain ⟨command, hcommand, rfl⟩ := Option.map_eq_some_iff.1 (Except.ok.inj hanswer)
      exact h.commands hcommands name command hcommand

lemma isVisible_run (h : book.Callable) (htelling : book.vault.store.Telling) :
    IsVisible (wording (book.run mark room name).1) := by
  simp only [run]
  split
  · rename_i hcall
    exact isVisible_of_lookup_call htelling hcall
  · exact ⟨'T', by simp [wording, Bot.apology, undefined, toString], rfl⟩
  · rename_i hcall
    exact h.isVisible_of_call Store.isVisible_of_lookup hcall

lemma isVisible_listing (h : book.Callable) :
    IsVisible (wording (book.listing mark room).1) := by
  simp only [listing]
  split
  · rename_i hcall
    exact h.isVisible_of_call Store.isVisible_of_list hcall
  · exact ⟨'A', by simp [wording, toString], rfl⟩

/-! ## The owners together -/

variable {settings : Settings} {moment : Moment} {spec : String}

lemma rollDice_of_onlyCommas (h : Dice.OnlyCommas spec) :
    rollDice mark moment spec = .ok "" := by
  obtain ⟨hsome, hnone⟩ := Dice.onlyCommas_iff.1 h
  rw [rollDice, Dice.roll]
  simp only [hnone, List.isEmpty_iff, if_neg hsome, Dice.rollTerms]
  rfl

lemma isVisible_rollDice (h : ¬ Dice.OnlyCommas spec) :
    IsVisible (wording (rollDice mark moment spec)) := by
  rw [rollDice]
  split
  · rename_i outcomes hroll
    rw [Dice.roll] at hroll
    simp only [List.isEmpty_iff] at hroll
    split at hroll
    · contradiction
    · rename_i hsome
      have hlength := Dice.length_rollTerms moment.dice hroll
      refine Dice.isVisible_report fun hnone => h (Dice.onlyCommas_iff.2 ⟨hsome, ?_⟩)
      rw [hnone] at hlength
      exact List.length_eq_zero_iff.1 hlength.symm
  · exact ⟨'C', by simp [wording, Bot.apology, toString], rfl⟩

lemma isVisible_customCommand (h : book.Callable) (htelling : book.vault.store.Telling)
    (request : Request) :
    IsVisible (wording (book.customCommand settings moment request).1) := by
  simp only [customCommand]
  split
  · exact ⟨'Y', by simp [wording, Bot.apology], rfl⟩
  · split
    · exact isVisible_add h
    · exact isVisible_modify h
    · exact isVisible_remove h
    · exact isVisible_run h htelling

lemma isVisible_serve (h : book.Callable) (htelling : book.vault.store.Telling) {owner : Owner}
    {request : Request} (hroll : owner = .roller → ¬ Dice.OnlyCommas request.call.args) :
    IsVisible (wording (book.serve settings moment owner request).1) := by
  cases owner with
  | listCommands => exact isVisible_listing h
  | help => exact isVisible_explain settings.mark request.call.args book
  | ping => exact ⟨'P', by simp [serve, wording], rfl⟩
  | eightBall => exact isVisible_consult moment.fate request.call.args
  | roller => exact isVisible_rollDice (hroll rfl)
  | customCommands => exact isVisible_customCommand h htelling request

end Book

end RoomBot
