import Mathlib.Logic.Function.Basic
import RoomBot.Proofs.Text.Decimal
import RoomBot.Proofs.Text.Trimming
import RoomBot.Settings.Config

/-!
# Lists in variables

Whoever writes a list into a variable puts a comma between two fields, and into a field a word, or
nothing at all; blanks may stand in a field wherever there is room (`Config.Fields`).  What is read
from such a variable is the words, as long as they are words indeed, without blanks and commas in
them (`Config.listed_of_isListOf`).  Whole numbers are (`Config.listed_numbers`).

A configuration has two such lists, and neither has a part in anything else that it says
(`Config.access_of_ofVariables`, `Config.ofVariables_unset`).
-/

namespace RoomBot

namespace Text

lemma isWord_toString (n : Int) : IsWord (toString n).toList := by
  intro c hc
  rcases mem_toString hc with hdigit | rfl
  · exact Command.isBlank_of_isNameChar (by simp [Command.isNameChar, Char.isAlphanum, hdigit])
  · decide

lemma comma_notMem_toString (n : Int) : ',' ∉ (toString n).toList := by
  intro hmem
  rcases mem_toString hmem with hdigit | hminus <;> contradiction

end Text

namespace Config

open Text (isBlankText IsWord)

/-- The fields of a list and the words in them. -/
inductive Fields : List (List Char) → List String → Prop
  | nil : Fields [] []
  | blank {field : List Char} {fields : List (List Char)} {words : List String} :
      isBlankText field = true → Fields fields words → Fields (field :: fields) words
  | word {left right : List Char} {word : String} {fields : List (List Char)}
      {words : List String} :
      isBlankText left = true → isBlankText right = true → Fields fields words →
      Fields ((left ++ (word.toList ++ right)) :: fields) (word :: words)

/-- The value lists these words, with commas between the fields. -/
def IsListOf (words : List String) (value : String) : Prop :=
  ∃ fields, Fields fields words ∧ value.toList = [','].intercalate fields

variable {fields : List (List Char)} {words : List String} {value : String}

lemma Fields.comma_notMem (h : Fields fields words) (hwords : ∀ word ∈ words, ',' ∉ word.toList) :
    ∀ field ∈ fields, ',' ∉ field := by
  induction h with
  | nil => simp
  | blank hblank _ ih =>
    exact List.forall_mem_cons.2 ⟨Text.notMem_of_isBlankText (by decide) hblank, ih hwords⟩
  | word hleft hright _ ih =>
    obtain ⟨hword, hwords⟩ := List.forall_mem_cons.1 hwords
    refine List.forall_mem_cons.2 ⟨?_, ih hwords⟩
    rw [List.mem_append, List.mem_append, not_or, not_or]
    exact ⟨Text.notMem_of_isBlankText (by decide) hleft, hword,
      Text.notMem_of_isBlankText (by decide) hright⟩

/-- Trimming the fields leaves the words, and nothing of the fields without one. -/
lemma Fields.filterMap_trim (h : Fields fields words)
    (hwords : ∀ word ∈ words, word.toList ≠ [] ∧ IsWord word.toList) :
    ((fields.map Text.trim).filterMap fun member =>
      if member.isEmpty then none else some (String.ofList member)) = words := by
  induction h with
  | nil => rfl
  | blank hblank _ ih =>
    rw [List.map_cons, Text.trim_of_isBlankText hblank, List.filterMap_cons_none rfl, ih hwords]
  | @word left right word fields words hleft hright _ ih =>
    obtain ⟨⟨hne, hword⟩, hwords⟩ := List.forall_mem_cons.1 hwords
    have hkept : ¬ word.toList.isEmpty = true := by rwa [List.isEmpty_iff]
    rw [List.map_cons, (hword.isTrimmed hne).trim_between hleft hright, List.filterMap_cons,
      if_neg hkept, String.ofList_toList, ih hwords]

/-- What is read is the words that are listed. -/
theorem listed_of_isListOf (h : IsListOf words value)
    (hwords : ∀ word ∈ words, word.toList ≠ [] ∧ IsWord word.toList ∧ ',' ∉ word.toList) :
    listed value = words := by
  obtain ⟨fields, hfields, hvalue⟩ := h
  have hread := hfields.filterMap_trim fun word hmem =>
    ⟨(hwords word hmem).1, (hwords word hmem).2.1⟩
  rw [listed, hvalue]
  cases fields with
  | nil =>
    cases hfields
    rfl
  | cons field fields =>
    rw [List.splitOn_intercalate ',' _ (by simp)]
    · exact hread
    · exact hfields.comma_notMem fun word hmem => (hwords word hmem).2.2

/-- Whole numbers that are listed are read as they are written. -/
theorem listed_numbers {numbers : List Int} (h : IsListOf (numbers.map toString) value) :
    listed value = numbers.map toString := by
  refine listed_of_isListOf h fun word hmem => ?_
  obtain ⟨n, -, rfl⟩ := List.mem_map.1 hmem
  exact ⟨Text.toString_ne_nil n, Text.isWord_toString n, Text.comma_notMem_toString n⟩

/-! ## The lists of a configuration -/

variable {var : String → Option String} {config : Config}

theorem access_of_ofVariables (h : ofVariables var = .ok config) :
    config.access =
      ⟨listed ((var "ALLOWED_CHATS").getD ""), listed ((var "COMMAND_EDITORS").getD "")⟩ := by
  unfold ofVariables at h
  simp only [bind, Except.bind, pure, Except.pure, throw, throwThe, MonadExceptOf.throw] at h
  split at h
  · contradiction
  · split at h
    · contradiction
    · rw [← Except.ok.inj h]

/-- Without a list of chats the configuration is the same, but for that list. -/
theorem ofVariables_unset (h : ofVariables var = .ok config) :
    ofVariables (Function.update var "ALLOWED_CHATS" none) =
      .ok { config with access.rooms := [] } := by
  have hother : ∀ key, key ≠ "ALLOWED_CHATS" →
      Function.update var "ALLOWED_CHATS" none key = var key :=
    fun key hne => Function.update_of_ne hne none var
  unfold ofVariables at h ⊢
  simp only [bind, Except.bind, pure, Except.pure, throw, throwThe, MonadExceptOf.throw] at h ⊢
  rw [hother "TELEGRAM_BOT_TOKEN" (by decide), hother "COMMAND_PREFIX" (by decide),
    hother "REPLY_UNKNOWN_COMMANDS" (by decide), hother "DATA_DIR" (by decide),
    hother "COMMAND_EDITORS" (by decide), hother "LOG_FILE" (by decide),
    hother "LOG_VERBOSE" (by decide), Function.update_self]
  split at h
  · contradiction
  · rename_i htoken
    rw [if_neg htoken]
    split at h
    · contradiction
    · rw [← Except.ok.inj h]
      rfl

end Config

end RoomBot
