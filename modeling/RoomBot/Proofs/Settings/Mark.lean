import RoomBot.Proofs.Command.Typed
import RoomBot.Settings.Config

/-!
# The mark in front of commands

A configuration may name a mark of its own.  Whatever it says, the mark is not blank, and there is
no other condition: every character that is not blank is the mark of some configuration, letters and
digits among them (`Config.accepts_iff`).
-/

namespace RoomBot.Config

open Text (isBlank isBlankText trim)

/-- The character is the mark of a configuration that is accepted. -/
def Accepts (mark : Char) : Prop :=
  ∃ (var : String → Option String) (config : Config), ofVariables var = .ok config ∧
    config.mark = mark

variable {var : String → Option String} {config : Config} {mark : Char}

lemma isBlank_of_trim_eq {value : List Char} (h : trim value = [mark]) :
    isBlank mark = false := by
  have hend : (Text.trimStart value).reverse.dropWhile isBlank = [mark] := List.reverse_inj.1 h
  have hnot := List.head?_dropWhile_not isBlank (Text.trimStart value).reverse
  rwa [hend] at hnot

lemma markOf_eq_ok_iff {value : String} :
    markOf value = .ok mark ↔ trim value.toList = [mark] := by
  unfold markOf
  split
  · rename_i found htrim
    rw [htrim]
    simp
  · rename_i hother
    simp only [reduceCtorEq, false_iff]
    exact fun htrim => hother mark htrim

lemma mark_of_ofVariables (h : ofVariables var = .ok config) :
    ((var "COMMAND_PREFIX").map markOf).getD (.ok '!') = .ok config.mark := by
  unfold ofVariables at h
  simp only [bind, Except.bind, pure, Except.pure, throw, throwThe, MonadExceptOf.throw] at h
  split at h
  · contradiction
  · split at h
    · contradiction
    · rename_i hmark
      rw [hmark, ← Except.ok.inj h]

lemma accepts_of_markOf (htoken : isBlankText ((var "TELEGRAM_BOT_TOKEN").getD "").toList = false)
    (hmark : ((var "COMMAND_PREFIX").map markOf).getD (.ok '!') = .ok mark) : Accepts mark := by
  obtain ⟨config, hconfig⟩ : ∃ config, ofVariables var = .ok config := by
    simp only [ofVariables, hmark, htoken, Bool.false_eq_true, if_false]
    exact ⟨_, rfl⟩
  have hsame := mark_of_ofVariables hconfig
  rw [hmark] at hsame
  exact ⟨var, config, hconfig, (Except.ok.inj hsame).symm⟩

/-- A mark is a character that is not blank, and any such character will do. -/
theorem accepts_iff : Accepts mark ↔ isBlank mark = false := by
  constructor
  · rintro ⟨var, config, hconfig, rfl⟩
    have hmark := mark_of_ofVariables hconfig
    cases hvar : var "COMMAND_PREFIX" with
    | none =>
      rw [hvar] at hmark
      rw [← Except.ok.inj hmark]
      decide
    | some value =>
      rw [hvar] at hmark
      exact isBlank_of_trim_eq (markOf_eq_ok_iff.1 hmark)
  · intro hmark
    have hword : Text.IsWord [mark] := by simpa [Text.IsWord] using hmark
    have htrim : trim ([] ++ [mark]) = [mark] := (hword.isTrimmed (by simp)).trim_append (by simp)
    have hmarkOf : markOf (String.singleton mark) = .ok mark :=
      markOf_eq_ok_iff.2 (by rw [String.toList_singleton]; exact htrim)
    let var (key : String) : Option String :=
      if key = "TELEGRAM_BOT_TOKEN" then some "token" else some (String.singleton mark)
    have htoken : var "TELEGRAM_BOT_TOKEN" = some "token" := rfl
    have hset : var "COMMAND_PREFIX" = some (String.singleton mark) := rfl
    refine @accepts_of_markOf var mark ?_ ?_
    · rw [htoken]
      decide
    · rw [hset]
      exact hmarkOf

end RoomBot.Config
