import Mathlib
import RoomBot.Book

/-!
# Commands as they are typed

A command is typed as the mark, a word and whatever follows it (`Command.Calls`).  To define or
change a custom command one types a name and a response behind it, with as many blanks between them
as one likes (`Command.Gives`); the name may have the mark in front of it (`Command.Spells`).

What is typed so is understood as it was meant: the name comes out without the mark, and the
response comes out to the letter, because it begins and ends with something that is not blank
(`Text.IsTrimmed`) and nothing else is ever cut off.
-/

namespace RoomBot

namespace Text

/-! ## Words and gaps -/

/-- One blank or more. -/
structure IsGap (cs : List Char) : Prop where
  ne_nil : cs ≠ []
  blank : ∀ c ∈ cs, isBlank c = true

/-- A text without blanks. -/
def IsWord (cs : List Char) : Prop := ∀ c ∈ cs, isBlank c = false

/-- A text that can follow a word: it is empty or begins with a blank. -/
def Breaks (cs : List Char) : Prop := ∀ c rest, cs = c :: rest → isBlank c = true

/-- A text that begins and ends with something that is not blank. -/
structure IsTrimmed (cs : List Char) : Prop where
  first : ∃ c rest, cs = c :: rest ∧ isBlank c = false
  last : ∃ rest c, cs = rest ++ [c] ∧ isBlank c = false

variable {gap word middle rest cs ds : List Char}

lemma IsGap.breaks (h : IsGap gap) (rest : List Char) : Breaks (gap ++ rest) := by
  intro c after heq
  cases gap with
  | nil => exact absurd rfl h.ne_nil
  | cons d gap =>
    obtain ⟨rfl, -⟩ := List.cons.inj heq
    exact h.blank d List.mem_cons_self

lemma isWord_firstWord (cs : List Char) : IsWord (firstWord cs) := by
  intro c hc
  simpa using List.mem_takeWhile_imp hc

lemma breaks_afterFirstWord (cs : List Char) : Breaks (afterFirstWord cs) := by
  intro c rest heq
  have hfirst := List.head?_dropWhile_not (fun c => !isBlank c) cs
  rw [← afterFirstWord, heq] at hfirst
  simpa using hfirst

lemma firstWord_append (hword : IsWord word) (hrest : Breaks rest) :
    firstWord (word ++ rest) = word := by
  rw [firstWord, List.takeWhile_append_of_pos fun c hc => by rw [hword c hc]; rfl]
  cases rest with
  | nil => simp
  | cons c rest => simp [hrest c rest rfl]

lemma afterFirstWord_append (hword : IsWord word) (hrest : Breaks rest) :
    afterFirstWord (word ++ rest) = rest := by
  have hall := firstWord_append_afterFirstWord (word ++ rest)
  rw [firstWord_append hword hrest] at hall
  exact List.append_cancel_left hall

/-! ## Trimmed texts -/

lemma IsWord.isTrimmed (h : IsWord word) (hne : word ≠ []) : IsTrimmed word where
  first := by
    obtain ⟨c, rest, rfl⟩ := List.exists_cons_of_ne_nil hne
    exact ⟨c, rest, rfl, h c List.mem_cons_self⟩
  last := ⟨_, _, (List.dropLast_concat_getLast hne).symm, h _ (List.getLast_mem hne)⟩

lemma IsTrimmed.append (hcs : IsTrimmed cs) (hds : IsTrimmed ds) (middle : List Char) :
    IsTrimmed (cs ++ middle ++ ds) where
  first := by
    obtain ⟨c, rest, rfl, hc⟩ := hcs.first
    exact ⟨c, rest ++ middle ++ ds, by simp, hc⟩
  last := by
    obtain ⟨rest, c, rfl, hc⟩ := hds.last
    exact ⟨cs ++ middle ++ rest, c, by simp, hc⟩

lemma IsTrimmed.trim_append (h : IsTrimmed cs) (hgap : ∀ c ∈ gap, isBlank c = true) :
    trim (gap ++ cs) = cs := by
  have hstart : trimStart (gap ++ cs) = cs := by
    obtain ⟨c, rest, rfl, hc⟩ := h.first
    rw [trimStart, List.dropWhile_append_of_pos hgap, List.dropWhile_cons_of_neg (by simp [hc])]
  obtain ⟨rest, c, rfl, hc⟩ := h.last
  simp [trim, hstart, trimEnd, hc]

lemma IsTrimmed.not_isBlankText (h : IsTrimmed cs) : isBlankText cs = false := by
  obtain ⟨c, rest, rfl, hc⟩ := h.first
  simp [isBlankText, hc]

end Text

namespace Command

open Text

/-! ## Names -/

lemma isBlank_of_isNameChar {c : Char} (h : isNameChar c = true) : isBlank c = false := by
  simp only [isNameChar, Char.isAlphanum, Char.isAlpha, Char.isUpper, Char.isLower, Char.isDigit,
    Bool.or_eq_true, Bool.and_eq_true, decide_eq_true_eq, beq_iff_eq, UInt32.le_iff_toNat_le,
    ge_iff_le] at h
  change (((65 ≤ c.toNat ∧ c.toNat ≤ 90) ∨ 97 ≤ c.toNat ∧ c.toNat ≤ 122) ∨
    48 ≤ c.toNat ∧ c.toNat ≤ 57) ∨ c = '_' at h
  rcases h with h | rfl
  · simp only [isBlank, blankRanges, List.any_cons, List.any_nil, Bool.or_eq_false_iff,
      Bool.and_eq_false_iff, decide_eq_false_iff_not, and_true]
    omega
  · decide

lemma isNameChar_of_mem {name : String} (h : isName name = true) :
    ∀ c ∈ name.toList, isNameChar c = true := by
  simp only [isName, Bool.and_eq_true, List.all_eq_true] at h
  exact h.2

lemma isWord_of_isName {name : String} (h : isName name = true) : IsWord name.toList :=
  fun c hc => isBlank_of_isNameChar (isNameChar_of_mem h c hc)

lemma ne_nil_of_isName {name : String} (h : isName name = true) : name.toList ≠ [] := by
  rintro hnil
  have hempty : name = "" := String.toList_eq_nil_iff.1 hnil
  subst hempty
  contradiction

/-- A name as it may be typed: behind the mark, or without it unless it begins with the mark
itself. -/
def Spells (mark : Char) (name word : List Char) : Prop :=
  word = mark :: name ∨ word = name ∧ ∀ rest, name ≠ mark :: rest

section Spelling

variable {mark : Char} {name word : List Char}

lemma Spells.dropMark_eq (h : Spells mark name word) : dropMark mark word = name := by
  rcases h with rfl | ⟨rfl, hfirst⟩
  · simp [dropMark]
  · cases word with
    | nil => rfl
    | cons c rest =>
      rw [dropMark, if_neg]
      rintro rfl
      exact hfirst rest rfl

lemma Spells.isWord (h : Spells mark name word) (hmark : isBlank mark = false)
    (hname : IsWord name) : IsWord word := by
  rcases h with rfl | ⟨rfl, -⟩
  · intro c hc
    rcases List.mem_cons.1 hc with rfl | hc
    · exact hmark
    · exact hname c hc
  · exact hname

lemma Spells.ne_nil (h : Spells mark name word) (hname : name ≠ []) : word ≠ [] := by
  rcases h with rfl | ⟨rfl, -⟩
  · simp
  · exact hname

end Spelling

/-! ## Texts -/

/-- The text calls a command, with whatever arguments. -/
def Calls (mark : Char) (name text : String) : Prop :=
  ∃ rest, Breaks rest ∧ text.toList = mark :: (name.toList ++ rest)

/-- The text is a command with a name and a response behind it. -/
def Gives (mark : Char) (command name response text : String) : Prop :=
  ∃ gap word space, IsGap gap ∧ IsGap space ∧ Spells mark name.toList word ∧
    text.toList = mark :: (command.toList ++ (gap ++ (word ++ space ++ response.toList)))

variable {mark : Char} {command name response text : String}

lemma ofText?_of_toList {rest : List Char} (hname : IsWord name.toList) (hrest : Breaks rest)
    (htext : text.toList = mark :: (name.toList ++ rest)) :
    Call.ofText? mark text = some ⟨name, String.ofList (trim rest)⟩ := by
  simp [Call.ofText?, htext, firstWord_append hname hrest, afterFirstWord_append hname hrest]

/-- A call is the mark, a word and something that can follow a word. -/
lemma exists_toList_of_ofText? {call : Call} (h : Call.ofText? mark text = some call) :
    ∃ word rest, text.toList = mark :: (word ++ rest) ∧ IsWord word ∧ Breaks rest ∧
      call = ⟨String.ofList word, String.ofList (trim rest)⟩ := by
  rw [Call.ofText?] at h
  split at h
  · contradiction
  · rename_i c after htext
    split at h
    · rename_i hmark
      refine ⟨firstWord after, afterFirstWord after, ?_, isWord_firstWord after,
        breaks_afterFirstWord after, (Option.some.inj h).symm⟩
      rw [htext, hmark, firstWord_append_afterFirstWord]
    · contradiction

lemma calls_bare (mark : Char) (name : String) : Calls mark name s!"{mark}{name}" :=
  ⟨[], fun c rest heq => by contradiction, by simp [toString]⟩

lemma Calls.exists_ofText? (h : Calls mark name text) (hname : IsWord name.toList) :
    ∃ args, Call.ofText? mark text = some ⟨name, args⟩ := by
  obtain ⟨rest, hrest, htext⟩ := h
  exact ⟨_, ofText?_of_toList hname hrest htext⟩

/-- A text that gives a name and a response is understood so. -/
lemma Gives.exists_ofText? (h : Gives mark command name response text)
    (hmark : isBlank mark = false) (hcommand : IsWord command.toList)
    (hname : isName name = true) (hresponse : IsTrimmed response.toList) :
    ∃ args, Call.ofText? mark text = some ⟨command, args⟩ ∧
      Book.definition? mark args = some (name, response) := by
  obtain ⟨gap, word, space, hgap, hspace, hspells, htext⟩ := h
  have hword := hspells.isWord hmark (isWord_of_isName hname)
  have hne := hspells.ne_nil (ne_nil_of_isName hname)
  have hargs : IsTrimmed (word ++ space ++ response.toList) :=
    (hword.isTrimmed hne).append hresponse space
  have hbreaks := hspace.breaks response.toList
  refine ⟨_, ofText?_of_toList hcommand (hgap.breaks _) htext, ?_⟩
  have htrimmed := hargs.trim_append (List.forall_mem_nil _)
  rw [List.nil_append] at htrimmed
  rw [hargs.trim_append hgap.blank, Book.definition?, String.toList_ofList, htrimmed,
    List.append_assoc, firstWord_append hword hbreaks, afterFirstWord_append hword hbreaks,
    hspells.dropMark_eq, hresponse.trim_append hspace.blank]
  have hsome : response.toList.isEmpty = false := by
    obtain ⟨c, rest, hfirst, -⟩ := hresponse.first
    rw [hfirst, List.isEmpty_cons]
  simp [hsome, ne_nil_of_isName hname]

end Command

end RoomBot
