import RoomBot.Proofs.Command.Typed

/-!
# What trimming leaves

Trimming takes blanks off both ends of a text and nothing else.  So a text that is trimmed comes out
of any blanks around it to the letter (`IsTrimmed.trim_between`); of one that begins with a trimmed
word all is left up to the last character that is not blank (`IsTrimmed.trim_append_append`); and
whatever the text, what is left stands in it in the same order (`trim_sublist`).
-/

namespace RoomBot.Text

variable {cs gap left right tail word : List Char}

lemma notMem_of_isBlankText {c : Char} (hc : isBlank c = false) (h : isBlankText cs = true) :
    c ∉ cs := by
  intro hmem
  rw [List.all_eq_true.1 h c hmem] at hc
  contradiction

/-! ## Blanks at the end -/

lemma exists_trimEnd_append (cs : List Char) :
    ∃ blanks, isBlankText blanks = true ∧ cs = trimEnd cs ++ blanks := by
  refine ⟨(cs.reverse.takeWhile isBlank).reverse, ?_, ?_⟩
  · rw [isBlankText, List.all_reverse]
    exact List.all_takeWhile
  · rw [trimEnd, ← List.reverse_append, List.takeWhile_append_dropWhile, List.reverse_reverse]

lemma breaks_trimEnd (h : Breaks tail) : Breaks (trimEnd tail) := by
  obtain ⟨blanks, -, htail⟩ := exists_trimEnd_append tail
  intro c rest heq
  refine h c (rest ++ blanks) ?_
  rw [htail, heq, List.cons_append]

lemma IsTrimmed.trimEnd_between (h : IsTrimmed cs) (left : List Char)
    (hright : isBlankText right = true) : trimEnd (left ++ (cs ++ right)) = left ++ cs := by
  obtain ⟨rest, c, rfl, hc⟩ := h.last
  rw [isBlankText, List.all_eq_true] at hright
  rw [trimEnd, ← List.append_assoc, List.reverse_append,
    List.dropWhile_append_of_pos fun d hd => hright d (List.mem_reverse.1 hd), ← List.append_assoc,
    List.reverse_append, List.reverse_singleton, List.singleton_append,
    List.dropWhile_cons_of_neg (by simp [hc])]
  simp

/-- What follows a trimmed text, without the blanks at its end, makes a trimmed text with it. -/
lemma IsTrimmed.append_trimEnd (h : IsTrimmed word) (tail : List Char) :
    IsTrimmed (word ++ trimEnd tail) where
  first := by
    obtain ⟨c, rest, rfl, hc⟩ := h.first
    exact ⟨c, rest ++ trimEnd tail, rfl, hc⟩
  last := by
    cases hend : tail.reverse.dropWhile isBlank with
    | nil =>
      rw [trimEnd, hend, List.reverse_nil, List.append_nil]
      exact h.last
    | cons c rest =>
      have hnot := List.head?_dropWhile_not isBlank tail.reverse
      rw [hend] at hnot
      refine ⟨word ++ rest.reverse, c, ?_, hnot⟩
      rw [trimEnd, hend, List.reverse_cons, List.append_assoc]

/-! ## Blanks at both ends -/

lemma trim_of_isBlankText (h : isBlankText cs = true) : trim cs = [] := by
  rw [trim, trimStart_eq_nil_iff.2 h]
  rfl

lemma IsTrimmed.trimStart_eq (h : IsTrimmed cs) : trimStart cs = cs := by
  obtain ⟨c, rest, rfl, hc⟩ := h.first
  rw [trimStart, List.dropWhile_cons_of_neg (by simp [hc])]

lemma IsTrimmed.trim_eq (h : IsTrimmed cs) : trim cs = cs :=
  @trim_append [] cs h (List.forall_mem_nil _)

/-- Trimming a trimmed text takes away the blanks on both sides, and nothing else. -/
theorem IsTrimmed.trim_between (h : IsTrimmed cs) (hleft : isBlankText left = true)
    (hright : isBlankText right = true) : trim (left ++ (cs ++ right)) = cs := by
  have hstart : trimStart (left ++ (cs ++ right)) = cs ++ right := by
    rw [isBlankText, List.all_eq_true] at hleft
    obtain ⟨c, rest, rfl, hc⟩ := h.first
    rw [trimStart, List.dropWhile_append_of_pos hleft, List.cons_append,
      List.dropWhile_cons_of_neg (by simp [hc])]
  rw [trim, hstart]
  exact h.trimEnd_between [] hright

/-- A trimmed text is where trimming begins, and it goes on to the last character that is not
blank. -/
theorem IsTrimmed.trim_append_append (h : IsTrimmed word) (hgap : isBlankText gap = true)
    (tail : List Char) : trim (gap ++ (word ++ tail)) = word ++ trimEnd tail := by
  obtain ⟨blanks, hblanks, htail⟩ := exists_trimEnd_append tail
  have htrim := (h.append_trimEnd tail).trim_between hgap hblanks
  rwa [List.append_assoc, ← htail] at htrim

/-! ## What is left -/

lemma trimEnd_sublist (cs : List Char) : (trimEnd cs).Sublist cs := by
  have hreverse := (@List.dropWhile_sublist _ cs.reverse isBlank).reverse
  rwa [List.reverse_reverse] at hreverse

/-- What is left of a text stands in it in the same order. -/
theorem trim_sublist (cs : List Char) : (trim cs).Sublist cs :=
  (trimEnd_sublist (trimStart cs)).trans (List.dropWhile_sublist isBlank)

end RoomBot.Text
