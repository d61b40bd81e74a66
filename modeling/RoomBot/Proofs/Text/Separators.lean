import Mathlib.Tactic.Lemma

/-!
# Joining and splitting at a separator

What is joined with a separator between the parts is split into the same parts again, as long as
none of them has the separator inside, and the library knows that.  What is added here is what the
joined text looks like behind its first part, that splitting leaves no separator behind, and that a
text falls into two parts at the first separator in it (`span_at`).
-/

namespace RoomBot.Text

variable {α : Type}

lemma intercalate_cons (separator first : List α) (rest : List (List α)) :
    separator.intercalate (first :: rest) = first ++ rest.flatMap (separator ++ ·) := by
  induction rest generalizing first with
  | nil => simp
  | cons next rest ih =>
    rw [List.intercalate_cons_cons, ih next, List.flatMap_cons]
    simp only [List.append_assoc]

/-- None of the parts that a text is split into has the separator inside. -/
lemma notMem_of_mem_splitOn [BEq α] [LawfulBEq α] {separator : α} {text part : List α}
    (h : part ∈ text.splitOn separator) : separator ∉ part := by
  induction text generalizing part with
  | nil =>
    rw [List.splitOn_nil, List.mem_singleton] at h
    simp [h]
  | cons c text ih =>
    rw [List.splitOn_cons_eq_if_modifyHead] at h
    split at h
    · rcases List.mem_cons.1 h with rfl | h
      · simp
      · exact ih h
    · rename_i hne
      obtain ⟨first, parts, hparts⟩ :=
        List.exists_cons_of_ne_nil (List.splitOn_ne_nil separator text)
      rw [hparts] at h ih
      rcases List.mem_cons.1 h with rfl | h
      · rw [List.mem_cons, not_or]
        exact ⟨fun heq => hne (by simp [heq]), ih List.mem_cons_self⟩
      · exact ih (List.mem_cons_of_mem first h)

/-- Whatever stands in one of the parts stands in the text. -/
lemma subset_of_mem_splitOn [BEq α] [LawfulBEq α] {separator : α} {text part : List α}
    (h : part ∈ text.splitOn separator) : part ⊆ text := by
  have hjoined : [separator].intercalate (text.splitOn separator) = text :=
    List.intercalate_splitOn separator
  obtain ⟨first, rest, hparts⟩ := List.exists_cons_of_ne_nil (List.splitOn_ne_nil separator text)
  rw [hparts] at h
  rw [hparts, intercalate_cons] at hjoined
  rw [← hjoined]
  rcases List.mem_cons.1 h with rfl | h
  · exact List.subset_append_left part _
  · intro c hc
    refine List.mem_append_right _ (List.mem_flatMap.2 ⟨part, h, ?_⟩)
    exact List.mem_append_right _ hc

section Span

variable [BEq α] [LawfulBEq α] {separator : α} {before text : List α}

lemma bne_of_notMem (h : separator ∉ text) : ∀ c ∈ text, (c != separator) = true := by
  intro c hc
  rw [bne_iff_ne]
  rintro rfl
  exact h hc

/-- A text falls into two parts at its first separator. -/
theorem span_at (h : separator ∉ before) (after : List α) :
    (before ++ separator :: after).takeWhile (· != separator) = before ∧
      (before ++ separator :: after).dropWhile (· != separator) = separator :: after := by
  constructor
  · rw [List.takeWhile_append_of_pos (bne_of_notMem h)]
    simp
  · rw [List.dropWhile_append_of_pos (bne_of_notMem h)]
    simp

lemma dropWhile_of_notMem (h : separator ∉ text) : text.dropWhile (· != separator) = [] := by
  rw [← List.append_nil text, List.dropWhile_append_of_pos (bne_of_notMem h)]
  rfl

end Span

end RoomBot.Text
