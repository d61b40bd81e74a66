import RoomBot.Proofs.Expression.Formula

/-!
# Faults

Nothing is evaluated before all tokens of a text have been read.  So a number that is out of range
is a fault wherever it stands, as long as there are only tokens in front of it
(`Token.fails_scan_iff`).
-/

namespace RoomBot.Expression

/-- There is a fault. -/
def Fails {α : Type} (result : Except Fault α) : Prop := ∃ fault, result = .error fault

lemma fails_error {α : Type} (fault : Fault) : Fails (.error fault : Except Fault α) :=
  ⟨fault, rfl⟩

lemma not_fails_ok {α : Type} (a : α) : ¬ Fails (.ok a : Except Fault α) := by
  rintro ⟨fault, hfault⟩
  contradiction

lemma Fails.bind {α β : Type} {x : Except Fault α} (h : Fails x) (f : α → Except Fault β) :
    Fails (x >>= f) := by
  obtain ⟨fault, rfl⟩ := h
  exact fails_error fault

lemma fails_map_iff {α β : Type} {x : Except Fault α} {f : α → β} :
    Fails (x.map f) ↔ Fails x := by
  cases x with
  | error fault => exact iff_of_true (fails_error fault) (fails_error fault)
  | ok a => exact iff_of_false (not_fails_ok _) (not_fails_ok a)

namespace Token

variable {cs : List Char}

/-- The text begins with a number or a list that is out of range. -/
inductive Oversized : List Char → Prop
  | number {digits after : List Char} : digits ≠ [] → (∀ c ∈ digits, c.isDigit = true) →
      (∀ c ∈ after.head?, c.isDigit = false) → greatest < Nat.ofDigitChars 10 digits 0 →
      Oversized (digits ++ after)
  | list {body after : List Char} : (∀ c ∈ body, isListChar c = true) →
      greatest < (members body).sum → Oversized ('[' :: (body ++ ']' :: after))

/-- Only tokens stand in front of the rest of a text. -/
inductive Reaches : List Char → List Char → Prop
  | here (cs : List Char) : Reaches cs cs
  | token {cs middle rest : List Char} {t : Token} :
      first? cs = .ok (some (t, middle)) → Reaches middle rest → Reaches cs rest

lemma fails_inRange_natCast {n : Nat} : Fails (inRange n) ↔ greatest < n := by
  unfold inRange
  split
  · rename_i h
    exact iff_of_false (not_fails_ok _) (by omega)
  · rename_i h
    refine iff_of_true (fails_error _) ?_
    have hleast : least ≤ (n : Int) := by
      unfold least
      omega
    omega

lemma first?_digit {c : Char} {rest : List Char} (hc : c.isDigit = true) :
    first? (c :: rest) = (literal (c :: rest.takeWhile Char.isDigit)).map fun n =>
      some (value n, rest.dropWhile Char.isDigit) := by
  simp only [first?, hc, if_true]
  rfl

lemma first?_bracket {rest after : List Char}
    (hrest : rest.dropWhile isListChar = ']' :: after) :
    first? ('[' :: rest) = (listSum (rest.takeWhile isListChar)).map fun n =>
      some (value n, after) := by
  have hbracket : '['.isDigit = false := rfl
  simp only [first?, hbracket, Bool.false_eq_true, if_false, if_true, hrest]
  rfl

lemma fails_listSum_iff {body : List Char} :
    Fails (listSum body) ↔ greatest < (members body).sum := by
  rw [listSum, fails_inRange_natCast, List.sum_eq_foldl]

lemma oversized_of_fails (h : Fails (first? cs)) : Oversized cs := by
  cases cs with
  | nil => exact absurd h (not_fails_ok none)
  | cons c rest =>
    by_cases hdigit : c.isDigit = true
    · rw [first?_digit hdigit, fails_map_iff, literal, fails_inRange_natCast] at h
      have hdigits : ∀ x ∈ c :: rest.takeWhile Char.isDigit, x.isDigit = true :=
        List.forall_mem_cons.2 ⟨hdigit, fun x hx => List.mem_takeWhile_imp hx⟩
      have hafter : ∀ x ∈ (rest.dropWhile Char.isDigit).head?, x.isDigit = false := by
        intro x hx
        have hnot := List.head?_dropWhile_not Char.isDigit rest
        rwa [hx] at hnot
      have hnumber := Oversized.number (List.cons_ne_nil _ _) hdigits hafter h
      rwa [List.cons_append, List.takeWhile_append_dropWhile] at hnumber
    · by_cases hbracket : c = '['
      · subst hbracket
        by_cases hclosed : ∃ after, rest.dropWhile isListChar = ']' :: after
        · obtain ⟨after, hafter⟩ := hclosed
          rw [first?_bracket hafter, fails_map_iff, fails_listSum_iff] at h
          have hlist := @Oversized.list _ after (fun x hx => List.mem_takeWhile_imp hx) h
          rwa [← hafter, List.takeWhile_append_dropWhile] at hlist
        · refine absurd h ?_
          simp only [first?, hdigit, Bool.false_eq_true, if_false, if_true]
          split
          · rename_i after hafter
            exact absurd ⟨after, hafter⟩ hclosed
          · exact not_fails_ok none
      · refine absurd h ?_
        simp only [first?, hdigit, hbracket, if_false, Bool.false_eq_true]
        exact not_fails_ok _

lemma fails_first?_iff : Fails (first? cs) ↔ Oversized cs := by
  refine ⟨oversized_of_fails, fun h => ?_⟩
  cases h with
  | @number digits after hne hdigits hafter hlarge =>
    obtain ⟨c, digits, rfl⟩ := List.exists_cons_of_ne_nil hne
    obtain ⟨hc, hrest⟩ := List.forall_mem_cons.1 hdigits
    obtain ⟨htake, -⟩ := takeWhile_append Char.isDigit hrest hafter
    rwa [List.cons_append, first?_digit hc, htake, fails_map_iff, literal, fails_inRange_natCast]
  | @list body after hbody hlarge =>
    obtain ⟨htake, hdrop⟩ :=
      @takeWhile_append body (']' :: after) isListChar hbody (by simp; decide)
    rwa [first?_bracket hdrop, htake, fails_map_iff, fails_listSum_iff]

lemma fails_scan_of_fails (h : Fails (first? cs)) : Fails (scan cs) := by
  obtain ⟨fault, hfault⟩ := h
  rw [scan.eq_def]
  split
  · exact fails_error _
  · rename_i hnone
    rw [hfault] at hnone
    contradiction
  · rename_i hsome
    rw [hfault] at hsome
    contradiction

/-- A text cannot be read as tokens exactly if something out of range stands behind tokens. -/
theorem fails_scan_iff : Fails (scan cs) ↔ ∃ rest, Reaches cs rest ∧ Oversized rest := by
  constructor
  · intro h
    induction hn : cs.length using Nat.strongRecOn generalizing cs with
    | ind n ih =>
      rw [scan.eq_def] at h
      split at h
      · rename_i fault hfirst
        exact ⟨cs, .here cs, fails_first?_iff.1 ⟨fault, hfirst⟩⟩
      · exact absurd h (not_fails_ok [])
      · rename_i t rest hfirst
        rw [fails_map_iff] at h
        obtain ⟨last, hreaches, hlast⟩ := ih _ (hn ▸ length_lt_of_first? hfirst) h rfl
        exact ⟨last, .token hfirst hreaches, hlast⟩
  · rintro ⟨rest, hreaches, hrest⟩
    induction hreaches with
    | here cs => exact fails_scan_of_fails (fails_first?_iff.2 hrest)
    | token hfirst _ ih =>
      rw [scan_of_first? hfirst, fails_map_iff]
      exact ih hrest

end Token

end RoomBot.Expression
