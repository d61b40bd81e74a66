import RoomBot.Proofs.Expression.Formula
import RoomBot.Proofs.Text.Decimal

/-!
# Where a text ends

A character that is neither blank nor a part of any token ends a text for good: what comes before it
is solved as if it were the whole text, whatever follows (`isForeign_iff_ends`).  This is so inside
a bracket list and inside a group as well.  A list that is still open would have to go on with
digits and commas up to its closing bracket, so it is no list, and the text ended in front of it
already.  A group that is still open stays open: the parentheses behind the character are never
read.

Nothing else ends a text.  A blank is dropped, and all the other characters belong to some token.
-/

namespace RoomBot.Expression

open Text (compact isBlank)

namespace Token

/-- A character that is not blank and that no token is made of. -/
def IsForeign (c : Char) : Prop :=
  isBlank c = false ∧ c.isDigit = false ∧ c ∉ ['+', '-', '*', '/', '(', ')', '[', ']', ',']

/-! ## Runs of characters -/

section Runs

variable {α : Type} {p : α → Bool} {c : α}

lemma takeWhile_append_cons (h : p c = false) (cs ds : List α) :
    (cs ++ c :: ds).takeWhile p = cs.takeWhile p := by
  induction cs with
  | nil => simp [h]
  | cons b cs ih => rw [List.cons_append, List.takeWhile_cons, List.takeWhile_cons, ih]

lemma dropWhile_append_cons (h : p c = false) (cs ds : List α) :
    (cs ++ c :: ds).dropWhile p = cs.dropWhile p ++ c :: ds := by
  induction cs with
  | nil => simp [h]
  | cons b cs ih =>
    rw [List.cons_append, List.dropWhile_cons, List.dropWhile_cons, ih]
    split
    · rfl
    · rfl

end Runs

/-! ## Scanning up to a foreign character -/

variable {c : Char}

lemma IsForeign.isListChar (h : IsForeign c) : isListChar c = false := by
  have hcomma : c ≠ ',' := by
    rintro rfl
    exact h.2.2 (by decide)
  simp [Token.isListChar, h.2.1, hcomma]

lemma IsForeign.ofChar?_eq_none (h : IsForeign c) : ofChar? c = none := by
  unfold ofChar?
  split
  all_goals first | rfl | exact absurd (by decide) h.2.2

/-- What follows a foreign character is handed on with the rest of the text, and no token is read
from it. -/
lemma IsForeign.first?_append (h : IsForeign c) (cs ds : List Char) :
    first? (cs ++ c :: ds) =
      (first? cs).map (Option.map fun (t, rest) => (t, rest ++ c :: ds)) := by
  have hbracket : c ≠ '[' ∧ c ≠ ']' := by
    constructor
    all_goals
      rintro rfl
      exact h.2.2 (by decide)
  cases cs with
  | nil => simp [first?, h.2.1, hbracket.1, h.ofChar?_eq_none, Except.map]
  | cons b cs =>
    simp only [List.cons_append, first?, takeWhile_append_cons h.2.1,
      dropWhile_append_cons h.2.1, takeWhile_append_cons h.isListChar,
      dropWhile_append_cons h.isListChar]
    split
    · cases literal (b :: cs.takeWhile Char.isDigit) <;> rfl
    · split
      · -- A list is closed in front of the character or not at all.
        rcases cs.dropWhile Token.isListChar with _ | ⟨d, after⟩
        · simp [hbracket.2, Except.map]
        · by_cases hd : d = ']'
          · subst hd
            cases listSum (cs.takeWhile Token.isListChar) <;> rfl
          · simp [hd, Except.map]
      · cases ofChar? b <;> rfl

/-- The first token, and then those of the rest. -/
lemma scan_eq (cs : List Char) :
    scan cs = first? cs >>= fun
      | none => .ok []
      | some (t, rest) => (scan rest).map (t :: ·) := by
  cases hfirst : first? cs with
  | error fault =>
    rw [scan.eq_def]
    split
    all_goals simp_all [bind, Except.bind]
  | ok found =>
    cases found with
    | none =>
      rw [scan.eq_def]
      split
      all_goals simp_all [bind, Except.bind]
    | some found => exact scan_of_first? hfirst

/-- No token of a text is found behind a foreign character. -/
lemma IsForeign.scan_append (h : IsForeign c) (cs ds : List Char) :
    scan (cs ++ c :: ds) = scan cs := by
  induction hn : cs.length using Nat.strongRecOn generalizing cs with
  | ind n ih =>
    rw [scan_eq, scan_eq cs, h.first?_append]
    cases hfirst : first? cs with
    | error fault => rfl
    | ok found =>
      cases found with
      | none => rfl
      | some found =>
        obtain ⟨t, rest⟩ := found
        have hshorter : rest.length < n := hn ▸ length_lt_of_first? hfirst
        exact congrArg (Except.map (t :: ·)) (ih _ hshorter rest rfl)

lemma IsForeign.ofText_append (h : IsForeign c) (s t : String) :
    ofText (s ++ String.singleton c ++ t) = ofText s := by
  have hc : compact [c] = [c] := by simp [compact, h.1]
  rw [ofText, ofText, String.toList_append, String.toList_append, String.toList_singleton,
    Text.compact_append, Text.compact_append, hc, List.append_assoc, List.singleton_append,
    h.scan_append]

end Token

/-! ## What ends a text -/

lemma solve_congr {s t : String} (h : compact s.toList = compact t.toList) :
    solve s = solve t := by
  rw [solve, solve, Token.ofText, Token.ofText, h]

variable {c : Char}

/-- Two digits are one number, not two. -/
lemma solve_one_digit (hdigit : c.isDigit = true) :
    ∃ n : Nat, 10 ≤ n ∧ solve ("1" ++ String.singleton c ++ "") = .ok n := by
  have hdigits : ∀ d ∈ ['1', c], d.isDigit = true := by simpa using hdigit
  obtain ⟨-, hnine⟩ : '0'.toNat ≤ c.toNat ∧ c.toNat ≤ 57 := Char.isDigit_iff_toNat.1 hdigit
  have hvalue : Token.literal ['1', c] = .ok (10 + (c.toNat - 48) : Nat) := by
    have hsum : Nat.ofDigitChars 10 ['1', c] 0 = 10 + (c.toNat - 48) := rfl
    rw [Token.literal, hsum]
    exact Token.inRange_natCast (by omega)
  have hscan := Token.scans_digits (by simp) hdigits hvalue [] (by simp)
  refine ⟨10 + (c.toNat - 48), Nat.le_add_right _ _, ?_⟩
  have hcompact : compact ("1" ++ String.singleton c ++ "").toList = ['1', c] ++ [] := by
    have hone : isBlank '1' = false := by decide
    simp [compact, hone, Text.isBlank_of_isDigit hdigit]
  rw [solve, Token.ofText, hcompact, hscan]
  cbv

/-- Every character that tokens are made of makes a difference somewhere. -/
lemma exists_solve_ne (hc : c ∈ ['+', '-', '*', '/', '(', ')', '[', ']', ',']) :
    ∃ s t : String, solve (s ++ String.singleton c ++ t) ≠ solve s := by
  simp only [List.mem_cons, List.not_mem_nil, or_false] at hc
  rcases hc with rfl | rfl | rfl | rfl | rfl | rfl | rfl | rfl | rfl
  · exact ⟨"1", "1", by cbv; simp⟩
  · exact ⟨"1", "1", by cbv; simp⟩
  · exact ⟨"2", "2", by cbv; simp⟩
  · exact ⟨"4", "2", by cbv; simp⟩
  · exact ⟨"", "1)", by cbv; simp⟩
  · exact ⟨"(1", "", by cbv; simp⟩
  · exact ⟨"", "1]", by cbv; simp⟩
  · exact ⟨"[1", "", by cbv; simp⟩
  · exact ⟨"[1", "1]", by cbv; simp⟩

/-- A text ends for good in front of a character, whatever the text and what follows it, exactly if
the character is not blank and belongs to no token. -/
theorem isForeign_iff_ends (c : Char) :
    Token.IsForeign c ↔ ∀ s t : String, solve (s ++ String.singleton c ++ t) = solve s := by
  constructor
  · intro h s t
    rw [solve, solve, h.ofText_append]
  · intro h
    have hone : solve "1" = .ok 1 := by cbv
    have hblank : isBlank c = false := by
      by_contra hblank
      rw [Bool.not_eq_false] at hblank
      have hcompact : compact ("1" ++ String.singleton c ++ "1").toList = compact "11".toList := by
        simp [compact, List.filter_cons, hblank]
      have heleven : solve "11" = .ok 11 := by cbv
      have hsame := h "1" "1"
      rw [solve_congr hcompact, heleven, hone] at hsame
      contradiction
    have hdigit : c.isDigit = false := by
      by_contra hdigit
      rw [Bool.not_eq_false] at hdigit
      obtain ⟨n, hn, hvalue⟩ := solve_one_digit hdigit
      have hsame := h "1" ""
      rw [hvalue, hone, Except.ok.injEq] at hsame
      omega
    refine ⟨hblank, hdigit, fun hc => ?_⟩
    obtain ⟨s, t, hne⟩ := exists_solve_ne hc
    exact hne (h s t)

/-- In a list that is still open, in front of its closing bracket. -/
example : solve "2+[1,2;3]" = solve "2+[1,2" := by cbv

end RoomBot.Expression
