import RoomBot.Proofs.Expression.Rewriting
import RoomBot.Proofs.Text.Decimal

/-!
# Sums

Numbers and lists with a `+` between them are added from the left, and every sum on the way has to
be in range.  None of them is less than the one before, so the last one alone decides: a text that
is such a sum is worth its exact sum, or it is out of range (`solve_added`).
-/

namespace RoomBot.Expression

open Text (compact isBlank)

/-! ## Adding up -/

lemma inRange_natCast_of_le {n : Nat} (h : 2 ^ 63 ≤ n) : inRange n = .error .outOfRange := by
  rw [inRange, if_neg]
  rw [greatest]
  omega

/-- A sum on the way makes no difference, since nothing is less than zero. -/
lemma inRange_bind_add (m n : Nat) :
    (inRange m >>= fun a => inRange (a + n)) = inRange (m + n : Nat) := by
  by_cases hm : m < 2 ^ 63
  · rw [Token.inRange_natCast hm, Nat.cast_add]
    rfl
  · have hlarge : 2 ^ 63 ≤ m := Nat.le_of_not_lt hm
    rw [inRange_natCast_of_le hlarge, inRange_natCast_of_le (Nat.le_add_right_of_le hlarge)]
    rfl

lemma Atom.value_lt (a : Atom) : a.value < 2 ^ 63 := by
  cases a with
  | number n => exact n.fits
  | list members fits => exact fits

/-- A formula that is written like this, and is worth `n` if that is in range. -/
structure Formula.IsSum (formula : Formula) (cs : List Char) (n : Nat) : Prop where
  proper : formula.Proper
  level : formula.level ≤ Operator.plus.level
  written : formula.written = cs
  value : ∀ room, formula.valueWithin room = inRange n

namespace Formula

lemma isSum_atom (a : Atom) : (atom a).IsSum a.written a.value where
  proper := trivial
  level := Nat.zero_le _
  written := rfl
  value _ := (Token.inRange_natCast a.value_lt).symm

variable {formula : Formula} {cs : List Char} {n : Nat}

lemma IsSum.plus (h : formula.IsSum cs n) (a : Atom) :
    (binary .plus formula (atom a)).IsSum (cs ++ '+' :: a.written) (n + a.value) where
  proper := ⟨h.level, Operator.level_pos _, h.proper, trivial⟩
  level := Nat.le_refl _
  written := by rw [Formula.written, h.written]; rfl
  value room := by
    rw [valueWithin, h.value, ← inRange_bind_add]
    rfl

lemma IsSum.exists_append (h : formula.IsSum cs n) (atoms : List Atom) :
    ∃ whole : Formula, whole.IsSum (cs ++ atoms.flatMap fun a => '+' :: a.written)
      (n + (atoms.map Atom.value).sum) := by
  induction atoms generalizing formula cs n with
  | nil => exact ⟨formula, by simpa using h⟩
  | cons a atoms ih =>
    obtain ⟨whole, hwhole⟩ := ih (h.plus a)
    refine ⟨whole, ?_⟩
    rwa [List.append_assoc, Nat.add_assoc] at hwhole

end Formula

/-! ## Sums as texts -/

/-- Texts with a `+` between them. -/
def added (texts : List (List Char)) : List Char := ['+'].intercalate texts

lemma added_cons (first : List Char) (rest : List (List Char)) :
    added (first :: rest) = first ++ rest.flatMap ('+' :: ·) := by
  induction rest generalizing first with
  | nil => rw [added, List.intercalate_singleton, List.flatMap_nil, List.append_nil]
  | cons second rest ih =>
    rw [added, List.intercalate_cons_cons, ← added, ih, List.flatMap_cons, List.append_assoc]
    rfl

lemma added_cons_cons (first second : List Char) (rest : List (List Char)) :
    added (first :: second :: rest) = first ++ '+' :: added (second :: rest) := by
  rw [added_cons, added_cons, List.flatMap_cons, List.cons_append]

lemma mem_added {texts : List (List Char)} {c : Char} (hc : c ∈ added texts) :
    c = '+' ∨ ∃ text ∈ texts, c ∈ text := by
  cases texts with
  | nil => simp [added] at hc
  | cons first rest =>
    rw [added_cons, List.mem_append, List.mem_flatMap] at hc
    rcases hc with hc | ⟨text, htext, hc⟩
    · exact .inr ⟨first, List.mem_cons_self, hc⟩
    · rcases List.mem_cons.1 hc with rfl | hc
      · exact .inl rfl
      · exact .inr ⟨text, List.mem_cons_of_mem first htext, hc⟩

/-- Numbers and lists with a `+` between them, and blanks anywhere, are worth their sum, unless it
is out of range. -/
theorem solve_added {atoms : List Atom} (hne : atoms ≠ []) {s : String}
    (h : compact s.toList = added (atoms.map Atom.written)) :
    solve s = inRange ((atoms.map Atom.value).sum : Nat) := by
  obtain ⟨first, rest, rfl⟩ := List.exists_cons_of_ne_nil hne
  obtain ⟨whole, hwhole⟩ := (Formula.isSum_atom first).exists_append rest
  rw [List.map_cons, added_cons, List.flatMap_map] at h
  rw [solve_of_written hwhole.proper (h.trans hwhole.written.symm), hwhole.value, List.map_cons,
    List.sum_cons]

/-! ## No blanks -/

lemma isBlank_of_isListChar {c : Char} (h : Token.isListChar c = true) : isBlank c = false := by
  rw [Token.isListChar, Bool.or_eq_true, beq_iff_eq] at h
  rcases h with hdigit | rfl
  · exact Text.isBlank_of_isDigit hdigit
  · decide

lemma Atom.isBlank_of_mem (a : Atom) : ∀ c ∈ a.written, isBlank c = false := by
  cases a with
  | number n => exact fun c hc => Text.isBlank_of_isDigit (n.isDigit_of_mem c hc)
  | list members fits =>
    intro c hc
    rw [written, List.mem_cons, List.mem_append, List.mem_singleton] at hc
    rcases hc with rfl | hc | rfl
    · decide
    · exact isBlank_of_isListChar (Numeral.isListChar_of_mem members c hc)
    · decide

lemma compact_added (atoms : List Atom) :
    compact (added (atoms.map Atom.written)) = added (atoms.map Atom.written) := by
  rw [compact, List.filter_eq_self]
  intro c hc
  rw [Bool.not_eq_true']
  rcases mem_added hc with rfl | ⟨text, htext, hc⟩
  · decide
  · obtain ⟨a, -, rfl⟩ := List.mem_map.1 htext
    exact a.isBlank_of_mem c hc

end RoomBot.Expression
