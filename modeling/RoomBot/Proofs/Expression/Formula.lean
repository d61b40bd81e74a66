import Mathlib
import RoomBot.Proofs.Expression.Level

/-!
# Formulas

A formula is an expression as one means it: numbers, lists of numbers, signs, operators between two
formulas, and groups.  It has a value by itself (`Formula.value`), which knows nothing about how
formulas are written, and in which the left operand comes first.

To write it down one puts parentheses where the levels of the operators need them
(`Formula.bracketed`), and has nothing more to decide (`Formula.written`).  Groups that are not
needed may stand in the formula already.

What is written has the tokens that one expects (`Formula.scans_written`).
-/

namespace RoomBot.Expression

/-! ## Numbers and lists -/

/-- A number in decimal digits, with zeros in front. -/
structure Numeral where
  zeros : Nat
  value : Nat
  fits : value < 2 ^ 63

/-- The digits of a number. -/
def Numeral.written (n : Numeral) : List Char :=
  List.replicate n.zeros '0' ++ Nat.toDigits 10 n.value

/-- What a formula is made of in the end. -/
inductive Atom
  | number (n : Numeral)
  | list (members : List Numeral) (fits : (members.map Numeral.value).sum < 2 ^ 63)

namespace Atom

def value : Atom → Nat
  | number n => n.value
  | list members _ => (members.map Numeral.value).sum

def written : Atom → List Char
  | number n => n.written
  | list members _ => '[' :: ([','].intercalate (members.map Numeral.written) ++ [']'])

end Atom

/-! ## Formulas and their values -/

inductive Sign
  | plus
  | minus

/-- An expression as one means it. -/
inductive Formula
  | atom (atom : Atom)
  | signed (sign : Sign) (operand : Formula)
  | binary (o : Operator) (left right : Formula)
  | group (inner : Formula)

/-- An exact result, if 64 bits with a sign can hold it. -/
def checked (n : Int) : Except String Int :=
  if -2 ^ 63 ≤ n ∧ n < 2 ^ 63 then .ok n else .error "number out of range"

namespace Formula

/-- The value of a formula, or what goes wrong first when operands are evaluated from the left. -/
def value : Formula → Except String Int
  | atom a => .ok a.value
  | signed .plus operand => operand.value
  | signed .minus operand => do
    let a ← operand.value
    checked (-a)
  | binary o left right => do
    let a ← left.value
    let b ← right.value
    match o with
    | .times => checked (a * b)
    | .divided => if b = 0 then .error "division by zero" else checked (a.tdiv b)
    | .plus => checked (a + b)
    | .minus => checked (a - b)
  | group inner => inner.value

/-- The greatest number of groups and signs that a part of the formula stands in. -/
def depth : Formula → Nat
  | atom _ => 0
  | signed _ operand => operand.depth + 1
  | binary _ left right => max left.depth right.depth
  | group inner => inner.depth + 1

/-! ## Parentheses -/

/-- The level of the operator that is applied last. -/
def level : Formula → Nat
  | binary o _ _ => o.level
  | _ => 0

/-- A formula in parentheses, unless its level is low enough. -/
def fence (k : Nat) (formula : Formula) : Formula :=
  if formula.level ≤ k then formula else group formula

/-- A formula with all the parentheses that it needs. Operators associate to the left. -/
def bracketed : Formula → Formula
  | atom a => atom a
  | signed sign operand => signed sign (operand.bracketed.fence 0)
  | binary o left right =>
    binary o (left.bracketed.fence o.level) (right.bracketed.fence (o.level - 1))
  | group inner => group inner.bracketed

/-- No parentheses are missing. -/
def Proper : Formula → Prop
  | atom _ => True
  | signed _ operand => operand.level = 0 ∧ operand.Proper
  | binary o left right =>
    left.level ≤ o.level ∧ right.level < o.level ∧ left.Proper ∧ right.Proper
  | group inner => inner.Proper

lemma level_le (formula : Formula) : formula.level ≤ 4 := by
  cases formula with
  | binary o _ _ => exact o.level_le
  | _ => exact Nat.zero_le 4

lemma level_fence_le (formula : Formula) (k : Nat) : (formula.fence k).level ≤ k := by
  rw [fence]
  split
  · assumption
  · exact Nat.zero_le k

lemma proper_fence {formula : Formula} (h : formula.Proper) (k : Nat) :
    (formula.fence k).Proper := by
  rw [fence]
  split
  · exact h
  · exact h

@[simp] lemma value_fence (formula : Formula) (k : Nat) :
    (formula.fence k).value = formula.value := by
  rw [fence]
  split
  · rfl
  · rfl

lemma proper_bracketed (formula : Formula) : formula.bracketed.Proper := by
  induction formula with
  | atom a => trivial
  | signed sign operand ih =>
    exact ⟨Nat.le_zero.1 (level_fence_le _ 0), proper_fence ih 0⟩
  | binary o left right ihleft ihright =>
    have hright := level_fence_le right.bracketed (o.level - 1)
    have hpos := o.level_pos
    exact ⟨level_fence_le _ _, by omega, proper_fence ihleft _, proper_fence ihright _⟩
  | group inner ih => exact ih

lemma value_bracketed (formula : Formula) : formula.bracketed.value = formula.value := by
  induction formula with
  | atom a => rfl
  | signed sign operand ih =>
    cases sign with
    | plus => rw [bracketed, value, value_fence, ih, value]
    | minus => rw [bracketed, value, value_fence, ih, value]
  | binary o left right ihleft ihright =>
    rw [bracketed, value, value_fence, value_fence, ihleft, ihright, value]
  | group inner ih => exact ih

end Formula

/-! ## Texts and tokens -/

def Sign.operator : Sign → Operator
  | plus => .plus
  | minus => .minus

/-- The character of an operator. -/
def Operator.char : Operator → Char
  | times => '*'
  | divided => '/'
  | plus => '+'
  | minus => '-'

namespace Formula

/-- How a formula is written. -/
def written : Formula → List Char
  | atom a => a.written
  | signed sign operand => sign.operator.char :: operand.written
  | binary o left right => left.written ++ o.char :: right.written
  | group inner => '(' :: (inner.written ++ [')'])

/-- The tokens of a formula. -/
def tokens : Formula → List Token
  | atom a => [.value a.value]
  | signed sign operand => .operator sign.operator :: operand.tokens
  | binary o left right => left.tokens ++ .operator o :: right.tokens
  | group inner => .opening :: (inner.tokens ++ [.closing])

end Formula

/-! ## Scanning what is written -/

namespace Token

/-- The characters are read as these tokens, whatever follows, unless it is one more digit. -/
def Scans (cs : List Char) (ts : List Token) : Prop :=
  ∀ rest, (∀ c ∈ rest.head?, c.isDigit = false) → scan (cs ++ rest) = (scan rest).map (ts ++ ·)

variable {cs ds rest : List Char} {ts : List Token} {t : Token} {c : Char}

lemma scan_of_first? (h : first? cs = .ok (some (t, rest))) :
    scan cs = (scan rest).map (t :: ·) := by
  rw [scan.eq_def]
  split
  · simp_all
  · simp_all
  · rename_i heq
    rw [h] at heq
    obtain ⟨rfl, rfl⟩ : t = _ ∧ rest = _ := by simpa using heq
    rfl

lemma scan_symbol (h : ofChar? c = some t) (rest : List Char) :
    scan (c :: rest) = (scan rest).map (t :: ·) := by
  apply scan_of_first?
  have hplain : c.isDigit = false ∧ c ≠ '[' := by
    unfold ofChar? at h
    split at h <;> first | decide | contradiction
  simp [first?, hplain, h]

@[simp] lemma ofChar?_char (o : Operator) : ofChar? o.char = some (.operator o) := by
  cases o <;> rfl

lemma inRange_natCast {n : Nat} (h : n < 2 ^ 63) : inRange n = .ok (n : Int) := by
  rw [inRange_eq_ok_iff, least, greatest]
  omega

lemma takeWhile_append (p : Char → Bool) (hds : ∀ c ∈ ds, p c = true)
    (hrest : ∀ c ∈ rest.head?, p c = false) :
    (ds ++ rest).takeWhile p = ds ∧ (ds ++ rest).dropWhile p = rest := by
  rw [List.takeWhile_append_of_pos hds, List.dropWhile_append_of_pos hds]
  cases rest with
  | nil => simp
  | cons c rest => simp_all

lemma scans_digits {n : Int} (hne : ds ≠ []) (hds : ∀ c ∈ ds, c.isDigit = true)
    (hvalue : literal ds = .ok n) : Scans ds [.value n] := by
  intro rest hrest
  obtain ⟨c, ds, rfl⟩ := List.exists_cons_of_ne_nil hne
  obtain ⟨hc, hds⟩ := List.forall_mem_cons.1 hds
  obtain ⟨htake, hdrop⟩ := takeWhile_append Char.isDigit hds hrest
  apply scan_of_first?
  simp only [List.cons_append, first?, hc, if_true, htake, hdrop, hvalue]
  rfl

lemma scans_brackets {body : List Char} {n : Int} (hbody : ∀ c ∈ body, isListChar c = true)
    (hvalue : listSum body = .ok n) : Scans ('[' :: (body ++ [']'])) [.value n] := by
  intro rest _
  obtain ⟨htake, hdrop⟩ := @takeWhile_append body (']' :: rest) isListChar hbody (by simp; decide)
  have hbracket : '['.isDigit = false := rfl
  apply scan_of_first?
  simp only [List.cons_append, List.append_assoc, List.nil_append, first?, hbracket,
    Bool.false_eq_true, if_false, if_true, htake, hdrop, hvalue]
  rfl

end Token

namespace Numeral

lemma isDigit_of_mem (n : Numeral) : ∀ c ∈ n.written, c.isDigit = true := by
  intro c hc
  rcases List.mem_append.1 hc with hc | hc
  · rw [List.eq_of_mem_replicate hc]
    rfl
  · exact Nat.isDigit_of_mem_toDigits (by decide) (by decide) hc

@[simp] lemma ofDigitChars_written (n : Numeral) : Nat.ofDigitChars 10 n.written 0 = n.value := by
  rw [written, Nat.ofDigitChars_append, Nat.ofDigitChars_replicate_zero, Nat.mul_zero,
    Nat.ofDigitChars_ten_toDigits]

lemma written_ne_nil (n : Numeral) : n.written ≠ [] :=
  List.append_ne_nil_of_right_ne_nil _ Nat.toDigits_ne_nil

/-- Between the brackets there are digits and commas. -/
lemma isListChar_of_mem (members : List Numeral) :
    ∀ c ∈ [','].intercalate (members.map written), Token.isListChar c = true := by
  induction members with
  | nil => simp
  | cons n members ih =>
    have hn : ∀ c ∈ n.written, Token.isListChar c = true := fun c hc => by
      rw [Token.isListChar, n.isDigit_of_mem c hc, Bool.true_or]
    cases members with
    | nil => simpa using hn
    | cons m members =>
      rw [List.map_cons, List.map_cons, List.intercalate_cons_cons]
      intro c hc
      rw [List.mem_append, List.mem_append, List.mem_singleton] at hc
      rcases hc with (hc | rfl) | hc
      · exact hn c hc
      · rfl
      · exact ih c hc

/-- A list is read member by member; one that has none stands for zero. -/
lemma sum_members (members : List Numeral) :
    (Token.members ([','].intercalate (members.map written))).sum =
      (members.map Numeral.value).sum := by
  cases members with
  | nil => rfl
  | cons n members =>
    have hcomma : ∀ digits ∈ (n :: members).map written, ',' ∉ digits := by
      intro digits hdigits hmem
      obtain ⟨m, -, rfl⟩ := List.mem_map.1 hdigits
      have hdigit := m.isDigit_of_mem _ hmem
      contradiction
    rw [Token.members, List.splitOn_intercalate ',' hcomma (by simp), List.map_map]
    congr 2
    funext m
    exact m.ofDigitChars_written

end Numeral

theorem Atom.scans_written (a : Atom) : Token.Scans a.written [.value a.value] := by
  cases a with
  | number n =>
    refine Token.scans_digits n.written_ne_nil n.isDigit_of_mem ?_
    change inRange (Nat.ofDigitChars 10 n.written 0) = .ok (n.value : Int)
    rw [n.ofDigitChars_written]
    exact Token.inRange_natCast n.fits
  | list members fits =>
    refine Token.scans_brackets (Numeral.isListChar_of_mem members) ?_
    rw [Token.listSum, ← List.sum_eq_foldl, Numeral.sum_members]
    exact Token.inRange_natCast fits

lemma Operator.isDigit_char (o : Operator) : o.char.isDigit = false := by
  cases o <;> rfl

theorem Formula.scans_written (formula : Formula) :
    Token.Scans formula.written formula.tokens := by
  induction formula with
  | atom a => exact a.scans_written
  | signed sign operand ih =>
    intro rest hrest
    rw [written, tokens, List.cons_append, Token.scan_symbol (Token.ofChar?_char _), ih rest hrest]
    cases Token.scan rest <;> rfl
  | binary o left right ihleft ihright =>
    intro rest hrest
    have hsymbol : ∀ c ∈ (o.char :: (right.written ++ rest)).head?, c.isDigit = false := by
      simpa using o.isDigit_char
    rw [written, tokens, List.append_assoc, List.cons_append, ihleft _ hsymbol,
      Token.scan_symbol (Token.ofChar?_char o), ihright rest hrest]
    cases Token.scan rest <;> simp [Except.map]
  | group inner ih =>
    intro rest hrest
    have hsymbol : ∀ c ∈ (')' :: rest).head?, c.isDigit = false := by simp
    have hopening : Token.ofChar? '(' = some .opening := rfl
    have hclosing : Token.ofChar? ')' = some .closing := rfl
    rw [written, tokens, List.cons_append, List.append_assoc, List.singleton_append,
      Token.scan_symbol hopening, ih _ hsymbol, Token.scan_symbol hclosing]
    cases Token.scan rest <;> simp [Except.map]

end RoomBot.Expression
