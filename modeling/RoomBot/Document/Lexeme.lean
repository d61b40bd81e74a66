import RoomBot.Document.Literal

/-!
# Lexemes of a JSON document

A document is cut into brackets, separators, string literals and atoms; an atom is a number or
one of `true`, `false` and `null`, whose values nobody asks for.  Only four characters may stand
between lexemes.  Numbers are well formed when they have no needless leading zero and a digit
wherever one has to be; they may be as large as they like.
-/

namespace RoomBot.Document

/-- The smallest parts of a document. -/
inductive Lexeme
  | openObject
  | closeObject
  | openArray
  | closeArray
  | colon
  | comma
  /-- A string literal; `none` is a literal that is no text. -/
  | text (value : Option String)
  /-- A number, `true`, `false` or `null`. -/
  | atom
deriving DecidableEq, Repr

namespace Lexeme

/-- What may stand between two lexemes. -/
def isGap (c : Char) : Bool := c == ' ' || c == '\n' || c == '\t' || c == '\r'

/-! ## Numbers -/

/-- What follows a run of digits, if there is one. -/
def afterDigits? : List Char → Option (List Char)
  | [] => none
  | c :: rest => if c.isDigit then some (rest.dropWhile Char.isDigit) else none

/-- What follows the whole part of a number. A zero stands alone. -/
def afterWhole? : List Char → Option (List Char)
  | '0' :: rest => some rest
  | cs => afterDigits? cs

/-- What follows the decimal places of a number, if it has any. -/
def afterPlaces? : List Char → Option (List Char)
  | '.' :: rest => afterDigits? rest
  | cs => some cs

/-- What follows the sign of an exponent, if it has one. -/
def afterSign : List Char → List Char
  | '+' :: rest => rest
  | '-' :: rest => rest
  | cs => cs

/-- What follows the exponent of a number, if it has one. -/
def afterExponent? : List Char → Option (List Char)
  | 'e' :: rest => afterDigits? (afterSign rest)
  | 'E' :: rest => afterDigits? (afterSign rest)
  | cs => some cs

/-- What follows a number without its sign. -/
def afterNumber? (cs : List Char) : Option (List Char) :=
  ((afterWhole? cs).bind afterPlaces?).bind afterExponent?

/-! ## One lexeme -/

/-- The first lexeme of a text that starts with one, and what follows it. -/
def first? : List Char → Option (Lexeme × List Char)
  | [] => none
  | '\x7b' :: rest => some (openObject, rest)
  | '\x7d' :: rest => some (closeObject, rest)
  | '[' :: rest => some (openArray, rest)
  | ']' :: rest => some (closeArray, rest)
  | ':' :: rest => some (colon, rest)
  | ',' :: rest => some (comma, rest)
  | '"' :: rest =>
    (Literal.read? rest).map fun (pieces, after) =>
      (text ((Literal.assemble? pieces).map String.ofList), after)
  | 't' :: 'r' :: 'u' :: 'e' :: rest => some (atom, rest)
  | 'f' :: 'a' :: 'l' :: 's' :: 'e' :: rest => some (atom, rest)
  | 'n' :: 'u' :: 'l' :: 'l' :: rest => some (atom, rest)
  | '-' :: rest => (afterNumber? rest).map (atom, ·)
  | cs => (afterNumber? cs).map (atom, ·)

theorem length_lt_of_afterDigits? {cs after : List Char} (h : afterDigits? cs = some after) :
    after.length < cs.length := by
  cases cs with
  | nil => simp [afterDigits?] at h
  | cons c rest =>
    simp only [afterDigits?] at h
    split at h
    · obtain rfl := Option.some.inj h
      have := (List.dropWhile_sublist Char.isDigit (l := rest)).length_le
      simp only [List.length_cons]
      omega
    · simp at h

theorem length_lt_of_afterWhole? {cs after : List Char} (h : afterWhole? cs = some after) :
    after.length < cs.length := by
  unfold afterWhole? at h
  split at h
  · simp_all
  · exact length_lt_of_afterDigits? h

theorem length_le_of_afterPlaces? {cs after : List Char} (h : afterPlaces? cs = some after) :
    after.length ≤ cs.length := by
  unfold afterPlaces? at h
  split at h
  · have := length_lt_of_afterDigits? h
    simp only [List.length_cons]
    omega
  · simp_all

theorem length_afterSign_le (cs : List Char) : (afterSign cs).length ≤ cs.length := by
  unfold afterSign
  split <;> simp

theorem length_le_of_afterExponent? {cs after : List Char}
    (h : afterExponent? cs = some after) : after.length ≤ cs.length := by
  unfold afterExponent? at h
  split at h
  · rename_i rest
    have := length_lt_of_afterDigits? h
    have := length_afterSign_le rest
    simp only [List.length_cons]
    omega
  · rename_i rest
    have := length_lt_of_afterDigits? h
    have := length_afterSign_le rest
    simp only [List.length_cons]
    omega
  · simp_all

theorem length_lt_of_afterNumber? {cs after : List Char} (h : afterNumber? cs = some after) :
    after.length < cs.length := by
  simp only [afterNumber?, Option.bind_eq_some_iff] at h
  obtain ⟨places, ⟨whole, hw, hp⟩, he⟩ := h
  have := length_lt_of_afterWhole? hw
  have := length_le_of_afterPlaces? hp
  have := length_le_of_afterExponent? he
  omega

/-- A lexeme takes up at least one character. -/
theorem length_lt_of_first? {cs after : List Char} {lexeme : Lexeme}
    (h : first? cs = some (lexeme, after)) : after.length < cs.length := by
  unfold first? at h
  split at h
  case h_1 => simp at h
  case h_8 rest =>
    obtain ⟨⟨pieces, after'⟩, hr, h⟩ := Option.map_eq_some_iff.1 h
    obtain ⟨-, rfl⟩ := Prod.mk.inj h
    have := Literal.length_lt_of_read? hr
    simp only [List.length_cons]
    omega
  case h_12 rest =>
    obtain ⟨after', hn, h⟩ := Option.map_eq_some_iff.1 h
    obtain ⟨-, rfl⟩ := Prod.mk.inj h
    have := length_lt_of_afterNumber? hn
    simp only [List.length_cons]
    omega
  case h_13 =>
    obtain ⟨after', hn, h⟩ := Option.map_eq_some_iff.1 h
    obtain ⟨-, rfl⟩ := Prod.mk.inj h
    exact length_lt_of_afterNumber? hn
  all_goals
    obtain ⟨-, rfl⟩ : _ ∧ _ = after := by simpa using h
    simp only [List.length_cons]
    omega

/-- A literal that was written is a single lexeme, whatever follows it. -/
theorem first?_quote (value rest : List Char) :
    first? (Literal.quote value ++ rest) = some (text (some (String.ofList value)), rest) := by
  simp [Literal.quote, first?]

/-! ## All lexemes -/

/-- The lexemes of a text, if it has nothing else in it. -/
def scan? (cs : List Char) : Option (List Lexeme) :=
  match cs with
  | [] => some []
  | c :: rest =>
    if isGap c then scan? rest
    else
      match h : first? (c :: rest) with
      | none => none
      | some (lexeme, after) =>
        have := length_lt_of_first? h
        (scan? after).map (lexeme :: ·)
termination_by cs.length
decreasing_by
  · exact Nat.lt_succ_self rest.length
  · assumption

end Lexeme

end RoomBot.Document
