import RoomBot.Expression.Arithmetic
import RoomBot.Text.Blank

/-!
# Tokens of an expression

A text is read as operators, parentheses and values.  A value is a run of decimal digits, or a
bracket list such as `[1,2,3]`, which stands for the sum of its members; a list may hold nothing
but digits and commas, and its empty members count for nothing.

Reading stops for good at the first character that fits none of this, a bracket that opens no
such list included: the tokens before it are the whole expression.  A value out of range is a
fault even where the evaluation would never come to it.
-/

namespace RoomBot.Expression

/-- The parts an expression is made of. The signs are the operators `plus` and `minus`. -/
inductive Token
  | value (n : Int)
  | operator (o : Operator)
  | opening
  | closing
deriving DecidableEq, Repr

namespace Token

/-! ## Values -/

/-- The number that a run of decimal digits stands for. -/
def literal (digits : List Char) : Except Fault Int :=
  inRange (Nat.ofDigitChars 10 digits 0)

/-- What may stand between the brackets of a list. -/
def isListChar (c : Char) : Bool := c.isDigit || c == ','

/-- The members of a list, from the text between its brackets. -/
def members (body : List Char) : List Nat :=
  (body.splitOn ',').map fun digits => Nat.ofDigitChars 10 digits 0

/-- The number that a list stands for. -/
def listSum (body : List Char) : Except Fault Int :=
  inRange ((members body).foldl (· + ·) 0 : Nat)

/-! ## One token -/

/-- The tokens of a single character. -/
def ofChar? : Char → Option Token
  | '+' => some (operator .plus)
  | '-' => some (operator .minus)
  | '*' => some (operator .times)
  | '/' => some (operator .divided)
  | '(' => some opening
  | ')' => some closing
  | _ => none

/-- The first token of a text and what follows it, if the text starts with one. -/
def first? (cs : List Char) : Except Fault (Option (Token × List Char)) :=
  match cs with
  | [] => .ok none
  | c :: rest =>
    if c.isDigit then do
      let n ← literal (c :: rest.takeWhile Char.isDigit)
      return some (value n, rest.dropWhile Char.isDigit)
    else if c = '[' then
      match rest.dropWhile isListChar with
      | ']' :: after => do
        let n ← listSum (rest.takeWhile isListChar)
        return some (value n, after)
      | _ => .ok none
    else .ok ((ofChar? c).map (·, rest))

theorem length_dropWhile_le (p : Char → Bool) (cs : List Char) :
    (cs.dropWhile p).length ≤ cs.length :=
  (List.dropWhile_sublist p).length_le

/-- A token takes up at least one character. -/
theorem length_lt_of_first? {cs rest : List Char} {t : Token}
    (h : first? cs = .ok (some (t, rest))) : rest.length < cs.length := by
  match cs with
  | [] => simp [first?] at h
  | c :: cs =>
    simp only [first?] at h
    split at h
    · have := length_dropWhile_le Char.isDigit cs
      cases hl : literal (c :: cs.takeWhile Char.isDigit) <;>
        simp [hl, bind, Except.bind, pure, Except.pure] at h
      obtain ⟨-, rfl⟩ := h
      simp only [List.length_cons]
      omega
    · split at h
      · have hle := length_dropWhile_le isListChar cs
        split at h
        · rename_i after hd
          rw [hd] at hle
          cases hl : listSum (cs.takeWhile isListChar) <;>
            simp [hl, bind, Except.bind, pure, Except.pure] at h
          obtain ⟨-, rfl⟩ := h
          simp only [List.length_cons] at hle ⊢
          omega
        · simp at h
      · cases ho : ofChar? c <;> simp_all

/-! ## All tokens -/

/-- The tokens of a text without blanks, up to the first character that starts none. -/
def scan (cs : List Char) : Except Fault (List Token) :=
  match h : first? cs with
  | .error fault => .error fault
  | .ok none => .ok []
  | .ok (some (t, rest)) =>
    have := length_lt_of_first? h
    (scan rest).map (t :: ·)
termination_by cs.length

/-- The tokens of a text. Blanks count for nothing, even inside a number. -/
def ofText (s : String) : Except Fault (List Token) :=
  scan (Text.compact s.toList)

end Token

end RoomBot.Expression
