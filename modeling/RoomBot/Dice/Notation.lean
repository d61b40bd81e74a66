/-!
# Dice notation

A group such as `2d6` stands for so many dice with so many sides.  `parts` cuts a term into its
groups and the text between them: reading from the left, every `d` makes a group together with
the digits on both sides of it, as many as there are and as an earlier group has left.  Nothing
else in a term is looked at here.

A group has limits of its own (`Group.check`): at most `maxDice` dice, at least one side and at
most `maxSides` sides, and no more dice than the request has left.
-/

namespace RoomBot.Dice

/-! ## Limits -/

/-- The most dice a single group may ask for. -/
def maxDice : Nat := 100

/-- The most sides a die may have. -/
def maxSides : Nat := 1000000

/-- The most dice all groups of one request may ask for together. -/
def maxTotal : Nat := 200

/-! ## Groups -/

/-- The digits before and after the `d` of a group, as written; either may be missing. -/
structure Group where
  count : List Char
  sides : List Char
deriving DecidableEq, Repr

/-- A group as it stands in the term. -/
def Group.written (g : Group) : List Char := g.count ++ 'd' :: g.sides

/-- A stretch of a term: a group, or text that belongs to none. -/
inductive Part
  | text (cs : List Char)
  | dice (g : Group)
deriving DecidableEq, Repr

theorem length_dropWhile_isDigit_le (cs : List Char) :
    (cs.dropWhile Char.isDigit).length ≤ cs.length :=
  (List.dropWhile_sublist Char.isDigit).length_le

theorem length_lt_of_dropWhile_isDigit {cs after : List Char} {c : Char}
    (h : cs.dropWhile Char.isDigit = c :: after) : after.length < cs.length := by
  have := length_dropWhile_isDigit_le cs
  rw [h, List.length_cons] at this
  omega

/-- The groups of a term and the text between them, in order. -/
def parts (cs : List Char) : List Part :=
  match h : cs.dropWhile Char.isDigit with
  | [] => [.text cs]
  | c :: after =>
    have := length_lt_of_dropWhile_isDigit h
    have := length_dropWhile_isDigit_le after
    if c = 'd' then
      .dice ⟨cs.takeWhile Char.isDigit, after.takeWhile Char.isDigit⟩ ::
        parts (after.dropWhile Char.isDigit)
    else .text (cs.takeWhile Char.isDigit ++ [c]) :: parts after
termination_by cs.length

/-! ## Faults -/

/-- Why a request cannot be rolled. -/
inductive Refusal
  /-- The request is blank. -/
  | nothing
  | tooManyDice (g : Group)
  | noSides (g : Group)
  | tooManySides (g : Group)
  /-- The groups ask for more dice together than a request may. -/
  | overTotal
deriving DecidableEq, Repr

/-- The text of a refusal. -/
def Refusal.message : Refusal → String
  | nothing => "nothing to roll, expected dice such as 2d6+3"
  | tooManyDice g =>
    let group := String.ofList g.written
    s!"too many dice in `{group}` (at most {maxDice})"
  | noSides g =>
    let group := String.ofList g.written
    s!"invalid dice notation `{group}`, dice need a number of sides"
  | tooManySides g =>
    let group := String.ofList g.written
    s!"dice in `{group}` have too many sides (at most {maxSides})"
  | overTotal => s!"too many dice in one roll (at most {maxTotal} in total)"

/-! ## Checking a group -/

namespace Group

/-- How many dice a group asks for. A missing number means one die. -/
def diceCount (g : Group) : Nat :=
  if g.count.isEmpty then 1 else Nat.ofDigitChars 10 g.count 0

/-- How many sides the dice of a group have. A missing number means none. -/
def sideCount (g : Group) : Nat := Nat.ofDigitChars 10 g.sides 0

/-- The dice and the sides of a group, if it keeps to its limits and `budget` dice are enough
for it. The limits are looked at in the order in which the group is written. -/
def check (g : Group) (budget : Nat) : Except Refusal (Nat × Nat) :=
  if g.diceCount > maxDice then .error (.tooManyDice g)
  else if g.sideCount = 0 then .error (.noSides g)
  else if g.sideCount > maxSides then .error (.tooManySides g)
  else if g.diceCount > budget then .error .overTotal
  else .ok (g.diceCount, g.sideCount)

end Group

end RoomBot.Dice
