import Mathlib.Tactic.Lemma
import RoomBot.Expression.Evaluation

/-!
# Reading by position

Expressions can also be read without handing what is left from reader to reader.  A cursor stands at
a position among all the tokens of a text and counts how deep in signs and groups it is.  It moves
on token by token, and where an operator, a sign or a group turns out to be of no use it goes back
to where that began.

The routines call one another.  A `chain` is a `part`, which is then extended by the operator of its
level.  A part is a chain of the next tighter level or, on the tightest, a `signed` operand, and
behind the signs there is an `atom`: a value, or a group with a chain of the loosest level in it.

How far a chain goes on depends on where its parts leave the cursor.  With a part that takes nothing
it might go on forever, so it stops there with neither a result nor a fault.
-/

namespace RoomBot.Expression

/-- A place among the tokens of a text, and how many signs and groups have been entered there.
Text that is no token stands as `none`. -/
structure Cursor where
  tokens : List (Option Token)
  position : Nat
  depth : Nat
deriving DecidableEq, Repr

/-- What comes of reading: a result or a fault, or `none` if there were no end to it. -/
abbrev Attempt := ExceptT Fault Option

/-- A level of operators, by its place in their order. -/
abbrev Level := Fin Operator.order.length

/-- The operator of a level. -/
def Level.operator (level : Level) : Operator := Operator.order[level]

/-- The level of the operator that binds the least. -/
def loosest : Level := ⟨Operator.order.length - 1, by decide⟩

namespace Cursor

variable {c : Cursor} {t : Option Token}

/-! ## Moving -/

/-- What stands at the position, if it is not behind the end. -/
def peek (c : Cursor) : Option (Option Token) := c.tokens[c.position]?

/-- So many places further. -/
def forward (n : Nat) (c : Cursor) : Cursor := { c with position := c.position + n }

/-- Back to a position where the cursor was before. -/
def backTo (position : Nat) (c : Cursor) : Cursor := { c with position }

/-- How many places there are from the position on. -/
def left (c : Cursor) : Nat := c.tokens.length - c.position

/-- One sign or group more is too deep. -/
def checkDepth (c : Cursor) : Except Fault Unit :=
  if maxNesting ≤ c.depth then .error .tooDeep else .ok ()

/-- In one more sign or group. -/
def enter (c : Cursor) : Cursor := { c with depth := c.depth + 1 }

/-- Out of a sign or a group again. -/
def leave (c : Cursor) : Cursor := { c with depth := c.depth - 1 }

@[simp] lemma checkDepth_eq_ok_iff {u : Unit} : c.checkDepth = .ok u ↔ c.depth < maxNesting := by
  unfold checkDepth
  grind

lemma left_forward_le (c : Cursor) (n : Nat) : (c.forward n).left ≤ c.left :=
  Nat.sub_le_sub_left (Nat.le_add_right _ _) _

lemma left_forward_lt (h : c.peek = some t) : (c.forward 1).left < c.left := by
  have hlt : c.position < c.tokens.length := (List.getElem?_eq_some_iff.1 h).1
  simp only [left, forward]
  omega

/-- Moves on behind the parenthesis that closes the current group, and says whether there was one.
The first argument counts the groups opened on the way. -/
def closeGroup (opened : Nat) (c : Cursor) : Bool × Cursor :=
  match h : c.peek with
  | none => (false, c)
  | some (some .closing) =>
    match opened with
    | 0 => (true, c.forward 1)
    | opened + 1 => closeGroup opened (c.forward 1)
  | some (some .opening) => closeGroup (opened + 1) (c.forward 1)
  | some _ => closeGroup opened (c.forward 1)
termination_by c.left
decreasing_by all_goals exact left_forward_lt h

/-! ## Reading -/

mutual

/-- Parts joined by the operator of a level, from left to right. -/
def chain (level : Level) (c : Cursor) : Attempt (Option Int × Cursor) := do
  match ← part level c with
  | (some acc, after) => extend level c.left acc after
  | (none, after) => return (none, after)
termination_by (c.left, 2 * level.val + 3)

/-- Goes on with a chain whose value so far is `acc`. So many places were left `before` its last
part, and there are fewer now if that has taken any. An operator without a part behind it is not
taken. -/
def extend (level : Level) (before : Nat) (acc : Int) (c : Cursor) :
    Attempt (Option Int × Cursor) :=
  if before ≤ c.left then none
  else if c.peek = some (some (.operator level.operator)) then do
    match ← part level (c.forward 1) with
    | (some b, after) => extend level c.left (← level.operator.apply acc b) after
    | (none, after) => return (some acc, after.backTo c.position)
  else return (some acc, c)
termination_by (before, 2 * level.val + 2)
decreasing_by
  · have hle := left_forward_le c 1
    exact .left _ _ (by omega)
  · exact .left _ _ (by omega)

/-- What the operator of a level joins. -/
def part (level : Level) (c : Cursor) : Attempt (Option Int × Cursor) :=
  match level with
  | ⟨0, _⟩ => signed c
  | ⟨tighter + 1, h⟩ => chain ⟨tighter, Nat.lt_of_succ_lt h⟩ c
termination_by (c.left, 2 * level.val + 2)

/-- An operand with its signs. A sign without an operand behind it is not taken. -/
def signed (c : Cursor) : Attempt (Option Int × Cursor) := do
  match _hpeek : c.peek with
  | some (some (.operator .minus)) =>
    (c.forward 1).checkDepth
    match ← signed (c.forward 1).enter with
    | (some v, after) => return (some (← inRange (-v)), after.leave)
    | (none, after) => return (none, after.leave.backTo c.position)
  | some (some (.operator .plus)) =>
    (c.forward 1).checkDepth
    match ← signed (c.forward 1).enter with
    | (some v, after) => return (some v, after.leave)
    | (none, after) => return (none, after.leave.backTo c.position)
  | _ => atom c
termination_by (c.left, 1)
decreasing_by
  · exact .left _ _ (left_forward_lt _hpeek)
  · exact .left _ _ (left_forward_lt _hpeek)
  · exact .right _ Nat.zero_lt_one

/-- A value, or a group that is closed. -/
def atom (c : Cursor) : Attempt (Option Int × Cursor) := do
  match _hpeek : c.peek with
  | some (some (.value n)) => return (some n, c.forward 1)
  | some (some .opening) =>
    (c.forward 1).checkDepth
    let (inner, after) ← chain loosest (c.forward 1).enter
    match after.leave.closeGroup 0 with
    | (true, after) => return (some (inner.getD 0), after)
    | (false, after) => return (none, after.backTo c.position)
  | _ => return (none, c)
termination_by (c.left, 0)
decreasing_by exact .left _ _ (left_forward_lt _hpeek)

end

end Cursor

/-- The ways in which an expression or a piece of it is read from a cursor. -/
inductive Routine
  | chain (level : Level)
  | part (level : Level)
  | signed
  | atom
deriving DecidableEq, Repr

/-- Reads from a cursor. -/
def Routine.read : Routine → Cursor → Attempt (Option Int × Cursor)
  | chain level => Cursor.chain level
  | part level => Cursor.part level
  | signed => Cursor.signed
  | atom => Cursor.atom

end RoomBot.Expression
