import RoomBot.Expression.Token

/-!
# The value of an expression

Evaluation reads tokens from the left and takes as many as make an expression; whatever follows
is left alone, and a text that starts with no expression has the value `0`.

An operand is a value, a signed operand, or a group in parentheses.  `chain` joins operands with
one operator, from left to right, and `expression` stacks the four chains, tightest first.  An
operator or a sign without a usable operand behind it is not taken.  A group is worth the
expression at its start, or `0`; what else it holds is dropped up to the parenthesis that closes
it, and a group that is never closed is no operand.

Signs and groups may be nested `maxNesting` deep.  The readers carry the number of levels that
are still allowed, so they recurse on it.
-/

namespace RoomBot.Expression

/-- What was read, if anything was, and the tokens that are left. -/
abbrev Reading := Option Int × List Token

/-- Reads a value off the front of some tokens. -/
abbrev Reader := List Token → Except Fault Reading

/-! ## Chains -/

/-- Goes on with a chain whose value so far is `acc`: as long as `o` and an operand follow, the
operand is worked in. A reader that hands back tokens without taking any ends the chain; none
of the readers below does. -/
def extend (o : Operator) (operand : Reader) (acc : Int) (ts : List Token) :
    Except Fault Reading :=
  match ts with
  | .operator o' :: rest =>
    if o' = o then do
      match ← operand rest with
      | (some b, left) =>
        let v ← o.apply acc b
        if left.length ≤ rest.length then extend o operand v left else return (some v, left)
      | (none, _) => return (some acc, ts)
    else .ok (some acc, ts)
  | _ => .ok (some acc, ts)
termination_by ts.length
decreasing_by simp only [List.length_cons]; omega

/-- Operands joined by `o`, from left to right. -/
def chain (o : Operator) (operand : Reader) : Reader := fun ts => do
  match ← operand ts with
  | (some a, left) => extend o operand a left
  | (none, left) => return (none, left)

/-- An expression over the given operands: a chain for each operator, the tightest innermost. -/
def expression (operand : Reader) : Reader :=
  Operator.order.foldl (fun reader o => chain o reader) operand

/-! ## Operands -/

/-- What follows the parenthesis that closes the current group, if one does. The first argument
counts the groups opened on the way. -/
def closeGroup : Nat → List Token → Option (List Token)
  | _, [] => none
  | 0, .closing :: rest => some rest
  | opened + 1, .closing :: rest => closeGroup opened rest
  | opened, .opening :: rest => closeGroup (opened + 1) rest
  | opened, _ :: rest => closeGroup opened rest

/-- An operand, with `room` levels of signs and groups still allowed. -/
def operand : Nat → Reader
  | _, .value n :: rest => .ok (some n, rest)
  | room + 1, .operator .minus :: rest => do
    match ← operand room rest with
    | (some v, left) => return (some (← inRange (-v)), left)
    | (none, _) => return (none, .operator .minus :: rest)
  | room + 1, .operator .plus :: rest => do
    match ← operand room rest with
    | (some v, left) => return (some v, left)
    | (none, _) => return (none, .operator .plus :: rest)
  | room + 1, .opening :: rest => do
    let (inner, left) ← expression (operand room) rest
    match closeGroup 0 left with
    | some after => return (some (inner.getD 0), after)
    | none => return (none, .opening :: rest)
  | 0, .operator .minus :: _ => .error .tooDeep
  | 0, .operator .plus :: _ => .error .tooDeep
  | 0, .opening :: _ => .error .tooDeep
  | _, ts => .ok (none, ts)

/-! ## Texts -/

/-- How deep signs and groups may be nested. -/
def maxNesting : Nat := 64

/-- The value of the longest expression that some tokens start with, or `0`. -/
def evaluate (ts : List Token) : Except Fault Int := do
  let (value, _) ← expression (operand maxNesting) ts
  return value.getD 0

/-- The value of a text. -/
def solve (s : String) : Except Fault Int := do
  evaluate (← Token.ofText s)

example : solve "8/2*2" = .ok 2 := by cbv
example : solve "1 0/(2-2)" = .error .divisionByZero := by cbv

end RoomBot.Expression
