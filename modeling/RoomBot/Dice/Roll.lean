import RoomBot.Dice.Notation
import RoomBot.Dice.Source
import RoomBot.Expression.Evaluation

/-!
# Rolling dice

A request is a list of terms with commas between them.  Each term is expanded, every group of
dice becoming the bracket list of its faces, and the expression that results is solved; terms
are worked off one by one, so a term that cannot be solved stops the roll before any die of the
next one is drawn.  All terms draw from one source and one budget of `maxTotal` dice.

A roll hands back what is left of the source even when it fails.
-/

namespace RoomBot.Dice

open Expression (solve)

/-! ## Faults and outcomes -/

/-- Why a roll has no outcome. -/
inductive Fault
  | refused (refusal : Refusal)
  | unsolved (fault : Expression.Fault)
deriving DecidableEq, Repr

/-- The text of a fault. -/
def Fault.message : Fault → String
  | refused refusal => refusal.message
  | unsolved fault => fault.message

/-- One term after the roll. -/
structure Outcome where
  /-- The term as typed, without blanks. -/
  term : String
  /-- The term with the faces in place of its groups. -/
  expanded : String
  total : Int
deriving DecidableEq, Repr

/-! ## One term -/

/-- Faces as the list that stands for their sum. -/
def faceList (faces : List Nat) : List Char :=
  '[' :: [','].intercalate (faces.map (Nat.toDigits 10)) ++ [']']

variable {σ : Type}

/-- Expands the stretches of a term from the left, with `budget` dice to spend. The result holds
the text and what is left of the budget. -/
def expand (source : Source σ) :
    List Part → (budget : Nat) → σ → Except Refusal (List Char × Nat) × σ
  | [], budget, state => (.ok ([], budget), state)
  | .text cs :: rest, budget, state =>
    let (result, state) := expand source rest budget state
    (result.map fun (text, left) => (cs ++ text, left), state)
  | .dice g :: rest, budget, state =>
    match g.check budget with
    | .error refusal => (.error refusal, state)
    | .ok (count, sides) =>
      let (faces, state) := source.faces sides count state
      let (result, state) := expand source rest (budget - count) state
      (result.map fun (text, left) => (faceList faces ++ text, left), state)

/-- Rolls one term. The result holds its outcome and what is left of the budget. -/
def rollTerm (source : Source σ) (term : List Char) (budget : Nat) (state : σ) :
    Except Fault (Outcome × Nat) × σ :=
  match expand source (parts term) budget state with
  | (.error refusal, state) => (.error (.refused refusal), state)
  | (.ok (text, left), state) =>
    let expanded := String.ofList text
    match solve expanded with
    | .error fault => (.error (.unsolved fault), state)
    | .ok total => (.ok (⟨String.ofList term, expanded, total⟩, left), state)

/-! ## A request -/

/-- The terms of a request without blanks: the pieces between commas, where empty ones count for
nothing. -/
def terms (cs : List Char) : List (List Char) :=
  (cs.splitOn ',').filter fun term => !term.isEmpty

/-- Rolls terms one after another on one budget. -/
def rollTerms (source : Source σ) :
    List (List Char) → (budget : Nat) → σ → Except Fault (List Outcome) × σ
  | [], _, state => (.ok [], state)
  | term :: rest, budget, state =>
    match rollTerm source term budget state with
    | (.error fault, state) => (.error fault, state)
    | (.ok (outcome, left), state) =>
      let (result, state) := rollTerms source rest left state
      (result.map (outcome :: ·), state)

/-- Rolls a request. -/
def roll (source : Source σ) (spec : String) (state : σ) : Except Fault (List Outcome) × σ :=
  let cs := Text.compact spec.toList
  if cs.isEmpty then (.error (.refused .nothing), state)
  else rollTerms source (terms cs) maxTotal state

/-! ## The report -/

/-- A text with a space on both sides of every operator. -/
def padOperators (s : String) : String :=
  String.ofList <| s.toList.flatMap fun c =>
    if c ∈ ['+', '-', '*', '/'] then [' ', c, ' '] else [c]

/-- The line that reports one outcome. -/
def Outcome.line (o : Outcome) : String :=
  s!"Roll: {padOperators o.term} ({padOperators o.expanded}) ==> {o.total}"

/-- The report of a roll, one line for each term. -/
def report (outcomes : List Outcome) : String :=
  "\n".intercalate (outcomes.map Outcome.line)

end RoomBot.Dice
