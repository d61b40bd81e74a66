import RoomBot.Proofs.Expression.Reading

/-!
# Solving by rewriting

An expression without parentheses can be solved with a pencil.  One looks for the leftmost product,
writes its value in its place, and goes on until no `*` is left; then the same with `/`, with `+`
and with `-` (`Row.rewritten?`).  Whoever meets a division by zero, or a value that is out of range,
has failed.

The reader of expressions works in another order: it finishes each operand before it looks at the
next operator, whatever that is.  Both come to the same value, or both fail (`solve_eq_rewritten?`).

The reason is that the pencil, if it writes down the operation instead of its value, draws up the
very formula that is read (`Row.gather`).  Everything that is worked out on the way stands in this
formula, so that a failure on the way is a failure of the formula, and there are no others.
-/

namespace RoomBot.Expression

/-! ## Rows -/

/-- Some things in a row, with operators between them. -/
structure Row (α : Type) where
  first : α
  rest : List (Operator × α)

/-- A number with a sign or without one. -/
structure Literal where
  sign : Option Sign
  number : Numeral

namespace Literal

def value : Literal → Int
  | ⟨some .minus, number⟩ => -number.value
  | ⟨_, number⟩ => number.value

def written : Literal → List Char
  | ⟨some sign, number⟩ => sign.operator.char :: number.written
  | ⟨none, number⟩ => number.written

def formula : Literal → Formula
  | ⟨some sign, number⟩ => .signed sign (.atom (.number number))
  | ⟨none, number⟩ => .atom (.number number)

end Literal

/-- A result, if 64 bits with a sign can hold it. -/
def fitting? (n : Int) : Option Int :=
  if -2 ^ 63 ≤ n ∧ n < 2 ^ 63 then some n else none

/-- The exact result of an operation, if there is one and it fits. -/
def Operator.result? : Operator → Int → Int → Option Int
  | times, a, b => fitting? (a * b)
  | divided, a, b => if b = 0 then none else fitting? (a.tdiv b)
  | plus, a, b => fitting? (a + b)
  | minus, a, b => fitting? (a - b)

namespace Row

variable {α β : Type}

def map (f : α → β) (row : Row α) : Row β :=
  ⟨f row.first, row.rest.map fun (o, a) => (o, f a)⟩

/-- How a row is written. -/
def written (write : α → List Char) (row : Row α) : List Char :=
  write row.first ++ row.rest.flatMap fun (o, a) => o.char :: write a

/-! ## The pencil -/

/-- Puts the value of the leftmost operation with `o` in its place, if there is such an operation. -/
def rewriteLeftmost (o : Operator) : Int → List (Operator × Int) → Option (Row Int)
  | a, [] => some ⟨a, []⟩
  | a, (other, b) :: rest =>
    if other = o then (o.result? a b).map fun c => ⟨c, rest⟩
    else (rewriteLeftmost o b rest).map fun row => ⟨a, (other, row.first) :: row.rest⟩

lemma length_rewriteLeftmost {o : Operator} {a : Int} {rest : List (Operator × Int)}
    {row : Row Int} (h : rewriteLeftmost o a rest = some row) (ho : o ∈ rest.map Prod.fst) :
    row.rest.length < rest.length := by
  induction rest generalizing a row with
  | nil => simp at ho
  | cons item rest ih =>
    obtain ⟨other, b⟩ := item
    simp only [rewriteLeftmost] at h
    split at h
    · obtain ⟨c, -, rfl⟩ := Option.map_eq_some_iff.1 h
      simp
    · rename_i hne
      obtain ⟨after, hafter, rfl⟩ := Option.map_eq_some_iff.1 h
      have hmem : o ∈ rest.map Prod.fst := by simpa [Ne.symm hne] using ho
      have hshorter := ih hafter hmem
      simp only [List.length_cons]
      omega

/-- Rewrites until no `o` is left. -/
def rewriteAll (o : Operator) (row : Row Int) : Option (Row Int) :=
  if ho : o ∈ row.rest.map Prod.fst then
    match h : rewriteLeftmost o row.first row.rest with
    | none => none
    | some after =>
      have := length_rewriteLeftmost h ho
      rewriteAll o after
  else some row
termination_by row.rest.length

/-- What is left of a row when all operators have been rewritten, one after another. -/
def rewritten? (row : Row Int) : Option Int := do
  let products ← rewriteAll .times row
  let quotients ← rewriteAll .divided products
  let sums ← rewriteAll .plus quotients
  let differences ← rewriteAll .minus sums
  match differences with
  | ⟨value, []⟩ => some value
  | _ => none

/-- Rewrites all operations with `o` in one go. -/
def sweep (o : Operator) : Int → List (Operator × Int) → Option (Row Int)
  | a, [] => some ⟨a, []⟩
  | a, (other, b) :: rest =>
    if other = o then o.result? a b >>= fun c => sweep o c rest
    else (sweep o b rest).map fun row => ⟨a, (other, row.first) :: row.rest⟩

lemma sweep_of_notMem {o : Operator} {a : Int} {rest : List (Operator × Int)}
    (ho : o ∉ rest.map Prod.fst) : sweep o a rest = some ⟨a, rest⟩ := by
  induction rest generalizing a with
  | nil => rfl
  | cons item rest ih =>
    obtain ⟨other, b⟩ := item
    obtain ⟨hne, hrest⟩ : o ≠ other ∧ o ∉ rest.map Prod.fst := by simpa using ho
    rw [sweep, if_neg (Ne.symm hne), ih hrest]
    rfl

/-- It makes no difference to a sweep if the leftmost operation has been rewritten before. -/
lemma rewriteLeftmost_bind_sweep (o : Operator) (a : Int) (rest : List (Operator × Int)) :
    (rewriteLeftmost o a rest >>= fun row => sweep o row.first row.rest) = sweep o a rest := by
  induction rest generalizing a with
  | nil => rfl
  | cons item rest ih =>
    obtain ⟨other, b⟩ := item
    rw [rewriteLeftmost, sweep]
    split
    · cases o.result? a b <;> rfl
    · rename_i hne
      rw [← ih b]
      cases rewriteLeftmost o b rest with
      | none => rfl
      | some row =>
        show sweep o a ((other, row.first) :: row.rest) = _
        rw [sweep, if_neg hne]
        rfl

lemma rewriteAll_eq_sweep (o : Operator) (row : Row Int) :
    rewriteAll o row = sweep o row.first row.rest := by
  fun_induction rewriteAll o row with
  | case1 row ho h =>
    rw [← rewriteLeftmost_bind_sweep, h]
    rfl
  | case2 row ho after h _ ih =>
    rw [← rewriteLeftmost_bind_sweep, h, ih]
    rfl
  | case3 row ho => rw [sweep_of_notMem ho]

/-! ## Operations instead of values -/

/-- Writes operations with `o` down instead of working them out. -/
def gather (o : Operator) : Formula → List (Operator × Formula) → Row Formula
  | f, [] => ⟨f, []⟩
  | f, (other, g) :: rest =>
    if other = o then gather o (.binary o f g) rest
    else
      let row := gather o g rest
      ⟨f, (other, row.first) :: row.rest⟩

lemma written_gather (o : Operator) (f : Formula) (rest : List (Operator × Formula)) :
    (gather o f rest).written Formula.written = written Formula.written ⟨f, rest⟩ := by
  induction rest generalizing f with
  | nil => rfl
  | cons item rest ih =>
    obtain ⟨other, g⟩ := item
    rw [gather]
    split
    · rename_i hsame
      rw [ih]
      simp [written, Formula.written, hsame]
    · have hrest := ih g
      simp only [written] at hrest ⊢
      simp [hrest]

/-- A part of a row whose operators up to level `k` have been gathered. -/
structure Settled (k : Nat) (f : Formula) : Prop where
  proper : f.Proper
  level : f.level ≤ k
  depth : f.depth ≤ 1

lemma Settled.binary {o : Operator} {f g : Formula} (hf : Settled o.level f)
    (hg : Settled (o.level - 1) g) : Settled o.level (.binary o f g) where
  proper := ⟨hf.level, Nat.lt_of_le_sub_one o.level_pos hg.level, hf.proper, hg.proper⟩
  level := Nat.le_refl _
  depth := Nat.max_le.2 ⟨hf.depth, hg.depth⟩

lemma Settled.mono {k m : Nat} {f : Formula} (h : Settled k f) (hle : k ≤ m) : Settled m f :=
  ⟨h.proper, Nat.le_trans h.level hle, h.depth⟩

/-- A row whose operators up to level `k` have been gathered. -/
structure Gathered (k : Nat) (row : Row Formula) : Prop where
  first : Settled k row.first
  rest : ∀ item ∈ row.rest, Settled k item.2 ∧ k < item.1.level

/-- The first part may be an operation of the next level already. -/
lemma gathered_gather {o : Operator} {f : Formula} {rest : List (Operator × Formula)}
    (hf : Settled o.level f)
    (hrest : ∀ item ∈ rest, Settled (o.level - 1) item.2 ∧ o.level - 1 < item.1.level) :
    (gather o f rest).Gathered o.level := by
  induction rest generalizing f with
  | nil => exact ⟨hf, by simp [gather]⟩
  | cons item rest ih =>
    obtain ⟨other, g⟩ := item
    obtain ⟨⟨hg, hother⟩, hrest⟩ := List.forall_mem_cons.1 hrest
    rw [gather]
    split
    · exact ih (hf.binary hg) hrest
    · rename_i hne
      have hafter := ih (hg.mono (Nat.sub_le _ _)) hrest
      have hlevel : o.level < other.level :=
        Nat.lt_of_le_of_ne (Nat.le_of_pred_lt hother) fun heq => hne (Operator.level_inj heq.symm)
      exact ⟨hf, List.forall_mem_cons.2 ⟨⟨hafter.first, hlevel⟩, hafter.rest⟩⟩

theorem Gathered.gather {row : Row Formula} (o : Operator) (h : row.Gathered (o.level - 1)) :
    (gather o row.first row.rest).Gathered o.level :=
  gathered_gather (h.first.mono (Nat.sub_le _ _)) h.rest

lemma Gathered.rest_eq_nil {row : Row Formula} (h : row.Gathered 4) : row.rest = [] := by
  refine List.eq_nil_iff_forall_not_mem.2 fun item hitem => ?_
  have hlevel := item.1.level_le
  have hpast := (h.rest item hitem).2
  omega

/-! ## Values of rows -/

/-- The values in a row of formulas, if all of them have one. -/
def values? (row : Row Formula) : Option (Row Int) := do
  let a ← row.first.value.toOption
  let rest ← row.rest.mapM fun (o, f) => f.value.toOption.map (o, ·)
  return ⟨a, rest⟩

@[simp] lemma toOption_checked (n : Int) : (checked n).toOption = fitting? n := by
  simp only [checked, fitting?]
  split <;> rfl

lemma toOption_value_binary (o : Operator) (f g : Formula) :
    (Formula.binary o f g).value.toOption = f.value.toOption >>= fun a =>
      g.value.toOption >>= fun b => o.result? a b := by
  rw [Formula.value]
  cases f.value with
  | error fault => rfl
  | ok a =>
    cases g.value with
    | error fault => rfl
    | ok b =>
      cases o with
      | times => exact toOption_checked _
      | divided =>
        show (if b = 0 then _ else checked (a.tdiv b)).toOption = Operator.result? .divided a b
        rw [Operator.result?]
        split
        · rfl
        · exact toOption_checked _
      | plus => exact toOption_checked _
      | minus => exact toOption_checked _

lemma values?_cons (other : Operator) (f g : Formula) (rest : List (Operator × Formula)) :
    values? ⟨f, (other, g) :: rest⟩ = f.value.toOption >>= fun a =>
      (values? ⟨g, rest⟩).map fun row => ⟨a, (other, row.first) :: row.rest⟩ := by
  simp only [values?, List.mapM_cons]
  cases f.value.toOption with
  | none => rfl
  | some a =>
    cases g.value.toOption with
    | none => rfl
    | some b => cases rest.mapM fun (o, f) => f.value.toOption.map (o, ·) <;> rfl

/-- Working out what has been written down is the same as working it out on the way. -/
lemma values?_gather (o : Operator) (f : Formula) (rest : List (Operator × Formula)) :
    (gather o f rest).values? =
      (values? ⟨f, rest⟩ >>= fun row => sweep o row.first row.rest) := by
  induction rest generalizing f with
  | nil => cases hf : f.value <;> simp [gather, values?, sweep, hf, Except.toOption]
  | cons item rest ih =>
    obtain ⟨other, g⟩ := item
    rw [gather, values?_cons]
    split
    · rename_i hsame
      rw [ih, values?, values?]
      simp only [toOption_value_binary]
      cases f.value.toOption with
      | none => rfl
      | some a =>
        cases g.value.toOption with
        | none => rfl
        | some b =>
          cases rest.mapM fun (o, f) => f.value.toOption.map (o, ·) with
          | none => cases hc : o.result? a b <;> simp [hc]
          | some values => cases hc : o.result? a b <;> simp [sweep, hsame, hc]
    · rename_i hne
      rw [values?_cons, ih]
      cases f.value.toOption with
      | none => rfl
      | some a =>
        cases values? ⟨g, rest⟩ with
        | none => rfl
        | some row => simp [sweep, hne]

lemma values?_rewriteAll (o : Operator) (row : Row Formula) :
    (row.values? >>= rewriteAll o) = (gather o row.first row.rest).values? := by
  rw [values?_gather]
  congr 1
  funext values
  exact rewriteAll_eq_sweep o values

/-! ## All levels -/

/-- Writes all operations down, one operator after another. -/
def gatherAll (row : Row Formula) : Row Formula :=
  [Operator.times, .divided, .plus, .minus].foldl (fun row o => gather o row.first row.rest) row

lemma written_gatherAll (row : Row Formula) :
    row.gatherAll.written Formula.written = row.written Formula.written := by
  have hstep : ∀ (o : Operator) (row : Row Formula),
      (gather o row.first row.rest).written Formula.written = row.written Formula.written :=
    fun o row => written_gather o row.first row.rest
  simp only [gatherAll, List.foldl_cons, List.foldl_nil, hstep]

lemma Gathered.gatherAll {row : Row Formula} (h : row.Gathered 0) : row.gatherAll.Gathered 4 :=
  (((h.gather .times).gather .divided).gather .plus).gather .minus

/-- Everything that is worked out on the way stands in the formula that is left. -/
lemma rewritten?_of_values? {row : Row Formula} {values : Row Int}
    (h : row.values? = some values) (hrow : row.Gathered 0) :
    values.rewritten? = row.gatherAll.first.value.toOption := by
  have hwhole : values.rewritten? = row.gatherAll.values? >>= fun
      | ⟨value, []⟩ => some value
      | _ => none := by
    simp only [gatherAll, List.foldl_cons, List.foldl_nil, ← values?_rewriteAll, h, bind_assoc]
    rfl
  rw [hwhole, values?, hrow.gatherAll.rest_eq_nil]
  cases row.gatherAll.first.value.toOption <;> rfl

end Row

/-! ## Rows of numbers -/

namespace Literal

lemma written_formula (literal : Literal) : literal.formula.written = literal.written := by
  obtain ⟨_ | sign, number⟩ := literal <;> rfl

lemma value_formula (literal : Literal) :
    literal.formula.value.toOption = some literal.value := by
  obtain ⟨sign, number⟩ := literal
  have hfits := number.fits
  match sign with
  | none => rfl
  | some .plus => rfl
  | some .minus =>
    show (checked (-(number.value : Int))).toOption = _
    rw [checked, if_pos (by omega)]
    rfl

lemma settled (literal : Literal) : Row.Settled 0 literal.formula := by
  obtain ⟨_ | sign, number⟩ := literal
  · exact ⟨trivial, Nat.le_refl 0, Nat.zero_le 1⟩
  · exact ⟨⟨rfl, trivial⟩, Nat.le_refl 0, Nat.le_refl 1⟩

end Literal

namespace Row

variable (row : Row Literal)

lemma written_map_formula :
    (row.map Literal.formula).written Formula.written = row.written Literal.written := by
  simp [written, map, List.flatMap_map, Literal.written_formula]

lemma gathered_map_formula : (row.map Literal.formula).Gathered 0 where
  first := row.first.settled
  rest item hitem := by
    obtain ⟨⟨o, literal⟩, -, rfl⟩ := List.mem_map.1 hitem
    exact ⟨literal.settled, o.level_pos⟩

lemma values?_map_formula :
    (row.map Literal.formula).values? = some (row.map Literal.value) := by
  have hrest : (row.rest.map fun (o, literal) => (o, literal.formula)).mapM
      (fun (o, f) => f.value.toOption.map (o, ·)) =
        some (row.rest.map fun (o, literal) => (o, literal.value)) := by
    induction row.rest with
    | nil => rfl
    | cons item rest ih => simp [Literal.value_formula, ih]
  simp only [values?, map, Literal.value_formula, hrest]
  rfl

end Row

/-! ## Reading and rewriting -/

lemma toOption_mapError (x : Except Fault Int) :
    (x.mapError Fault.message).toOption = x.toOption := by
  cases x <;> rfl

/-- What is written down with no parentheses missing is solved for the value of its tokens. -/
lemma solve_of_written {formula : Formula} {s : String} (hproper : formula.Proper)
    (h : Text.compact s.toList = formula.written) : solve s = formula.valueWithin maxNesting := by
  have hscan : Token.ofText s = .ok formula.tokens := by
    have hwritten := formula.scans_written [] (by simp)
    rw [List.append_nil] at hwritten
    rw [Token.ofText, h, hwritten, Token.scan.eq_def]
    simp [Token.first?, Except.map]
  rw [← evaluate_tokens hproper, solve, hscan]
  rfl

/-- A row of numbers is solved for what is left when the leftmost product is rewritten as often as
there is one, then the leftmost quotient, sum and difference. One fails if the other does. -/
theorem solve_eq_rewritten? {row : Row Literal} {s : String}
    (h : Text.compact s.toList = row.written Literal.written) :
    (solve s).toOption = (row.map Literal.value).rewritten? := by
  have hgathered := row.gathered_map_formula
  have hall := hgathered.gatherAll
  have hwritten : (row.map Literal.formula).gatherAll.first.written = Text.compact s.toList := by
    have hsame := (row.map Literal.formula).written_gatherAll
    rw [Row.written, hall.rest_eq_nil, List.flatMap_nil, List.append_nil] at hsame
    rw [hsame, h, row.written_map_formula]
  have hdepth : (row.map Literal.formula).gatherAll.first.depth ≤ maxNesting :=
    Nat.le_trans hall.first.depth (by decide)
  rw [Row.rewritten?_of_values? row.values?_map_formula hgathered,
    solve_of_written hall.first.proper hwritten.symm, ← toOption_mapError,
    Formula.mapError_valueWithin hdepth]

/-- The product of the quotient's divisor comes first, and the sum before the difference. -/
theorem solve_eq_rewritten?_mixed :
    let number (value : Nat) (fits : value < 2 ^ 63) : Literal := ⟨none, ⟨0, value, fits⟩⟩
    let row : Row Literal := ⟨number 8 (by decide), [(.divided, number 2 (by decide)),
      (.times, number 2 (by decide)), (.minus, ⟨some .minus, ⟨0, 5, by decide⟩⟩),
      (.plus, number 1 (by decide))]⟩
    Text.compact "8/2*2 - -5+1".toList = row.written Literal.written ∧
      (solve "8/2*2 - -5+1").toOption = (row.map Literal.value).rewritten? ∧
      (row.map Literal.value).rewritten? = some 6 := by
  intro number row
  have hwritten : Text.compact "8/2*2 - -5+1".toList = row.written Literal.written := by
    decide +kernel
  have hvalue : (row.map Literal.value).rewritten? = some 6 := by cbv
  exact ⟨hwritten, solve_eq_rewritten? hwritten, hvalue⟩

end RoomBot.Expression
