import RoomBot.Proofs.Expression.Formula

/-!
# What is meant is what is read

The tokens of a formula that has all the parentheses it needs are read for its value, and nothing
behind them is, unless an operator follows that binds as tightly (`Formula.reads_upTo`).  A formula
whose last operator is `o` may even be followed by another `o`: then it is the beginning of a longer
chain.  That is what the left operand of a formula is, and it is carried along in the induction.

Signs and groups use up the levels that a reader is allowed, so a formula is read with a limit in
mind (`Formula.valueWithin`).  Where the limit is wide enough the value is the one that is meant,
and where it is not there is a fault of some kind (`Formula.mapError_valueWithin`,
`Formula.valueWithin_error`).

Together: whoever writes a formula down, with blanks wherever he likes, gets its value from `solve`,
or what goes wrong with it first; but a formula that is nested too deeply is refused
(`solve_written`).
-/

namespace RoomBot.Expression

/-! ## Values within a limit -/

namespace Formula

/-- The value of a formula where signs and groups may be nested `room` deep. -/
def valueWithin (room : Nat) : Formula → Except Fault Int
  | atom a => .ok a.value
  | signed sign operand =>
    match room, sign with
    | 0, _ => .error .tooDeep
    | room + 1, .plus => operand.valueWithin room
    | room + 1, .minus => operand.valueWithin room >>= fun a => inRange (-a)
  | binary o left right =>
    left.valueWithin room >>= fun a => right.valueWithin room >>= fun b => o.apply a b
  | group inner =>
    match room with
    | 0 => .error .tooDeep
    | room + 1 => inner.valueWithin room

end Formula

lemma mapError_bind {x : Except Fault Int} {f : Int → Except Fault Int} :
    (x >>= f).mapError Fault.message =
      x.mapError Fault.message >>= fun a => (f a).mapError Fault.message := by
  cases x <;> rfl

lemma mapError_inRange (n : Int) : (inRange n).mapError Fault.message = checked n := by
  have hrange : (least ≤ n ∧ n ≤ greatest) ↔ (-2 ^ 63 ≤ n ∧ n < 2 ^ 63) := by
    rw [least, greatest]
    omega
  simp only [inRange, checked, hrange]
  split <;> rfl

namespace Formula

variable {formula : Formula} {room : Nat}

/-- With room enough the value is the one that is meant. -/
theorem mapError_valueWithin (h : formula.depth ≤ room) :
    (formula.valueWithin room).mapError Fault.message = formula.value := by
  induction formula generalizing room with
  | atom a => rfl
  | signed sign operand ih =>
    obtain ⟨room, rfl⟩ := Nat.exists_eq_add_of_le' (Nat.le_of_add_left_le h)
    have hroom : operand.depth ≤ room := Nat.le_of_succ_le_succ h
    cases sign with
    | plus => exact ih hroom
    | minus => simp only [valueWithin, value, mapError_bind, ih hroom, mapError_inRange]
  | binary o left right ihleft ihright =>
    have hleft : left.depth ≤ room := Nat.le_trans (Nat.le_max_left _ _) h
    have hright : right.depth ≤ room := Nat.le_trans (Nat.le_max_right _ _) h
    simp only [valueWithin, value, mapError_bind, ihleft hleft, ihright hright]
    congr 1
    funext a
    congr 1
    funext b
    cases o with
    | times => exact mapError_inRange _
    | divided =>
      simp only [Operator.apply]
      split
      · rfl
      · exact mapError_inRange _
    | plus => exact mapError_inRange _
    | minus => exact mapError_inRange _
  | group inner ih =>
    obtain ⟨room, rfl⟩ := Nat.exists_eq_add_of_le' (Nat.le_of_add_left_le h)
    exact ih (Nat.le_of_succ_le_succ h)

/-- Without there is none. -/
theorem valueWithin_error (h : room < formula.depth) :
    ∃ fault, formula.valueWithin room = .error fault := by
  induction formula generalizing room with
  | atom a => exact absurd h (Nat.not_lt_zero room)
  | signed sign operand ih =>
    cases room with
    | zero => exact ⟨.tooDeep, by cases sign <;> rfl⟩
    | succ room =>
      obtain ⟨fault, hfault⟩ := ih (Nat.lt_of_succ_lt_succ h)
      refine ⟨fault, ?_⟩
      cases sign with
      | plus => simp only [valueWithin, hfault]
      | minus => simp only [valueWithin, hfault]; rfl
  | binary o left right ihleft ihright =>
    cases hleft : left.valueWithin room with
    | error fault => exact ⟨fault, by simp only [valueWithin, hleft]; rfl⟩
    | ok a =>
      have hshallow : ¬ room < left.depth := by
        intro hlt
        obtain ⟨fault, hfault⟩ := ihleft hlt
        rw [hleft] at hfault
        contradiction
      have hdeep : room < right.depth := by
        simp only [depth] at h
        omega
      obtain ⟨fault, hfault⟩ := ihright hdeep
      exact ⟨fault, by simp only [valueWithin, hleft, hfault]; rfl⟩
  | group inner ih =>
    cases room with
    | zero => exact ⟨.tooDeep, rfl⟩
    | succ room => exact ih (Nat.lt_of_succ_lt_succ h)

end Formula

/-! ## Reading to the end -/

/-- None of the `k` tightest operators follows. -/
def Stops (k : Nat) (left : List Token) : Prop :=
  ∀ o rest, left = .operator o :: rest → k < o.level

/-- The reader takes these tokens and leaves what follows, unless they have a fault. -/
def Reads (reader : Reader) (ts : List Token) (result : Except Fault Int) (left : List Token) :
    Prop :=
  reader (ts ++ left) = result >>= fun v => .ok (some v, left)

section Chains

variable {k m room : Nat} {o : Operator} {reader operand : Reader} {acc : Int}
  {ts rest left : List Token} {result : Except Fault Int}

lemma Stops.mono (h : Stops m left) (hle : k ≤ m) : Stops k left :=
  fun o rest heq => Nat.lt_of_le_of_lt hle (h o rest heq)

lemma stops_zero (left : List Token) : Stops 0 left :=
  fun o _ _ => o.level_pos

lemma stops_operator (h : k < o.level) : Stops k (.operator o :: rest) := by
  intro other _ heq
  obtain ⟨rfl, -⟩ : o = other ∧ rest = _ := by simpa using heq
  exact h

lemma stops_closing (k : Nat) : Stops k (.closing :: rest) := by
  intro o _ heq
  cases heq

lemma Reads.chain (h : Reads reader ts result left) :
    chain o reader (ts ++ left) = result >>= fun v => extend o reader v left := by
  rw [chain_eq, h]
  cases result <;> rfl

lemma Reads.extend (h : Reads reader ts result left) :
    extend o reader acc (.operator o :: (ts ++ left)) =
      result >>= fun b => o.apply acc b >>= fun v => extend o reader v left := by
  have hshorter : ∀ b after, reader (ts ++ left) = .ok (some b, after) →
      after.length ≤ (ts ++ left).length := by
    intro b after hafter
    rw [h] at hafter
    obtain ⟨v, -, hv⟩ := bind_eq_ok_iff.1 hafter
    obtain ⟨-, rfl⟩ : v = b ∧ left = after := by simpa using hv
    simp
  rw [extend_operator hshorter, h]
  cases result <;> rfl

/-- Where no operator follows that is tight enough, a tower of chains reads what its lower part
does. -/
lemma reads_upTo_of_le (hbase : ∀ left, Stops k left → Reads (upTo k operand) ts result left)
    (hle : k ≤ m) (hm : m ≤ 4) (hleft : Stops m left) : Reads (upTo m operand) ts result left := by
  induction hle generalizing left with
  | refl => exact hbase left hleft
  | @step m hle ih =>
    obtain ⟨o, ho⟩ := Operator.exists_level hm
    have hlower := ih (by omega) (hleft.mono (Nat.le_succ m))
    have hend : ∀ rest, left ≠ .operator o :: rest := by
      intro rest heq
      have hlt := hleft o rest heq
      omega
    rw [Nat.succ_eq_add_one, ← ho, Reads, upTo_level, ho, Nat.add_sub_cancel, hlower.chain]
    simp only [extend_of_ne hend]

end Chains

namespace Formula

/-- How a formula is read at its own level: to its end, and as the beginning of a chain. -/
structure IsRead (room : Nat) (formula : Formula) : Prop where
  whole : ∀ left, Stops formula.level left →
    Reads (upTo formula.level (operand room)) formula.tokens (formula.valueWithin room) left
  start : ∀ (o : Operator) (left : List Token), formula.level = o.level →
    Stops (o.level - 1) left →
      chain o (upTo (o.level - 1) (operand room)) (formula.tokens ++ left) =
        formula.valueWithin room >>= fun v => extend o (upTo (o.level - 1) (operand room)) v left

variable {formula : Formula} {room k : Nat} {left : List Token}

theorem IsRead.reads_upTo (h : formula.IsRead room) (hk : formula.level ≤ k) (hle : k ≤ 4)
    (hleft : Stops k left) :
    Reads (upTo k (operand room)) formula.tokens (formula.valueWithin room) left :=
  reads_upTo_of_le h.whole hk hle hleft

/-- A formula of a level that is low enough is the beginning of a chain. -/
lemma IsRead.chain (h : formula.IsRead room) (o : Operator) (ho : formula.level ≤ o.level)
    (hleft : Stops (o.level - 1) left) :
    let lower := upTo (o.level - 1) (operand room)
    chain o lower (formula.tokens ++ left) =
      formula.valueWithin room >>= fun v => extend o lower v left := by
  rcases Nat.eq_or_lt_of_le ho with heq | hlt
  · exact h.start o left heq hleft
  · have hle := o.level_le
    exact (h.reads_upTo (Nat.le_sub_one_of_lt hlt) (by omega) hleft).chain

lemma isRead_of_operand (hlevel : formula.level = 0)
    (h : ∀ left, Reads (operand room) formula.tokens (formula.valueWithin room) left) :
    formula.IsRead room where
  whole left _ := by
    rw [hlevel]
    exact h left
  start o left heq _ := by
    have hpos := o.level_pos
    omega

/-- A formula that has all the parentheses it needs is read for its value. -/
lemma isRead (h : formula.Proper) (room : Nat) : formula.IsRead room := by
  induction formula generalizing room with
  | atom a => exact isRead_of_operand rfl fun left => by cases room <;> rfl
  | signed sign inner ih =>
    refine isRead_of_operand rfl fun left => ?_
    cases room with
    | zero => cases sign <;> rfl
    | succ room =>
      have hinner := (ih h.2 room).whole left
      rw [h.1] at hinner
      have hread : operand room (inner.tokens ++ left) =
          inner.valueWithin room >>= fun v => .ok (some v, left) := hinner (stops_zero left)
      cases sign with
      | plus =>
        rw [Reads, tokens, Sign.operator, List.cons_append, operand_plus, hread, valueWithin]
        cases inner.valueWithin room <;> rfl
      | minus =>
        rw [Reads, tokens, Sign.operator, List.cons_append, operand_minus, hread, valueWithin]
        cases inner.valueWithin room with
        | error fault => rfl
        | ok a => cases inRange (-a) <;> rfl
  | group inner ih =>
    refine isRead_of_operand rfl fun left => ?_
    cases room with
    | zero => rfl
    | succ room =>
      have hread : expression (operand room) (inner.tokens ++ .closing :: left) =
          inner.valueWithin room >>= fun v => .ok (some v, .closing :: left) :=
        (ih h room).reads_upTo inner.level_le (Nat.le_refl 4) (stops_closing 4)
      rw [Reads, tokens, List.cons_append, List.append_assoc, List.singleton_append,
        operand_opening, hread, valueWithin]
      cases inner.valueWithin room <;> rfl
  | binary o lhs rhs ihleft ihright =>
    obtain ⟨hleft, hright, hproper⟩ := h
    have hle := o.level_le
    have hstart : ∀ left, Stops (o.level - 1) left →
        Expression.chain o (upTo (o.level - 1) (operand room))
            ((binary o lhs rhs).tokens ++ left) =
          (binary o lhs rhs).valueWithin room >>= fun v =>
            extend o (upTo (o.level - 1) (operand room)) v left := by
      intro left hstops
      have hrhs :=
        (ihright hproper.2 room).reads_upTo (Nat.le_sub_one_of_lt hright) (by omega) hstops
      have hnext : Stops (o.level - 1) (.operator o :: (rhs.tokens ++ left)) :=
        stops_operator (Nat.sub_lt o.level_pos Nat.one_pos)
      have hlhs := (ihleft hproper.1 room).chain o hleft hnext
      rw [tokens, List.append_assoc, List.cons_append, hlhs]
      simp only [hrhs.extend, valueWithin]
      cases lhs.valueWithin room with
      | error fault => rfl
      | ok a => cases rhs.valueWithin room <;> rfl
    constructor
    · intro left hstops
      have hend : ∀ rest, left ≠ .operator o :: rest := by
        intro rest heq
        exact absurd (hstops o rest heq) (Nat.lt_irrefl _)
      have hchain := hstart left (hstops.mono (Nat.sub_le _ _))
      rw [level, Reads, upTo_level, hchain]
      simp only [extend_of_ne hend]
    · intro other left heq hstops
      obtain rfl := Operator.level_inj heq
      exact hstart left hstops

end Formula

/-! ## Solving what is written -/

lemma evaluate_tokens {formula : Formula} (h : formula.Proper) :
    evaluate formula.tokens = formula.valueWithin maxNesting := by
  have hnil : Stops 4 [] := fun o rest heq => by contradiction
  have hread := (Formula.isRead h maxNesting).reads_upTo formula.level_le (Nat.le_refl 4) hnil
  rw [Reads, List.append_nil] at hread
  rw [evaluate, expression_eq_upTo, hread]
  cases formula.valueWithin maxNesting <;> rfl

/-- A formula that is written down, with blanks anywhere, is solved for its value, or for what goes
wrong first; but it is refused if a part of it stands in more than sixty-four groups and signs. -/
theorem solve_written {formula : Formula} {s : String}
    (h : Text.compact s.toList = formula.bracketed.written) :
    (64 < formula.bracketed.depth → ∃ fault, solve s = .error fault) ∧
      (formula.bracketed.depth ≤ 64 → (solve s).mapError Fault.message = formula.value) := by
  have hproper := formula.proper_bracketed
  have hscan : Token.ofText s = .ok formula.bracketed.tokens := by
    have hwritten := formula.bracketed.scans_written [] (by simp)
    rw [List.append_nil] at hwritten
    rw [Token.ofText, h, hwritten, Token.scan.eq_def]
    simp [Token.first?, Except.map]
  have hsolve : solve s = formula.bracketed.valueWithin maxNesting := by
    rw [solve, hscan, ← evaluate_tokens hproper]
    rfl
  rw [hsolve]
  constructor
  · exact Formula.valueWithin_error
  · intro hdepth
    rw [maxNesting, Formula.mapError_valueWithin hdepth, Formula.value_bracketed]

/-- A difference is multiplied, so it needs parentheses; the sign of the other factor needs none. -/
theorem solve_written_product :
    let ten : Numeral := ⟨0, 10, by decide⟩
    let one : Numeral := ⟨0, 1, by decide⟩
    let two : Numeral := ⟨0, 2, by decide⟩
    let three : Numeral := ⟨1, 3, by decide⟩
    let product : Formula :=
      .binary .times
        (.binary .minus (.atom (.number ten)) (.atom (.list [one, two] (by decide))))
        (.signed .minus (.atom (.number three)))
    Text.compact "(10 - [1, 2]) * -03".toList = product.bracketed.written ∧
      (solve "(10 - [1, 2]) * -03").mapError Fault.message = .ok (-21) := by
  intro ten one two three product
  have hwritten : Text.compact "(10 - [1, 2]) * -03".toList = product.bracketed.written := by
    decide +kernel
  have hdepth : product.bracketed.depth ≤ 64 := by decide
  have hvalue : product.value = .ok (-21) := by cbv
  exact ⟨hwritten, ((solve_written hwritten).2 hdepth).trans hvalue⟩

end RoomBot.Expression
