import Mathlib.Tactic.Lemma
import RoomBot.Expression.Evaluation

/-!
# Readers, level by level

An expression is read by a tower of readers: operands at the bottom, and above them a chain for
each operator, the tightest first.  `upTo k` is the tower up to the `k`-th chain, so that an
operator of level `k` joins what `upTo (k - 1)` reads.

What one turn of a chain does is said here once, and so is what becomes of a sign or a group.
-/

namespace RoomBot.Expression

/-! ## Levels -/

/-- The place of an operator in the order, the tightest first. -/
def Operator.level : Operator → Nat
  | times => 1
  | divided => 2
  | plus => 3
  | minus => 4

/-- Reads chains of the `k` tightest operators. -/
def upTo (k : Nat) (operand : Reader) : Reader :=
  (Operator.order.take k).foldl (fun reader o => chain o reader) operand

lemma expression_eq_upTo (operand : Reader) : expression operand = upTo 4 operand := rfl

lemma upTo_level (o : Operator) (operand : Reader) :
    upTo o.level operand = chain o (upTo (o.level - 1) operand) := by
  cases o <;> rfl

lemma upTo_succ {k : Nat} {o : Operator} (ho : o.level = k + 1) (operand : Reader) :
    upTo (k + 1) operand = chain o (upTo k operand) := by
  rw [← ho, upTo_level, ho, Nat.add_sub_cancel]

lemma Operator.level_pos (o : Operator) : 0 < o.level := by
  cases o <;> decide

lemma Operator.level_le (o : Operator) : o.level ≤ 4 := by
  cases o <;> decide

lemma Operator.exists_level {k : Nat} (h : k < 4) : ∃ o : Operator, o.level = k + 1 := by
  match k, h with
  | 0, _ => exact ⟨times, rfl⟩
  | 1, _ => exact ⟨divided, rfl⟩
  | 2, _ => exact ⟨plus, rfl⟩
  | 3, _ => exact ⟨minus, rfl⟩

lemma Operator.level_inj {o other : Operator} (h : o.level = other.level) : o = other := by
  cases o <;> cases other <;> first | rfl | contradiction

/-! ## Chains -/

variable {o : Operator} {reader : Reader} {acc : Int} {ts rest : List Token}

lemma chain_eq (o : Operator) (reader : Reader) (ts : List Token) :
    chain o reader ts = reader ts >>= fun
      | (some a, left) => extend o reader a left
      | (none, left) => .ok (none, left) :=
  rfl

lemma extend_of_ne (h : ∀ rest, ts ≠ .operator o :: rest) :
    extend o reader acc ts = .ok (some acc, ts) := by
  rw [extend.eq_def]
  split
  · split
    · rename_i heq
      exact absurd (by rw [heq]) (h _)
    · rfl
  · rfl

/-- A chain goes on where its operator follows and an operand behind it. -/
lemma extend_operator
    (hshorter : ∀ b left, reader rest = .ok (some b, left) → left.length ≤ rest.length) :
    extend o reader acc (.operator o :: rest) = reader rest >>= fun
      | (some b, left) => o.apply acc b >>= fun v => extend o reader v left
      | (none, _) => .ok (some acc, .operator o :: rest) := by
  rw [extend.eq_def]
  simp only [if_true]
  cases hrest : reader rest with
  | error fault => rfl
  | ok reading =>
    obtain ⟨_ | b, left⟩ := reading
    · rfl
    · have hle := hshorter b left hrest
      simp only [bind, Except.bind, if_pos hle]

lemma bind_eq_ok_iff {α β : Type} {x : Except Fault α} {f : α → Except Fault β} {b : β} :
    x >>= f = .ok b ↔ ∃ a, x = .ok a ∧ f a = .ok b := by
  cases x with
  | error fault => simp [bind, Except.bind]
  | ok a => simp [bind, Except.bind]

/-! ## Operands -/

variable (room : Nat) (rest)

lemma operand_plus :
    operand (room + 1) (.operator .plus :: rest) = operand room rest >>= fun
      | (some v, left) => .ok (some v, left)
      | (none, _) => .ok (none, .operator .plus :: rest) :=
  rfl

lemma operand_minus :
    operand (room + 1) (.operator .minus :: rest) = operand room rest >>= fun
      | (some v, left) => inRange (-v) >>= fun w => .ok (some w, left)
      | (none, _) => .ok (none, .operator .minus :: rest) :=
  rfl

lemma operand_opening :
    operand (room + 1) (.opening :: rest) = expression (operand room) rest >>= fun (inner, left) =>
      match closeGroup 0 left with
      | some after => .ok (some (inner.getD 0), after)
      | none => .ok (none, .opening :: rest) :=
  rfl

end RoomBot.Expression
