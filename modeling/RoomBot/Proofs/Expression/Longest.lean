import Mathlib
import RoomBot.Proofs.Expression.Phrase

/-!
# The longest phrase is what counts

Whatever the tokens are, a reader that ends without a fault has taken a phrase and its value, and
nothing can be joined to the phrase; or it has taken nothing, and there was not even an operand
(`Finds`).  A chain of such readers is one of the next level (`Finds.chain`), and operands are such
readers of level 0 (`operand_finds`), by induction on the levels of nesting that are still allowed.

So a text that has a value has the value of the longest phrase that its tokens begin with, and 0 if
they begin with none (`solve_eq_longest`).  Garbage makes no difference to that, wherever it
stands.
-/

namespace RoomBot.Expression

variable {ts p rest left after : List Token} {o : Operator} {k room : Nat} {reader : Reader}
  {acc v : Int} {r : Option Int}

/-! ## What does not begin with an operand -/

lemma not_begins_nil : ¬ Begins [] := by
  rintro ⟨p, hp, hstart⟩
  obtain rfl := List.prefix_nil.1 hstart
  cases hp

lemma not_begins_closing : ¬ Begins (.closing :: rest) := by
  rintro ⟨p, hp, y, hy⟩
  cases hp <;> simp at hy

lemma Begins.of_sign (h : Begins (.operator o :: rest)) :
    (o = .plus ∨ o = .minus) ∧ Begins rest := by
  obtain ⟨p, hp, y, hy⟩ := h
  cases hp with
  | value n => simp at hy
  | @plus ts hts =>
    obtain ⟨ho, hrest⟩ : Operator.plus = o ∧ ts ++ y = rest := by simpa using hy
    exact ⟨.inl ho.symm, ts, hts, y, hrest⟩
  | @minus ts hts =>
    obtain ⟨ho, hrest⟩ : Operator.minus = o ∧ ts ++ y = rest := by simpa using hy
    exact ⟨.inr ho.symm, ts, hts, y, hrest⟩
  | group _ => simp at hy

lemma Begins.of_opening (h : Begins (.opening :: rest)) :
    ∃ inner after, Balanced inner ∧ rest = inner ++ .closing :: after := by
  obtain ⟨p, hp, y, hy⟩ := h
  cases hp with
  | value n => simp at hy
  | plus _ => simp at hy
  | minus _ => simp at hy
  | @group inner hinner =>
    exact ⟨inner, y, hinner, by simpa using hy.symm⟩

lemma Ends.of_append {x y : List Token} (h : Ends k (x ++ y)) : Ends k x := by
  rintro o rest rfl hle hbegins
  exact h o _ rfl hle (hbegins.append y)

/-! ## What a reader finds -/

/-- A value belongs to the phrase that has been taken, and nothing can be joined to the phrase. If
nothing has been taken there is no operand. -/
def Found (k : Nat) (ts : List Token) : Option Int → List Token → Prop
  | some v, left => ∃ p, ts = p ++ left ∧ Worth k p v ∧ Ends k left
  | none, left => left = ts ∧ ¬ Begins ts

/-- A reader of phrases of a level. -/
def Finds (k : Nat) (reader : Reader) : Prop :=
  ∀ ts r left, reader ts = .ok (r, left) → Found k ts r left

/-- From some value on a chain has been read to its end: all its parts are phrases, their values
have been worked in, and nothing can be joined to the last one. -/
def Chained (k : Nat) (o : Operator) (acc : Int) (ts : List Token) (r : Option Int)
    (left : List Token) : Prop :=
  ∃ (items : List (List Token × Int)) (v : Int),
    ts = items.flatMap (fun item => .operator o :: item.1) ++ left ∧
    (∀ item ∈ items, Worth k item.1 item.2) ∧
    items.foldlM (fun acc item => o.apply acc item.2) acc = .ok v ∧
    r = some v ∧ Ends (k + 1) left

lemma chained_nil (ho : o.level = k + 1) (hends : Ends k ts)
    (hnot : ∀ rest, ts = .operator o :: rest → ¬ Begins rest) :
    Chained k o acc ts (some acc) ts := by
  refine ⟨[], acc, rfl, List.forall_mem_nil _, rfl, rfl, fun other rest heq hle => ?_⟩
  rcases Nat.lt_or_eq_of_le hle with hlt | hsame
  · exact hends other rest heq (Nat.le_of_lt_succ hlt)
  · obtain rfl := Operator.level_inj (hsame.trans ho.symm)
    exact hnot rest heq

lemma Finds.extend (h : Finds k reader) (ho : o.level = k + 1) (hends : Ends k ts)
    (hresult : extend o reader acc ts = .ok (r, left)) : Chained k o acc ts r left := by
  induction hn : ts.length using Nat.strongRecOn generalizing ts acc with
  | ind n ih =>
    by_cases hnext : ∃ rest, ts = .operator o :: rest
    · obtain ⟨rest, rfl⟩ := hnext
      rw [extend_operator fun b left hrest => ?_] at hresult
      · obtain ⟨⟨_ | b, middle⟩, hrest, hresult⟩ := bind_eq_ok_iff.1 hresult
        · obtain ⟨rfl, rfl⟩ : some acc = r ∧ .operator o :: rest = left := by simpa using hresult
          refine chained_nil ho hends ?_
          rintro _ ⟨⟩
          exact (h rest none middle hrest).2
        · obtain ⟨p, rfl, hp, hmiddle⟩ := h rest (some b) middle hrest
          obtain ⟨v, happly, hresult⟩ := bind_eq_ok_iff.1 hresult
          have hshorter : middle.length < n := by
            rw [← hn, List.length_cons, List.length_append]
            omega
          obtain ⟨items, w, rfl, hitems, hfold, rfl, hleft⟩ := ih _ hshorter hmiddle hresult rfl
          refine ⟨(p, b) :: items, w, ?_, List.forall_mem_cons.2 ⟨hp, hitems⟩, ?_, rfl, hleft⟩
          · simp
          · rw [List.foldlM_cons, happly]
            exact hfold
      · obtain ⟨p, rfl, -, -⟩ := h rest (some b) left hrest
        simp
    · have hne : ∀ rest, ts ≠ .operator o :: rest := fun rest heq => hnext ⟨rest, heq⟩
      rw [extend_of_ne hne] at hresult
      obtain ⟨rfl, rfl⟩ : some acc = r ∧ ts = left := by simpa using hresult
      exact chained_nil ho hends fun rest heq => absurd heq (hne rest)

/-- A chain of phrases is a phrase. -/
theorem Finds.chain (h : Finds k reader) (ho : o.level = k + 1) :
    Finds (k + 1) (chain o reader) := by
  intro ts r left hresult
  rw [chain_eq] at hresult
  obtain ⟨⟨_ | a, middle⟩, hfirst, hrest⟩ := bind_eq_ok_iff.1 hresult
  · obtain ⟨rfl, rfl⟩ : none = r ∧ middle = left := by simpa using hrest
    exact h ts none middle hfirst
  · obtain ⟨first, rfl, hworth, hmiddle⟩ := h ts (some a) middle hfirst
    obtain ⟨items, v, rfl, hitems, hfold, rfl, hleft⟩ := h.extend ho hmiddle hrest
    refine ⟨_, ?_, .chain ho hworth hitems hfold, hleft⟩
    simp [joined, List.flatMap_map]

lemma Finds.upTo (h : Finds 0 reader) (hk : k ≤ 4) : Finds k (upTo k reader) := by
  induction k with
  | zero => exact h
  | succ k ih =>
    obtain ⟨o, ho⟩ := Operator.exists_level hk
    have hchain := (ih (Nat.le_of_succ_le hk)).chain ho
    rwa [← ho, upTo_level, ho, Nat.add_sub_cancel]

/-! ## Operands -/

/-- Only signs and groups depend on how deep they may be nested. -/
lemma finds_operand
    (hplus : ∀ rest r left, operand room (.operator .plus :: rest) = .ok (r, left) →
      Found 0 (.operator .plus :: rest) r left)
    (hminus : ∀ rest r left, operand room (.operator .minus :: rest) = .ok (r, left) →
      Found 0 (.operator .minus :: rest) r left)
    (hgroup : ∀ rest r left, operand room (.opening :: rest) = .ok (r, left) →
      Found 0 (.opening :: rest) r left) : Finds 0 (operand room) := by
  have hnone : ∀ {ts r left}, operand room ts = .ok (none, ts) → ¬ Begins ts →
      operand room ts = .ok (r, left) → Found 0 ts r left := by
    intro ts r left hread hnot hresult
    obtain ⟨rfl, rfl⟩ : none = r ∧ ts = left := by simpa using hread.symm.trans hresult
    exact ⟨rfl, hnot⟩
  intro ts r left hresult
  cases ts with
  | nil => exact hnone (by cases room <;> rfl) not_begins_nil hresult
  | cons t rest =>
    cases t with
    | value n =>
      have hread : operand room (.value n :: rest) = .ok (some n, rest) := by cases room <;> rfl
      obtain ⟨rfl, rfl⟩ : some n = r ∧ rest = left := by simpa using hread.symm.trans hresult
      exact ⟨[.value n], rfl, .value n, ends_zero rest⟩
    | closing => exact hnone (by cases room <;> rfl) not_begins_closing hresult
    | opening => exact hgroup rest r left hresult
    | operator o =>
      cases o with
      | plus => exact hplus rest r left hresult
      | minus => exact hminus rest r left hresult
      | times =>
        refine hnone (by cases room <;> rfl) (fun hbegins => ?_) hresult
        rcases hbegins.of_sign.1 with h | h <;> contradiction
      | divided =>
        refine hnone (by cases room <;> rfl) (fun hbegins => ?_) hresult
        rcases hbegins.of_sign.1 with h | h <;> contradiction

/-- A sign belongs to the operand behind it. -/
lemma Finds.plus (h : Finds 0 (operand room))
    (hresult : operand (room + 1) (.operator .plus :: rest) = .ok (r, left)) :
    Found 0 (.operator .plus :: rest) r left := by
  rw [operand_plus] at hresult
  obtain ⟨⟨_ | v, middle⟩, hread, hresult⟩ := bind_eq_ok_iff.1 hresult
  · have hnot := (h rest none middle hread).2
    obtain ⟨rfl, rfl⟩ : none = r ∧ .operator .plus :: rest = left := by simpa using hresult
    exact ⟨rfl, fun hbegins => hnot hbegins.of_sign.2⟩
  · obtain ⟨p, rfl, hworth, hends⟩ := h rest (some v) middle hread
    obtain ⟨rfl, rfl⟩ : some v = r ∧ middle = left := by simpa using hresult
    exact ⟨_, rfl, .plus hworth, hends⟩

lemma Finds.minus (h : Finds 0 (operand room))
    (hresult : operand (room + 1) (.operator .minus :: rest) = .ok (r, left)) :
    Found 0 (.operator .minus :: rest) r left := by
  rw [operand_minus] at hresult
  obtain ⟨⟨_ | v, middle⟩, hread, hresult⟩ := bind_eq_ok_iff.1 hresult
  · have hnot := (h rest none middle hread).2
    obtain ⟨rfl, rfl⟩ : none = r ∧ .operator .minus :: rest = left := by simpa using hresult
    exact ⟨rfl, fun hbegins => hnot hbegins.of_sign.2⟩
  · obtain ⟨p, rfl, hworth, hends⟩ := h rest (some v) middle hread
    obtain ⟨w, hneg, hresult⟩ := bind_eq_ok_iff.1 hresult
    obtain ⟨rfl, rfl⟩ : some w = r ∧ middle = left := by simpa using hresult
    exact ⟨_, rfl, .minus hworth hneg, hends⟩

/-- A group is worth what is found in it, if it is closed. -/
lemma Finds.group (h : Finds 0 (operand room))
    (hresult : operand (room + 1) (.opening :: rest) = .ok (r, left)) :
    Found 0 (.opening :: rest) r left := by
  rw [operand_opening] at hresult
  obtain ⟨⟨inner, middle⟩, hread, hresult⟩ := bind_eq_ok_iff.1 hresult
  have hinner := h.upTo (Nat.le_refl 4) rest inner middle hread
  -- Whether the group is closed does not depend on how much of it has been read.
  have hclose : closeGroup 0 rest = closeGroup 0 middle := by
    cases inner with
    | none => rw [hinner.1]
    | some a =>
      obtain ⟨p, rfl, hworth, -⟩ := hinner
      exact hworth.phrase.balanced.closeGroup_append 0 middle
  cases hafter : closeGroup 0 middle with
  | none =>
    simp only [hafter] at hresult
    obtain ⟨rfl, rfl⟩ : none = r ∧ .opening :: rest = left := by simpa using hresult
    refine ⟨rfl, fun hbegins => ?_⟩
    obtain ⟨content, after, hcontent, rfl⟩ := hbegins.of_opening
    rw [← hclose, hcontent.closeGroup_append] at hafter
    contradiction
  | some after =>
    simp only [hafter] at hresult
    obtain ⟨rfl, rfl⟩ : some (inner.getD 0) = r ∧ after = left := by simpa using hresult
    obtain ⟨dropped, hdropped, rfl⟩ := exists_dropped_of_closeGroup hafter
    cases inner with
    | none =>
      obtain ⟨rfl, hnot⟩ := hinner
      refine ⟨.opening :: (dropped ++ [.closing]), by simp, .hollow hdropped ?_, ends_zero _⟩
      intro p hp hstart
      exact hnot (begins_of_phrase hp (hstart.trans (List.prefix_append _ _)))
    | some a =>
      obtain ⟨p, rfl, hworth, hends⟩ := hinner
      refine ⟨.opening :: (p ++ dropped ++ [.closing]), by simp, ?_, ends_zero _⟩
      exact .group (hworth.phrase.balanced.append hdropped)
        (hworth.phrase.longest hends.of_append) hworth

/-- Operands are read as they should be, however deep they may be nested. -/
theorem operand_finds (room : Nat) : Finds 0 (operand room) := by
  induction room with
  | zero =>
    refine finds_operand ?_ ?_ ?_ <;>
    · intro rest r left hresult
      contradiction
  | succ room ih =>
    exact finds_operand (fun _ _ _ => ih.plus) (fun _ _ _ => ih.minus) fun _ _ _ => ih.group

/-! ## Texts -/

/-- A text that has a value has that of the longest phrase which its tokens begin with, or 0 if they
begin with none. -/
theorem solve_eq_longest {s : String} (h : solve s = .ok v) :
    ∃ ts, Token.ofText s = .ok ts ∧
      ((∃ p, Longest p ts ∧ ∀ w, Worth 4 p w ↔ w = v) ∨
        (∀ p, Phrase 4 p → ¬ p <+: ts) ∧ v = 0) := by
  obtain ⟨ts, hts, hevaluate⟩ := bind_eq_ok_iff.1 h
  obtain ⟨⟨value, left⟩, hread, hvalue⟩ := bind_eq_ok_iff.1 hevaluate
  obtain rfl : value.getD 0 = v := Except.ok.inj hvalue
  refine ⟨ts, hts, ?_⟩
  have hfound := (operand_finds maxNesting).upTo (Nat.le_refl 4) ts value left hread
  cases value with
  | none =>
    obtain ⟨rfl, hnot⟩ := hfound
    exact .inr ⟨fun p hp hstart => hnot (begins_of_phrase hp hstart), rfl⟩
  | some a =>
    obtain ⟨p, rfl, hworth, hends⟩ := hfound
    refine .inl ⟨p, hworth.phrase.longest hends, fun w => ⟨fun hw => hw.unique hworth, ?_⟩⟩
    rintro rfl
    exact hworth

/-- In a group the text behind the longest phrase is dropped, and so it is behind the group. -/
theorem solve_eq_longest_dropped :
    solve "2 * (3 + ) 4 - 5" = .ok 6 ∧
      ∃ p, Longest p [.value 2, .operator .times, .opening, .value 3, .operator .plus, .closing,
          .value 4, .operator .minus, .value 5] ∧
        ∀ w, Worth 4 p w ↔ w = 6 := by
  have hsolve : solve "2 * (3 + ) 4 - 5" = .ok 6 := by cbv
  have htokens : Token.ofText "2 * (3 + ) 4 - 5" = .ok [.value 2, .operator .times, .opening,
      .value 3, .operator .plus, .closing, .value 4, .operator .minus, .value 5] := by cbv
  obtain ⟨ts, hts, ⟨p, hp, hworth⟩ | ⟨-, hzero⟩⟩ := solve_eq_longest hsolve
  · obtain rfl := Except.ok.inj (htokens.symm.trans hts)
    exact ⟨hsolve, p, hp, hworth⟩
  · contradiction

end RoomBot.Expression
