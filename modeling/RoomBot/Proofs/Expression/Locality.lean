import RoomBot.Proofs.Expression.Fault
import RoomBot.Proofs.Expression.Longest

/-!
# What readers do not look at

The content of a group is read as if nothing came after the group (`operand_group`), and an operand
is read as if nothing came after it (`operand_append`).

A phrase is read as if nothing came after it, unless an operator follows (`upTo_append`).  Then an
operand is looked for behind the operator.  If there is one it belongs to the phrase, and if there
is none the operator is not taken; but looking for it may be a fault already, and then the phrase is
not read either (`fails_upTo_append`).
-/

namespace RoomBot.Expression

variable {ts us p rest left after inner : List Token} {o : Operator} {k room : Nat}
  {reader : Reader}

/-- The same reading with more tokens left over. -/
def leaving (after : List Token) (reading : Reading) : Reading :=
  (reading.1, reading.2 ++ after)

/-! ## The content of a group -/

lemma balanced_iff : Balanced ts ↔ closeGroup 0 (ts ++ [.closing]) = some [] := by
  constructor
  · intro h
    rw [h.closeGroup_append]
    rfl
  · intro h
    obtain ⟨dropped, hdropped, heq⟩ := exists_dropped_of_closeGroup h
    rwa [List.append_cancel_right heq]

lemma Balanced.of_append (h : Balanced (p ++ left)) (hp : Balanced p) : Balanced left := by
  rw [balanced_iff, List.append_assoc, hp.closeGroup_append] at h
  exact balanced_iff.2 h

lemma Finds.length_le {b : Int} (h : Finds k reader) (hread : reader ts = .ok (some b, left)) :
    left.length ≤ ts.length := by
  obtain ⟨p, rfl, -, -⟩ := h ts (some b) left hread
  rw [List.length_append]
  exact Nat.le_add_left _ _

lemma Finds.extend_operator (h : Finds k reader) (o : Operator) (acc : Int)
    (rest : List Token) :
    Expression.extend o reader acc (.operator o :: rest) = reader rest >>= fun
      | (some b, left) => o.apply acc b >>= fun v => Expression.extend o reader v left
      | (none, _) => .ok (some acc, .operator o :: rest) :=
  Expression.extend_operator fun _ _ => h.length_le

/-- What follows a closing parenthesis makes no difference to the reading of what it closes. -/
def Seals (reader : Reader) : Prop :=
  ∀ ts after, Balanced ts →
    reader (ts ++ .closing :: after) = (reader ts).map (leaving (.closing :: after))

lemma Seals.extend (h : Seals reader) (hfinds : Finds k reader) (o : Operator) (acc : Int)
    (hts : Balanced ts) (after : List Token) :
    extend o reader acc (ts ++ .closing :: after) =
      (extend o reader acc ts).map (leaving (.closing :: after)) := by
  induction hn : ts.length using Nat.strongRecOn generalizing ts acc with
  | ind n ih =>
    by_cases hnext : ∃ rest, ts = .operator o :: rest
    · -- The parts of a chain are balanced, so that what is left is sealed like the whole.
      obtain ⟨rest, rfl⟩ := hnext
      have hrest : Balanced rest := by
        cases hts with
        | operator _ hrest => exact hrest
      rw [List.cons_append, hfinds.extend_operator, hfinds.extend_operator, h rest after hrest]
      cases hread : reader rest with
      | error fault => rfl
      | ok reading =>
        obtain ⟨_ | b, left⟩ := reading
        · rfl
        · obtain ⟨p, rfl, hworth, -⟩ := hfinds rest (some b) left hread
          have hshorter : left.length < n := by
            rw [← hn, List.length_cons, List.length_append]
            omega
          have hleft : Balanced left := hrest.of_append hworth.phrase.balanced
          show (o.apply acc b >>= fun v => Expression.extend o reader v (left ++ .closing :: after)) =
            (o.apply acc b >>= fun v => Expression.extend o reader v left).map _
          cases o.apply acc b with
          | error fault => rfl
          | ok v => exact ih _ hshorter v hleft rfl
    · have hne : ∀ rest, ts ≠ .operator o :: rest := fun rest heq => hnext ⟨rest, heq⟩
      rw [extend_of_ne hne, extend_of_ne]
      · rfl
      · intro rest heq
        cases ts with
        | nil => simp at heq
        | cons t ts => exact hne ts (by rw [(List.cons.inj heq).1])

lemma Seals.chain (h : Seals reader) (hfinds : Finds k reader) (o : Operator) :
    Seals (chain o reader) := by
  intro ts after hts
  rw [chain_eq, chain_eq, h ts after hts]
  cases hread : reader ts with
  | error fault => rfl
  | ok reading =>
    obtain ⟨_ | a, left⟩ := reading
    · rfl
    · obtain ⟨p, rfl, hworth, -⟩ := hfinds ts (some a) left hread
      exact h.extend hfinds o a (hts.of_append hworth.phrase.balanced) after

lemma Seals.upTo (h : Seals reader) (hfinds : Finds 0 reader) (hk : k ≤ 4) :
    Seals (upTo k reader) := by
  induction k with
  | zero => exact h
  | succ k ih =>
    obtain ⟨o, ho⟩ := Operator.exists_level hk
    have hk' := Nat.le_of_succ_le hk
    rw [upTo_succ ho]
    exact (ih hk').chain (hfinds.upTo hk') o

/-- A sign is read as far as what is behind it. -/
lemma operand_sign (h : operand room (ts ++ after) = (operand room ts).map (leaving after))
    (o : Operator) : operand (room + 1) (.operator o :: (ts ++ after)) =
      (operand (room + 1) (.operator o :: ts)).map (leaving after) := by
  cases o with
  | times => rfl
  | divided => rfl
  | plus =>
    rw [operand_plus, operand_plus, h]
    cases operand room ts with
    | error fault => rfl
    | ok reading =>
      obtain ⟨_ | v, left⟩ := reading
      · rfl
      · rfl
  | minus =>
    rw [operand_minus, operand_minus, h]
    cases operand room ts with
    | error fault => rfl
    | ok reading =>
      obtain ⟨_ | v, left⟩ := reading
      · rfl
      · simp only [Except.map, leaving, bind, Except.bind]
        cases inRange (-v) <;> rfl

/-- A group that is closed is read by its content. -/
theorem operand_group (h : Seals (operand room)) (hinner : Balanced inner) (after : List Token) :
    operand (room + 1) (.opening :: (inner ++ .closing :: after)) =
      (expression (operand room) inner).map fun reading => (some (reading.1.getD 0), after) := by
  have hfinds := operand_finds room
  rw [operand_opening, expression_eq_upTo, h.upTo hfinds (Nat.le_refl 4) inner after hinner]
  cases hread : upTo 4 (operand room) inner with
  | error fault => rfl
  | ok reading =>
    obtain ⟨r, left⟩ := reading
    have hleft : Balanced left := by
      have hfound := hfinds.upTo (Nat.le_refl 4) inner r left hread
      cases r with
      | none => rwa [hfound.1]
      | some v =>
        obtain ⟨p, rfl, hworth, -⟩ := hfound
        exact hinner.of_append hworth.phrase.balanced
    have hclose : closeGroup 0 (left ++ .closing :: after) = some after :=
      hleft.closeGroup_append 0 _
    simp only [Except.map, leaving, bind, Except.bind, hclose]

/-- Readers of operands look into groups only, and a group is read by a reader with less room. -/
lemma operand_seals (room : Nat) : Seals (operand room) := by
  induction room with
  | zero =>
    intro ts after hts
    cases hts with
    | nil => rfl
    | value n hts => rfl
    | operator o hts => cases o <;> rfl
    | group hinner hts => rfl
  | succ room ih =>
    intro ts after hts
    cases hts with
    | nil => rfl
    | value n hts => rfl
    | operator o hts => exact operand_sign (ih _ after hts) o
    | @group inner ts hinner hts =>
      rw [operand_group ih hinner, List.cons_append, List.append_assoc, List.cons_append,
        operand_group ih hinner]
      cases expression (operand room) inner <;> rfl

/-! ## Operands -/

/-- What follows an operand makes no difference to its reading. -/
theorem operand_append (hp : IsOperand p) (room : Nat) (left : List Token) :
    operand room (p ++ left) = (operand room p).map (leaving left) := by
  induction hp generalizing room with
  | value n => cases room <;> rfl
  | plus _ ih =>
    cases room with
    | zero => rfl
    | succ room => exact operand_sign (ih room) .plus
  | minus _ ih =>
    cases room with
    | zero => rfl
    | succ room => exact operand_sign (ih room) .minus
  | @group inner hinner =>
    cases room with
    | zero => rfl
    | succ room =>
      rw [operand_group (operand_seals room) hinner, List.cons_append, List.append_assoc,
        List.singleton_append, operand_group (operand_seals room) hinner]
      cases expression (operand room) inner <;> rfl

/-! ## Where no operand is found -/

lemma upTo_none (h : reader ts = .ok (none, ts)) (hk : k ≤ 4) :
    upTo k reader ts = .ok (none, ts) := by
  induction k with
  | zero => exact h
  | succ k ih =>
    obtain ⟨o, ho⟩ := Operator.exists_level hk
    rw [upTo_succ ho, chain_eq, ih (Nat.le_of_succ_le hk)]
    rfl

lemma upTo_error {fault : Fault} (h : reader ts = .error fault) (hk : k ≤ 4) :
    upTo k reader ts = .error fault := by
  induction k with
  | zero => exact h
  | succ k ih =>
    obtain ⟨o, ho⟩ := Operator.exists_level hk
    rw [upTo_succ ho, chain_eq, ih (Nat.le_of_succ_le hk)]
    rfl

/-! ## Phrases -/

/-- If one of the `k` tightest operators follows, then no operand is behind it, and looking for one
is no fault. -/
def Quiet (room k : Nat) (left : List Token) : Prop :=
  ∀ o us, left = .operator o :: us → o.level ≤ k → operand room us = .ok (none, us)

lemma quiet_nil (room k : Nat) : Quiet room k [] := by
  intro o us heq
  contradiction

lemma quiet_operator (h : k < o.level) (rest : List Token) :
    Quiet room k (.operator o :: rest) := by
  intro other us heq hle
  obtain ⟨rfl, -⟩ : o = other ∧ rest = us := by simpa using heq
  omega

lemma Quiet.mono {n : Nat} (h : Quiet room n left) (hle : k ≤ n) : Quiet room k left :=
  fun o us heq hlevel => h o us heq (Nat.le_trans hlevel hle)

/-- A phrase on its own is read as a whole. -/
lemma Finds.eq_of_phrase {r : Reading} (h : Finds k reader) (hp : Phrase k p)
    (hread : reader p = .ok r) : ∃ v, r = (some v, []) ∧ Worth k p v := by
  obtain ⟨_ | v, left⟩ := r
  · exact absurd hp.begins (h p none left hread).2
  · obtain ⟨q, hq, hworth, hends⟩ := h p (some v) left hread
    have heq : q ++ left = p ++ [] := by rw [← hq, List.append_nil]
    obtain rfl : q = p := hworth.phrase.eq_of_ends hp hends (ends_nil k) heq
    obtain rfl : left = [] := List.append_cancel_left heq
    exact ⟨v, rfl, hworth⟩

/-- The rest of a chain: an operator and a part, again and again. -/
def links (o : Operator) (items : List (List Token)) : List Token :=
  items.flatMap (.operator o :: ·)

lemma joined_append (o : Operator) (first : List Token) (items : List (List Token))
    (left : List Token) : joined o first items ++ left = first ++ (links o items ++ left) :=
  List.append_assoc ..

lemma links_cons_append (o : Operator) (item : List Token) (items : List (List Token))
    (left : List Token) :
    links o (item :: items) ++ left = .operator o :: (item ++ (links o items ++ left)) := by
  simp [links]

variable {items : List (List Token)} {item first : List Token}

lemma quiet_links (ho : o.level = k + 1) (hleft : items = [] → Quiet room k left) :
    Quiet room k (links o items ++ left) := by
  cases items with
  | nil => exact hleft rfl
  | cons item items =>
    rw [links_cons_append]
    exact quiet_operator (by omega) _

/-- The phrases of a level are read as if nothing came after them, as long as it is quiet. They will
be the parts of a chain. -/
structure Parts (room k : Nat) (reader : Reader) : Prop where
  finds : Finds k reader
  append : ∀ p left, Phrase k p → Quiet room k left →
    reader (p ++ left) = (reader p).map (leaving left)

namespace Parts

variable (h : Parts room k reader) (ho : o.level = k + 1)

include h ho

/-- A part of a chain is read, or there is a fault in it, whatever comes after the chain. -/
lemma read_cases (hitem : Phrase k item) (hleft : items = [] → Quiet room k left) :
    (∃ fault, reader (item ++ links o items) = .error fault ∧
        reader (item ++ (links o items ++ left)) = .error fault) ∨
      ∃ b, reader (item ++ links o items) = .ok (some b, links o items) ∧
        reader (item ++ (links o items ++ left)) = .ok (some b, links o items ++ left) := by
  have halone : reader (item ++ links o items) = (reader item).map (leaving (links o items)) := by
    refine h.append item _ hitem ?_
    rw [← List.append_nil (links o items)]
    exact quiet_links ho fun _ => quiet_nil room k
  rw [halone, h.append item _ hitem (quiet_links ho hleft)]
  cases hread : reader item with
  | error fault => exact .inl ⟨fault, rfl, rfl⟩
  | ok r =>
    obtain ⟨b, rfl, -⟩ := h.finds.eq_of_phrase hitem hread
    exact .inr ⟨b, rfl, rfl⟩

/-- Between its parts a chain is quiet, and what follows the last part is quiet by assumption. -/
lemma extend_append (hitems : ∀ item ∈ items, Phrase k item) (hquiet : Quiet room k left)
    (hnone : ∀ us, left = .operator o :: us → reader us = .ok (none, us)) (acc : Int) :
    extend o reader acc (links o items ++ left) =
      (extend o reader acc (links o items)).map (leaving left) := by
  induction items generalizing acc with
  | nil =>
    have halone : extend o reader acc [] = .ok (some acc, []) := extend_of_ne fun _ => by simp
    rw [links, List.flatMap_nil, List.nil_append, halone]
    by_cases hnext : ∃ us, left = .operator o :: us
    · obtain ⟨us, rfl⟩ := hnext
      rw [h.finds.extend_operator, hnone us rfl]
      rfl
    · exact extend_of_ne fun us heq => hnext ⟨us, heq⟩
  | cons item items ih =>
    rw [List.forall_mem_cons] at hitems
    have hlinks : links o (item :: items) = .operator o :: (item ++ links o items) := rfl
    rw [links_cons_append, hlinks, h.finds.extend_operator, h.finds.extend_operator]
    rcases h.read_cases ho hitems.1 fun _ => hquiet with
      ⟨fault, halone, hread⟩ | ⟨b, halone, hread⟩
    · rw [halone, hread]
      rfl
    · rw [halone, hread]
      show (o.apply acc b >>= fun v => extend o reader v (links o items ++ left)) =
        (o.apply acc b >>= fun v => extend o reader v (links o items)).map _
      cases o.apply acc b with
      | error fault => rfl
      | ok v => exact ih hitems.2 v

lemma chain_append (hfirst : Phrase k first) (hitems : ∀ item ∈ items, Phrase k item)
    (hquiet : Quiet room k left)
    (hnone : ∀ us, left = .operator o :: us → reader us = .ok (none, us)) :
    chain o reader (joined o first items ++ left) =
      (chain o reader (joined o first items)).map (leaving left) := by
  rw [joined_append, joined, ← links, chain_eq, chain_eq]
  rcases h.read_cases ho hfirst fun _ => hquiet with
    ⟨fault, halone, hread⟩ | ⟨a, halone, hread⟩
  · rw [halone, hread]
    rfl
  · rw [halone, hread]
    exact h.extend_append ho hitems hquiet hnone a

end Parts

/-- What follows a phrase makes no difference to its reading, as long as it is quiet. -/
theorem upTo_append (hp : Phrase k p) (hk : k ≤ 4) (hquiet : Quiet room k left) :
    upTo k (operand room) (p ++ left) = (upTo k (operand room) p).map (leaving left) := by
  induction k generalizing p left with
  | zero =>
    cases hp with
    | operand hp => exact operand_append hp room left
  | succ k ih =>
    cases hp with
    | @chain _ o first items ho hfirst hitems =>
      have hk' := Nat.le_of_succ_le hk
      have hparts : Parts room k (upTo k (operand room)) :=
        ⟨(operand_finds room).upTo hk', fun p left hp hleft => ih hp hk' hleft⟩
      rw [upTo_succ ho]
      refine hparts.chain_append ho hfirst hitems (hquiet.mono (Nat.le_succ k)) fun us heq => ?_
      exact upTo_none (hquiet o us heq (Nat.le_of_eq ho)) hk'

/-! ## Faults behind a phrase -/

namespace Parts

variable {other : Operator} {us : List Token} (h : Parts room k reader) (ho : o.level = k + 1)
  (hbelow : other.level ≤ k → ∀ p, Phrase k p → Fails (reader (p ++ .operator other :: us)))
  (hle : other.level ≤ k + 1)

include h ho hbelow hle

/-- An operator that is too tight for the chain is met by its last part, and there is the fault. All
other parts are read, or have a fault of their own. -/
lemma fails_or_read (hitem : Phrase k item) :
    Fails (reader (item ++ (links o items ++ .operator other :: us))) ∨
      (items = [] → other = o) ∧ ∃ b, reader (item ++ (links o items ++ .operator other :: us)) =
        .ok (some b, links o items ++ .operator other :: us) := by
  by_cases hlast : items = [] ∧ other ≠ o
  · obtain ⟨rfl, hne⟩ := hlast
    have hlevel : other.level ≠ o.level := fun heq => hne (Operator.level_inj heq)
    exact .inl (hbelow (by omega) item hitem)
  · have hchain : items = [] → other = o := fun hnil => not_not.1 fun hne => hlast ⟨hnil, hne⟩
    have hquiet : items = [] → Quiet room k (.operator other :: us) := by
      intro hnil
      rw [hchain hnil]
      exact quiet_operator (by omega) us
    rcases h.read_cases ho hitem hquiet with ⟨fault, -, hread⟩ | ⟨b, -, hread⟩
    · exact .inl ⟨fault, hread⟩
    · exact .inr ⟨hchain, b, hread⟩

variable (hfails : Fails (reader us)) (hitems : ∀ item ∈ items, Phrase k item)

include hfails hitems

lemma fails_extend (hlast : items = [] → other = o) (acc : Int) :
    Fails (extend o reader acc (links o items ++ .operator other :: us)) := by
  induction items generalizing acc with
  | nil =>
    rw [hlast rfl, links, List.flatMap_nil, List.nil_append, h.finds.extend_operator]
    exact hfails.bind _
  | cons item items ih =>
    rw [List.forall_mem_cons] at hitems
    rw [links_cons_append, h.finds.extend_operator]
    rcases h.fails_or_read ho hbelow hle hitems.1 with hpart | ⟨hchain, b, hread⟩
    · exact hpart.bind _
    · rw [hread]
      show Fails (o.apply acc b >>= fun v => extend o reader v _)
      cases o.apply acc b with
      | error fault => exact fails_error fault
      | ok v => exact ih hitems.2 hchain v

lemma fails_chain (hfirst : Phrase k first) :
    Fails (chain o reader (joined o first items ++ .operator other :: us)) := by
  rw [joined_append, chain_eq]
  rcases h.fails_or_read ho hbelow hle hfirst with hpart | ⟨hchain, a, hread⟩
  · exact hpart.bind _
  · rw [hread]
    exact h.fails_extend ho hbelow hle hfails hitems hchain a

end Parts

lemma parts_upTo (hk : k ≤ 4) : Parts room k (upTo k (operand room)) :=
  ⟨(operand_finds room).upTo hk, fun _ _ hp hquiet => upTo_append hp hk hquiet⟩

/-- If looking for an operand is a fault behind an operator that could go on with a phrase, then the
phrase is not read. -/
theorem fails_upTo_append (hp : Phrase k p) (hk : k ≤ 4) (hle : o.level ≤ k)
    (hfails : Fails (operand room us)) :
    Fails (upTo k (operand room) (p ++ .operator o :: us)) := by
  induction k generalizing p with
  | zero => exact absurd o.level_pos (Nat.not_lt.2 hle)
  | succ k ih =>
    cases hp with
    | @chain _ other first items ho hfirst hitems =>
      have hk' := Nat.le_of_succ_le hk
      rw [upTo_succ ho]
      obtain ⟨fault, hfault⟩ := hfails
      exact (parts_upTo hk').fails_chain ho (fun hlevel p hp => ih hp hk' hlevel) hle
        ⟨fault, upTo_error hfault hk'⟩ hitems hfirst

end RoomBot.Expression
