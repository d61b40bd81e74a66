import RoomBot.Proofs.Expression.Level

/-!
# Phrases

Among arbitrary tokens some runs make sense.  An operand is a value or a group in parentheses, with
any signs before it; whatever a group holds, it need only be balanced.  A phrase of level `k` is a
chain of phrases of the level below, joined by the operator of level `k`, and the phrases of level 0
are the operands.

What a phrase is worth is said by `Worth`.  Chains are worked out from the left, and a group is
worth the longest phrase that its content begins with, or 0 where it begins with none.

Phrases are read in one way only.  An operand never is the beginning of another operand, and of two
phrases in front of the same tokens the one that nothing can be joined to contains the other
(`Phrase.isPrefix_of_ends`).  So a phrase has one value at most (`Worth.unique`).
-/

namespace RoomBot.Expression

variable {ts us p q x y left rest after inner : List Token} {o : Operator} {k n : Nat}

/-! ## Balanced tokens -/

/-- Every parenthesis has its partner. -/
inductive Balanced : List Token → Prop
  | nil : Balanced []
  | value {ts : List Token} (n : Int) : Balanced ts → Balanced (.value n :: ts)
  | operator {ts : List Token} (o : Operator) : Balanced ts → Balanced (.operator o :: ts)
  | group {inner ts : List Token} : Balanced inner → Balanced ts →
      Balanced (.opening :: (inner ++ .closing :: ts))

lemma Balanced.append (hts : Balanced ts) (hus : Balanced us) : Balanced (ts ++ us) := by
  induction hts with
  | nil => exact hus
  | value n _ ih => exact .value n ih
  | operator o _ ih => exact .operator o ih
  | @group inner ts hinner _ _ ih =>
    rw [List.cons_append, List.append_assoc, List.cons_append]
    exact .group hinner ih

@[simp] lemma closeGroup_opening (n : Nat) (ts : List Token) :
    closeGroup n (.opening :: ts) = closeGroup (n + 1) ts := by
  cases n <;> rfl

@[simp] lemma closeGroup_value (n : Nat) (m : Int) (ts : List Token) :
    closeGroup n (.value m :: ts) = closeGroup n ts := by
  cases n <;> rfl

@[simp] lemma closeGroup_operator (n : Nat) (o : Operator) (ts : List Token) :
    closeGroup n (.operator o :: ts) = closeGroup n ts := by
  cases n <;> rfl

lemma Balanced.closeGroup_append (h : Balanced ts) (n : Nat) (rest : List Token) :
    closeGroup n (ts ++ rest) = closeGroup n rest := by
  induction h generalizing n rest with
  | nil => rfl
  | value m _ ih => simp [ih]
  | operator o _ ih => simp [ih]
  | group _ _ ihinner ih =>
    rw [List.cons_append, List.append_assoc, List.cons_append, closeGroup_opening, ihinner]
    exact ih n rest

/-- Before the parenthesis that closes `n + 1` groups there are `n + 1` balanced parts, each with a
parenthesis behind it. -/
lemma exists_balanced_of_closeGroup (h : closeGroup n ts = some after) :
    ∃ parts : List (List Token), parts.length = n + 1 ∧ (∀ part ∈ parts, Balanced part) ∧
      ts = parts.flatMap (· ++ [.closing]) ++ after := by
  induction ts generalizing n with
  | nil => simp [closeGroup] at h
  | cons t ts ih =>
    cases t with
    | value m =>
      rw [closeGroup_value] at h
      obtain ⟨parts, hlength, hparts, rfl⟩ := ih h
      obtain ⟨part, parts, rfl⟩ := List.exists_cons_of_length_eq_add_one hlength
      obtain ⟨hpart, hparts⟩ := List.forall_mem_cons.1 hparts
      exact ⟨(.value m :: part) :: parts, hlength,
        List.forall_mem_cons.2 ⟨.value m hpart, hparts⟩, rfl⟩
    | operator o =>
      rw [closeGroup_operator] at h
      obtain ⟨parts, hlength, hparts, rfl⟩ := ih h
      obtain ⟨part, parts, rfl⟩ := List.exists_cons_of_length_eq_add_one hlength
      obtain ⟨hpart, hparts⟩ := List.forall_mem_cons.1 hparts
      exact ⟨(.operator o :: part) :: parts, hlength,
        List.forall_mem_cons.2 ⟨.operator o hpart, hparts⟩, rfl⟩
    | opening =>
      rw [closeGroup_opening] at h
      obtain ⟨parts, hlength, hparts, rfl⟩ := ih h
      obtain ⟨inner, parts, rfl⟩ := List.exists_cons_of_length_eq_add_one hlength
      obtain ⟨hinner, hparts⟩ := List.forall_mem_cons.1 hparts
      obtain ⟨part, parts, rfl⟩ := List.exists_cons_of_length_eq_add_one (Nat.succ.inj hlength)
      obtain ⟨hpart, hparts⟩ := List.forall_mem_cons.1 hparts
      refine ⟨(.opening :: (inner ++ .closing :: part)) :: parts, Nat.succ.inj hlength,
        List.forall_mem_cons.2 ⟨.group hinner hpart, hparts⟩, ?_⟩
      simp
    | closing =>
      cases n with
      | zero =>
        obtain rfl : ts = after := by simpa [closeGroup] using h
        exact ⟨[[]], rfl, by simpa using Balanced.nil, rfl⟩
      | succ n =>
        obtain ⟨parts, hlength, hparts, rfl⟩ := ih h
        exact ⟨[] :: parts, by rw [List.length_cons, hlength],
          List.forall_mem_cons.2 ⟨.nil, hparts⟩, rfl⟩

lemma exists_dropped_of_closeGroup (h : closeGroup 0 ts = some after) :
    ∃ dropped, Balanced dropped ∧ ts = dropped ++ .closing :: after := by
  obtain ⟨parts, hlength, hparts, rfl⟩ := exists_balanced_of_closeGroup h
  obtain ⟨part, rfl⟩ := List.length_eq_one_iff.1 hlength
  exact ⟨part, hparts part (List.mem_singleton_self part), by simp⟩

/-! ## Operands -/

/-- A value or a group, behind any signs. -/
inductive IsOperand : List Token → Prop
  | value (n : Int) : IsOperand [.value n]
  | plus {ts : List Token} : IsOperand ts → IsOperand (.operator .plus :: ts)
  | minus {ts : List Token} : IsOperand ts → IsOperand (.operator .minus :: ts)
  | group {inner : List Token} : Balanced inner → IsOperand (.opening :: (inner ++ [.closing]))

lemma IsOperand.balanced (h : IsOperand ts) : Balanced ts := by
  induction h with
  | value n => exact .value n .nil
  | plus _ ih => exact .operator .plus ih
  | minus _ ih => exact .operator .minus ih
  | group hinner => exact .group hinner .nil

/-- In front of the same tokens there are not two operands. -/
lemma IsOperand.eq_of_append (hp : IsOperand p) (hq : IsOperand q) (h : p ++ x = q ++ y) :
    p = q := by
  induction hp generalizing q with
  | value n =>
    cases hq with
    | value m =>
      obtain ⟨rfl, -⟩ : n = m ∧ x = y := by simpa using h
      rfl
    | plus _ => simp at h
    | minus _ => simp at h
    | group _ => simp at h
  | plus _ ih =>
    cases hq with
    | value m => simp at h
    | plus hq => rw [ih hq (List.cons.inj h).2]
    | minus _ => simp at h
    | group _ => simp at h
  | minus _ ih =>
    cases hq with
    | value m => simp at h
    | plus _ => simp at h
    | minus hq => rw [ih hq (List.cons.inj h).2]
    | group _ => simp at h
  | @group inner hinner =>
    cases hq with
    | value m => simp at h
    | plus _ => simp at h
    | minus _ => simp at h
    | @group other hother =>
      -- The group closes at the same place, so the same is left behind it.
      have htail : inner ++ .closing :: x = other ++ .closing :: y := by simpa using h
      have hclose := congrArg (closeGroup 0) htail
      rw [hinner.closeGroup_append, hother.closeGroup_append] at hclose
      obtain rfl : x = y := Option.some.inj hclose
      exact List.append_cancel_right h

/-- These tokens begin with an operand. -/
def Begins (ts : List Token) : Prop := ∃ p, IsOperand p ∧ p <+: ts

lemma Begins.append (h : Begins ts) (us : List Token) : Begins (ts ++ us) := by
  obtain ⟨p, hp, hstart⟩ := h
  exact ⟨p, hp, hstart.trans (List.prefix_append ts us)⟩

/-- None of the `k` tightest operators follows with an operand behind it. -/
def Ends (k : Nat) (left : List Token) : Prop :=
  ∀ o rest, left = .operator o :: rest → o.level ≤ k → ¬ Begins rest

lemma ends_zero (left : List Token) : Ends 0 left :=
  fun o _ _ hle => absurd o.level_pos (Nat.not_lt.2 hle)

lemma ends_nil (k : Nat) : Ends k [] := by
  intro o rest heq
  contradiction

lemma ends_operator (h : k < o.level) : Ends k (.operator o :: rest) := by
  intro other _ heq hle
  obtain ⟨rfl, -⟩ : o = other ∧ rest = _ := by simpa using heq
  omega

lemma Ends.mono (h : Ends n left) (hle : k ≤ n) : Ends k left :=
  fun o rest heq hlevel => h o rest heq (Nat.le_trans hlevel hle)

/-! ## Phrases -/

/-- A first part and some more, with an operator before each of these. -/
def joined (o : Operator) (first : List Token) (items : List (List Token)) : List Token :=
  first ++ items.flatMap (.operator o :: ·)

/-- An operand, or a chain of the operator of the given level, the parts of which are phrases of
the level below. -/
inductive Phrase : Nat → List Token → Prop
  | operand {ts : List Token} : IsOperand ts → Phrase 0 ts
  | chain {k : Nat} {o : Operator} {first : List Token} {items : List (List Token)} :
      o.level = k + 1 → Phrase k first → (∀ item ∈ items, Phrase k item) →
      Phrase (k + 1) (joined o first items)

variable {first other : List Token} {items others : List (List Token)}

@[simp] lemma joined_nil (o : Operator) (first : List Token) : joined o first [] = first := by
  simp [joined]

@[simp] lemma joined_cons (o : Operator) (first item : List Token) (items : List (List Token)) :
    joined o first (item :: items) = first ++ .operator o :: joined o item items := by
  simp [joined]

lemma Phrase.begins (h : Phrase k p) : Begins p := by
  induction h with
  | operand hp => exact ⟨_, hp, List.prefix_refl _⟩
  | chain _ _ _ ih _ => exact ih.append _

lemma Balanced.joined (o : Operator) (hfirst : Balanced first)
    (hitems : ∀ item ∈ items, Balanced item) : Balanced (joined o first items) := by
  induction items generalizing first with
  | nil => simpa using hfirst
  | cons item items ih =>
    obtain ⟨hitem, hitems⟩ := List.forall_mem_cons.1 hitems
    rw [joined_cons]
    exact hfirst.append (.operator o (ih hitem hitems))

lemma Phrase.balanced (h : Phrase k p) : Balanced p := by
  induction h with
  | operand hp => exact hp.balanced
  | chain _ _ _ ihfirst ihitems => exact ihfirst.joined _ ihitems

lemma eq_of_isPrefix (hp : p <+: q) (hq : q <+: p) : p = q :=
  hp.eq_of_length_le hq.length_le

/-- Two chains in front of the same tokens: the one that cannot go on contains the other. -/
lemma joined_isPrefix (ho : o.level = k + 1)
    (hshort : ∀ {p q x y : List Token}, Phrase k p → Phrase k q → Ends k x → p ++ x = q ++ y →
      q <+: p)
    (hfirst : Phrase k first) (hitems : ∀ item ∈ items, Phrase k item)
    (hother : Phrase k other) (hothers : ∀ item ∈ others, Phrase k item)
    (hx : Ends (k + 1) x) (h : joined o first items ++ x = joined o other others ++ y) :
    joined o other others <+: joined o first items := by
  have hnext : ∀ rest, Ends k (.operator o :: rest) := fun rest => ends_operator (by omega)
  induction items generalizing first other others with
  | nil =>
    rw [joined_nil] at h ⊢
    have hstart : ∀ {y}, first ++ x = other ++ y → other <+: first :=
      hshort hfirst hother (hx.mono (Nat.le_succ k))
    cases others with
    | nil =>
      rw [joined_nil] at h ⊢
      exact hstart h
    | cons item others =>
      rw [joined_cons, List.append_assoc, List.cons_append] at h
      obtain rfl : first = other :=
        eq_of_isPrefix (hshort hother hfirst (hnext _) h.symm) (hstart h)
      obtain rfl := List.append_cancel_left h
      have hitem := (hothers item List.mem_cons_self).begins
      exact absurd ((hitem.append _).append y) (hx o _ rfl (by omega))
  | cons item items ih =>
    rw [joined_cons, List.append_assoc, List.cons_append] at h
    cases others with
    | nil =>
      rw [joined_nil] at h ⊢
      rw [joined_cons]
      exact (hshort hfirst hother (hnext _) h).trans (List.prefix_append _ _)
    | cons next others =>
      rw [joined_cons, List.append_assoc, List.cons_append] at h
      obtain rfl : first = other :=
        eq_of_isPrefix (hshort hother hfirst (hnext _) h.symm) (hshort hfirst hother (hnext _) h)
      have htail := (List.cons.inj (List.append_cancel_left h)).2
      rw [List.forall_mem_cons] at hitems hothers
      rw [joined_cons, joined_cons, List.prefix_append_right_inj, List.cons_prefix_cons]
      exact ⟨rfl, ih hitems.1 hitems.2 hothers.1 hothers.2 htail⟩

/-- Two phrases in front of the same tokens: the one that cannot go on contains the other. -/
theorem Phrase.isPrefix_of_ends (hp : Phrase k p) (hq : Phrase k q) (hx : Ends k x)
    (h : p ++ x = q ++ y) : q <+: p := by
  induction k generalizing p q x y with
  | zero =>
    cases hp with
    | operand hp =>
      cases hq with
      | operand hq =>
        obtain rfl := hp.eq_of_append hq h
        exact List.prefix_refl p
  | succ k ih =>
    cases hp with
    | chain ho hfirst hitems =>
      cases hq with
      | chain ho' hother hothers =>
        obtain rfl := Operator.level_inj (ho.trans ho'.symm)
        exact joined_isPrefix ho ih hfirst hitems hother hothers hx h

lemma Phrase.eq_of_ends (hp : Phrase k p) (hq : Phrase k q) (hx : Ends k x) (hy : Ends k y)
    (h : p ++ x = q ++ y) : p = q :=
  eq_of_isPrefix (hq.isPrefix_of_ends hp hy h.symm) (hp.isPrefix_of_ends hq hx h)

/-- A chain has its parts in one way only. -/
lemma joined_inj (ho : o.level = k + 1) (hfirst : Phrase k first)
    (hitems : ∀ item ∈ items, Phrase k item) (hother : Phrase k other)
    (hothers : ∀ item ∈ others, Phrase k item) (h : joined o first items = joined o other others) :
    first = other ∧ items = others := by
  have hnext : ∀ rest, Ends k (.operator o :: rest) := fun rest => ends_operator (by omega)
  induction items generalizing first other others with
  | nil =>
    rw [joined_nil] at h
    cases others with
    | nil => exact ⟨h.trans (joined_nil o other), rfl⟩
    | cons item others =>
      rw [joined_cons, ← List.append_nil first] at h
      obtain rfl := hfirst.eq_of_ends hother (ends_nil k) (hnext _) h
      simp at h
  | cons item items ih =>
    cases others with
    | nil =>
      rw [joined_nil, joined_cons, ← List.append_nil other] at h
      obtain rfl := hfirst.eq_of_ends hother (hnext _) (ends_nil k) h
      simp at h
    | cons next others =>
      rw [joined_cons, joined_cons] at h
      obtain rfl := hfirst.eq_of_ends hother (hnext _) (hnext _) h
      have htail := (List.cons.inj (List.append_cancel_left h)).2
      rw [List.forall_mem_cons] at hitems hothers
      obtain ⟨rfl, rfl⟩ := ih hitems.1 hitems.2 hothers.1 hothers.2 htail
      exact ⟨rfl, rfl⟩

/-! ## The longest phrase -/

/-- The longest phrase that some tokens begin with. -/
structure Longest (p ts : List Token) : Prop where
  phrase : Phrase 4 p
  isPrefix : p <+: ts
  length_le : ∀ q, Phrase 4 q → q <+: ts → q.length ≤ p.length

theorem Longest.unique (hp : Longest p ts) (hq : Longest q ts) : p = q := by
  have hstart := List.prefix_of_prefix_length_le hp.isPrefix hq.isPrefix
    (hq.length_le p hp.phrase hp.isPrefix)
  exact hstart.eq_of_length_le (hp.length_le q hq.phrase hq.isPrefix)

lemma Phrase.longest (hp : Phrase 4 p) (hx : Ends 4 x) : Longest p (p ++ x) where
  phrase := hp
  isPrefix := List.prefix_append p x
  length_le q hq hstart := by
    obtain ⟨y, hy⟩ := hstart
    exact (hp.isPrefix_of_ends hq hx hy.symm).length_le

lemma begins_of_phrase (hp : Phrase k p) (hstart : p <+: ts) : Begins ts := by
  obtain ⟨y, rfl⟩ := hstart
  exact hp.begins.append y

/-! ## What a phrase is worth -/

/-- The value of a phrase. Signs and operators keep to the range of numbers, a chain is worked out
from the left, and a group is worth the longest phrase that it begins with, or 0. -/
inductive Worth : Nat → List Token → Int → Prop
  | value (n : Int) : Worth 0 [.value n] n
  | plus {ts : List Token} {v : Int} : Worth 0 ts v → Worth 0 (.operator .plus :: ts) v
  | minus {ts : List Token} {v w : Int} :
      Worth 0 ts v → inRange (-v) = .ok w → Worth 0 (.operator .minus :: ts) w
  | group {p dropped : List Token} {v : Int} :
      Balanced (p ++ dropped) → Longest p (p ++ dropped) → Worth 4 p v →
      Worth 0 (.opening :: (p ++ dropped ++ [.closing])) v
  | hollow {inner : List Token} :
      Balanced inner → (∀ p, Phrase 4 p → ¬ p <+: inner) →
      Worth 0 (.opening :: (inner ++ [.closing])) 0
  | chain {k : Nat} {o : Operator} {first : List Token} {a v : Int}
      {items : List (List Token × Int)} :
      o.level = k + 1 → Worth k first a → (∀ item ∈ items, Worth k item.1 item.2) →
      items.foldlM (fun acc item => o.apply acc item.2) a = .ok v →
      Worth (k + 1) (joined o first (items.map Prod.fst)) v

variable {v w : Int}

lemma Worth.phrase (h : Worth k p v) : Phrase k p := by
  induction h with
  | value n => exact .operand (.value n)
  | plus _ ih =>
    cases ih with
    | operand hp => exact .operand (.plus hp)
  | minus _ _ ih =>
    cases ih with
    | operand hp => exact .operand (.minus hp)
  | group hbalanced _ _ _ => exact .operand (.group hbalanced)
  | hollow hbalanced _ => exact .operand (.group hbalanced)
  | chain ho _ _ _ ihfirst ihitems => exact .chain ho ihfirst (List.forall_mem_map.2 ihitems)

/-- Parts that are the same have the same values. -/
lemma eq_of_map_fst {items others : List (List Token × Int)}
    (hunique : ∀ item ∈ items, ∀ w, Worth k item.1 w → item.2 = w)
    (hothers : ∀ item ∈ others, Worth k item.1 item.2)
    (h : items.map Prod.fst = others.map Prod.fst) : items = others := by
  induction items generalizing others with
  | nil => exact (List.map_eq_nil_iff.1 h.symm).symm
  | cons item items ih =>
    cases others with
    | nil => simp at h
    | cons other others =>
      rw [List.forall_mem_cons] at hunique hothers
      obtain ⟨hfst, hrest⟩ := List.cons.inj h
      have hsnd := hunique.1 other.2 (hfst ▸ hothers.1)
      rw [ih hunique.2 hothers.2 hrest, Prod.ext hfst hsnd]

/-- A group is worth the longest phrase that its content begins with, or 0. -/
lemma Worth.of_group (h : Worth 0 (.opening :: (inner ++ [.closing])) w) :
    (∃ p, Longest p inner ∧ Worth 4 p w) ∨ (∀ p, Phrase 4 p → ¬ p <+: inner) ∧ w = 0 := by
  generalize hts : Token.opening :: (inner ++ [.closing]) = ts at h
  cases h with
  | value n => simp at hts
  | plus _ => simp at hts
  | minus _ _ => simp at hts
  | @group p dropped _ hbalanced hlongest hw =>
    obtain rfl := List.append_cancel_right (List.cons.inj hts).2
    exact .inl ⟨p, hlongest, hw⟩
  | hollow hbalanced hnone =>
    obtain rfl := List.append_cancel_right (List.cons.inj hts).2
    exact .inr ⟨hnone, rfl⟩

/-- A phrase has one value at most. -/
theorem Worth.unique (hv : Worth k p v) (hw : Worth k p w) : v = w := by
  induction hv generalizing w with
  | value n =>
    cases hw with
    | value n => rfl
  | plus _ ih =>
    cases hw with
    | plus hw => exact ih hw
  | minus _ hneg ih =>
    cases hw with
    | minus hw hneg' =>
      obtain rfl := ih hw
      exact Except.ok.inj (hneg.symm.trans hneg')
  | group _ hlongest _ ih =>
    rcases hw.of_group with ⟨q, hq, hw⟩ | ⟨hnone, -⟩
    · obtain rfl := hlongest.unique hq
      exact ih hw
    · exact absurd hlongest.isPrefix (hnone _ hlongest.phrase)
  | hollow _ hnone =>
    rcases hw.of_group with ⟨q, hq, -⟩ | ⟨-, hw⟩
    · exact absurd hq.isPrefix (hnone q hq.phrase)
    · exact hw.symm
  | @chain k o first a v items ho hfirst hitems hfold ihfirst ihitems =>
    generalize hts : joined o first (items.map Prod.fst) = ts at hw
    cases hw with
    | @chain _ o' other b _ others ho' hother hothers hfold' =>
      obtain rfl := Operator.level_inj (ho.trans ho'.symm)
      obtain ⟨rfl, hsame⟩ := joined_inj ho hfirst.phrase
        (List.forall_mem_map.2 fun item hitem => (hitems item hitem).phrase) hother.phrase
        (List.forall_mem_map.2 fun item hitem => (hothers item hitem).phrase) hts
      obtain rfl := eq_of_map_fst (fun item hitem _ => ihitems item hitem) hothers hsame
      obtain rfl := ihfirst hother
      exact Except.ok.inj (hfold.symm.trans hfold')

end RoomBot.Expression
