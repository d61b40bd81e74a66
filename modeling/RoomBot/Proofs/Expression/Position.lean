import RoomBot.Proofs.Expression.Backtracking
import RoomBot.Proofs.Expression.Locality

/-!
# Positions and what is left

A cursor does what the readers do that hand on the tokens which are left.  It faces some tokens
where it stands, and a routine takes it to the place where it faces those that the reader has left
(`Follows`).  Text that is no token makes no difference behind the last of them.

The proof goes the way of the one that cursors go back: from the parts of a chain to the chain
(`Imitates.chain`), from signed operands to all levels (`Imitates.part`), and down the levels of
nesting that are left (`imitates_signed`).

So wherever a cursor stands, each routine comes to an end, leaves the cursor as it should, and gives
what the reader does (`Routine.read_backtracks`); and the value of a text is what a cursor reads
from its beginning (`chain_start`).
-/

namespace RoomBot.Expression

/-- Reads an operand that has no sign. -/
def unsigned (room : Nat) : Reader
  | .operator o :: rest => .ok (none, .operator o :: rest)
  | ts => operand room ts

/-- The reader that a routine stands for, with `room` levels of signs and groups still allowed. -/
def Routine.reader (room : Nat) : Routine → Reader
  | chain level => upTo (level + 1) (operand room)
  | part level => upTo level (operand room)
  | signed => operand room
  | atom => unsigned room

namespace Cursor

variable {c c' : Cursor} {t : Token} {ts us rest left taken : List Token}

/-! ## What a cursor faces -/

@[simp] lemma forward_forward (c : Cursor) (m n : Nat) :
    (c.forward m).forward n = c.forward (m + n) := by
  rw [forward, forward, forward, Nat.add_assoc]

/-- These tokens stand in front of the cursor, and nothing but text that is no token follows. -/
def Faces (c : Cursor) (ts : List Token) : Prop :=
  ∃ n, c.tokens.drop c.position = ts.map some ++ List.replicate n none

lemma peek_eq_head? (c : Cursor) : c.peek = (c.tokens.drop c.position).head? := by
  rw [peek, List.head?_drop]

lemma Faces.peek_eq (h : Faces c (t :: rest)) : c.peek = some (some t) := by
  obtain ⟨n, h⟩ := h
  rw [peek_eq_head?, h]
  rfl

lemma Faces.exists_cons (h : Faces c ts) (hpeek : c.peek = some (some t)) :
    ∃ rest, ts = t :: rest := by
  cases ts with
  | nil =>
    obtain ⟨n, h⟩ := h
    rw [peek_eq_head?, h] at hpeek
    cases n <;> simp [List.replicate_succ] at hpeek
  | cons u rest =>
    obtain rfl : u = t := by simpa [hpeek] using h.peek_eq.symm
    exact ⟨rest, rfl⟩

lemma Faces.eq_nil (h : Faces c ts) (hpeek : ∀ t, c.peek ≠ some (some t)) : ts = [] := by
  cases ts with
  | nil => rfl
  | cons t rest => exact absurd h.peek_eq (hpeek t)

lemma Faces.forward (h : Faces c (taken ++ left)) : Faces (c.forward taken.length) left := by
  obtain ⟨n, h⟩ := h
  refine ⟨n, ?_⟩
  rw [Cursor.forward, ← List.drop_drop, h, List.map_append, List.append_assoc,
    List.drop_left' (List.length_map _)]

lemma Faces.next (h : Faces c (t :: rest)) : Faces (c.forward 1) rest := by
  have h : Faces c ([t] ++ rest) := h
  exact h.forward

lemma Faces.next_of_nil (h : Faces c []) : Faces (c.forward 1) [] := by
  obtain ⟨n, h⟩ := h
  refine ⟨n - 1, ?_⟩
  rw [Cursor.forward, ← List.drop_drop, h]
  exact List.drop_replicate

/-! ## Coming to the same -/

/-- The cursor comes to the tokens that the reader has left, with the same value; or both have the
same fault. -/
def Follows (c : Cursor) (ts : List Token) (x : Attempt (Option Int × Cursor)) :
    Except Fault Reading → Prop
  | .error fault => x = some (.error fault)
  | .ok (v, left) => ∃ taken, ts = taken ++ left ∧ x = some (.ok (v, c.forward taken.length))

lemma follows_pure (c : Cursor) (v : Option Int) (taken left : List Token) :
    Follows c (taken ++ left) (pure (v, c.forward taken.length)) (.ok (v, left)) :=
  ⟨taken, rfl, rfl⟩

lemma follows_here (c : Cursor) (v : Option Int) (ts : List Token) :
    Follows c ts (pure (v, c)) (.ok (v, ts)) :=
  follows_pure c v [] ts

section Steps

variable {α : Type} {x : Attempt (Option Int × Cursor)} {r : Except Fault Reading}
  {f : Option Int × Cursor → Attempt (Option Int × Cursor)} {g : Reading → Except Fault Reading}

/-- The cursor and its tokens may be others than before, as they are when a sign or a group is left
again. -/
lemma Follows.bind (hx : Follows c ts x r)
    (hf : ∀ v taken left, x = some (.ok (v, c.forward taken.length)) → ts = taken ++ left →
      Follows c' us (f (v, c.forward taken.length)) (g (v, left))) :
    Follows c' us (x >>= f) (r >>= g) := by
  cases r with
  | error fault =>
    obtain rfl := hx
    rfl
  | ok reading =>
    obtain ⟨v, left⟩ := reading
    obtain ⟨taken, hts, rfl⟩ := hx
    exact hf v taken left rfl hts

lemma follows_lift {e : Except Fault α} {f : α → Attempt (Option Int × Cursor)}
    {g : α → Except Fault Reading} (h : ∀ a, Follows c ts (f a) (g a)) :
    Follows c ts (liftM e >>= f) (e >>= g) := by
  cases e with
  | error fault => rfl
  | ok a => exact h a

lemma Follows.after (h : Follows (c.forward taken.length) left x r) :
    Follows c (taken ++ left) x r := by
  cases r with
  | error fault => exact h
  | ok reading =>
    obtain ⟨more, rfl, rfl⟩ := h
    refine ⟨taken ++ more, (List.append_assoc ..).symm, ?_⟩
    rw [forward_forward, List.length_append]

lemma Follows.next (h : Follows (c.forward 1) rest x r) : Follows c (t :: rest) x r := by
  show Follows c ([t] ++ rest) x r
  exact Follows.after h

lemma Follows.eq_map (h : Follows c ts x r) :
    x = some (r.map fun (v, left) =>
      (v, { c with position := c.position + (ts.length - left.length) })) := by
  cases r with
  | error fault => exact h
  | ok reading =>
    obtain ⟨v, left⟩ := reading
    obtain ⟨taken, rfl, rfl⟩ := h
    simp only [Except.map, List.length_append, Nat.add_sub_cancel]
    rfl

end Steps

/-! ## The end of a group -/

/-- The search comes to the end of the group if the tokens have one. -/
def Closes (c : Cursor) (ts : List Token) (search : Bool × Cursor) : Option (List Token) → Prop
  | some left => ∃ taken, ts = taken ++ left ∧ search = (true, c.forward taken.length)
  | none => search.1 = false

lemma Closes.after {search : Bool × Cursor} {found : Option (List Token)}
    (h : Closes (c.forward 1) rest search found) : Closes c (t :: rest) search found := by
  cases found with
  | none => exact h
  | some left =>
    obtain ⟨taken, rfl, rfl⟩ := h
    refine ⟨t :: taken, rfl, ?_⟩
    rw [forward_forward, List.length_cons, Nat.add_comm]

lemma Faces.closes (h : Faces c ts) (opened : Nat) :
    Closes c ts (c.closeGroup opened) (Expression.closeGroup opened ts) := by
  fun_induction Cursor.closeGroup opened c generalizing ts with
  | case1 opened c hpeek =>
    obtain rfl := h.eq_nil (by simp [hpeek])
    rfl
  | case2 c hpeek =>
    obtain ⟨rest, rfl⟩ := h.exists_cons hpeek
    exact ⟨[.closing], rfl, rfl⟩
  | case3 c hpeek opened ih =>
    obtain ⟨rest, rfl⟩ := h.exists_cons hpeek
    exact (ih h.next).after
  | case4 opened c hpeek ih =>
    obtain ⟨rest, rfl⟩ := h.exists_cons hpeek
    rw [closeGroup_opening]
    exact (ih h.next).after
  | case5 opened c t hclosing hopening hpeek ih =>
    cases t with
    | none =>
      obtain rfl := h.eq_nil (by simp [hpeek])
      exact ih h.next_of_nil
    | some t =>
      obtain ⟨rest, rfl⟩ := h.exists_cons hpeek
      cases t with
      | value n => simpa using (ih h.next).after
      | operator o => simpa using (ih h.next).after
      | opening => contradiction
      | closing => contradiction

/-! ## Chains -/

/-- A routine that does at a depth what a reader does. -/
def Imitates (read : Cursor → Attempt (Option Int × Cursor)) (reader : Reader) (depth : Nat) :
    Prop :=
  ∀ c ts, c.depth = depth → Faces c ts → Follows c ts (read c) (reader ts)

variable {level : Level} {depth room k : Nat} {reader : Reader}

lemma left_lt_of_part {b : Int} {n : Nat}
    (h : part level c = some (.ok (some b, c.forward n))) : (c.forward n).left < c.left :=
  (((sound_signed c.depth).part level c rfl).of_eq h).left_lt

lemma Imitates.extend (h : Imitates (part level) reader depth) (hfinds : Finds k reader)
    {before : Nat} (hbefore : c.left < before) (acc : Int) (hdepth : c.depth = depth)
    (hfaces : Faces c ts) :
    Follows c ts (extend level before acc c)
      (Expression.extend level.operator reader acc ts) := by
  -- Both go on from where the last part has left them.
  induction hn : c.left using Nat.strongRecOn generalizing before acc c ts with
  | ind n ih =>
    rw [Cursor.extend, if_neg (Nat.not_le.2 hbefore)]
    by_cases hnext : ∃ rest, ts = .operator level.operator :: rest
    · obtain ⟨rest, rfl⟩ := hnext
      rw [if_pos hfaces.peek_eq, hfinds.extend_operator]
      refine (h (c.forward 1) rest hdepth hfaces.next).bind fun v taken left hread hrest => ?_
      subst hrest
      cases v with
      | none => exact follows_here c (some acc) _
      | some b =>
        have hless : ((c.forward 1).forward taken.length).left < c.left :=
          Nat.lt_of_lt_of_le (left_lt_of_part hread) (left_forward_le c 1)
        refine follows_lift fun acc => ?_
        have hleft := ih _ (hn ▸ hless) hless acc hdepth hfaces.next.forward rfl
        exact hleft.after.next
    · have hne : ∀ rest, ts ≠ .operator level.operator :: rest :=
        fun rest heq => hnext ⟨rest, heq⟩
      rw [if_neg fun hpeek => hnext (hfaces.exists_cons hpeek), extend_of_ne hne]
      exact follows_here c (some acc) ts

theorem Imitates.chain (h : Imitates (part level) reader depth) (hfinds : Finds k reader) :
    Imitates (chain level) (Expression.chain level.operator reader) depth := by
  intro c ts hdepth hfaces
  rw [Cursor.chain, chain_eq]
  refine (h c ts hdepth hfaces).bind fun v taken left hread hts => ?_
  subst hts
  cases v with
  | none => exact follows_pure c none taken left
  | some acc => exact (h.extend hfinds (left_lt_of_part hread) acc hdepth hfaces.forward).after

@[simp] lemma level_operator (level : Level) : level.operator.level = level + 1 := by
  revert level
  decide

/-- If signed operands are read alike, so are the parts on all levels. -/
theorem Imitates.part (h : Imitates signed (operand room) depth) (level : Level) :
    Imitates (part level) (upTo level (operand room)) depth := by
  obtain ⟨k, hk⟩ := level
  induction k with
  | zero =>
    intro c ts hdepth hfaces
    rw [Cursor.part]
    exact h c ts hdepth hfaces
  | succ k ih =>
    intro c ts hdepth hfaces
    have hk' := Nat.lt_of_succ_lt hk
    have hfinds := (operand_finds room).upTo (Nat.le_of_lt hk')
    rw [Cursor.part, upTo_succ (level_operator ⟨k, hk'⟩)]
    exact (ih hk').chain hfinds c ts hdepth hfaces

lemma Imitates.chain_level (h : Imitates signed (operand room) depth) (level : Level) :
    Imitates (Cursor.chain level) (upTo (level + 1) (operand room)) depth := by
  rw [upTo_succ (level_operator level)]
  exact (h.part level).chain ((operand_finds room).upTo (Nat.le_of_lt level.isLt))

/-! ## Operands -/

/-- In a sign or a group: without room that is a fault for both. -/
lemma follows_inside {x : Attempt (Option Int × Cursor)} {r : Except Fault Reading}
    (hdeep : maxNesting - c.depth = 0 → r = .error .tooDeep)
    (hinside : ∀ room, maxNesting - c.depth = room + 1 → Follows c ts x r) :
    Follows c ts (liftM (c.forward 1).checkDepth >>= fun _ => x) r := by
  cases hroom : maxNesting - c.depth with
  | zero =>
    have hcheck : (c.forward 1).checkDepth = .error .tooDeep :=
      if_pos (Nat.le_of_sub_eq_zero hroom)
    rw [hcheck, hdeep hroom]
    rfl
  | succ room =>
    have hcheck : (c.forward 1).checkDepth = .ok () :=
      checkDepth_eq_ok_iff.2 (Nat.lt_of_sub_eq_succ hroom)
    rw [hcheck]
    exact hinside room hroom

/-- Behind the content of a group its end is looked for, and without one the group is not taken. -/
lemma follows_closeGroup (hfaces : Faces c (.opening :: (taken ++ left))) (inner : Option Int) :
    Follows c (.opening :: (taken ++ left))
      (match ((c.forward 1).forward taken.length).closeGroup 0 with
      | (true, after) => pure (some (inner.getD 0), after)
      | (false, after) => pure (none, after.backTo c.position))
      (match Expression.closeGroup 0 left with
      | some outside => .ok (some (inner.getD 0), outside)
      | none => .ok (none, .opening :: (taken ++ left))) := by
  have hcloses := hfaces.next.forward.closes 0
  cases hfound : Expression.closeGroup 0 left with
  | none =>
    obtain ⟨searched, hsearched, -⟩ := passes_closeGroup 0 ((c.forward 1).forward taken.length)
    cases hsearch : ((c.forward 1).forward taken.length).closeGroup 0 with
    | mk closed further =>
      rw [hfound, hsearch] at hcloses
      rw [hsearch] at hsearched
      obtain rfl : closed = false := hcloses
      obtain rfl : further = _ := hsearched.eq_forward
      exact follows_here c none _
  | some outside =>
    rw [hfound] at hcloses
    obtain ⟨more, rfl, hsearch⟩ := hcloses
    rw [hsearch]
    have hafter := follows_pure ((c.forward 1).forward taken.length)
      (some (inner.getD 0)) more outside
    exact hafter.after.next

lemma unsigned_eq_operand (hminus : ∀ rest, ts ≠ .operator .minus :: rest)
    (hplus : ∀ rest, ts ≠ .operator .plus :: rest) (room : Nat) :
    operand room ts = unsigned room ts := by
  cases ts with
  | nil => rfl
  | cons t rest =>
    cases t with
    | operator o =>
      cases o with
      | minus => exact absurd rfl (hminus rest)
      | plus => exact absurd rfl (hplus rest)
      | times => cases room <;> rfl
      | divided => cases room <;> rfl
    | value n => rfl
    | opening => rfl
    | closing => rfl

lemma unsigned_eq_none (hvalue : ∀ n rest, ts ≠ .value n :: rest)
    (hopening : ∀ rest, ts ≠ .opening :: rest) (room : Nat) :
    unsigned room ts = .ok (none, ts) := by
  cases ts with
  | nil => cases room <;> rfl
  | cons t rest =>
    cases t with
    | operator o => rfl
    | value n => exact absurd rfl (hvalue n rest)
    | opening => exact absurd rfl (hopening rest)
    | closing => cases room <;> rfl

lemma Imitates.atom
    (h : ∀ room, maxNesting - depth = room + 1 → Imitates signed (operand room) (depth + 1)) :
    Imitates atom (unsigned (maxNesting - depth)) depth := by
  rintro c ts rfl hfaces
  rw [Cursor.atom]
  split
  · rename_i n hpeek
    obtain ⟨rest, rfl⟩ := hfaces.exists_cons hpeek
    have hvalue : unsigned (maxNesting - c.depth) (.value n :: rest) = .ok (some n, rest) := by
      cases maxNesting - c.depth <;> rfl
    rw [hvalue]
    exact follows_pure c (some n) [.value n] rest
  · rename_i hpeek
    obtain ⟨rest, rfl⟩ := hfaces.exists_cons hpeek
    have hgroup (room : Nat) :
        unsigned room (.opening :: rest) = operand room (.opening :: rest) := rfl
    rw [hgroup]
    refine follows_inside (fun hroom => by rw [hroom]; rfl) fun room hroom => ?_
    rw [hroom, operand_opening, expression_eq_upTo]
    refine ((h room hroom).chain_level loosest (c.forward 1).enter rest rfl hfaces.next).bind
      fun inner taken left _ hrest => ?_
    subst hrest
    exact follows_closeGroup hfaces inner
  · rename_i hvalue hopening
    rw [unsigned_eq_none]
    · exact follows_here c none ts
    · rintro n rest rfl
      exact hvalue n hfaces.peek_eq
    · rintro rest rfl
      exact hopening hfaces.peek_eq

lemma Imitates.signed
    (h : ∀ room, maxNesting - depth = room + 1 → Imitates Cursor.signed (operand room) (depth + 1))
    (hatom : Imitates Cursor.atom (unsigned (maxNesting - depth)) depth) :
    Imitates Cursor.signed (operand (maxNesting - depth)) depth := by
  rintro c ts rfl hfaces
  rw [Cursor.signed]
  split
  · rename_i hpeek
    obtain ⟨rest, rfl⟩ := hfaces.exists_cons hpeek
    refine follows_inside (fun hroom => by rw [hroom]; rfl) fun room hroom => ?_
    rw [hroom, operand_minus]
    -- The operand is read one level further down, and then the cursor is back on its own level.
    refine (h room hroom (c.forward 1).enter rest rfl hfaces.next).bind
      fun v taken left _ hrest => ?_
    subst hrest
    cases v with
    | none => exact follows_here c none _
    | some v =>
      refine follows_lift fun w => ?_
      exact (follows_pure (c.forward 1) (some w) taken left).next
  · rename_i hpeek
    obtain ⟨rest, rfl⟩ := hfaces.exists_cons hpeek
    refine follows_inside (fun hroom => by rw [hroom]; rfl) fun room hroom => ?_
    rw [hroom, operand_plus]
    refine (h room hroom (c.forward 1).enter rest rfl hfaces.next).bind
      fun v taken left _ hrest => ?_
    subst hrest
    cases v with
    | none => exact follows_here c none _
    | some v => exact (follows_pure (c.forward 1) (some v) taken left).next
  · rename_i hminus hplus
    rw [unsigned_eq_operand]
    · exact hatom c ts rfl hfaces
    · rintro rest rfl
      exact hminus hfaces.peek_eq
    · rintro rest rfl
      exact hplus hfaces.peek_eq

theorem imitates_signed (depth : Nat) :
    Imitates Cursor.signed (operand (maxNesting - depth)) depth := by
  induction hn : maxNesting - depth using Nat.strongRecOn generalizing depth with
  | ind n ih =>
    have hdeeper : ∀ room, maxNesting - depth = room + 1 →
        Imitates Cursor.signed (operand room) (depth + 1) :=
      fun room hroom => ih room (by omega) (depth + 1) (by omega)
    rw [← hn]
    exact .signed hdeeper (.atom hdeeper)

lemma imitates_atom (depth : Nat) :
    Imitates Cursor.atom (unsigned (maxNesting - depth)) depth := by
  refine .atom fun room hroom => ?_
  have hsigned := imitates_signed (depth + 1)
  rwa [Nat.sub_succ, hroom] at hsigned

lemma imitates_read (routine : Routine) (depth : Nat) :
    Imitates routine.read (routine.reader (maxNesting - depth)) depth := by
  cases routine with
  | chain level => exact (imitates_signed depth).chain_level level
  | part level => exact (imitates_signed depth).part level
  | signed => exact imitates_signed depth
  | atom => exact imitates_atom depth

/-! ## All routines, wherever the cursor stands -/

lemma faces_drop {n : Nat} (h : c.tokens = ts.map some ++ List.replicate n none) :
    Faces c (ts.drop c.position) := by
  refine ⟨n - (c.position - ts.length), ?_⟩
  rw [h, List.drop_append, List.map_drop, List.length_map, List.drop_replicate]

/-- A text is worth what a cursor reads from its beginning, whether the tokens went on to its end or
stopped at something that is no token. -/
theorem chain_start (ts : List Token) (n : Nat) :
    let start : Cursor := ⟨ts.map some ++ List.replicate n none, 0, 0⟩
    (chain loosest start >>= fun (value, _) => pure (value.getD 0)) =
      (liftM (evaluate ts) : Attempt Int) := by
  intro start
  have hfollows : Follows start ts (chain loosest start) (upTo 4 (operand maxNesting) ts) :=
    (imitates_signed 0).chain_level loosest start ts rfl (faces_drop rfl)
  rw [evaluate, expression_eq_upTo]
  cases hread : upTo 4 (operand maxNesting) ts with
  | error fault =>
    rw [hread] at hfollows
    have hchain : chain loosest start = some (.error fault) := hfollows
    rw [hchain]
    rfl
  | ok reading =>
    rw [hread] at hfollows
    obtain ⟨taken, -, hchain⟩ := hfollows
    rw [hchain]
    rfl

end Cursor

open Cursor

/-- Wherever a cursor stands and however deep it is, each routine comes to an end. With a value the
cursor has moved on over balanced tokens, and without one nothing about it has changed. Where all
the tokens come before the text that is none, the value and the position are those of the reader. -/
theorem Routine.read_backtracks (routine : Routine) (c : Cursor) :
    ∃ outcome, routine.read c = some outcome ∧
      (∀ v after, outcome = .ok (some v, after) → Advanced c after) ∧
      (∀ after, outcome = .ok (none, after) → after = c) ∧
      ∀ (ts : List Token) (n : Nat), c.tokens = ts.map some ++ List.replicate n none →
        let rest := ts.drop c.position
        outcome = (routine.reader (maxNesting - c.depth) rest).map fun (v, left) =>
          (v, { c with position := c.position + (rest.length - left.length) }) := by
  obtain ⟨outcome, hread, hkeeps⟩ := sound_read routine c.depth c rfl
  refine ⟨outcome, hread, fun v after heq => ?_, fun after heq => ?_, fun ts n htokens => ?_⟩
  · obtain ⟨hcrosses, hlt⟩ : Crosses c after ∧ c.position < after.position := hkeeps _ heq
    exact hcrosses.advanced hlt
  · exact hkeeps _ heq
  · have hfollows := imitates_read routine c.depth c (ts.drop c.position) rfl (faces_drop htokens)
    exact Option.some.inj (hread.symm.trans hfollows.eq_map)

/-- In front of the first group of `2*(3+)-(#`: the plus is given back, and the minus too, since the
second group is never closed. -/
theorem Routine.read_backtracks_unclosed :
    let ts : List Token := [.value 2, .operator .times, .opening, .value 3, .operator .plus,
      .closing, .operator .minus, .opening]
    let c : Cursor := ⟨ts.map some ++ List.replicate 1 none, 2, 7⟩
    let after : Cursor := { c with position := 6 }
    let unclosed : Cursor := { c with position := 7 }
    (chain loosest).read c = some (.ok (some 3, after)) ∧ Advanced c after ∧
      atom.read unclosed = some (.ok (none, unclosed)) := by
  intro ts c after unclosed
  obtain ⟨outcome, hread, hvalue, -, hreader⟩ := Routine.read_backtracks (.chain loosest) c
  have heq : outcome = .ok (some 3, after) := (hreader ts 1 rfl).trans (by cbv)
  obtain ⟨outcome', hread', -, -, hreader'⟩ := Routine.read_backtracks .atom unclosed
  have heq' : outcome' = .ok (none, unclosed) := (hreader' ts 1 rfl).trans (by cbv)
  exact ⟨heq ▸ hread, hvalue 3 _ heq, heq' ▸ hread'⟩

end RoomBot.Expression
