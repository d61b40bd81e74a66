import Mathlib.Data.List.ReduceOption
import RoomBot.Proofs.Expression.Cursor
import RoomBot.Proofs.Expression.Phrase

/-!
# Going back

Whatever the tokens are and wherever a cursor stands among them, each routine comes to an end.  If
that is no fault, then either there is a value, and the cursor has crossed some tokens, which are
balanced; or there is none, and the cursor is where it was (`sound_read`).

A chain of such parts is such a routine again (`Sound.chain`): since each part takes something, less
is left with every turn, and the chain never fails for going on without end.  So what is shown of
signed operands holds on all levels (`Sound.part`).  Signs and groups go one level of nesting down,
and the induction is on the levels that are left (`sound_signed`).
-/

namespace RoomBot.Expression

/-! ## Attempts -/

section Attempts

variable {α β : Type} {x : Attempt α} {f : α → Attempt β} {P P' : α → Prop} {Q : β → Prop}

/-- The attempt comes to an end, with a fault or with a result that has a property. -/
def Concludes (x : Attempt α) (P : α → Prop) : Prop :=
  ∃ outcome, x = some outcome ∧ ∀ a, outcome = .ok a → P a

lemma concludes_pure {a : α} (h : P a) : Concludes (pure a) P :=
  ⟨.ok a, rfl, fun _ heq => Except.ok.inj heq ▸ h⟩

lemma concludes_lift {e : Except Fault α} (h : ∀ a, e = .ok a → P a) :
    Concludes (liftM e : Attempt α) P :=
  ⟨e, rfl, h⟩

lemma Concludes.bind (hx : Concludes x P) (hf : ∀ a, P a → Concludes (f a) Q) :
    Concludes (x >>= f) Q := by
  obtain ⟨outcome, rfl, hresult⟩ := hx
  cases outcome with
  | error fault => exact ⟨.error fault, rfl, fun _ heq => by contradiction⟩
  | ok a => exact hf a (hresult a rfl)

lemma Concludes.mono (hx : Concludes x P) (h : ∀ a, P a → P' a) : Concludes x P' := by
  obtain ⟨outcome, heq, hresult⟩ := hx
  exact ⟨outcome, heq, fun a ha => h a (hresult a ha)⟩

lemma Concludes.of_eq (hx : Concludes x P) {a : α} (h : x = some (.ok a)) : P a := by
  obtain ⟨outcome, heq, hresult⟩ := hx
  exact hresult a (Option.some.inj (heq.symm.trans h))

end Attempts

namespace Cursor

variable {c after further : Cursor} {t : Option Token} {taken more : List (Option Token)}

/-! ## Moving -/

/-- The cursor has been moved over the tokens in front of it. -/
structure Passes (c : Cursor) (taken : List (Option Token)) (after : Cursor) : Prop where
  isPrefix : taken <+: c.tokens.drop c.position
  eq_forward : after = c.forward taken.length

lemma Passes.refl (c : Cursor) : Passes c [] c :=
  ⟨List.nil_prefix, rfl⟩

lemma Passes.trans (h : Passes c taken after) (hmore : Passes after more further) :
    Passes c (taken ++ more) further := by
  obtain ⟨⟨rest, hrest⟩, rfl⟩ := h
  obtain ⟨hstart, rfl⟩ := hmore
  have hleft : (c.forward taken.length).tokens.drop (c.forward taken.length).position = rest := by
    rw [forward, ← List.drop_drop, ← hrest, List.drop_left]
  constructor
  · rw [← hrest, List.prefix_append_right_inj, ← hleft]
    exact hstart
  · rw [forward, forward, forward, List.length_append, Nat.add_assoc]

lemma Passes.position_lt (h : Passes c (t :: taken) after) : c.position < after.position := by
  rw [h.eq_forward]
  exact Nat.lt_add_of_pos_right (Nat.succ_pos _)

lemma Passes.backTo_eq (h : Passes c taken after) : after.backTo c.position = c := by
  rw [h.eq_forward]
  rfl

lemma passes_forward (h : c.peek = some t) : Passes c [t] (c.forward 1) := by
  obtain ⟨hlt, rfl⟩ := List.getElem?_eq_some_iff.1 h
  exact ⟨⟨_, (List.drop_eq_getElem_cons hlt).symm⟩, rfl⟩

lemma Passes.leave (h : Passes c.enter taken after) : Passes c taken after.leave :=
  ⟨h.isPrefix, by rw [h.eq_forward]; rfl⟩

/-- The search for the end of a group goes over all tokens up to it. -/
lemma passes_closeGroup (opened : Nat) (c : Cursor) :
    ∃ taken, Passes c taken (c.closeGroup opened).2 ∧
      ((c.closeGroup opened).1 = true →
        Expression.closeGroup opened taken.reduceOption = some []) := by
  fun_induction closeGroup opened c with
  | case1 opened c hpeek => exact ⟨[], .refl c, fun h => by contradiction⟩
  | case2 c hpeek => exact ⟨[some .closing], passes_forward hpeek, fun _ => rfl⟩
  | case3 c hpeek opened ih =>
    obtain ⟨taken, hpasses, hclose⟩ := ih
    exact ⟨_, (passes_forward hpeek).trans hpasses, hclose⟩
  | case4 opened c hpeek ih =>
    obtain ⟨taken, hpasses, hclose⟩ := ih
    refine ⟨_, (passes_forward hpeek).trans hpasses, fun h => ?_⟩
    rw [List.singleton_append, List.reduceOption_cons_of_some, closeGroup_opening, hclose h]
  | case5 opened c t hclosing hopening hpeek ih =>
    obtain ⟨taken, hpasses, hclose⟩ := ih
    refine ⟨_, (passes_forward hpeek).trans hpasses, fun h => ?_⟩
    rw [List.singleton_append]
    cases t with
    | none => rw [List.reduceOption_cons_of_none, hclose h]
    | some t =>
      rw [List.reduceOption_cons_of_some]
      cases t with
      | value n => simp [hclose h]
      | operator o => simp [hclose h]
      | opening => contradiction
      | closing => contradiction

/-! ## Crossing balanced tokens -/

/-- The cursor has been moved over tokens, if any, that are balanced. -/
def Crosses (c after : Cursor) : Prop :=
  ∃ taken, Passes c taken after ∧ Balanced taken.reduceOption

lemma Crosses.refl (c : Cursor) : Crosses c c :=
  ⟨[], .refl c, .nil⟩

lemma Crosses.trans (h : Crosses c after) (hmore : Crosses after further) :
    Crosses c further := by
  obtain ⟨taken, hpasses, hbalanced⟩ := h
  obtain ⟨more, hpasses', hbalanced'⟩ := hmore
  refine ⟨taken ++ more, hpasses.trans hpasses', ?_⟩
  rw [List.reduceOption_append]
  exact hbalanced.append hbalanced'

lemma crosses_value {n : Int} (h : c.peek = some (some (.value n))) :
    Crosses c (c.forward 1) :=
  ⟨_, passes_forward h, .value n .nil⟩

lemma crosses_operator {o : Operator} (h : c.peek = some (some (.operator o))) :
    Crosses c (c.forward 1) :=
  ⟨_, passes_forward h, .operator o .nil⟩

lemma Crosses.leave (h : Crosses c.enter after) : Crosses c after.leave := by
  obtain ⟨taken, hpasses, hbalanced⟩ := h
  exact ⟨taken, hpasses.leave, hbalanced⟩

/-- A group with its parentheses, whatever of its content has been read before its end was looked
for. -/
lemma Crosses.group (hpeek : c.peek = some (some .opening)) (h : Crosses (c.forward 1) after)
    (hclose : (after.closeGroup 0).1 = true) : Crosses c (after.closeGroup 0).2 := by
  obtain ⟨inner, hinner, hbalanced⟩ := h
  obtain ⟨dropped, hdropped, hclosed⟩ := passes_closeGroup 0 after
  obtain ⟨content, hcontent, heq⟩ := exists_dropped_of_closeGroup (hclosed hclose)
  refine ⟨_, (passes_forward hpeek).trans (hinner.trans hdropped), ?_⟩
  rw [List.singleton_append, List.reduceOption_cons_of_some, List.reduceOption_append, heq,
    ← List.append_assoc]
  exact .group (hbalanced.append hcontent) .nil

lemma Crosses.depth_eq (h : Crosses c after) : after.depth = c.depth := by
  obtain ⟨taken, ⟨-, rfl⟩, -⟩ := h
  rfl

lemma Crosses.position_le (h : Crosses c after) : c.position ≤ after.position := by
  obtain ⟨taken, ⟨-, rfl⟩, -⟩ := h
  exact Nat.le_add_right _ _

lemma Crosses.left_lt (h : Crosses c after) (hlt : c.position < after.position) :
    after.left < c.left := by
  obtain ⟨taken, ⟨hstart, rfl⟩, -⟩ := h
  have hle := hstart.length_le
  rw [List.length_drop] at hle
  simp only [left, forward] at hlt ⊢
  omega

lemma Crosses.backTo_eq (h : Crosses c after) : after.backTo c.position = c := by
  obtain ⟨taken, hpasses, -⟩ := h
  exact hpasses.backTo_eq

/-! ## Routines -/

/-- With a value the cursor has crossed something, and without one it is where it was. -/
def Keeps (c : Cursor) : Option Int × Cursor → Prop
  | (some _, after) => Crosses c after ∧ c.position < after.position
  | (none, after) => after = c

lemma Keeps.left_lt {n : Int} (h : Keeps c (some n, after)) : after.left < c.left :=
  h.1.left_lt h.2

lemma Keeps.crosses {v : Option Int} (h : Keeps c (v, after)) : Crosses c after := by
  cases v with
  | none =>
    obtain rfl : after = c := h
    exact .refl after
  | some n => exact h.1

/-- A routine that keeps to this at a depth. -/
def Sound (read : Cursor → Attempt (Option Int × Cursor)) (depth : Nat) : Prop :=
  ∀ c, c.depth = depth → Concludes (read c) (Keeps c)

variable {level : Level} {depth : Nat}

/-- From some value on a chain is read to its end, if there is less left than before. -/
lemma Sound.extend (h : Sound (part level) depth) {before : Nat} (hbefore : c.left < before)
    (acc : Int) (hdepth : c.depth = depth) :
    Concludes (extend level before acc c) fun r => r.1.isSome ∧ Crosses c r.2 := by
  induction hn : c.left using Nat.strongRecOn generalizing before acc c with
  | ind n ih =>
    rw [Cursor.extend, if_neg (Nat.not_le.2 hbefore)]
    split
    · rename_i hpeek
      refine (h (c.forward 1) hdepth).bind ?_
      rintro ⟨v, after⟩ hkeeps
      have hcrosses : Crosses c after := (crosses_operator hpeek).trans hkeeps.crosses
      cases v with
      | none => exact concludes_pure ⟨rfl, hcrosses.backTo_eq ▸ .refl c⟩
      | some b =>
        -- The part has taken something, so that less is left than before the operator.
        have hless : after.left < c.left :=
          Nat.lt_of_lt_of_le hkeeps.left_lt (left_forward_le c 1)
        refine (concludes_lift fun _ _ => trivial).bind fun acc _ => ?_
        refine (ih _ (hn ▸ hless) hless acc (hcrosses.depth_eq.trans hdepth) rfl).mono ?_
        rintro ⟨v, further⟩ ⟨hsome, hmore⟩
        exact ⟨hsome, hcrosses.trans hmore⟩
    · exact concludes_pure ⟨rfl, .refl c⟩

/-- A chain of sound parts is sound. -/
theorem Sound.chain (h : Sound (part level) depth) : Sound (chain level) depth := by
  intro c hdepth
  rw [Cursor.chain]
  refine (h c hdepth).bind ?_
  rintro ⟨v, after⟩ hkeeps
  cases v with
  | none => exact concludes_pure hkeeps
  | some acc =>
    have hless := hkeeps.left_lt
    obtain ⟨hcrosses, hlt⟩ := hkeeps
    refine (h.extend hless acc (hcrosses.depth_eq.trans hdepth)).mono ?_
    rintro ⟨v, further⟩ ⟨hsome, hmore⟩
    obtain ⟨n, rfl⟩ := Option.isSome_iff_exists.1 hsome
    exact ⟨hcrosses.trans hmore, Nat.lt_of_lt_of_le hlt hmore.position_le⟩

/-- If signed operands are read soundly, so are the parts on all levels. -/
theorem Sound.part (h : Sound signed depth) (level : Level) : Sound (part level) depth := by
  obtain ⟨k, hk⟩ := level
  induction k with
  | zero =>
    intro c hdepth
    rw [Cursor.part]
    exact h c hdepth
  | succ k ih =>
    intro c hdepth
    rw [Cursor.part]
    exact (ih (Nat.lt_of_succ_lt hk)).chain c hdepth

/-- In a sign or a group reading is sound if it is so one level of nesting further down. -/
lemma Sound.inside {read : Cursor → Attempt (Option Int × Cursor)}
    (h : c.depth < maxNesting → Sound read (c.depth + 1)) :
    Concludes (liftM c.checkDepth >>= fun _ => read c.enter) fun r => Crosses c r.2.leave := by
  refine (concludes_lift fun _ hcheck => checkDepth_eq_ok_iff.1 hcheck).bind fun _ hlt => ?_
  refine (h hlt c.enter rfl).mono ?_
  rintro ⟨v, after⟩ hkeeps
  exact hkeeps.crosses.leave

lemma Sound.atom (h : depth < maxNesting → Sound (Cursor.chain loosest) (depth + 1)) :
    Sound atom depth := by
  rintro c rfl
  rw [Cursor.atom]
  split
  · rename_i hpeek
    exact concludes_pure ⟨crosses_value hpeek, Nat.lt_succ_self _⟩
  · rename_i hpeek
    rw [← bind_assoc]
    refine (Sound.inside (c := c.forward 1) h).bind ?_
    rintro ⟨inner, after⟩ hcontent
    have hgroup := hcontent.group hpeek
    obtain ⟨content, hread, -⟩ := hcontent
    obtain ⟨searched, hsearched, -⟩ := passes_closeGroup 0 after.leave
    have hpasses := (passes_forward hpeek).trans (hread.trans hsearched)
    dsimp only
    split
    · rename_i hclose
      rw [hclose] at hgroup hpasses
      exact concludes_pure ⟨hgroup rfl, hpasses.position_lt⟩
    · rename_i hclose
      rw [hclose] at hpasses
      exact concludes_pure hpasses.backTo_eq
  · exact concludes_pure rfl

lemma Sound.signed (h : depth < maxNesting → Sound Cursor.signed (depth + 1))
    (hatom : Sound Cursor.atom depth) : Sound Cursor.signed depth := by
  rintro c rfl
  have hsign {o : Operator} (hpeek : c.peek = some (some (.operator o))) {after : Cursor}
      (hcrosses : Crosses (c.forward 1) after.leave) :
      Crosses c after.leave ∧ c.position < after.leave.position :=
    ⟨(crosses_operator hpeek).trans hcrosses, hcrosses.position_le⟩
  rw [Cursor.signed]
  split
  · rename_i hpeek
    rw [← bind_assoc]
    refine (Sound.inside (c := c.forward 1) h).bind ?_
    rintro ⟨v, after⟩ hcrosses
    cases v with
    | none => exact concludes_pure (hsign hpeek hcrosses).1.backTo_eq
    | some v =>
      refine (concludes_lift fun _ _ => trivial).bind fun w _ => ?_
      exact concludes_pure (hsign hpeek hcrosses)
  · rename_i hpeek
    rw [← bind_assoc]
    refine (Sound.inside (c := c.forward 1) h).bind ?_
    rintro ⟨v, after⟩ hcrosses
    cases v with
    | none => exact concludes_pure (hsign hpeek hcrosses).1.backTo_eq
    | some v => exact concludes_pure (hsign hpeek hcrosses)
  · exact hatom c rfl

theorem sound_signed (depth : Nat) : Sound signed depth := by
  induction hn : maxNesting - depth using Nat.strongRecOn generalizing depth with
  | ind n ih =>
    have hdeeper : depth < maxNesting → Sound Cursor.signed (depth + 1) :=
      fun hlt => ih _ (by omega) _ rfl
    exact .signed hdeeper (.atom fun hlt => ((hdeeper hlt).part loosest).chain)

lemma sound_atom (depth : Nat) : Sound Cursor.atom depth :=
  .atom fun _ => ((sound_signed (depth + 1)).part loosest).chain

theorem sound_read (routine : Routine) (depth : Nat) : Sound routine.read depth := by
  cases routine with
  | chain level => exact ((sound_signed depth).part level).chain
  | part level => exact (sound_signed depth).part level
  | signed => exact sound_signed depth
  | atom => exact sound_atom depth

/-! ## What is seen from outside -/

/-- The cursor has moved on over balanced tokens, and nothing else about it has changed. -/
structure Advanced (c after : Cursor) : Prop where
  tokens_eq : after.tokens = c.tokens
  depth_eq : after.depth = c.depth
  position_lt : c.position < after.position
  position_le : after.position ≤ c.tokens.length
  balanced : Balanced (c.tokens.extract c.position after.position).reduceOption

lemma Crosses.advanced (h : Crosses c after) (hlt : c.position < after.position) :
    Advanced c after := by
  obtain ⟨taken, ⟨hstart, rfl⟩, hbalanced⟩ := h
  refine ⟨rfl, rfl, hlt, ?_, ?_⟩
  · have hle := hstart.length_le
    rw [List.length_drop] at hle
    have hlt' : c.position < c.position + taken.length := hlt
    show c.position + taken.length ≤ c.tokens.length
    omega
  · have htaken : c.tokens.extract c.position (c.position + taken.length) = taken := by
      rw [List.extract_eq_take_drop, Nat.add_sub_cancel_left]
      exact (List.prefix_iff_eq_take.1 hstart).symm
    show Balanced (c.tokens.extract c.position (c.position + taken.length)).reduceOption
    rwa [htaken]

end Cursor

end RoomBot.Expression
