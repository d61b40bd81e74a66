import RoomBot.Proofs.Dice.Reading

/-!
# Faces and where they go

All the dice of a request come from one source, one after another (`Source.throw`).  A `Reading` is
a term together with the faces that its groups have got, and `Reading.Rolled` says that these are
the faces that came up, in the order of reading, as many for each group as it asks for.

A roll does two things to a term that have nothing to do with each other: it looks whether the
groups are allowed (`Allowed`), and it throws them.  The budget has a part in the first only
(`expand_of_allowed`, `expand_of_not_allowed`).
-/

namespace RoomBot.Dice

variable {σ : Type}

/-! ## Draws -/

/-- The faces of dice with these numbers of sides, drawn one after another. -/
def Source.throw (source : Source σ) : (sides : List Nat) → σ → List Nat × σ
  | [], state => ([], state)
  | sides :: rest, state =>
    let (face, state) := source.draw sides state
    let (faces, state) := source.throw rest state
    (face :: faces, state)

/-- A die shows one of its sides. -/
def Source.IsHonest (source : Source σ) : Prop :=
  ∀ sides state, 0 < sides → 1 ≤ (source.draw sides state).1 ∧ (source.draw sides state).1 ≤ sides

lemma Source.throw_append (source : Source σ) (one two : List Nat) (state : σ) :
    source.throw (one ++ two) state =
      ((source.throw one state).1 ++ (source.throw two (source.throw one state).2).1,
        (source.throw two (source.throw one state).2).2) := by
  induction one generalizing state with
  | nil => rfl
  | cons sides one ih => simp only [List.cons_append, throw, ih]

lemma Source.faces_eq_throw (source : Source σ) (sides n : Nat) (state : σ) :
    source.faces sides n state = source.throw (List.replicate n sides) state := by
  induction n generalizing state with
  | zero => rfl
  | succ n ih => simp only [faces, List.replicate_succ, throw, ih]

@[simp] lemma Source.length_throw (source : Source σ) (sides : List Nat) (state : σ) :
    (source.throw sides state).1.length = sides.length := by
  induction sides generalizing state with
  | nil => rfl
  | cons first sides ih => simp only [throw, List.length_cons, ih]

lemma Source.IsHonest.throw_replicate {source : Source σ} (h : source.IsHonest) {sides : Nat}
    (hsides : 0 < sides) (n : Nat) (state : σ) :
    ∀ face ∈ (source.throw (List.replicate n sides) state).1, 1 ≤ face ∧ face ≤ sides := by
  induction n generalizing state with
  | zero => simp [throw]
  | succ n ih =>
    rw [List.replicate_succ]
    exact List.forall_mem_cons.2 ⟨h sides state hsides, ih _⟩

/-! ## Readings -/

/-- A group in its place with the faces it has got. -/
structure Throw extends Cut where
  faces : List Nat
deriving DecidableEq, Repr

/-- A term after the roll: the groups in their places with their faces, and the text behind them. -/
structure Reading where
  throws : List Throw
  rest : List Char
deriving DecidableEq, Repr

namespace Reading

/-- The groups in their places. -/
def cuts (r : Reading) : List Cut := r.throws.map Throw.toCut

/-- The term with a list of faces in the place of every group, and all the rest as it is. -/
def expanded (r : Reading) : List Char :=
  r.throws.flatMap (fun t => t.lead ++ faceList t.faces) ++ r.rest

/-- All the faces, in the order of reading. -/
def faces (r : Reading) : List Nat := r.throws.flatMap Throw.faces

/-- The numbers of sides of all the dice, in the order of reading. -/
def sides (r : Reading) : List Nat :=
  r.throws.flatMap fun t => List.replicate t.group.diceCount t.group.sideCount

/-- The term has been read and its dice have been thrown. -/
structure Rolled (source : Source σ) (term : List Char) (state : σ) (r : Reading) (after : σ) :
    Prop where
  reads : Reads term r.cuts r.rest
  counted : ∀ t ∈ r.throws, t.faces.length = t.group.diceCount
  drawn : source.throw r.sides state = (r.faces, after)

/-- Every die shows one of its sides. -/
lemma Rolled.ranged {source : Source σ} {term : List Char} {state after : σ} {r : Reading}
    (h : r.Rolled source term state after) (hhonest : source.IsHonest)
    (hsides : ∀ t ∈ r.throws, 0 < t.group.sideCount) :
    ∀ t ∈ r.throws, ∀ face ∈ t.faces, 1 ≤ face ∧ face ≤ t.group.sideCount := by
  obtain ⟨throws, rest⟩ := r
  have hcounted := h.counted
  have hdrawn := congrArg Prod.fst h.drawn
  clear h
  simp only [sides, faces] at hcounted hdrawn hsides ⊢
  induction throws generalizing state with
  | nil => simp
  | cons first throws ih =>
    obtain ⟨hfirst, hsides⟩ := List.forall_mem_cons.1 hsides
    obtain ⟨hlength, hcounted⟩ := List.forall_mem_cons.1 hcounted
    rw [List.flatMap_cons, List.flatMap_cons, Source.throw_append] at hdrawn
    obtain ⟨hfaces, hothers⟩ := List.append_inj hdrawn
      (by rw [Source.length_throw, List.length_replicate, hlength])
    refine List.forall_mem_cons.2 ⟨?_, ih hsides hcounted hothers⟩
    rw [← hfaces]
    exact hhonest.throw_replicate hfirst _ state

end Reading

/-! ## What is allowed -/

/-- The group keeps to its own limits. -/
structure Group.InLimits (g : Group) : Prop where
  count : g.diceCount ≤ maxDice
  some : 0 < g.sideCount
  sides : g.sideCount ≤ maxSides

/-- Every group keeps to its limits, and together they ask for no more dice than there are. -/
structure Allowed (groups : List Group) (budget : Nat) : Prop where
  limits : ∀ g ∈ groups, g.InLimits
  total : (groups.map Group.diceCount).sum ≤ budget

lemma Group.check_of_inLimits {g : Group} {budget : Nat} (h : g.InLimits)
    (hbudget : g.diceCount ≤ budget) : g.check budget = .ok (g.diceCount, g.sideCount) := by
  rw [check, if_neg (Nat.not_lt.2 h.count), if_neg (Nat.ne_of_gt h.some),
    if_neg (Nat.not_lt.2 h.sides), if_neg (Nat.not_lt.2 hbudget)]

lemma Group.check_cases (g : Group) (budget : Nat) :
    (g.InLimits ∧ g.diceCount ≤ budget) ∨ ∃ refusal, g.check budget = .error refusal := by
  unfold check
  split
  · exact .inr ⟨_, rfl⟩
  · split
    · exact .inr ⟨_, rfl⟩
    · split
      · exact .inr ⟨_, rfl⟩
      · split
        · exact .inr ⟨_, rfl⟩
        · exact .inl ⟨⟨by omega, by omega, by omega⟩, by omega⟩

lemma allowed_nil (budget : Nat) : Allowed [] budget := ⟨by simp, by simp⟩

lemma allowed_append_iff {one two : List Group} {budget : Nat} :
    Allowed (one ++ two) budget ↔
      Allowed one budget ∧ Allowed two (budget - (one.map Group.diceCount).sum) := by
  constructor
  · rintro ⟨hlimits, htotal⟩
    rw [List.map_append, List.sum_append] at htotal
    rw [List.forall_mem_append] at hlimits
    exact ⟨⟨hlimits.1, by omega⟩, ⟨hlimits.2, by omega⟩⟩
  · rintro ⟨⟨hone, hfirst⟩, htwo, hsecond⟩
    refine ⟨List.forall_mem_append.2 ⟨hone, htwo⟩, ?_⟩
    rw [List.map_append, List.sum_append]
    omega

lemma allowed_cons_iff {g : Group} {groups : List Group} {budget : Nat} :
    Allowed (g :: groups) budget ↔
      (g.InLimits ∧ g.diceCount ≤ budget) ∧ Allowed groups (budget - g.diceCount) := by
  constructor
  · rintro ⟨hlimits, htotal⟩
    rw [List.map_cons, List.sum_cons] at htotal
    obtain ⟨hg, hgroups⟩ := List.forall_mem_cons.1 hlimits
    exact ⟨⟨hg, by omega⟩, ⟨hgroups, by omega⟩⟩
  · rintro ⟨⟨hg, hbudget⟩, hgroups, htotal⟩
    refine ⟨List.forall_mem_cons.2 ⟨hg, hgroups⟩, ?_⟩
    rw [List.map_cons, List.sum_cons]
    omega

lemma Allowed.of_mem {α : Type} {groups : α → List Group} {all : List α} {budget : Nat}
    (h : Allowed (all.flatMap groups) budget) {one : α} (hmem : one ∈ all) :
    Allowed (groups one) budget := by
  obtain ⟨front, behind, rfl⟩ := List.append_of_mem hmem
  rw [List.flatMap_append, List.flatMap_cons] at h
  have htotal := h.total
  simp only [List.map_append, List.sum_append] at htotal
  exact ⟨fun g hg => h.limits g (by simp [hg]), by omega⟩

/-! ## Expanding a term -/

variable {cuts : List Cut} {budget : Nat}

/-- Groups that are allowed are all thrown, and their dice are taken from the budget. -/
theorem expand_of_allowed (source : Source σ) (state : σ)
    (h : Allowed (cuts.map Cut.group) budget) (rest : List Char) :
    ∃ (r : Reading) (after : σ), r.cuts = cuts ∧ r.rest = rest ∧
      (∀ t ∈ r.throws, t.faces.length = t.group.diceCount) ∧
      source.throw r.sides state = (r.faces, after) ∧
      expand source (stretches cuts rest) budget state =
        (.ok (r.expanded, budget - ((cuts.map Cut.group).map Group.diceCount).sum), after) := by
  induction cuts generalizing budget state with
  | nil =>
    refine ⟨⟨[], rest⟩, state, rfl, rfl, by simp, rfl, ?_⟩
    simp [stretches, expand, Except.map, Reading.expanded]
  | cons cut cuts ih =>
    rw [List.map_cons, allowed_cons_iff] at h
    obtain ⟨⟨hlimits, hbudget⟩, hothers⟩ := h
    have hcheck := Group.check_of_inLimits hlimits hbudget
    obtain ⟨faces, middle, hthrow⟩ : ∃ faces middle,
        source.throw (List.replicate cut.group.diceCount cut.group.sideCount) state =
          (faces, middle) := ⟨_, _, rfl⟩
    obtain ⟨r, after, hcuts, hrest, hcounted, hdrawn, hexpand⟩ := ih middle hothers
    refine ⟨⟨⟨cut, faces⟩ :: r.throws, r.rest⟩, after, ?_, hrest, ?_, ?_, ?_⟩
    · rw [← hcuts]
      rfl
    · refine List.forall_mem_cons.2 ⟨?_, hcounted⟩
      have hlength := source.length_throw
        (List.replicate cut.group.diceCount cut.group.sideCount) state
      rwa [hthrow, List.length_replicate] at hlength
    · simp only [Reading.sides, Reading.faces, List.flatMap_cons] at hdrawn ⊢
      rw [Source.throw_append, hthrow, hdrawn]
    · rw [stretches_cons]
      simp only [expand, hcheck, Source.faces_eq_throw, hthrow, hexpand, Except.map]
      simp [Reading.expanded, Nat.sub_sub]

/-- Where something is not allowed the term is refused. -/
theorem expand_of_not_allowed (source : Source σ) (state : σ)
    (h : ¬ Allowed (cuts.map Cut.group) budget) (rest : List Char) :
    ∃ refusal, (expand source (stretches cuts rest) budget state).1 = .error refusal := by
  induction cuts generalizing budget state with
  | nil => exact absurd (allowed_nil budget) h
  | cons cut cuts ih =>
    rw [List.map_cons, allowed_cons_iff] at h
    rw [stretches_cons]
    rcases cut.group.check_cases budget with ⟨hlimits, hbudget⟩ | ⟨refusal, hcheck⟩
    · have hcheck := Group.check_of_inLimits hlimits hbudget
      have hothers : ¬ Allowed (cuts.map Cut.group) (budget - cut.group.diceCount) :=
        fun hallowed => h ⟨⟨hlimits, hbudget⟩, hallowed⟩
      obtain ⟨refusal, hrefused⟩ :=
        ih (source.faces cut.group.sideCount cut.group.diceCount state).2 hothers
      refine ⟨refusal, ?_⟩
      simp only [expand, hcheck, hrefused, Except.map]
    · refine ⟨refusal, ?_⟩
      simp only [expand, hcheck, Except.map]

end RoomBot.Dice
