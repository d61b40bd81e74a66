import RoomBot.Proofs.Dice.Limits

/-!
# Two requests in one

Two requests with a comma between them are one request, and it comes to the same as making the
second when the first is through (`roll_append`): the outcomes are those of both, and so are the
faces, because the second goes on where the first has left the source.  Only the budget tells the
difference, since the one request has `maxTotal` dice for what the two have twice as many for.

Budgets have no part in `Rolls`, and so terms that have gone through can be taken apart and put
together at will (`rolls_append_iff`).  That the relation says neither too little nor too much is
`roll_eq_ok_iff`: there is one way at most for terms to go through (`Reading.Rolled.unique`), and a
request that is allowed takes it.  What a request has drawn is told by a source that keeps a record
(`drawn`).
-/

namespace RoomBot.Dice

open Text (compact compact_append isBlank)

variable {σ : Type} {source : Source σ} {term : List Char} {state middle after : σ} {budget : Nat}
variable {ts : List (List Char)} {outcomes : List Outcome} {readings : List Reading}

/-! ## One way to go through -/

/-- Throws in the same places that show the same faces, one after another, are the same. -/
lemma throws_eq {one two : List Throw} (hcuts : one.map Throw.toCut = two.map Throw.toCut)
    (hone : ∀ t ∈ one, t.faces.length = t.group.diceCount)
    (htwo : ∀ t ∈ two, t.faces.length = t.group.diceCount)
    (hfaces : one.flatMap Throw.faces = two.flatMap Throw.faces) : one = two := by
  induction one generalizing two with
  | nil => simpa using hcuts.symm
  | cons first one ih =>
    cases two with
    | nil => contradiction
    | cons second two =>
      obtain ⟨hcut, hothers⟩ := List.cons.inj hcuts
      obtain ⟨hfirst, hones⟩ := List.forall_mem_cons.1 hone
      obtain ⟨hsecond, htwos⟩ := List.forall_mem_cons.1 htwo
      have hlength : first.faces.length = second.faces.length := by
        rw [hfirst, hsecond, hcut]
      obtain ⟨hface, hrest⟩ := List.append_inj hfaces hlength
      obtain ⟨cut, faces⟩ := first
      obtain ⟨other, others⟩ := second
      obtain rfl : cut = other := hcut
      obtain rfl : faces = others := hface
      rw [ih hothers hones htwos hrest]

lemma Reading.sides_eq (r : Reading) : r.sides =
    r.cuts.flatMap fun cut => List.replicate cut.group.diceCount cut.group.sideCount := by
  rw [sides, cuts, List.flatMap_map]

/-- A term is rolled in one way only. -/
theorem Reading.Rolled.unique {r other : Reading} {last : σ}
    (h : r.Rolled source term state after) (h' : other.Rolled source term state last) :
    r = other ∧ after = last := by
  obtain ⟨hcuts, hrest⟩ := h.reads.unique h'.reads
  have hdrawn := h.drawn
  rw [sides_eq, hcuts, ← sides_eq, h'.drawn] at hdrawn
  obtain ⟨hfaces, hafter⟩ := Prod.mk.inj hdrawn
  have hthrows := throws_eq hcuts h.counted h'.counted hfaces.symm
  cases r
  cases other
  rw [Reading.mk.injEq]
  exact ⟨⟨hthrows, hrest⟩, hafter.symm⟩

theorem Outcome.IsOf.unique {o other : Outcome} {r : Reading} (h : o.IsOf term r)
    (h' : other.IsOf term r) : o = other := by
  have hexpanded : o.expanded = other.expanded := h.expanded.trans h'.expanded.symm
  have htotal := h.solved
  rw [hexpanded, h'.solved] at htotal
  cases o
  cases other
  rw [Outcome.mk.injEq]
  exact ⟨h.term.trans h'.term.symm, hexpanded, (Except.ok.inj htotal).symm⟩

lemma rollTerm_of_rolled {r : Reading} {o : Outcome} (hrolled : r.Rolled source term state after)
    (ho : o.IsOf term r) (hallowed : Allowed (groups term) budget) :
    rollTerm source term budget state =
      (.ok (o, budget - ((groups term).map Group.diceCount).sum), after) := by
  obtain ⟨other, last, hother, hresult⟩ := rollTerm_of_allowed source state hallowed
  obtain ⟨rfl, rfl⟩ := hrolled.unique hother
  rcases hresult with ⟨found, hfound, hroll⟩ | ⟨fault, hstuck, -⟩
  · rw [hroll, ho.unique hfound]
  · have hsolved := ho.solved
    rw [ho.expanded, hstuck] at hsolved
    contradiction

lemma Rolls.rollTerms_eq (h : Rolls source ts outcomes readings state after)
    (hallowed : Allowed (ts.flatMap groups) budget) :
    rollTerms source ts budget state = (.ok outcomes, after) := by
  induction h generalizing budget with
  | nil state => rfl
  | cons hrolled ho _ ih =>
    rw [List.flatMap_cons, allowed_append_iff] at hallowed
    obtain ⟨hterm, hterms⟩ := hallowed
    simp only [rollTerms, rollTerm_of_rolled hrolled ho hterm, ih hterms, Except.map]

/-- A request has these outcomes exactly when it is allowed and its terms go through with them. -/
theorem roll_eq_ok_iff {spec : String} (hspec : ∃ c ∈ spec.toList, isBlank c = false) :
    roll source spec state = (.ok outcomes, after) ↔ Allowed (requested spec) maxTotal ∧
      ∃ readings, Rolls source (terms (compact spec.toList)) outcomes readings state after := by
  constructor
  · exact rolls_of_roll
  · rintro ⟨hallowed, readings, hrolls⟩
    rw [roll_of_not_blank hspec]
    exact hrolls.rollTerms_eq hallowed

/-! ## Terms in a row -/

/-- Terms in a row go through exactly when the first ones do and then the others, from what these
have left of the source. -/
theorem rolls_append_iff {front behind : List (List Char)} :
    Rolls source (front ++ behind) outcomes readings state after ↔
      ∃ first second before later middle, outcomes = first ++ second ∧
        readings = before ++ later ∧ Rolls source front first before state middle ∧
        Rolls source behind second later middle after := by
  constructor
  · intro h
    induction front generalizing outcomes readings state with
    | nil => exact ⟨[], outcomes, [], readings, state, rfl, rfl, .nil state, h⟩
    | cons term front ih =>
      cases h with
      | @cons _ o r _ _ _ _ _ _ hrolled ho hrest =>
        obtain ⟨first, second, before, later, middle, rfl, rfl, hfirst, hsecond⟩ := ih hrest
        exact ⟨o :: first, second, r :: before, later, middle, rfl, rfl,
          .cons hrolled ho hfirst, hsecond⟩
  · rintro ⟨first, second, before, later, middle, rfl, rfl, hfirst, hsecond⟩
    induction hfirst with
    | nil state => exact hsecond
    | cons hrolled ho _ ih => exact .cons hrolled ho (ih hsecond)

lemma Rolls.length_faces (h : Rolls source ts outcomes readings state after) :
    (readings.flatMap Reading.faces).length =
      ((ts.flatMap groups).map Group.diceCount).sum := by
  induction h with
  | nil state => rfl
  | @cons term o r ts outcomes readings state middle after hrolled _ _ ih =>
    have hterm : r.faces.length = ((groups term).map Group.diceCount).sum := by
      rw [hrolled.reads.groups_eq, Reading.cuts, Reading.faces, List.length_flatMap]
      simp only [List.map_map]
      exact congrArg List.sum (List.map_congr_left hrolled.counted)
    rw [List.flatMap_cons, List.length_append, ih, hterm, List.flatMap_cons, List.map_append,
      List.sum_append]

/-! ## What has been drawn -/

/-- The same source with a record of the faces that have come up. -/
def Source.recorded (source : Source σ) : Source (σ × List Nat) where
  draw sides record :=
    let (face, after) := source.draw sides record.1
    (face, after, record.2 ++ [face])

/-- The faces that a request draws, one after another. -/
def drawn (source : Source σ) (spec : String) (state : σ) : List Nat :=
  (roll source.recorded spec (state, [])).2.2

lemma Source.throw_recorded (source : Source σ) (sides : List Nat) (state : σ)
    (before : List Nat) :
    source.recorded.throw sides (state, before) = ((source.throw sides state).1,
      (source.throw sides state).2, before ++ (source.throw sides state).1) := by
  induction sides generalizing state before with
  | nil => simp only [throw, List.append_nil]
  | cons first sides ih =>
    simp only [throw, recorded] at ih ⊢
    rw [ih, List.append_assoc, List.singleton_append]

/-- The record makes no difference to terms that go through, and it grows by their faces. -/
lemma Rolls.recorded (h : Rolls source ts outcomes readings state after) (before : List Nat) :
    Rolls source.recorded ts outcomes readings (state, before)
      (after, before ++ readings.flatMap Reading.faces) := by
  induction h generalizing before with
  | nil state =>
    rw [List.flatMap_nil, List.append_nil]
    exact .nil _
  | @cons term o r ts outcomes readings state middle after hrolled ho _ ih =>
    rw [List.flatMap_cons, ← List.append_assoc]
    refine .cons ⟨hrolled.reads, hrolled.counted, ?_⟩ ho (ih (before ++ r.faces))
    rw [Source.throw_recorded, hrolled.drawn]

lemma drawn_eq {spec : String} (hspec : ∃ c ∈ spec.toList, isBlank c = false)
    (hallowed : Allowed (requested spec) maxTotal)
    (h : Rolls source (terms (compact spec.toList)) outcomes readings state after) :
    drawn source spec state = readings.flatMap Reading.faces := by
  rw [drawn, (roll_eq_ok_iff hspec).2 ⟨hallowed, readings, h.recorded []⟩, List.nil_append]

/-! ## Two requests -/

lemma terms_append (one two : List Char) :
    terms (one ++ ',' :: two) = terms one ++ terms two := by
  rw [terms, List.splitOn_append_cons_self, List.filter_append, terms, terms]

lemma terms_compact_append (a b : String) :
    terms (compact (a ++ "," ++ b).toList) =
      terms (compact a.toList) ++ terms (compact b.toList) := by
  rw [← terms_append, String.toList_append, String.toList_append, List.append_assoc,
    compact_append, compact_append]
  rfl

@[simp] lemma requested_append (a b : String) :
    requested (a ++ "," ++ b) = requested a ++ requested b := by
  rw [requested, terms_compact_append, List.flatMap_append, requested, requested]

lemma allowed_append_iff_total {one two : List Group} :
    Allowed (one ++ two) budget ↔ Allowed one budget ∧ Allowed two budget ∧
      (one.map Group.diceCount).sum + (two.map Group.diceCount).sum ≤ budget := by
  rw [allowed_append_iff]
  constructor
  · rintro ⟨hone, hlimits, hrest⟩
    have htotal := hone.total
    exact ⟨hone, ⟨hlimits, by omega⟩, by omega⟩
  · rintro ⟨hone, htwo, htotal⟩
    exact ⟨hone, htwo.limits, by omega⟩

lemma exists_isBlank_eq_false {spec : String} (h : terms (compact spec.toList) ≠ []) :
    ∃ c ∈ spec.toList, isBlank c = false := by
  obtain ⟨term, hterm⟩ := List.exists_mem_of_ne_nil _ h
  obtain ⟨hsplit, hsome⟩ := List.mem_filter.1 hterm
  obtain ⟨c, hc⟩ := List.exists_mem_of_ne_nil term (by simpa using hsome)
  obtain ⟨hmem, hblank⟩ := List.mem_filter.1 (Text.subset_of_mem_splitOn hsplit hc)
  exact ⟨c, hmem, by simpa using hblank⟩

section Two

variable {a b : String} {first second : List Outcome} {before later : List Reading}

lemma exists_isBlank_append (h : terms (compact a.toList) ≠ []) (b : String) :
    ∃ c ∈ (a ++ "," ++ b).toList, isBlank c = false := by
  apply exists_isBlank_eq_false
  rw [terms_compact_append]
  exact List.append_ne_nil_of_left_ne_nil h _

/-- What goes through one after the other with dice enough for both goes through as one request. -/
lemma roll_append_of_rolls (ha : terms (compact a.toList) ≠ [])
    (hone : Allowed (requested a) maxTotal) (htwo : Allowed (requested b) maxTotal)
    (hfirst : Rolls source (terms (compact a.toList)) first before state middle)
    (hsecond : Rolls source (terms (compact b.toList)) second later middle after)
    (htotal : (before.flatMap Reading.faces).length + (later.flatMap Reading.faces).length ≤
      maxTotal) :
    roll source (a ++ "," ++ b) state = (.ok (first ++ second), after) ∧
      drawn source (a ++ "," ++ b) state =
        before.flatMap Reading.faces ++ later.flatMap Reading.faces := by
  have hspec := exists_isBlank_append ha b
  have hallowed : Allowed (requested (a ++ "," ++ b)) maxTotal := by
    rw [hfirst.length_faces, hsecond.length_faces] at htotal
    rw [requested_append]
    exact allowed_append_iff_total.2 ⟨hone, htwo, htotal⟩
  have hrolls : Rolls source (terms (compact (a ++ "," ++ b).toList)) (first ++ second)
      (before ++ later) state after := by
    rw [terms_compact_append]
    exact rolls_append_iff.2 ⟨_, _, _, _, _, rfl, rfl, hfirst, hsecond⟩
  rw [← List.flatMap_append]
  exact ⟨(roll_eq_ok_iff hspec).2 ⟨hallowed, _, hrolls⟩, drawn_eq hspec hallowed hrolls⟩

end Two

/-- Two requests that have terms, with a comma between them, have outcomes as one request exactly
when the first has outcomes, the second has outcomes from what the first has left of the source, and
both together draw no more dice than one request may. The outcomes are then those of the first and
those of the second, and the source is left as the second leaves it. The faces that come up are
those of the first and those of the second too. -/
theorem roll_append (source : Source σ) {a b : String} (ha : terms (compact a.toList) ≠ [])
    (hb : terms (compact b.toList) ≠ []) (state : σ) :
    (∀ outcomes after, roll source (a ++ "," ++ b) state = (.ok outcomes, after) ↔
      ∃ first middle second, roll source a state = (.ok first, middle) ∧
        roll source b middle = (.ok second, after) ∧
        (drawn source a state).length + (drawn source b middle).length ≤ maxTotal ∧
        outcomes = first ++ second) ∧
    ∀ first middle second after, roll source a state = (.ok first, middle) →
      roll source b middle = (.ok second, after) →
      (drawn source a state).length + (drawn source b middle).length ≤ maxTotal →
      drawn source (a ++ "," ++ b) state = drawn source a state ++ drawn source b middle := by
  have hsa := exists_isBlank_eq_false ha
  have hsb := exists_isBlank_eq_false hb
  have hboth : ∀ first middle second after, roll source a state = (.ok first, middle) →
      roll source b middle = (.ok second, after) →
      (drawn source a state).length + (drawn source b middle).length ≤ maxTotal →
      roll source (a ++ "," ++ b) state = (.ok (first ++ second), after) ∧
        drawn source (a ++ "," ++ b) state = drawn source a state ++ drawn source b middle := by
    intro first middle second after hfirst hsecond htotal
    obtain ⟨hone, before, hbefore⟩ := (roll_eq_ok_iff hsa).1 hfirst
    obtain ⟨htwo, later, hlater⟩ := (roll_eq_ok_iff hsb).1 hsecond
    rw [drawn_eq hsa hone hbefore, drawn_eq hsb htwo hlater] at htotal ⊢
    exact roll_append_of_rolls ha hone htwo hbefore hlater htotal
  refine ⟨fun outcomes after => ⟨fun h => ?_, ?_⟩, ?_⟩
  · obtain ⟨hallowed, readings, hrolls⟩ := (roll_eq_ok_iff (exists_isBlank_append ha b)).1 h
    rw [requested_append, allowed_append_iff_total] at hallowed
    rw [terms_compact_append, rolls_append_iff] at hrolls
    obtain ⟨hone, htwo, htotal⟩ := hallowed
    obtain ⟨first, second, before, later, middle, houtcomes, -, hfirst, hsecond⟩ := hrolls
    refine ⟨first, middle, second, (roll_eq_ok_iff hsa).2 ⟨hone, before, hfirst⟩,
      (roll_eq_ok_iff hsb).2 ⟨htwo, later, hsecond⟩, ?_, houtcomes⟩
    rw [drawn_eq hsa hone hfirst, drawn_eq hsb htwo hsecond, hfirst.length_faces,
      hsecond.length_faces]
    exact htotal
  · rintro ⟨first, middle, second, hfirst, hsecond, htotal, rfl⟩
    exact (hboth first middle second after hfirst hsecond htotal).1
  · intro first middle second after hfirst hsecond htotal
    exact (hboth first middle second after hfirst hsecond htotal).2

/-- The second request goes on where the first has stopped. -/
theorem roll_append_goesOn :
    terms (compact "2d6 ,".toList) ≠ [] ∧ terms (compact " d8+1".toList) ≠ [] ∧
      roll rounds ("2d6 ," ++ "," ++ " d8+1") 4 =
        (.ok [⟨"2d6", "[5,6]", 11⟩, ⟨"d8+1", "[7]+1", 8⟩], 7) ∧
      drawn rounds ("2d6 ," ++ "," ++ " d8+1") 4 = [5, 6] ++ [7] := by
  have ha : terms (compact "2d6 ,".toList) ≠ [] := by decide +kernel
  have hb : terms (compact " d8+1".toList) ≠ [] := by decide +kernel
  have hfirst : roll rounds "2d6 ," 4 = (.ok [⟨"2d6", "[5,6]", 11⟩], 6) := by decide +kernel
  have hsecond : roll rounds " d8+1" 6 = (.ok [⟨"d8+1", "[7]+1", 8⟩], 7) := by decide +kernel
  have hdrawn : drawn rounds "2d6 ," 4 = [5, 6] ∧ drawn rounds " d8+1" 6 = [7] := by decide +kernel
  have htotal : (drawn rounds "2d6 ," 4).length + (drawn rounds " d8+1" 6).length ≤ maxTotal := by
    rw [hdrawn.1, hdrawn.2]
    decide
  refine ⟨ha, hb, ?_, ?_⟩
  · exact ((roll_append rounds ha hb 4).1 _ _).2 ⟨_, _, _, hfirst, hsecond, htotal, rfl⟩
  · rw [(roll_append rounds ha hb 4).2 _ _ _ _ hfirst hsecond htotal, hdrawn.1, hdrawn.2]

end RoomBot.Dice
