import Mathlib.Data.List.Forall2
import RoomBot.Proofs.Dice.Throw
import RoomBot.Proofs.Text.Decimal
import RoomBot.Proofs.Text.Separators

/-!
# What becomes of a request

The terms of a request are worked off one after another (`Rolls`): each is read, its dice are
thrown, and what it is expanded to is solved.  A request that is allowed as a whole either goes
through to its end or sticks at the first term that cannot be solved (`rollTerms_of_allowed`).  One
that is not allowed goes nowhere (`rollTerms_of_not_allowed`), though it may stick even before
anybody notices.

The outcomes of a request that goes through are told by `roll_outcomes`: the terms as they stand in
the request, each with the faces in the place of its groups, what it is worth, and the lines of the
report.
-/

namespace RoomBot.Dice

open Expression (solve)
open Text (compact isBlank isDigit_of_mem_toDigits mem_toString)

variable {σ : Type} {source : Source σ} {term : List Char} {state after : σ} {budget : Nat}

/-! ## One term -/

/-- The outcome of a term that was read and rolled like this. -/
structure Outcome.IsOf (o : Outcome) (term : List Char) (r : Reading) : Prop where
  term : o.term = String.ofList term
  expanded : o.expanded = String.ofList r.expanded
  solved : solve o.expanded = .ok o.total

/-- A term that is allowed is thrown, and then it is solved or not. -/
lemma rollTerm_of_allowed (source : Source σ) (state : σ) (h : Allowed (groups term) budget) :
    ∃ (r : Reading) (after : σ), r.Rolled source term state after ∧
      ((∃ o : Outcome, o.IsOf term r ∧ rollTerm source term budget state =
          (.ok (o, budget - ((groups term).map Group.diceCount).sum), after)) ∨
        ∃ fault, solve (String.ofList r.expanded) = .error fault ∧
          rollTerm source term budget state = (.error (.unsolved fault), after)) := by
  obtain ⟨cuts, rest, hreads, hexpand⟩ := exists_reads term
  rw [hreads.groups_eq] at h ⊢
  obtain ⟨r, after, rfl, rfl, hcounted, hdrawn, hexpanded⟩ :=
    expand_of_allowed source state h rest
  refine ⟨r, after, ⟨hreads, hcounted, hdrawn⟩, ?_⟩
  simp only [rollTerm, hexpand, hexpanded]
  cases hsolve : solve (String.ofList r.expanded) with
  | ok total => exact .inl ⟨⟨_, _, total⟩, ⟨rfl, rfl, hsolve⟩, rfl⟩
  | error fault => exact .inr ⟨fault, rfl, rfl⟩

/-- A term that is not allowed is refused. -/
lemma rollTerm_of_not_allowed (source : Source σ) (state : σ)
    (h : ¬ Allowed (groups term) budget) :
    ∃ refusal, (rollTerm source term budget state).1 = .error (.refused refusal) := by
  obtain ⟨cuts, rest, hreads, hexpand⟩ := exists_reads term
  rw [hreads.groups_eq] at h
  obtain ⟨refusal, hrefused⟩ := expand_of_not_allowed source state h rest
  rw [← hexpand] at hrefused
  refine ⟨refusal, ?_⟩
  unfold rollTerm
  split
  · rename_i hexpanded
    rw [hexpanded] at hrefused
    rw [← Except.error.inj hrefused]
  · rename_i hexpanded
    rw [hexpanded] at hrefused
    contradiction

/-! ## All terms -/

/-- Terms that have gone through, one after another. -/
inductive Rolls (source : Source σ) :
    List (List Char) → List Outcome → List Reading → σ → σ → Prop
  | nil (state : σ) : Rolls source [] [] [] state state
  | cons {term : List Char} {o : Outcome} {r : Reading} {ts : List (List Char)}
      {outcomes : List Outcome} {readings : List Reading} {state middle after : σ} :
      r.Rolled source term state middle → o.IsOf term r →
      Rolls source ts outcomes readings middle after →
      Rolls source (term :: ts) (o :: outcomes) (r :: readings) state after

/-- The terms go through up to one that cannot be solved. -/
def Sticks (source : Source σ) (ts : List (List Char)) (state : σ) (fault : Expression.Fault) :
    Prop :=
  ∃ front term behind outcomes readings middle, ts = front ++ term :: behind ∧
    Rolls source front outcomes readings state middle ∧
    ∃ (r : Reading) (after : σ), r.Rolled source term middle after ∧
      solve (String.ofList r.expanded) = .error fault

variable {ts : List (List Char)}

/-- Terms that are allowed go through, or stick at one that cannot be solved. -/
theorem rollTerms_of_allowed (source : Source σ) (h : Allowed (ts.flatMap groups) budget)
    (state : σ) :
    (∃ outcomes readings after, rollTerms source ts budget state = (.ok outcomes, after) ∧
      Rolls source ts outcomes readings state after) ∨
    ∃ fault, (rollTerms source ts budget state).1 = .error (.unsolved fault) ∧
      Sticks source ts state fault := by
  induction ts generalizing budget state with
  | nil => exact .inl ⟨[], [], state, rfl, .nil state⟩
  | cons term ts ih =>
    rw [List.flatMap_cons, allowed_append_iff] at h
    obtain ⟨hterm, hterms⟩ := h
    obtain ⟨r, middle, hrolled, ⟨o, ho, hroll⟩ | ⟨fault, hsolve, hroll⟩⟩ :=
      rollTerm_of_allowed source state hterm
    · simp only [rollTerms, hroll]
      rcases ih hterms middle with ⟨outcomes, readings, after, hrest, hrolls⟩ |
        ⟨fault, hrest, front, stuck, behind, outcomes, readings, last, rfl, hrolls, hlast⟩
      · rw [hrest]
        exact .inl ⟨o :: outcomes, r :: readings, after, rfl, .cons hrolled ho hrolls⟩
      · rw [hrest]
        exact .inr ⟨fault, rfl, term :: front, stuck, behind, o :: outcomes, r :: readings, last,
          rfl, .cons hrolled ho hrolls, hlast⟩
    · simp only [rollTerms, hroll]
      exact .inr ⟨fault, rfl, [], term, ts, [], [], state, rfl, .nil state, r, middle, hrolled,
        hsolve⟩

/-- Terms that are not allowed do not go through. -/
theorem rollTerms_of_not_allowed (source : Source σ) (h : ¬ Allowed (ts.flatMap groups) budget)
    (state : σ) :
    ∃ fault, (rollTerms source ts budget state).1 = .error fault := by
  induction ts generalizing budget state with
  | nil => exact absurd (allowed_nil budget) h
  | cons term ts ih =>
    rw [List.flatMap_cons, allowed_append_iff] at h
    by_cases hterm : Allowed (groups term) budget
    · obtain ⟨r, middle, -, ⟨o, -, hroll⟩ | ⟨fault, -, hroll⟩⟩ :=
        rollTerm_of_allowed source state hterm
      · obtain ⟨fault, hrest⟩ := ih (fun hterms => h ⟨hterm, hterms⟩) middle
        refine ⟨fault, ?_⟩
        simp only [rollTerms, hroll, hrest]
        rfl
      · exact ⟨.unsolved fault, by simp only [rollTerms, hroll]⟩
    · obtain ⟨refusal, hroll⟩ := rollTerm_of_not_allowed source state hterm
      refine ⟨.refused refusal, ?_⟩
      unfold rollTerms
      split
      · rename_i hfailed
        rw [hfailed] at hroll
        rw [← Except.error.inj hroll]
      · rename_i hpassed
        rw [hpassed] at hroll
        contradiction

/-! ## Terms that have gone through -/

namespace Rolls

variable {outcomes : List Outcome} {readings : List Reading}

lemma map_term (h : Rolls source ts outcomes readings state after) :
    outcomes.map (fun o => o.term.toList) = ts := by
  induction h with
  | nil state => rfl
  | cons _ ho _ ih => rw [List.map_cons, ih, ho.term, String.toList_ofList]

/-- The faces are the successive draws of the source, over all terms. -/
lemma throw (h : Rolls source ts outcomes readings state after) :
    source.throw (readings.flatMap Reading.sides) state =
      (readings.flatMap Reading.faces, after) := by
  induction h with
  | nil state => rfl
  | cons hrolled _ _ ih =>
    rw [List.flatMap_cons, List.flatMap_cons, Source.throw_append, hrolled.drawn, ih]

lemma forall₂ (h : Rolls source ts outcomes readings state after)
    {P : Outcome → Reading → Prop}
    (hP : ∀ (term : List Char) (o : Outcome) (r : Reading) (before after : σ), term ∈ ts →
      r.Rolled source term before after → o.IsOf term r → P o r) :
    List.Forall₂ P outcomes readings := by
  induction h with
  | nil state => exact .nil
  | cons hrolled ho _ ih =>
    refine .cons (hP _ _ _ _ _ List.mem_cons_self hrolled ho) (ih ?_)
    intro term o r before after hmem
    exact hP term o r before after (List.mem_cons_of_mem _ hmem)

lemma exists_isOf (h : Rolls source ts outcomes readings state after) :
    ∀ o ∈ outcomes, ∃ term ∈ ts, ∃ r : Reading, Reads term r.cuts r.rest ∧ o.IsOf term r := by
  induction h with
  | nil state => simp
  | cons hrolled ho _ ih =>
    refine List.forall_mem_cons.2 ⟨⟨_, List.mem_cons_self, _, hrolled.reads, ho⟩, fun o hmem => ?_⟩
    obtain ⟨term, hterm, hr⟩ := ih o hmem
    exact ⟨term, List.mem_cons_of_mem _ hterm, hr⟩

end Rolls

/-! ## Characters -/

lemma mem_faceList {faces : List Nat} {c : Char} (h : c ∈ faceList faces) :
    c.isDigit = true ∨ c ∈ ['[', ',', ']'] := by
  rw [faceList, List.mem_append, List.mem_cons, List.mem_singleton] at h
  rcases h with (rfl | h) | rfl
  · exact .inr (by simp)
  · cases faces with
    | nil => simp at h
    | cons face faces =>
      rw [List.map_cons, Text.intercalate_cons, List.mem_append, List.mem_flatMap] at h
      rcases h with h | ⟨digits, hdigits, h⟩
      · exact .inl (isDigit_of_mem_toDigits face c h)
      · obtain ⟨other, -, rfl⟩ := List.mem_map.1 hdigits
        rcases List.mem_append.1 h with h | h
        · exact .inr (by simp [List.mem_singleton.1 h])
        · exact .inl (isDigit_of_mem_toDigits other c h)
  · exact .inr (by simp)

/-- What is in no group stays where it is, and has no `d`. -/
lemma Reads.mem_term {cuts : List Cut} {rest : List Char} (h : Reads term cuts rest) :
    (∀ cut ∈ cuts, ∀ c ∈ cut.lead, c ∈ term ∧ c ≠ 'd') ∧ ∀ c ∈ rest, c ∈ term ∧ c ≠ 'd' := by
  induction h with
  | rest hrest => exact ⟨by simp, fun c hc => ⟨hc, ne_of_mem_of_not_mem hc hrest⟩⟩
  | @cut lead after rest group cuts hlead _ _ _ _ _ ih =>
    have hafter : ∀ c, c ∈ after ∧ c ≠ 'd' → c ∈ lead ++ (group.written ++ after) ∧ c ≠ 'd' :=
      fun c hc => ⟨List.mem_append_right _ (List.mem_append_right _ hc.1), hc.2⟩
    refine ⟨List.forall_mem_cons.2 ⟨fun c hc => ?_, fun cut hcut c hc => ?_⟩, fun c hc => ?_⟩
    · exact ⟨List.mem_append_left _ hc, ne_of_mem_of_not_mem hc hlead⟩
    · exact hafter c (ih.1 cut hcut c hc)
    · exact hafter c (ih.2 c hc)

lemma Reads.mem_expanded {r : Reading} (h : Reads term r.cuts r.rest) {c : Char}
    (hc : c ∈ r.expanded) :
    (c ∈ term ∧ c ≠ 'd') ∨ c.isDigit = true ∨ c ∈ ['[', ',', ']'] := by
  obtain ⟨hcuts, hrest⟩ := h.mem_term
  rw [Reading.expanded, List.mem_append, List.mem_flatMap] at hc
  rcases hc with ⟨t, ht, hc⟩ | hc
  · rcases List.mem_append.1 hc with hc | hc
    · exact .inl (hcuts t.toCut (List.mem_map_of_mem ht) c hc)
    · exact .inr (mem_faceList hc)
  · exact .inl (hrest c hc)

/-! ## The report -/

/-- A text without its spaces. -/
def withoutSpaces (cs : List Char) : List Char := cs.filter (· != ' ')

@[simp] lemma withoutSpaces_append (one two : List Char) :
    withoutSpaces (one ++ two) = withoutSpaces one ++ withoutSpaces two :=
  List.filter_append ..

lemma withoutSpaces_of_notMem {cs : List Char} (h : ' ' ∉ cs) : withoutSpaces cs = cs :=
  List.filter_eq_self.2 fun c hc => by simpa using ne_of_mem_of_not_mem hc h

lemma withoutSpaces_padOperators {s : String} (h : ' ' ∉ s.toList) :
    withoutSpaces (padOperators s).toList = s.toList := by
  rw [padOperators, String.toList_ofList]
  generalize s.toList = cs at h
  induction cs with
  | nil => rfl
  | cons c cs ih =>
    rw [List.mem_cons, not_or] at h
    rw [List.flatMap_cons, withoutSpaces_append, ih h.2, ← List.singleton_append]
    split <;> simp [withoutSpaces, Ne.symm h.1]

lemma mem_padOperators {s : String} {c : Char} (h : c ∈ (padOperators s).toList) :
    c = ' ' ∨ c ∈ s.toList := by
  rw [padOperators, String.toList_ofList, List.mem_flatMap] at h
  obtain ⟨x, hx, hc⟩ := h
  split at hc
  · simp only [List.mem_cons, List.not_mem_nil, or_false] at hc
    rcases hc with rfl | rfl | rfl
    · exact .inl rfl
    · exact .inr hx
    · exact .inl rfl
  · rw [List.mem_singleton] at hc
    exact .inr (hc ▸ hx)

lemma break_notMem_padOperators {s : String} (h : '\n' ∉ s.toList) :
    '\n' ∉ (padOperators s).toList := by
  intro hmem
  rcases mem_padOperators hmem with heq | hmem
  · exact absurd heq (by decide)
  · exact h hmem

/-- There are no spaces in the text, and it stays on one line. -/
structure IsSolid (cs : List Char) : Prop where
  space : ' ' ∉ cs
  line : '\n' ∉ cs

lemma isSolid_toString (n : Int) : IsSolid (toString n).toList where
  space h := by rcases mem_toString h with h | h <;> contradiction
  line h := by rcases mem_toString h with h | h <;> contradiction

namespace Outcome

variable {o : Outcome}

/-- The term and what it is expanded to are solid. -/
structure IsSolid (o : Outcome) : Prop where
  term : Dice.IsSolid o.term.toList
  expanded : Dice.IsSolid o.expanded.toList

lemma toList_line (o : Outcome) :
    o.line.toList = "Roll: ".toList ++ ((padOperators o.term).toList ++ (" (".toList ++
      ((padOperators o.expanded).toList ++ (") ==> ".toList ++ (toString o.total).toList)))) := by
  simp [line, toString]

lemma IsSolid.withoutSpaces_line (h : o.IsSolid) :
    withoutSpaces o.line.toList =
      ("Roll:" ++ o.term ++ "(" ++ o.expanded ++ ")==>" ++ toString o.total).toList := by
  rw [toList_line]
  simp only [withoutSpaces_append, withoutSpaces_padOperators h.term.space,
    withoutSpaces_padOperators h.expanded.space,
    withoutSpaces_of_notMem (isSolid_toString o.total).space]
  simp [withoutSpaces]

lemma IsSolid.line_line (h : o.IsSolid) : '\n' ∉ o.line.toList := by
  rw [toList_line]
  simp only [List.mem_append, not_or]
  exact ⟨by decide, break_notMem_padOperators h.term.line, by decide,
    break_notMem_padOperators h.expanded.line, by decide, (isSolid_toString o.total).line⟩

end Outcome

lemma splitOn_report {outcomes : List Outcome} (hne : outcomes ≠ [])
    (hsolid : ∀ o ∈ outcomes, o.IsSolid) :
    (report outcomes).toList.splitOn '\n' = outcomes.map fun o => o.line.toList := by
  have hlines : ∀ line ∈ outcomes.map fun o => o.line.toList, '\n' ∉ line := by
    intro line hline
    obtain ⟨o, ho, rfl⟩ := List.mem_map.1 hline
    exact (hsolid o ho).line_line
  rw [report, String.toList_intercalate, List.map_map]
  exact List.splitOn_intercalate '\n' hlines (by simpa using hne)

/-! ## A request -/

lemma isBlank_of_mem_terms {cs : List Char} (h : term ∈ terms (compact cs)) :
    ∀ c ∈ term, isBlank c = false := by
  intro c hc
  obtain ⟨hsplit, -⟩ := List.mem_filter.1 h
  obtain ⟨-, hblank⟩ := List.mem_filter.1 (Text.subset_of_mem_splitOn hsplit hc)
  rwa [Bool.not_eq_true'] at hblank

lemma Outcome.IsOf.isSolid {o : Outcome} {r : Reading} (h : o.IsOf term r)
    (hreads : Reads term r.cuts r.rest) (hblank : ∀ c ∈ term, isBlank c = false) : o.IsSolid := by
  have hterm : ∀ c, isBlank c = true → c ∉ term := by
    intro c hc hmem
    rw [hblank c hmem] at hc
    contradiction
  have hexpanded : ∀ c, isBlank c = true → c.isDigit = false → c ∉ ['[', ',', ']'] →
      c ∉ r.expanded := by
    intro c hc hdigit hbracket hmem
    rcases hreads.mem_expanded hmem with ⟨hmem, -⟩ | hmem | hmem
    · exact hterm c hc hmem
    · rw [hdigit] at hmem
      contradiction
    · exact hbracket hmem
  constructor
  · rw [h.term, String.toList_ofList]
    exact ⟨hterm ' ' (by decide), hterm '\n' (by decide)⟩
  · rw [h.expanded, String.toList_ofList]
    exact ⟨hexpanded ' ' (by decide) (by decide) (by decide),
      hexpanded '\n' (by decide) (by decide) (by decide)⟩

/-- Every group of a reading has a face for each die that it asks for, and each is one of its
sides. -/
def Reading.Fits (r : Reading) : Prop :=
  ∀ t ∈ r.throws, t.faces.length = t.group.diceCount ∧
    ∀ face ∈ t.faces, 1 ≤ face ∧ face ≤ t.group.sideCount

/-- The outcome shows its term as it is read, and the faces in the place of its groups. -/
structure Outcome.Shows (o : Outcome) (r : Reading) : Prop where
  reads : Reads o.term.toList r.cuts r.rest
  expanded : o.expanded.toList = r.expanded
  fits : r.Fits

/-- A request that has outcomes is allowed, and its terms have gone through. -/
lemma rolls_of_roll {spec : String} {outcomes : List Outcome}
    (h : roll source spec state = (.ok outcomes, after)) :
    Allowed ((terms (compact spec.toList)).flatMap groups) maxTotal ∧
      ∃ readings, Rolls source (terms (compact spec.toList)) outcomes readings state after := by
  simp only [roll] at h
  split at h
  · simp at h
  · by_cases hallowed : Allowed ((terms (compact spec.toList)).flatMap groups) maxTotal
    · refine ⟨hallowed, ?_⟩
      rcases rollTerms_of_allowed source hallowed state with
        ⟨others, readings, last, hroll, hrolls⟩ | ⟨fault, hroll, -⟩
      · rw [h] at hroll
        obtain ⟨hsame, rfl⟩ := Prod.mk.inj hroll
        rw [Except.ok.inj hsame]
        exact ⟨readings, hrolls⟩
      · rw [h] at hroll
        cases hroll
    · obtain ⟨fault, hroll⟩ := rollTerms_of_not_allowed source hallowed state
      rw [h] at hroll
      cases hroll

lemma Reading.Rolled.fits {r : Reading} (h : r.Rolled source term state after)
    (hhonest : source.IsHonest) (hallowed : Allowed (groups term) budget) : r.Fits := by
  have hsides : ∀ t ∈ r.throws, 0 < t.group.sideCount := by
    intro t ht
    refine (hallowed.limits t.group ?_).some
    rw [h.reads.groups_eq]
    exact List.mem_map_of_mem (List.mem_map_of_mem ht)
  exact fun t ht => ⟨h.counted t ht, h.ranged hhonest hsides t ht⟩

/-- A request that has outcomes has one for each of its terms, which are what stands between commas,
blanks and empty terms left out. Every term is read and expanded group by group, each with as many
faces as it asks for, and the faces come from the source one after another, over all terms. What a
term is expanded to has no `d`, and it is solved for the total. The report has a line for each
outcome, if there is one. -/
theorem roll_outcomes (hhonest : source.IsHonest) {spec : String} {outcomes : List Outcome}
    (h : roll source spec state = (.ok outcomes, after)) :
    outcomes.map (fun o => o.term.toList) =
        ((compact spec.toList).splitOn ',').filter (fun term => term ≠ []) ∧
      (∃ readings : List Reading,
        List.Forall₂ Outcome.Shows outcomes readings ∧
        source.throw (readings.flatMap Reading.sides) state =
          (readings.flatMap Reading.faces, after)) ∧
      (∀ o ∈ outcomes, 'd' ∉ o.expanded.toList ∧ solve o.expanded = .ok o.total) ∧
      (outcomes ≠ [] → ((report outcomes).toList.splitOn '\n').map withoutSpaces =
        outcomes.map fun o =>
          ("Roll:" ++ o.term ++ "(" ++ o.expanded ++ ")==>" ++ toString o.total).toList) := by
  obtain ⟨hallowed, readings, hrolls⟩ := rolls_of_roll h
  refine ⟨?_, ⟨readings, hrolls.forall₂ ?_, hrolls.throw⟩, ?_, ?_⟩
  · rw [hrolls.map_term, terms]
    refine List.filter_congr fun term _ => ?_
    cases term <;> rfl
  · intro term o r before behind hterm hrolled ho
    have hlimits : Allowed (groups term) maxTotal := hallowed.of_mem hterm
    refine ⟨?_, ?_, hrolled.fits hhonest hlimits⟩
    · rw [ho.term, String.toList_ofList]
      exact hrolled.reads
    · rw [ho.expanded, String.toList_ofList]
  · intro o hmem
    obtain ⟨term, -, r, hreads, ho⟩ := hrolls.exists_isOf o hmem
    refine ⟨?_, ho.solved⟩
    rw [ho.expanded, String.toList_ofList]
    intro hd
    rcases hreads.mem_expanded hd with ⟨-, hne⟩ | hdigit | hbracket
    · exact hne rfl
    · contradiction
    · simp at hbracket
  · intro hne
    have hsolid : ∀ o ∈ outcomes, o.IsSolid := by
      intro o hmem
      obtain ⟨term, hterm, r, hreads, ho⟩ := hrolls.exists_isOf o hmem
      exact ho.isSolid hreads (isBlank_of_mem_terms hterm)
    rw [splitOn_report hne hsolid, List.map_map]
    refine List.map_congr_left fun o hmem => ?_
    rw [Function.comp_apply, (hsolid o hmem).withoutSpaces_line]

/-- A source that goes round the sides of a die. -/
def rounds : Source Nat := ⟨fun sides n => (n % sides + 1, n + 1)⟩

lemma rounds_isHonest : rounds.IsHonest :=
  fun _ n hsides => ⟨Nat.succ_pos _, Nat.mod_lt n hsides⟩

/-- The second group of a term cannot have the digits that the first has taken, and a group may ask
for no dice. -/
theorem roll_outcomes_twoTerms :
    rounds.IsHonest ∧ roll rounds " 2d6d8 ,, 0d4+1" 4 =
        (.ok [⟨"2d6d8", "[5,6][7]", 11⟩, ⟨"0d4+1", "[]+1", 1⟩], 7) ∧
      ∃ readings : List Reading,
        List.Forall₂ Outcome.Shows
          [⟨"2d6d8", "[5,6][7]", 11⟩, ⟨"0d4+1", "[]+1", 1⟩] readings ∧
        rounds.throw (readings.flatMap Reading.sides) 4 =
          (readings.flatMap Reading.faces, 7) := by
  have hroll : roll rounds " 2d6d8 ,, 0d4+1" 4 =
      (.ok [⟨"2d6d8", "[5,6][7]", 11⟩, ⟨"0d4+1", "[]+1", 1⟩], 7) := by decide +kernel
  exact ⟨rounds_isHonest, hroll, (roll_outcomes rounds_isHonest hroll).2.1⟩

end RoomBot.Dice
