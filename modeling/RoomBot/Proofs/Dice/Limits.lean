import RoomBot.Proofs.Dice.Outcomes

/-!
# Limits of a request

A request breaks a limit (`Exceeds`) if a group of it has no sides or too many, or asks for too many
dice, or if all of them together do.  Such a request is never rolled to its end, whatever the source,
and one that breaks none can fail only where a term cannot be solved (`roll_limits`).

Dice are thrown as a term is read, before the next group is looked at, so a request that fails may
have had faces from the source.  To count them the source is asked to keep a tally
(`Source.tallied`), which changes nothing else.  What has been drawn and what is left of the budget
never come to more than there was at the beginning (`Tallies`), and this is what every stage hands on
to the next.
-/

namespace RoomBot.Dice

open Expression (solve)
open Text (compact isBlank)

variable {σ : Type}

/-! ## Breaking a limit -/

/-- A group breaks a limit of its own, or there are too many dice in all groups together. -/
def Exceeds (groups : List Group) : Prop :=
  (∃ g ∈ groups, g.sides = [] ∨ g.sideCount = 0 ∨ maxDice < g.diceCount ∨ maxSides < g.sideCount) ∨
    maxTotal < (groups.map Group.diceCount).sum

instance (groups : List Group) : Decidable (Exceeds groups) :=
  inferInstanceAs (Decidable (_ ∨ _))

/-- What breaks no limit is allowed. -/
lemma not_exceeds_iff {groups : List Group} : ¬ Exceeds groups ↔ Allowed groups maxTotal := by
  constructor
  · intro h
    obtain ⟨hgroups, htotal⟩ := not_or.1 h
    refine ⟨fun g hg => ?_, Nat.not_lt.1 htotal⟩
    have hnone : ¬ (g.sides = [] ∨ g.sideCount = 0 ∨ maxDice < g.diceCount ∨
        maxSides < g.sideCount) := fun hbroken => hgroups ⟨g, hg, hbroken⟩
    simp only [not_or, Nat.not_lt] at hnone
    exact ⟨hnone.2.2.1, Nat.pos_of_ne_zero hnone.2.1, hnone.2.2.2⟩
  · rintro h (⟨g, hg, hsides | hsides | hcount | hsides⟩ | htotal)
    · have hsome := (h.limits g hg).some
      rw [Group.sideCount, hsides] at hsome
      contradiction
    · exact absurd hsides (Nat.ne_of_gt (h.limits g hg).some)
    · exact Nat.not_lt.2 (h.limits g hg).count hcount
    · exact Nat.not_lt.2 (h.limits g hg).sides hsides
    · exact Nat.not_lt.2 h.total htotal

/-! ## Counting draws -/

/-- The same source with a count of the faces that it has been asked for. -/
def Source.tallied (source : Source σ) : Source (σ × Nat) where
  draw sides tally :=
    let (face, after) := source.draw sides tally.1
    (face, after, tally.2 + 1)

lemma Source.faces_tallied (source : Source σ) (sides n : Nat) (state : σ) (before : Nat) :
    source.tallied.faces sides n (state, before) =
      ((source.faces sides n state).1, (source.faces sides n state).2, before + n) := by
  induction n generalizing state before with
  | zero => rfl
  | succ n ih =>
    simp only [faces, tallied] at ih ⊢
    rw [ih, Nat.add_right_comm, Nat.add_assoc]

/-- What a result leaves of a budget. With a fault it does not matter any more. -/
def unspent {ε α : Type} : Except ε (α × Nat) → Nat
  | .ok (_, left) => left
  | .error _ => 0

lemma unspent_map {ε α β : Type} (f : α → β) (result : Except ε (α × Nat)) :
    unspent (result.map fun (a, left) => (f a, left)) = unspent result := by
  cases result <;> rfl

/-- The count makes no difference to the result and the source, and what is counted comes out of the
budget. -/
def Tallies {ρ : Type} (left : ρ → Nat) (budget before : Nat) (plain : ρ × σ)
    (tallied : ρ × σ × Nat) : Prop :=
  ∃ drawn, tallied = (plain.1, plain.2, before + drawn) ∧ drawn + left plain.1 ≤ budget

/-- What is drawn while a term is expanded comes out of the budget. -/
lemma tallies_expand (source : Source σ) (ps : List Part) (budget : Nat) (state : σ)
    (before : Nat) :
    Tallies unspent budget before (expand source ps budget state)
      (expand source.tallied ps budget (state, before)) := by
  induction ps generalizing budget state before with
  | nil => exact ⟨0, rfl, Nat.le_of_eq (Nat.zero_add budget)⟩
  | cons part ps ih =>
    cases part with
    | text cs =>
      obtain ⟨drawn, htallied, hspent⟩ := ih budget state before
      refine ⟨drawn, by simp only [expand, htallied], ?_⟩
      simpa only [expand, unspent_map] using hspent
    | dice g =>
      rcases g.check_cases budget with ⟨hlimits, hbudget⟩ | ⟨refusal, hcheck⟩
      · have hcheck := Group.check_of_inLimits hlimits hbudget
        obtain ⟨faces, middle, hfaces⟩ : ∃ faces middle,
            source.faces g.sideCount g.diceCount state = (faces, middle) := ⟨_, _, rfl⟩
        obtain ⟨drawn, htallied, hspent⟩ :=
          ih (budget - g.diceCount) middle (before + g.diceCount)
        refine ⟨g.diceCount + drawn, ?_, ?_⟩
        · simp only [expand, hcheck, Source.faces_tallied, hfaces, htallied, Nat.add_assoc]
        · simp only [expand, hcheck, hfaces, unspent_map]
          omega
      · exact ⟨0, by simp only [expand, hcheck]; rfl, by simp [expand, hcheck, unspent]⟩

/-- What is drawn for a term comes out of the budget. -/
lemma tallies_rollTerm (source : Source σ) (term : List Char) (budget : Nat) (state : σ)
    (before : Nat) :
    Tallies unspent budget before (rollTerm source term budget state)
      (rollTerm source.tallied term budget (state, before)) := by
  obtain ⟨drawn, htallied, hspent⟩ := tallies_expand source (parts term) budget state before
  cases hexpand : expand source (parts term) budget state with
  | mk result after =>
    rw [hexpand] at htallied hspent
    cases result with
    | error refusal =>
      refine ⟨drawn, ?_, ?_⟩
      · simp only [rollTerm, hexpand, htallied]
      · simpa only [rollTerm, hexpand, unspent] using hspent
    | ok result =>
      refine ⟨drawn, ?_, ?_⟩
      · simp only [rollTerm, hexpand, htallied]
        split <;> rfl
      · simp only [rollTerm, hexpand]
        split
        · exact Nat.le_of_add_right_le hspent
        · exact hspent

/-- What is drawn for all terms comes out of the budget. -/
lemma tallies_rollTerms (source : Source σ) (ts : List (List Char)) (budget : Nat) (state : σ)
    (before : Nat) :
    Tallies (fun _ => 0) budget before (rollTerms source ts budget state)
      (rollTerms source.tallied ts budget (state, before)) := by
  induction ts generalizing budget state before with
  | nil => exact ⟨0, rfl, Nat.zero_le _⟩
  | cons term ts ih =>
    obtain ⟨first, htallied, hspent⟩ := tallies_rollTerm source term budget state before
    cases hroll : rollTerm source term budget state with
    | mk result middle =>
      rw [hroll] at htallied hspent
      cases result with
      | error fault =>
        refine ⟨first, ?_, Nat.le_of_add_right_le hspent⟩
        simp only [rollTerms, hroll, htallied]
      | ok result =>
        obtain ⟨outcome, left⟩ := result
        obtain ⟨others, hrest, hbudget⟩ := ih left middle (before + first)
        refine ⟨first + others, ?_, ?_⟩
        · simp only [rollTerms, hroll, htallied, hrest, Nat.add_assoc]
        · simp only [unspent, Nat.add_zero] at hspent hbudget ⊢
          omega

lemma tallies_roll (source : Source σ) (spec : String) (state : σ) (before : Nat) :
    Tallies (fun _ => 0) maxTotal before (roll source spec state)
      (roll source.tallied spec (state, before)) := by
  simp only [roll]
  split
  · exact ⟨0, rfl, Nat.zero_le _⟩
  · exact tallies_rollTerms source _ maxTotal state before

/-! ## A request -/

/-- All groups that a request asks for. -/
def requested (spec : String) : List Group := (terms (compact spec.toList)).flatMap groups

lemma roll_of_not_blank {spec : String} (h : ∃ c ∈ spec.toList, isBlank c = false)
    (source : Source σ) (state : σ) :
    roll source spec state = rollTerms source (terms (compact spec.toList)) maxTotal state := by
  obtain ⟨c, hc, hblank⟩ := h
  have hmem : c ∈ compact spec.toList := List.mem_filter.2 ⟨hc, by rw [hblank]; rfl⟩
  rw [roll, if_neg]
  rw [List.isEmpty_iff]
  exact List.ne_nil_of_mem hmem

/-- A request with something in it asks for the groups that are read in its terms. If they break a
limit it fails. If they do not it fails at most with what `solve` says of a term that it has been
expanded to, all terms before having gone through. In no case does it draw more than `maxTotal`
faces. -/
theorem roll_limits (source : Source σ) {spec : String} (h : ∃ c ∈ spec.toList, isBlank c = false)
    (state : σ) :
    (∀ term ∈ terms (compact spec.toList), ∃ cuts rest, Reads term cuts rest ∧
        groups term = cuts.map Cut.group) ∧
      (Exceeds (requested spec) → ∃ fault, (roll source spec state).1 = .error fault) ∧
      (¬ Exceeds (requested spec) → ∀ fault, (roll source spec state).1 = .error fault →
        ∃ reason, fault = .unsolved reason ∧
          Sticks source (terms (compact spec.toList)) state reason) ∧
      ∃ drawn ≤ maxTotal, roll source.tallied spec (state, 0) =
        ((roll source spec state).1, (roll source spec state).2, drawn) := by
  refine ⟨fun term _ => ?_, fun hexceeds => ?_, fun hallowed fault hfault => ?_, ?_⟩
  · obtain ⟨cuts, rest, hreads, -⟩ := exists_reads term
    exact ⟨cuts, rest, hreads, hreads.groups_eq⟩
  · rw [roll_of_not_blank h]
    exact rollTerms_of_not_allowed source (fun hallowed => not_exceeds_iff.2 hallowed hexceeds) state
  · rw [roll_of_not_blank h] at hfault
    rcases rollTerms_of_allowed source (not_exceeds_iff.1 hallowed) state with
      ⟨outcomes, readings, after, hroll, -⟩ | ⟨reason, hroll, hsticks⟩
    · rw [hroll] at hfault
      contradiction
    · rw [hroll] at hfault
      exact ⟨reason, (Except.error.inj hfault).symm, hsticks⟩
  · obtain ⟨drawn, htallied, hspent⟩ := tallies_roll source spec state 0
    exact ⟨drawn, hspent, by rw [htallied, Nat.zero_add]⟩

/-- Exactly as much as is allowed, in a term that cannot be solved, breaks no limit. -/
theorem roll_limits_atBoundary :
    (∃ c ∈ "100d1000000, 00100d6+0d2+x".toList, isBlank c = false) ∧
      ¬ Exceeds (requested "100d1000000, 00100d6+0d2+x") ∧
      ∀ fault, (roll rounds "100d1000000, 00100d6+0d2+x" 0).1 = .error fault →
        ∃ reason, fault = .unsolved reason ∧
          Sticks rounds (terms (compact "100d1000000, 00100d6+0d2+x".toList)) 0 reason := by
  have hsome : ∃ c ∈ "100d1000000, 00100d6+0d2+x".toList, isBlank c = false :=
    ⟨'1', by decide, by decide⟩
  have hwithin : ¬ Exceeds (requested "100d1000000, 00100d6+0d2+x") := by decide +kernel
  exact ⟨hsome, hwithin, (roll_limits rounds hsome 0).2.2.1 hwithin⟩

end RoomBot.Dice
