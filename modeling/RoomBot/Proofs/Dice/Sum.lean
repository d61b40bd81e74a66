import Mathlib.Algebra.Order.BigOperators.Group.List
import RoomBot.Proofs.Dice.Composition
import RoomBot.Proofs.Expression.Sum

/-!
# Sums of dice and numbers

What is rolled most is a sum of dice and numbers such as `2d6+d8+3`.  Its total is the sum of all
faces that come up and of the numbers (`roll_sum`).

The parts of such a sum can be expanded one by one, because a `+` is neither a digit nor a `d`
(`Summand.exists_expand_append`).  Dice become a list of their faces, which is worth the sum of
these, and a number stays what it is.  What is left is to add up numbers and lists, which is
`solve_added`.
-/

namespace RoomBot.Dice

open Expression (Atom Numeral added added_cons added_cons_cons compact_added inRange mem_added solve
  solve_added)
open Expression.Token (takeWhile_append)
open Text (compact)

variable {σ : Type} {source : Source σ} {state : σ} {budget : Nat}

/-! ## Summands -/

/-- A number, or dice with the same number of sides. A missing number of dice means one die. -/
inductive Summand
  | number (n : Numeral)
  | dice (count : Option Numeral) (sides : Numeral)

namespace Summand

/-- How many dice a summand asks for. -/
def count : Summand → Nat
  | number _ => 0
  | dice count _ => count.elim 1 Numeral.value

/-- What a summand adds without any dice. -/
def constant : Summand → Nat
  | number n => n.value
  | dice _ _ => 0

/-- The least that a summand can be worth. -/
def least : Summand → Nat
  | number n => n.value
  | dice count _ => count.elim 1 Numeral.value

/-- The most that a summand can be worth. -/
def greatest : Summand → Nat
  | number n => n.value
  | dice count sides => count.elim 1 Numeral.value * sides.value

/-- The numbers of sides of the dice. -/
def sides : Summand → List Nat
  | number _ => []
  | dice count sides => List.replicate (count.elim 1 Numeral.value) sides.value

/-- How a summand is written. -/
def written : Summand → List Char
  | number n => n.written
  | dice count sides => count.elim [] Numeral.written ++ 'd' :: sides.written

/-- Up to a hundred dice, with a side at least and a million at most. -/
def InLimits : Summand → Prop
  | number _ => True
  | dice count sides => count.elim 1 Numeral.value ≤ 100 ∧ 1 ≤ sides.value ∧ sides.value ≤ 1000000

/-! ## Groups -/

/-- Dice as a group. -/
def group (count : Option Numeral) (sides : Numeral) : Group :=
  ⟨count.elim [] Numeral.written, sides.written⟩

@[simp] lemma diceCount_group (count : Option Numeral) (sides : Numeral) :
    (group count sides).diceCount = count.elim 1 Numeral.value := by
  cases count with
  | none => rfl
  | some n =>
    have hne : n.written.isEmpty = false := by simpa using n.written_ne_nil
    simp only [group, Group.diceCount, Option.elim, hne, Bool.false_eq_true, if_false,
      n.ofDigitChars_written]

@[simp] lemma sideCount_group (count : Option Numeral) (sides : Numeral) :
    (group count sides).sideCount = sides.value :=
  sides.ofDigitChars_written

lemma isDigit_of_mem_count {count : Option Numeral} :
    ∀ c ∈ count.elim [] Numeral.written, c.isDigit = true := by
  cases count with
  | none => simp
  | some n => exact n.isDigit_of_mem

lemma mem_written {s : Summand} {c : Char} (hc : c ∈ s.written) :
    c.isDigit = true ∨ c = 'd' := by
  cases s with
  | number n => exact .inl (n.isDigit_of_mem c hc)
  | dice count sides =>
    rw [written, List.mem_append, List.mem_cons] at hc
    rcases hc with hc | rfl | hc
    · exact .inl (isDigit_of_mem_count c hc)
    · exact .inr rfl
    · exact .inl (sides.isDigit_of_mem c hc)

lemma written_ne_nil (s : Summand) : s.written ≠ [] := by
  cases s with
  | number n => exact n.written_ne_nil
  | dice count sides => simp [written]

end Summand

/-! ## Faces -/

lemma Source.IsHonest.recorded (h : source.IsHonest) : source.recorded.IsHonest :=
  fun sides record => h sides record.1

lemma Source.IsHonest.sum_throw_replicate (h : source.IsHonest) {sides : Nat} (hsides : 1 ≤ sides)
    (n : Nat) (state : σ) :
    n ≤ (source.throw (List.replicate n sides) state).1.sum ∧
      (source.throw (List.replicate n sides) state).1.sum ≤ n * sides := by
  have hfaces := h.throw_replicate hsides n state
  have hlength := source.length_throw (List.replicate n sides) state
  rw [List.length_replicate] at hlength
  have hleast := List.card_nsmul_le_sum _ 1 fun face hface => (hfaces face hface).1
  have hgreatest := List.sum_le_card_nsmul _ sides fun face hface => (hfaces face hface).2
  rw [hlength, smul_eq_mul] at hleast hgreatest
  exact ⟨by omega, hgreatest⟩

/-- The list of some faces is worth their sum. -/
lemma exists_atom_faceList {faces : List Nat} (h : faces.sum < 2 ^ 63) :
    ∃ a : Atom, a.written = faceList faces ∧ a.value = faces.sum := by
  have hfits : ∀ face ∈ faces, face < 2 ^ 63 :=
    fun face hface => Nat.lt_of_le_of_lt (List.single_le_sum (by simp) face hface) h
  have hvalue : (faces.pmap (Numeral.mk 0) hfits).map Numeral.value = faces := by
    rw [List.map_pmap, List.pmap_eq_map, List.map_id']
  have hwritten : (faces.pmap (Numeral.mk 0) hfits).map Numeral.written =
      faces.map (Nat.toDigits 10) := by
    rw [List.map_pmap]
    change faces.pmap (fun face _ => Nat.toDigits 10 face) hfits = _
    exact List.pmap_eq_map ..
  refine ⟨.list (faces.pmap (Numeral.mk 0) hfits) (by rwa [hvalue]), ?_, ?_⟩
  · rw [Atom.written, hwritten, faceList, List.cons_append]
  · rw [Atom.value, hvalue]

/-! ## Expanding a sum -/

lemma parts_of_digits {cs : List Char} (h : cs.dropWhile Char.isDigit = []) :
    parts cs = [.text cs] := by
  rw [parts]
  split
  · rfl
  · rename_i hsome
    rw [h] at hsome
    contradiction

section Tail

variable {tail : List Char}

/-- A number is text in front of what follows it. -/
lemma expand_number (n : Numeral) (htail : ∀ c ∈ tail.head?, c.isDigit = false ∧ c ≠ 'd') :
    expand source (parts (n.written ++ tail)) budget state =
      expand source (.text n.written :: parts tail) budget state := by
  have hdigits := n.isDigit_of_mem
  cases tail with
  | nil =>
    have hdrop : n.written.dropWhile Char.isDigit = [] := List.dropWhile_eq_nil_iff.2 hdigits
    rw [List.append_nil, parts_of_digits hdrop, parts_of_digits rfl, expand_text_text,
      List.append_nil]
  | cons c more =>
    obtain ⟨hc, hne⟩ := htail c rfl
    have hend : ∀ x ∈ (c :: more).head?, x.isDigit = false := by simpa using hc
    obtain ⟨htake, hdrop⟩ := takeWhile_append Char.isDigit hdigits hend
    have hstart : (c :: more).dropWhile Char.isDigit = c :: more := by simp [hc]
    have hnone : (c :: more).takeWhile Char.isDigit = [] := by simp [hc]
    rw [parts_of_text hdrop hne, htake, parts_of_text hstart hne, hnone, expand_text_text,
      List.nil_append]

lemma parts_dice (count : Option Numeral) (sides : Numeral)
    (htail : ∀ c ∈ tail.head?, c.isDigit = false) :
    parts ((Summand.dice count sides).written ++ tail) =
      .dice (Summand.group count sides) :: parts tail := by
  obtain ⟨htake, hdrop⟩ := takeWhile_append Char.isDigit Summand.isDigit_of_mem_count
    (show ∀ c ∈ ('d' :: (sides.written ++ tail)).head?, c.isDigit = false by simp)
  obtain ⟨htakes, hdrops⟩ := takeWhile_append Char.isDigit sides.isDigit_of_mem htail
  rw [Summand.written, List.append_assoc, List.cons_append, parts_of_dice hdrop, htake, htakes,
    hdrops, Summand.group]

/-- One summand in front of what follows: its dice are thrown, and a number or a list stands for it
that is worth what they show. -/
theorem Summand.exists_expand_append (hhonest : source.IsHonest) {s : Summand}
    (hlimits : s.InLimits) (hbudget : s.count ≤ budget)
    (htail : ∀ c ∈ tail.head?, c.isDigit = false ∧ c ≠ 'd') (state : σ) :
    ∃ a : Atom, a.value = s.constant + (source.throw s.sides state).1.sum ∧
      expand source (parts (s.written ++ tail)) budget state =
        expand source (.text a.written :: parts tail) (budget - s.count)
          (source.throw s.sides state).2 := by
  cases s with
  | number n => exact ⟨.number n, rfl, expand_number n htail⟩
  | dice count sides =>
    obtain ⟨hcount, hsome, hsides⟩ := hlimits
    have hcheck : (group count sides).check budget =
        .ok (count.elim 1 Numeral.value, sides.value) := by
      have hgroup : (group count sides).InLimits :=
        ⟨by rwa [diceCount_group], by rwa [sideCount_group], by rwa [sideCount_group]⟩
      rw [Group.check_of_inLimits hgroup (by rwa [diceCount_group])]
      simp
    have hsum := (hhonest.sum_throw_replicate hsome (count.elim 1 Numeral.value) state).2
    have hsmall : count.elim 1 Numeral.value * sides.value ≤ 100 * 1000000 :=
      Nat.mul_le_mul hcount hsides
    obtain ⟨a, hwritten, hvalue⟩ := exists_atom_faceList (Nat.lt_of_le_of_lt hsum (by omega))
    refine ⟨a, by rw [hvalue, constant, Nat.zero_add]; rfl, ?_⟩
    rw [parts_dice count sides fun c hc => (htail c hc).1]
    simp only [expand, hcheck, Source.faces_eq_throw, hwritten]
    rfl

end Tail

/-- The summands of a sum are expanded from the left. -/
lemma exists_expand_added (hhonest : source.IsHonest) (s : Summand) (rest : List Summand)
    (hlimits : ∀ t ∈ s :: rest, t.InLimits)
    (hbudget : ((s :: rest).map Summand.count).sum ≤ budget) (state : σ) :
    ∃ atoms : List Atom, atoms ≠ [] ∧
      (atoms.map Atom.value).sum = ((s :: rest).map Summand.constant).sum +
        (source.throw ((s :: rest).flatMap Summand.sides) state).1.sum ∧
      expand source (parts (added ((s :: rest).map Summand.written))) budget state =
        (.ok (added (atoms.map Atom.written), budget - ((s :: rest).map Summand.count).sum),
          (source.throw ((s :: rest).flatMap Summand.sides) state).2) := by
  induction rest generalizing s budget state with
  | nil =>
    have hnone : ∀ c ∈ ([] : List Char).head?, c.isDigit = false ∧ c ≠ 'd' := by simp
    obtain ⟨a, hvalue, hexpand⟩ := Summand.exists_expand_append hhonest
      (hlimits s List.mem_cons_self) (by simpa using hbudget) hnone state
    refine ⟨[a], List.cons_ne_nil _ _, by simpa using hvalue, ?_⟩
    have hnil : parts [] = [.text []] := parts_of_digits rfl
    rw [List.append_nil, hnil] at hexpand
    simp [added, hexpand, expand, Except.map]
  | cons t rest ih =>
    obtain ⟨hs, hothers⟩ := List.forall_mem_cons.1 hlimits
    have hcount : ((s :: t :: rest).map Summand.count).sum =
        s.count + ((t :: rest).map Summand.count).sum := List.sum_cons
    rw [hcount] at hbudget
    have hwritten : added ((s :: t :: rest).map Summand.written) =
        s.written ++ '+' :: added ((t :: rest).map Summand.written) := added_cons_cons ..
    have hthrow := source.throw_append s.sides ((t :: rest).flatMap Summand.sides) state
    have hsum : ∀ c ∈ ('+' :: added ((t :: rest).map Summand.written)).head?,
        c.isDigit = false ∧ c ≠ 'd' := by simp
    obtain ⟨a, hvalue, hfirst⟩ := Summand.exists_expand_append hhonest hs
      (show s.count ≤ budget by omega) hsum state
    have hleft : ((t :: rest).map Summand.count).sum ≤ budget - s.count := by omega
    obtain ⟨atoms, hne, hvalues, hrest⟩ := ih t hothers hleft (source.throw s.sides state).2
    obtain ⟨second, others, rfl⟩ := List.exists_cons_of_ne_nil hne
    have hatoms : added ((a :: second :: others).map Atom.written) =
        a.written ++ '+' :: added ((second :: others).map Atom.written) := added_cons_cons ..
    have hplus : ∀ cs : List Char, parts ('+' :: cs) = .text ['+'] :: parts cs :=
      fun cs => parts_of_text rfl (by decide)
    rw [List.flatMap_cons, hthrow]
    refine ⟨a :: second :: others, List.cons_ne_nil _ _, ?_, ?_⟩
    · simp only [List.map_cons, List.sum_cons, List.sum_append, hvalue] at hvalues ⊢
      omega
    · rw [hwritten, hfirst, hplus, hatoms, hcount, ← Nat.sub_sub]
      simp only [expand, hrest, Except.map]
      rfl

/-! ## Rolling a sum -/

/-- A sum is one term. -/
lemma terms_added {summands : List Summand} (hne : summands ≠ []) :
    terms (added (summands.map Summand.written)) = [added (summands.map Summand.written)] := by
  have hcomma : ',' ∉ added (summands.map Summand.written) := by
    intro hmem
    rcases mem_added hmem with hplus | ⟨text, htext, hmem⟩
    · contradiction
    · obtain ⟨s, -, rfl⟩ := List.mem_map.1 htext
      rcases Summand.mem_written hmem with hdigit | hd <;> contradiction
  have hsplit := List.splitOn_intercalate ',' (List.forall_mem_singleton.2 hcomma)
    (List.cons_ne_nil _ _)
  have hsome : added (summands.map Summand.written) ≠ [] := by
    obtain ⟨s, rest, rfl⟩ := List.exists_cons_of_ne_nil hne
    rw [List.map_cons, added_cons]
    exact List.append_ne_nil_of_left_ne_nil s.written_ne_nil _
  rw [List.intercalate_singleton] at hsplit
  rw [terms, hsplit]
  simpa using hsome

section Whole

variable {summands : List Summand} {spec : String}

/-- A sum is rolled by throwing all its dice and solving what it has been expanded to. -/
lemma exists_roll_eq (hhonest : source.IsHonest) (hne : summands ≠ [])
    (hlimits : ∀ s ∈ summands, s.InLimits) (hcount : (summands.map Summand.count).sum ≤ maxTotal)
    (hspec : compact spec.toList = added (summands.map Summand.written)) (state : σ) :
    let thrown := source.throw (summands.flatMap Summand.sides) state
    ∃ expanded : String,
      solve expanded = inRange ((summands.map Summand.constant).sum + thrown.1.sum : Nat) ∧
      roll source spec state =
        (((solve expanded).map fun total => [⟨String.ofList (compact spec.toList), expanded, total⟩]
          ).mapError Fault.unsolved, thrown.2) := by
  intro thrown
  obtain ⟨s, rest, rfl⟩ := List.exists_cons_of_ne_nil hne
  obtain ⟨atoms, hatoms, hvalue, hexpand⟩ :=
    exists_expand_added hhonest s rest hlimits hcount state
  have hterms : terms (compact spec.toList) = [compact spec.toList] := by
    rw [hspec, terms_added hne]
  refine ⟨String.ofList (added (atoms.map Atom.written)), ?_, ?_⟩
  · rw [solve_added hatoms (by rw [String.toList_ofList, compact_added]), hvalue]
  · rw [roll_of_not_blank (exists_isBlank_eq_false (by rw [hterms]; exact List.cons_ne_nil _ _)),
      hterms]
    simp only [rollTerms, rollTerm, hspec, hexpand]
    cases solve (String.ofList (added (atoms.map Atom.written))) <;> rfl

/-- What the dice of a summand show, and its number, is within the limits of what it is worth. -/
lemma Summand.sum_throw (hhonest : source.IsHonest) {s : Summand} (hlimits : s.InLimits)
    (state : σ) :
    s.least ≤ s.constant + (source.throw s.sides state).1.sum ∧
      s.constant + (source.throw s.sides state).1.sum ≤ s.greatest := by
  cases s with
  | number n => exact ⟨Nat.le_refl _, Nat.le_refl _⟩
  | dice count sides =>
    rw [constant, Nat.zero_add]
    exact hhonest.sum_throw_replicate hlimits.2.1 _ state

lemma sum_throw (hhonest : source.IsHonest) (hlimits : ∀ s ∈ summands, s.InLimits) (state : σ) :
    let sum := (summands.map Summand.constant).sum +
      (source.throw (summands.flatMap Summand.sides) state).1.sum
    (summands.map Summand.least).sum ≤ sum ∧ sum ≤ (summands.map Summand.greatest).sum := by
  induction summands generalizing state with
  | nil => exact ⟨Nat.le_refl _, Nat.le_refl _⟩
  | cons s summands ih =>
    obtain ⟨hs, hothers⟩ := List.forall_mem_cons.1 hlimits
    have hfirst := Summand.sum_throw hhonest hs state
    have hrest := ih hothers (source.throw s.sides state).2
    simp only [List.map_cons, List.sum_cons, List.flatMap_cons, Source.throw_append,
      List.sum_append] at hrest ⊢
    omega

end Whole

/-- The total of a sum of dice and numbers, however many of them there are, in whatever order and
with blanks anywhere, is the sum of all faces that come up and of the numbers, if 64 bits with a
sign can hold it, and if not then that is why the roll fails. The faces are those of all the dice,
from the left, and so the sum lies between the least and the greatest that the summands can be
worth. -/
theorem roll_sum (hhonest : source.IsHonest) {summands : List Summand} (hne : summands ≠ [])
    (hlimits : ∀ s ∈ summands, s.InLimits) (hcount : (summands.map Summand.count).sum ≤ 200)
    {spec : String}
    (hspec : compact spec.toList = added (summands.map Summand.written)) (state : σ) :
    let faces := drawn source spec state
    let sum := faces.sum + (summands.map Summand.constant).sum
    source.throw (summands.flatMap Summand.sides) state = (faces, (roll source spec state).2) ∧
      (sum < 2 ^ 63 → ∃ o, (roll source spec state).1 = .ok [o] ∧ o.total = sum) ∧
      (2 ^ 63 ≤ sum → (roll source spec state).1 = .error (.unsolved .outOfRange)) ∧
      (summands.map Summand.least).sum ≤ sum ∧ sum ≤ (summands.map Summand.greatest).sum := by
  intro faces sum
  obtain ⟨expanded, hsolve, hroll⟩ := exists_roll_eq hhonest hne hlimits hcount hspec state
  obtain ⟨_, -, hrecorded⟩ := exists_roll_eq hhonest.recorded hne hlimits hcount hspec (state, [])
  have hfaces : faces = (source.throw (summands.flatMap Summand.sides) state).1 := by
    simp only [faces, drawn, hrecorded, Source.throw_recorded, List.nil_append]
  have hsum : (summands.map Summand.constant).sum +
      (source.throw (summands.flatMap Summand.sides) state).1.sum = sum := by
    simp only [sum, hfaces, Nat.add_comm]
  rw [hsum] at hsolve
  have hbounds := sum_throw hhonest hlimits state
  simp only [hsum] at hbounds
  refine ⟨by rw [hfaces, hroll], fun hfits => ?_, fun hlarge => ?_, hbounds⟩
  · rw [Expression.Token.inRange_natCast hfits] at hsolve
    rw [hroll, hsolve]
    exact ⟨_, rfl, rfl⟩
  · rw [hroll, hsolve, Expression.inRange_natCast_of_le hlarge]
    rfl

/-- Numbers and dice in turn, a number of dice that is missing and one that is zero, zeros in front
of a number, and blanks. -/
theorem roll_sum_mixed :
    let numeral (zeros value : Nat) (fits : value < 2 ^ 63) : Numeral := ⟨zeros, value, fits⟩
    let summands : List Summand := [.number (numeral 0 3 (by decide)),
      .dice (some (numeral 0 2 (by decide))) (numeral 0 6 (by decide)),
      .dice none (numeral 0 8 (by decide)), .number (numeral 2 7 (by decide)),
      .dice (some (numeral 0 0 (by decide))) (numeral 0 4 (by decide))]
    compact " 3 + 2d6+ d8+007+0d4".toList = added (summands.map Summand.written) ∧
      drawn rounds " 3 + 2d6+ d8+007+0d4" 4 = [5, 6, 7] ∧
      ∃ o, (roll rounds " 3 + 2d6+ d8+007+0d4" 4).1 = .ok [o] ∧ o.total = 28 := by
  intro numeral summands
  have hlimits : ∀ s ∈ summands, s.InLimits := by
    simp [summands, numeral, Summand.InLimits]
  have hspec : compact " 3 + 2d6+ d8+007+0d4".toList = added (summands.map Summand.written) := by
    decide +kernel
  obtain ⟨hthrow, hfits, -⟩ :=
    roll_sum rounds_isHonest (List.cons_ne_nil _ _) hlimits (by decide) hspec 4
  have hdrawn : drawn rounds " 3 + 2d6+ d8+007+0d4" 4 = [5, 6, 7] :=
    (congrArg Prod.fst hthrow).symm.trans (by decide +kernel)
  rw [hdrawn] at hfits
  exact ⟨hspec, hdrawn, hfits (by decide)⟩

end RoomBot.Dice
