import RoomBot.Dice.Roll
import RoomBot.Proofs.Expression.Formula

/-!
# How a term is read

Reading a term from the left finds one group after another (`Reads`): every `d` belongs to one, and
with it all the digits on both sides, save those that the group before has taken.  What stands
between two groups is the lead of the second.  There is only one way to do so (`Reads.unique`).

The parts that a term is cut into say the same in smaller pieces, since they break a lead up at
every character that is no digit.  To a roll this makes no difference (`exists_reads`).  From here
on a term is its groups with their leads, and the text behind the last of them.
-/

namespace RoomBot.Dice

open Expression.Token (takeWhile_append)

/-! ## Groups in their places -/

/-- A group and the text that leads up to it from the group before. -/
structure Cut where
  lead : List Char
  group : Group
deriving DecidableEq, Repr

/-- The term is read as these groups with their leads, and the text behind them. -/
inductive Reads : (term : List Char) → List Cut → (rest : List Char) → Prop
  | rest {term : List Char} : 'd' ∉ term → Reads term [] term
  | cut {lead after rest : List Char} {group : Group} {cuts : List Cut} :
      'd' ∉ lead → (∀ c ∈ lead.getLast?, c.isDigit = false) →
      (∀ c ∈ group.count, c.isDigit = true) → (∀ c ∈ group.sides, c.isDigit = true) →
      (∀ c ∈ after.head?, c.isDigit = false) → Reads after cuts rest →
      Reads (lead ++ (group.written ++ after)) (⟨lead, group⟩ :: cuts) rest

/-- The group that a part is, if it is one. -/
def Part.group? : Part → Option Group
  | text _ => none
  | dice g => some g

/-- The groups of a term, from the left. -/
def groups (term : List Char) : List Group := (parts term).filterMap Part.group?

/-- The stretches of a term that is read like this. -/
def stretches (cuts : List Cut) (rest : List Char) : List Part :=
  cuts.flatMap (fun cut => [.text cut.lead, .dice cut.group]) ++ [.text rest]

@[simp] lemma stretches_cons (cut : Cut) (cuts : List Cut) (rest : List Char) :
    stretches (cut :: cuts) rest = .text cut.lead :: .dice cut.group :: stretches cuts rest := by
  simp [stretches]

/-! ## Digits -/

lemma isDigit_head?_dropWhile (cs : List Char) :
    ∀ c ∈ (cs.dropWhile Char.isDigit).head?, c.isDigit = false := by
  intro c hc
  have hnot := List.head?_dropWhile_not Char.isDigit cs
  rwa [Option.mem_def.1 hc] at hnot

lemma isDigit_of_mem_takeWhile {cs : List Char} :
    ∀ c ∈ cs.takeWhile Char.isDigit, c.isDigit = true :=
  fun _ hc => List.mem_takeWhile_imp hc

lemma notMem_of_isDigit {cs : List Char} (h : ∀ c ∈ cs, c.isDigit = true) : 'd' ∉ cs :=
  fun hmem => absurd (h 'd' hmem) (by decide)

/-! ## One way to read -/

/-- A text comes apart in one way only where a stretch of such characters ends. -/
lemma append_inj_of_ends {p : Char → Bool} {one two front behind : List Char}
    (hone : ∀ c ∈ one, p c = true) (htwo : ∀ c ∈ two.head?, p c = false)
    (hfront : ∀ c ∈ front, p c = true) (hbehind : ∀ c ∈ behind.head?, p c = false)
    (h : one ++ two = front ++ behind) : one = front ∧ two = behind := by
  obtain ⟨htake, hdrop⟩ := takeWhile_append p hone htwo
  obtain ⟨htakes, hdrops⟩ := takeWhile_append p hfront hbehind
  exact ⟨by rw [← htake, h, htakes], by rw [← hdrop, h, hdrops]⟩

lemma ne_of_mem_lead_append {lead digits : List Char} (hlead : 'd' ∉ lead)
    (hdigits : ∀ c ∈ digits, c.isDigit = true) : ∀ c ∈ lead ++ digits, (c != 'd') = true := by
  intro c hc
  rw [bne_iff_ne]
  rcases List.mem_append.1 hc with hc | hc
  · exact ne_of_mem_of_not_mem hc hlead
  · exact ne_of_mem_of_not_mem hc (notMem_of_isDigit hdigits)

/-- A term is read in one way only. -/
theorem Reads.unique {term one two : List Char} {cuts others : List Cut} (h : Reads term cuts one)
    (h' : Reads term others two) : cuts = others ∧ one = two := by
  induction h generalizing others with
  | @rest term hnone =>
    cases h' with
    | rest _ => exact ⟨rfl, rfl⟩
    | cut _ _ _ _ _ _ => simp [Group.written] at hnone
  | @cut lead after rest group cuts hlead hleft hcount hsides hright _ ih =>
    generalize hterm : lead ++ (group.written ++ after) = term at h'
    cases h' with
    | rest hnone =>
      rw [← hterm] at hnone
      simp [Group.written] at hnone
    | @cut lead' after' _ group' cuts' hlead' hleft' hcount' hsides' hright' hreads' =>
      simp only [Group.written, List.append_assoc, List.cons_append] at hterm
      rw [← List.append_assoc, ← List.append_assoc lead'] at hterm
      -- The first `d` is that of the first group.
      obtain ⟨hfront, hbehind⟩ := append_inj_of_ends (ne_of_mem_lead_append hlead hcount) (by simp)
        (ne_of_mem_lead_append hlead' hcount') (by simp) hterm
      -- The digits in front of it are found from the right.
      have hreverse := congrArg List.reverse hfront
      rw [List.reverse_append, List.reverse_append] at hreverse
      obtain ⟨hcounts, hleads⟩ := append_inj_of_ends (by simpa using hcount)
        (by simpa using hleft) (by simpa using hcount') (by simpa using hleft') hreverse
      obtain ⟨hside, rfl⟩ := append_inj_of_ends hsides hright hsides' hright'
        (List.cons.inj hbehind).2
      obtain ⟨rfl, rfl⟩ := ih hreads'
      have hgroup : group = group' := by
        cases group
        cases group'
        rw [Group.mk.injEq]
        exact ⟨List.reverse_inj.1 hcounts, hside⟩
      rw [hgroup, List.reverse_inj.1 hleads]
      exact ⟨rfl, rfl⟩

/-! ## The parts of a term -/

variable {cs after : List Char} {c : Char}

lemma parts_of_dice (h : cs.dropWhile Char.isDigit = 'd' :: after) :
    parts cs = .dice ⟨cs.takeWhile Char.isDigit, after.takeWhile Char.isDigit⟩ ::
      parts (after.dropWhile Char.isDigit) := by
  rw [parts]
  split
  · rename_i hnone
    rw [h] at hnone
    contradiction
  · rename_i hsome
    obtain ⟨rfl, rfl⟩ := List.cons.inj (h.symm.trans hsome)
    rw [if_pos rfl]

lemma parts_of_text (h : cs.dropWhile Char.isDigit = c :: after) (hne : c ≠ 'd') :
    parts cs = .text (cs.takeWhile Char.isDigit ++ [c]) :: parts after := by
  rw [parts]
  split
  · rename_i hnone
    rw [h] at hnone
    contradiction
  · rename_i hsome
    obtain ⟨rfl, rfl⟩ := List.cons.inj (h.symm.trans hsome)
    rw [if_neg hne]

lemma groups_eq_nil (h : 'd' ∉ cs) : groups cs = [] := by
  unfold groups
  fun_induction parts cs with
  | case1 cs _ => rfl
  | case2 cs after _ hd _ ih =>
    have hmem : 'd' ∈ cs.dropWhile Char.isDigit := by simp [hd]
    exact absurd ((List.dropWhile_sublist Char.isDigit).mem hmem) h
  | case3 cs c after hc _ _ _ ih =>
    refine ih fun hmem => h ((List.dropWhile_sublist Char.isDigit).mem ?_)
    rw [hc]
    exact List.mem_cons_of_mem c hmem

/-- Text in front of a term has no part in its groups, unless a number at its end belongs to the
first. -/
lemma groups_append {front : List Char} (hfront : 'd' ∉ front)
    (hlast : ∀ c ∈ front.getLast?, c.isDigit = false) (term : List Char) :
    groups (front ++ term) = groups term := by
  induction hlength : front.length using Nat.strong_induction_on generalizing front with
  | _ n ih =>
    cases hdrop : front.dropWhile Char.isDigit with
    | nil =>
      -- The last character would be a digit, so there is none.
      cases hend : front.getLast? with
      | none =>
        rw [List.getLast?_eq_none_iff.1 hend, List.nil_append]
      | some c =>
        have hdigit := List.dropWhile_eq_nil_iff.1 hdrop c (List.mem_of_getLast? hend)
        rw [hlast c hend] at hdigit
        contradiction
    | cons c behind =>
      have hsplit : front.takeWhile Char.isDigit ++ c :: behind = front := by
        rw [← hdrop, List.takeWhile_append_dropWhile]
      have hbehind : 'd' ∉ c :: behind := fun hmem => hfront (hsplit ▸ List.mem_append_right _ hmem)
      rw [List.mem_cons, not_or] at hbehind
      have hdropped : (front ++ term).dropWhile Char.isDigit = c :: (behind ++ term) := by
        rw [List.dropWhile_append, hdrop]
        rfl
      have hshorter : behind.length < n := by
        rw [← hlength, ← hsplit, List.length_append, List.length_cons]
        omega
      have hrest : ∀ x ∈ behind.getLast?, x.isDigit = false := fun x hx => hlast x (by
        rw [← hsplit, List.getLast?_append, List.getLast?_cons, Option.mem_def.1 hx]
        rfl)
      rw [groups, parts_of_text hdropped (Ne.symm hbehind.1)]
      exact ih behind.length hshorter hbehind.2 hrest rfl

lemma Reads.groups_eq {term rest : List Char} {cuts : List Cut} (h : Reads term cuts rest) :
    groups term = cuts.map Cut.group := by
  induction h with
  | rest hrest => exact groups_eq_nil hrest
  | @cut lead after rest group cuts hlead hleft hcount hsides hright _ ih =>
    obtain ⟨htake, hdrop⟩ := takeWhile_append Char.isDigit hcount
      (show ∀ c ∈ ('d' :: (group.sides ++ after)).head?, c.isDigit = false by simp)
    obtain ⟨htakes, hdrops⟩ := takeWhile_append Char.isDigit hsides hright
    rw [groups_append hlead hleft, List.map_cons, ← ih, groups, Group.written, List.append_assoc,
      List.cons_append, parts_of_dice hdrop, htake, htakes, hdrops]
    rfl

/-! ## Reading by parts -/

lemma expand_text_text {σ : Type} (source : Source σ) (one two : List Char) (ps : List Part)
    (budget : Nat) (state : σ) :
    expand source (.text one :: .text two :: ps) budget state =
      expand source (.text (one ++ two) :: ps) budget state := by
  simp only [expand]
  cases (expand source ps budget state).1 <;> simp [Except.map]

lemma expand_text_nil {σ : Type} (source : Source σ) (ps : List Part) (budget : Nat)
    (state : σ) :
    expand source (.text [] :: ps) budget state = expand source ps budget state := by
  simp only [expand]
  cases h : expand source ps budget state with
  | mk result after => cases result <;> rfl

variable {term rest : List Char} {cuts : List Cut}

/-- Text in front of a term goes into the lead of its first group. -/
lemma Reads.exists_front {front : List Char} (h : Reads term cuts rest) (hfront : 'd' ∉ front)
    (hlast : ∀ c ∈ front.getLast?, c.isDigit = false) :
    ∃ others behind, Reads (front ++ term) others behind ∧
      ∀ (σ : Type) (source : Source σ) (budget : Nat) (state : σ),
        expand source (.text front :: stretches cuts rest) budget state =
          expand source (stretches others behind) budget state := by
  cases h with
  | rest hrest =>
    refine ⟨[], front ++ term, .rest (by simp [hfront, hrest]), fun σ source budget state => ?_⟩
    exact expand_text_text source front term [] budget state
  | @cut lead after _ group cuts hlead hleft hcount hsides hright hafter =>
    refine ⟨⟨front ++ lead, group⟩ :: cuts, rest, ?_, fun σ source budget state => ?_⟩
    · rw [← List.append_assoc]
      refine .cut (by simp [hfront, hlead]) (fun c hc => ?_) hcount hsides hright hafter
      rw [List.getLast?_append] at hc
      cases hend : lead.getLast? with
      | none =>
        rw [hend] at hc
        exact hlast c hc
      | some x =>
        rw [hend] at hc
        exact hleft c (by rw [hend]; exact hc)
    · exact expand_text_text source front lead _ budget state

/-- Every term can be read, and a roll expands it as it is read. -/
theorem exists_reads (term : List Char) :
    ∃ cuts rest, Reads term cuts rest ∧
      ∀ (σ : Type) (source : Source σ) (budget : Nat) (state : σ),
        expand source (parts term) budget state =
          expand source (stretches cuts rest) budget state := by
  fun_induction parts term with
  | case1 cs h =>
    have hdigits : ∀ c ∈ cs, c.isDigit = true := List.dropWhile_eq_nil_iff.1 h
    exact ⟨[], cs, .rest (notMem_of_isDigit hdigits), fun _ _ _ _ => rfl⟩
  | case2 cs after _ h _ ih =>
    obtain ⟨cuts, rest, hreads, hexpand⟩ := ih
    let group : Group := ⟨cs.takeWhile Char.isDigit, after.takeWhile Char.isDigit⟩
    have hterm : cs = group.written ++ after.dropWhile Char.isDigit := by
      rw [Group.written, List.append_assoc, List.cons_append, List.takeWhile_append_dropWhile, ← h,
        List.takeWhile_append_dropWhile]
    have hcut : Reads ([] ++ (group.written ++ _)) (⟨[], group⟩ :: cuts) rest :=
      .cut (by simp) (by simp) isDigit_of_mem_takeWhile isDigit_of_mem_takeWhile
        (isDigit_head?_dropWhile after) hreads
    rw [List.nil_append, ← hterm] at hcut
    refine ⟨⟨[], group⟩ :: cuts, rest, hcut, fun σ source budget state => ?_⟩
    rw [stretches_cons, expand_text_nil]
    simp only [expand, hexpand, group]
  | case3 cs c after h _ _ hne ih =>
    obtain ⟨cuts, rest, hreads, hexpand⟩ := ih
    have hterm : cs = cs.takeWhile Char.isDigit ++ [c] ++ after := by
      rw [List.append_assoc, List.singleton_append, ← h, List.takeWhile_append_dropWhile]
    have hc : c.isDigit = false := isDigit_head?_dropWhile cs c (by rw [h]; rfl)
    have hfront : 'd' ∉ cs.takeWhile Char.isDigit ++ [c] := by
      simpa using ⟨notMem_of_isDigit isDigit_of_mem_takeWhile, Ne.symm hne⟩
    obtain ⟨others, behind, hothers, hexpands⟩ := hreads.exists_front hfront (by simpa using hc)
    rw [← hterm] at hothers
    refine ⟨others, behind, hothers, fun σ source budget state => ?_⟩
    rw [← hexpands]
    simp only [expand, hexpand]

end RoomBot.Dice
