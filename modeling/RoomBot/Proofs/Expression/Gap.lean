import RoomBot.Proofs.Expression.Locality

/-!
# What a text is worth beyond its longest phrase

To ignore what follows the longest phrase the evaluation has to find out where the phrase ends, and
that is where an operand is looked for in vain (`Gap`).  In most texts nothing comes of it.  Two
things can happen all the same: the signs and groups at the gap may be nested too deep, or there may
be a group which is never closed, and then what it holds is worked out before it is dropped
(`Stalls`).  A third can happen before: a number that is too large is a fault wherever it stands,
since no text is evaluated before all its tokens are read (`Token.Oversized`).

Apart from these three a text is worth what its longest phrase is worth on its own, a fault
included, or 0 if there is no phrase (`solve_eq_evaluate_longest`).
-/

namespace RoomBot.Expression

variable {ts us p q left rest : List Token} {o : Operator} {k room : Nat}

/-! ## The longest phrase in front of some tokens -/

lemma IsOperand.phrase (hp : IsOperand p) (hk : k ≤ 4) : Phrase k p := by
  induction k with
  | zero => exact .operand hp
  | succ k ih =>
    obtain ⟨o, ho⟩ := Operator.exists_level hk
    rw [← joined_nil o p]
    exact .chain ho (ih (Nat.le_of_succ_le hk)) (List.forall_mem_nil _)

/-- A phrase may begin with one more operand. -/
lemma Phrase.cons (hq : Phrase k q) (hp : IsOperand p) (hle : o.level ≤ k) :
    Phrase k (p ++ .operator o :: q) := by
  induction hq with
  | operand _ => exact absurd o.level_pos (Nat.not_lt.2 hle)
  | @chain k other first items ho hfirst hitems ih _ =>
    by_cases hsame : other = o
    · subst hsame
      have hk : k + 1 ≤ 4 := ho ▸ other.level_le
      rw [← joined_cons]
      exact .chain ho (hp.phrase (Nat.le_of_succ_le hk)) (List.forall_mem_cons.2 ⟨hfirst, hitems⟩)
    · have hlevel : o.level ≠ other.level := fun heq => hsame (Operator.level_inj heq).symm
      have hlonger : p ++ .operator o :: joined other first items =
          joined other (p ++ .operator o :: first) items := by
        simp [joined]
      rw [hlonger]
      exact .chain ho (ih (by omega)) hitems

/-- Tokens that begin with an operand begin with a phrase that nothing can be joined to. -/
lemma Begins.exists_phrase (h : Begins ts) :
    ∃ p left, ts = p ++ left ∧ Phrase 4 p ∧ Ends 4 left := by
  induction hn : ts.length using Nat.strongRecOn generalizing ts with
  | ind n ih =>
    obtain ⟨p, hp, left, rfl⟩ := h
    by_cases hnext : ∃ o rest, left = .operator o :: rest ∧ Begins rest
    · obtain ⟨o, rest, rfl, hrest⟩ := hnext
      have hshorter : rest.length < n := by
        rw [← hn, List.length_append, List.length_cons]
        omega
      obtain ⟨q, left, rfl, hq, hends⟩ := ih _ hshorter hrest rfl
      refine ⟨p ++ .operator o :: q, left, by simp, hq.cons hp o.level_le, hends⟩
    · exact ⟨p, left, rfl, hp.phrase (Nat.le_refl 4),
        fun o rest heq _ hbegins => hnext ⟨o, rest, heq, hbegins⟩⟩

/-! ## Gaps -/

/-- An operand is looked for and there is none, either at the beginning or behind an operator that
follows a phrase. -/
def Gap (ts us : List Token) : Prop :=
  ¬ Begins us ∧ (us = ts ∨ ∃ p o, Phrase 4 p ∧ ts = p ++ .operator o :: us)

lemma gap_iff_of_not_begins (h : ¬ Begins ts) : Gap ts us ↔ us = ts := by
  constructor
  · rintro ⟨-, hsame | ⟨p, o, hp, rfl⟩⟩
    · exact hsame
    · exact absurd (hp.begins.append _) h
  · rintro rfl
    exact ⟨h, .inl rfl⟩

lemma gap_iff_of_phrase (hp : Phrase 4 p) (hends : Ends 4 left) :
    Gap (p ++ left) us ↔ ∃ o, left = .operator o :: us := by
  constructor
  · rintro ⟨hnot, rfl | ⟨q, o, hq, heq⟩⟩
    · exact absurd (hp.begins.append left) hnot
    · have hother : Ends 4 (.operator o :: us) := by
        rintro _ _ ⟨⟩ -
        exact hnot
      obtain rfl := hp.eq_of_ends hq hends hother heq
      exact ⟨o, List.append_cancel_left heq⟩
  · rintro ⟨o, rfl⟩
    exact ⟨hends o us rfl o.level_le, .inr ⟨p, o, hp, rfl⟩⟩

lemma operand_of_not_begins (h : ¬ Begins us) (room : Nat) :
    Fails (operand room us) ∨ operand room us = .ok (none, us) := by
  cases hread : operand room us with
  | error fault => exact .inl ⟨fault, rfl⟩
  | ok reading =>
    obtain ⟨_ | v, left⟩ := reading
    · rw [(operand_finds room us none left hread).1]
      exact .inr rfl
    · obtain ⟨p, rfl, hworth, -⟩ := operand_finds room us (some v) left hread
      exact absurd (hworth.phrase.begins.append left) h

/-- Either there is a fault at a gap, or the longest phrase is read as it is on its own; where there
is no phrase nothing is read. -/
lemma expression_cases (room : Nat) (ts : List Token) :
    (Fails (expression (operand room) ts) ∧ ∃ us, Gap ts us ∧ Fails (operand room us)) ∨
      (∀ us, Gap ts us → ¬ Fails (operand room us)) ∧
        ((∃ p left, ts = p ++ left ∧ Longest p ts ∧ expression (operand room) ts =
            (expression (operand room) p).map (leaving left)) ∨
          ¬ Begins ts ∧ expression (operand room) ts = .ok (none, ts)) := by
  simp only [expression_eq_upTo]
  have hfine : ∀ {us}, operand room us = .ok (none, us) → ¬ Fails (operand room us) := by
    intro us hread
    rw [hread]
    exact not_fails_ok _
  by_cases hbegins : Begins ts
  · obtain ⟨p, left, rfl, hp, hends⟩ := hbegins.exists_phrase
    have hread : Quiet room 4 left → upTo 4 (operand room) (p ++ left) =
        (upTo 4 (operand room) p).map (leaving left) := upTo_append hp (Nat.le_refl 4)
    -- An operand is looked for behind the phrase if an operator follows.
    by_cases hnext : ∃ o us, left = .operator o :: us
    · obtain ⟨o, us, rfl⟩ := hnext
      have hgap : Gap (p ++ .operator o :: us) us := (gap_iff_of_phrase hp hends).2 ⟨o, rfl⟩
      rcases operand_of_not_begins hgap.1 room with hfails | hnone
      · exact .inl ⟨fails_upTo_append hp (Nat.le_refl 4) o.level_le hfails, us, hgap, hfails⟩
      · refine .inr ⟨fun other hother => ?_, .inl ⟨p, _, rfl, hp.longest hends, hread ?_⟩⟩
        · obtain ⟨_, ⟨⟩⟩ := (gap_iff_of_phrase hp hends).1 hother
          exact hfine hnone
        · rintro _ _ ⟨⟩ -
          exact hnone
    · have hplain : ∀ o us, left ≠ .operator o :: us := fun o us heq => hnext ⟨o, us, heq⟩
      refine .inr ⟨fun us hgap => ?_, .inl ⟨p, left, rfl, hp.longest hends,
        hread fun o us heq => absurd heq (hplain o us)⟩⟩
      obtain ⟨o, heq⟩ := (gap_iff_of_phrase hp hends).1 hgap
      exact absurd heq (hplain o us)
  · rcases operand_of_not_begins hbegins room with hfails | hnone
    · obtain ⟨fault, hfault⟩ := hfails
      exact .inl ⟨⟨fault, upTo_error hfault (Nat.le_refl 4)⟩, ts,
        (gap_iff_of_not_begins hbegins).2 rfl, fault, hfault⟩
    · refine .inr ⟨fun us hgap => ?_, .inr ⟨hbegins, upTo_none hnone (Nat.le_refl 4)⟩⟩
      rw [(gap_iff_of_not_begins hbegins).1 hgap]
      exact hfine hnone

/-- The longest phrase fails on its own, or looking for an operand at a gap does. -/
lemma fails_expression_iff :
    Fails (expression (operand room) ts) ↔
      (∃ p, Longest p ts ∧ Fails (expression (operand room) p)) ∨
        ∃ us, Gap ts us ∧ Fails (operand room us) := by
  rcases expression_cases room ts with
    ⟨hfails, hgap⟩ | ⟨hquiet, ⟨p, left, -, hlongest, hread⟩ | ⟨hbegins, hread⟩⟩
  · exact iff_of_true hfails (.inr hgap)
  · rw [hread, fails_map_iff]
    constructor
    · exact fun hfails => .inl ⟨p, hlongest, hfails⟩
    · rintro (⟨q, hq, hfails⟩ | ⟨us, hgap, hfails⟩)
      · rwa [hlongest.unique hq]
      · exact absurd hfails (hquiet us hgap)
  · rw [hread]
    refine iff_of_false (not_fails_ok _) ?_
    rintro (⟨q, hq, -⟩ | ⟨us, hgap, hfails⟩)
    · exact absurd (begins_of_phrase hq.phrase hq.isPrefix) hbegins
    · exact absurd hfails (hquiet us hgap)

/-! ## Looking for an operand in vain -/

/-- Looking for an operand where there is none is a fault, with `room` levels of signs and groups
allowed: they are nested too deep, or the longest phrase in a group that is never closed has a
fault, or looking for an operand at a gap in such a group is one. -/
inductive Stalls : Nat → List Token → Prop
  | tooManySigns {o : Operator} {rest : List Token} :
      o = .plus ∨ o = .minus → Stalls 0 (.operator o :: rest)
  | tooManyGroups {rest : List Token} : Stalls 0 (.opening :: rest)
  | sign {room : Nat} {o : Operator} {rest : List Token} :
      o = .plus ∨ o = .minus → Stalls room rest → Stalls (room + 1) (.operator o :: rest)
  | content {room : Nat} {p rest : List Token} : closeGroup 0 rest = none → Longest p rest →
      Fails (expression (operand room) p) → Stalls (room + 1) (.opening :: rest)
  | gap {room : Nat} {us rest : List Token} : closeGroup 0 rest = none → Gap rest us →
      Stalls room us → Stalls (room + 1) (.opening :: rest)

lemma Begins.sign (h : Begins rest) (ho : o = .plus ∨ o = .minus) :
    Begins (.operator o :: rest) := by
  obtain ⟨p, hp, hstart⟩ := h
  rcases ho with rfl | rfl
  · exact ⟨_, .plus hp, List.cons_prefix_cons.2 ⟨rfl, hstart⟩⟩
  · exact ⟨_, .minus hp, List.cons_prefix_cons.2 ⟨rfl, hstart⟩⟩

lemma closeGroup_of_not_begins (h : ¬ Begins (.opening :: rest)) : closeGroup 0 rest = none := by
  cases hclose : closeGroup 0 rest with
  | none => rfl
  | some after =>
    obtain ⟨inner, hinner, rfl⟩ := exists_dropped_of_closeGroup hclose
    exact absurd ⟨_, .group hinner, after, by simp⟩ h

/-- A sign without an operand is no fault of its own. -/
lemma fails_sign_iff (ho : o = .plus ∨ o = .minus) (h : ¬ Begins rest) :
    Fails (operand (room + 1) (.operator o :: rest)) ↔ Fails (operand room rest) := by
  have hread : operand room rest = .ok (none, rest) →
      operand (room + 1) (.operator o :: rest) = .ok (none, .operator o :: rest) := by
    intro hnone
    rcases ho with rfl | rfl
    · rw [operand_plus, hnone]
      rfl
    · rw [operand_minus, hnone]
      rfl
  rcases operand_of_not_begins h room with hfails | hnone
  · refine iff_of_true ?_ hfails
    rcases ho with rfl | rfl
    · exact hfails.bind _
    · exact hfails.bind _
  · rw [hnone, hread hnone]
    exact iff_of_false (not_fails_ok _) (not_fails_ok _)

/-- Whether a group is closed makes no difference to the faults in it. -/
lemma fails_opening_iff :
    Fails (operand (room + 1) (.opening :: rest)) ↔ Fails (expression (operand room) rest) := by
  rw [operand_opening]
  cases expression (operand room) rest with
  | error fault => exact iff_of_true (fails_error fault) (fails_error fault)
  | ok reading =>
    refine iff_of_false ?_ (not_fails_ok reading)
    simp only [bind, Except.bind]
    cases closeGroup 0 reading.2 with
    | none => exact not_fails_ok _
    | some after => exact not_fails_ok _

/-- Only signs and groups are looked behind. -/
lemma start_cases (h : ¬ Begins us) :
    (∃ rest, us = .opening :: rest) ∨
      (∃ o rest, us = .operator o :: rest ∧ (o = .plus ∨ o = .minus)) ∨
      ∀ room, operand room us = .ok (none, us) ∧ ¬ Stalls room us := by
  cases us with
  | nil => exact .inr (.inr fun room => ⟨by cases room <;> rfl, fun hstalls => by cases hstalls⟩)
  | cons t rest =>
    cases t with
    | value n => exact absurd ⟨[.value n], .value n, rest, rfl⟩ h
    | opening => exact .inl ⟨rest, rfl⟩
    | closing =>
      exact .inr (.inr fun room => ⟨by cases room <;> rfl, fun hstalls => by cases hstalls⟩)
    | operator o =>
      by_cases ho : o = .plus ∨ o = .minus
      · exact .inr (.inl ⟨o, rest, rfl, ho⟩)
      · refine .inr (.inr fun room => ⟨?_, fun hstalls => ?_⟩)
        · cases o with
          | times => cases room <;> rfl
          | divided => cases room <;> rfl
          | plus => exact absurd (.inl rfl) ho
          | minus => exact absurd (.inr rfl) ho
        · cases hstalls with
          | tooManySigns hsign => exact ho hsign
          | sign hsign _ => exact ho hsign

/-- Where there is no operand, looking for one is a fault exactly if it stalls. -/
lemma fails_operand_iff (h : ¬ Begins us) : Fails (operand room us) ↔ Stalls room us := by
  -- Behind a sign or in a group there is less room.
  induction room generalizing us with
  | zero =>
    rcases start_cases h with ⟨rest, rfl⟩ | ⟨o, rest, rfl, ho⟩ | hplain
    · exact iff_of_true (fails_error _) .tooManyGroups
    · refine iff_of_true ?_ (.tooManySigns ho)
      rcases ho with rfl | rfl
      · exact fails_error _
      · exact fails_error _
    · rw [(hplain 0).1]
      exact iff_of_false (not_fails_ok _) (hplain 0).2
  | succ room ih =>
    rcases start_cases h with ⟨rest, rfl⟩ | ⟨o, rest, rfl, ho⟩ | hplain
    · -- The group is never closed, or it would be an operand.
      have hclose := closeGroup_of_not_begins h
      rw [fails_opening_iff, fails_expression_iff]
      constructor
      · rintro (⟨p, hp, hfails⟩ | ⟨us, hgap, hfails⟩)
        · exact .content hclose hp hfails
        · exact .gap hclose hgap ((ih hgap.1).1 hfails)
      · intro hstalls
        cases hstalls with
        | content _ hp hfails => exact .inl ⟨_, hp, hfails⟩
        | gap _ hgap hstalls => exact .inr ⟨_, hgap, (ih hgap.1).2 hstalls⟩
    · have hrest : ¬ Begins rest := fun hbegins => h (hbegins.sign ho)
      rw [fails_sign_iff ho hrest, ih hrest]
      constructor
      · exact .sign ho
      · intro hstalls
        cases hstalls with
        | sign _ hstalls => exact hstalls
    · rw [(hplain _).1]
      exact iff_of_false (not_fails_ok _) (hplain _).2

/-! ## Texts -/

/-- What an evaluation keeps of a reading. -/
lemma evaluate_eq (ts : List Token) :
    evaluate ts = (expression (operand maxNesting) ts).map fun reading => reading.1.getD 0 :=
  rfl

lemma fails_evaluate_iff : Fails (evaluate ts) ↔ Fails (expression (operand maxNesting) ts) := by
  rw [evaluate_eq, fails_map_iff]

lemma worth_of_evaluate {v : Int} (hp : Phrase 4 p) (h : evaluate p = .ok v) : Worth 4 p v := by
  rw [evaluate_eq] at h
  cases hread : expression (operand maxNesting) p with
  | error fault =>
    rw [hread] at h
    contradiction
  | ok reading =>
    rw [hread] at h
    obtain ⟨w, rfl, hworth⟩ :=
      ((operand_finds maxNesting).upTo (Nat.le_refl 4)).eq_of_phrase hp hread
    obtain rfl : w = v := Except.ok.inj h
    exact hworth

/-- Every text is worth what its longest phrase is worth on its own, a fault included, and 0 if it
begins with none, but for three cases, in which it has a fault: a number that is out of range stands
somewhere among the tokens; at a gap signs and groups are nested too deep; or there a group that is
never closed has such a gap itself, or begins with a phrase that has a fault. -/
theorem solve_eq_evaluate_longest (s : String) :
    (Fails (solve s) ∧
      ∃ rest, Token.Reaches (Text.compact s.toList) rest ∧ Token.Oversized rest) ∨
    ∃ ts, Token.ofText s = .ok ts ∧
      ((Fails (solve s) ∧ ∃ us, Gap ts us ∧ Stalls maxNesting us) ∨
        (∀ us, Gap ts us → ¬ Stalls maxNesting us) ∧
          ((∃ p, Longest p ts ∧ solve s = evaluate p ∧ ∀ v, evaluate p = .ok v → Worth 4 p v) ∨
            (∀ p, Phrase 4 p → ¬ p <+: ts) ∧ solve s = .ok 0)) := by
  cases hts : Token.ofText s with
  | error fault =>
    refine .inl ⟨⟨fault, by rw [solve, hts]; rfl⟩, Token.fails_scan_iff.1 ⟨fault, hts⟩⟩
  | ok ts =>
    have hsolve : solve s = evaluate ts := by rw [solve, hts]; rfl
    refine .inr ⟨ts, rfl, ?_⟩
    rw [hsolve]
    rcases expression_cases maxNesting ts with
      ⟨hfails, us, hgap, hstalls⟩ | ⟨hquiet, hread⟩
    · exact .inl ⟨fails_evaluate_iff.2 hfails, us, hgap, (fails_operand_iff hgap.1).1 hstalls⟩
    · refine .inr ⟨fun us hgap hstalls => hquiet us hgap ((fails_operand_iff hgap.1).2 hstalls), ?_⟩
      rcases hread with ⟨p, left, rfl, hp, hread⟩ | ⟨hbegins, hread⟩
      · refine .inl ⟨p, hp, ?_, fun v => worth_of_evaluate hp.phrase⟩
        rw [evaluate_eq, evaluate_eq, hread]
        cases expression (operand maxNesting) p <;> rfl
      · refine .inr ⟨fun p hp hstart => hbegins (begins_of_phrase hp hstart), ?_⟩
        rw [evaluate_eq, hread]
        rfl

/-- A parenthesis that closes nothing cannot go on with a phrase, but a number behind it can still
be out of range. Nor is an operator without an operand ignored, where a group that is never closed
stands behind it. -/
theorem solve_fails_behind_phrase :
    (¬ ∀ (front behind : String) (p : List Token) (v : Int), Token.ofText front = .ok p →
      Phrase 4 p → evaluate p = .ok v → behind.toList.head? = some ')' →
      solve (front ++ behind) = .ok v) ∧
    ¬ ∀ (s : String) (ts p : List Token), Token.ofText s = .ok ts → Longest p ts →
      Fails (solve s) → Fails (evaluate p) := by
  have hphrase : ∀ n, Phrase 4 [.value n] := fun n => (IsOperand.value n).phrase (Nat.le_refl 4)
  constructor
  · intro h
    have hread := h "1" ")99999999999999999999" [.value 1] 1 (by cbv) (hphrase 1) (by cbv) (by cbv)
    have hfault : solve ("1" ++ ")99999999999999999999") = .error .outOfRange := by cbv
    rw [hfault] at hread
    contradiction
  · intro h
    have htokens : Token.ofText "2+(1/0" = .ok ([.value 2] ++
        [.operator .plus, .opening, .value 1, .operator .divided, .value 0]) := by cbv
    have hends : Ends 4 [.operator .plus, .opening, .value 1, .operator .divided, .value 0] := by
      rintro o rest heq - hbegins
      obtain ⟨-, rfl⟩ := List.cons.inj heq
      obtain ⟨inner, after, hinner, hrest⟩ := hbegins.of_opening
      have hclose := hinner.closeGroup_append 0 (.closing :: after)
      rw [← hrest] at hclose
      contradiction
    have hfault : solve "2+(1/0" = .error .divisionByZero := by cbv
    obtain ⟨fault, hnone⟩ := h _ _ _ htokens ((hphrase 2).longest hends) ⟨_, hfault⟩
    have hvalue : evaluate [.value 2] = .ok 2 := by cbv
    rw [hvalue] at hnone
    contradiction

end RoomBot.Expression
