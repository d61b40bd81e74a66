import RoomBot.Proofs.Store.Files
import RoomBot.Proofs.Text.Separators
import RoomBot.Proofs.Text.Trimming
import RoomBot.Settings.Environment

/-!
# What a settings file adds to the environment

A settings file adds the last assignment to each variable that was not set before
(`Environment.Sets`).  The variables are set one after another, in any order, and the program stops
at the first that cannot be set.  If there is none, a variable has the value that it had before, or
else the last that was assigned to it, and all others stay unset (`Environment.getElem?_withFile`).
If there is one, so it is with all that were set by then (`Environment.exists_add`).

Setting a variable stops the program if the name is empty, if there is `=` in it, or if there is a
NUL in the name or in the value.  Reading the file rules out the first two: a line without a name is
no assignment, and the name ends at the first `=`.  It does not rule out the last.  A NUL is neither
blank nor special in any other way, so it gets into a name or a value as it stands in the text, and
the program stops before it has a configuration (`Environment.stops_at_nul`).  That is all that can
go wrong (`Environment.stops_iff_nul`).
-/

namespace RoomBot

namespace Environment

open Text (trim trim_sublist)

variable {env : Environment} {line : List Char} {name value text : String} {order : Order}
  {entries : List (String × String)}

/-! ## Assignments that count -/

/-- The value of the last assignment to a variable. -/
def lastValue? (assigned : List (String × String)) (name : String) : Option String :=
  assigned.reverse.lookup name

lemma mem_of_lastValue? {assigned : List (String × String)}
    (h : lastValue? assigned name = some value) : (name, value) ∈ assigned := by
  obtain ⟨before, after, hsplit, -⟩ := List.lookup_eq_some_iff.1 h
  rw [← List.mem_reverse, hsplit]
  exact List.mem_append_right _ List.mem_cons_self

lemma getElem?_lasting (assigned : List (String × String)) (name : String) :
    (lasting assigned)[name]? = lastValue? assigned name := by
  induction assigned using List.reverseRecOn with
  | nil => simp [lasting, lastValue?]
  | append_singleton assigned pair ih =>
    obtain ⟨other, value⟩ := pair
    have hstep : lasting (assigned ++ [(other, value)]) =
        (lasting assigned).insert other value := by
      simp [lasting]
    rw [hstep, Std.ExtTreeMap.getElem?_insert, ih, lastValue?, lastValue?, List.reverse_concat,
      List.lookup_cons]
    by_cases h : other = name
    · simp [h]
    · have hne : (name == other) = false := by simpa using Ne.symm h
      simp [h, hne]

/-- The pairs that are set: the last assignments to variables that were not set before. -/
def Sets (env : Environment) (text name value : String) : Prop :=
  env[name]? = none ∧ lastValue? (assignments text) name = some value

/-! ## One variable after another -/

lemma mem_arrange_iff (order : Order) (table : Environment) :
    (name, value) ∈ order.arrange table ↔ table[name]? = some value :=
  (order.perm table).mem_iff.trans Std.ExtTreeMap.mem_toList_iff_getElem?_eq_some

lemma nodup_arrange (order : Order) (table : Environment) :
    ((order.arrange table).map Prod.fst).Nodup := by
  rw [((order.perm table).map Prod.fst).nodup_iff, Std.ExtTreeMap.map_fst_toList_eq_keys]
  exact Std.ExtTreeMap.nodup_keys

/-- Variables are set up to the end, or up to one that is not set and cannot be. All before it are
set, if they were not set already. -/
lemma exists_add (env : Environment) (h : (entries.map Prod.fst).Nodup) :
    ∃ done rest, entries = done ++ rest ∧
      (∀ name value, (name, value) ∈ done → env[name]? = none → isSettable name value = true) ∧
      (∀ name value, (env.add entries).env[name]? = some value ↔
        env[name]? = some value ∨ env[name]? = none ∧ (name, value) ∈ done) ∧
      ((env.add entries).stopped = false ∧ rest = [] ∨
        (env.add entries).stopped = true ∧ ∃ name value later, rest = (name, value) :: later ∧
          env[name]? = none ∧ isSettable name value = false) := by
  induction entries generalizing env with
  | nil => exact ⟨[], [], rfl, by simp, by simp [add], .inl ⟨rfl, rfl⟩⟩
  | cons entry entries ih =>
    obtain ⟨first, given⟩ := entry
    rw [List.map_cons, List.nodup_cons] at h
    obtain ⟨hfirst, hnodup⟩ := h
    rw [add, Std.ExtTreeMap.contains_eq_isSome_getElem?]
    split
    · rename_i hset
      obtain ⟨done, rest, rfl, hdone, hvalues, hend⟩ := ih env hnodup
      refine ⟨(first, given) :: done, rest, rfl, ?_, ?_, hend⟩
      · grind
      · grind
    · rename_i hunset
      split
      · rename_i hsettable
        obtain ⟨done, rest, rfl, hdone, hvalues, hend⟩ := ih (env.insert first given) hnodup
        have hnew : (env.insert first given)[first]? = some given :=
          Std.ExtTreeMap.getElem?_insert_self
        have hold : ∀ name, name ≠ first → (env.insert first given)[name]? = env[name]? := by
          intro name hne
          rw [Std.ExtTreeMap.getElem?_insert, if_neg]
          simpa using Ne.symm hne
        have hother : ∀ name value, (name, value) ∈ done ++ rest → name ≠ first := by
          rintro name value hmem rfl
          exact hfirst (List.mem_map.2 ⟨_, hmem, rfl⟩)
        refine ⟨(first, given) :: done, rest, rfl, ?_, ?_, ?_⟩
        · grind
        · grind
        · grind
      · rename_i hsettable
        refine ⟨[], (first, given) :: entries, rfl, by simp, by simp,
          .inr ⟨rfl, _, _, _, rfl, ?_, ?_⟩⟩
        · simpa using hunset
        · simpa using hsettable

/-! ## The whole file -/

lemma withFile_toUTF8 (order : Order) (env : Environment) (text : String) :
    env.withFile order (some text.toUTF8) =
      env.add (order.arrange (lasting (assignments text))) := by
  simp only [withFile, Option.bind_some, Directory.fromUTF8?_toUTF8, Option.map_some,
    Option.getD_some]

lemma mem_arrange_lasting_iff (order : Order) :
    (name, value) ∈ order.arrange (lasting (assignments text)) ↔
      lastValue? (assignments text) name = some value := by
  rw [mem_arrange_iff, getElem?_lasting]

lemma stopped_withFile_iff : (env.withFile order (some text.toUTF8)).stopped = true ↔
    ∃ name value, Sets env text name value ∧ isSettable name value = false := by
  obtain ⟨done, rest, hentries, hdone, -, hend⟩ :=
    exists_add env (nodup_arrange order (lasting (assignments text)))
  have hmem : ∀ name value, lastValue? (assignments text) name = some value ↔
      (name, value) ∈ done ++ rest := by
    intro name value
    rw [← hentries, mem_arrange_lasting_iff]
  rw [withFile_toUTF8]
  rcases hend with ⟨hgo, rfl⟩ | ⟨hstop, name, value, later, rfl, hunset, hrefused⟩
  · rw [hgo]
    simp only [Bool.false_eq_true, false_iff, not_exists, not_and, Bool.not_eq_false]
    rintro name value ⟨hunset, hlast⟩
    exact hdone name value (by simpa using (hmem name value).1 hlast) hunset
  · exact iff_of_true hstop ⟨name, value, ⟨hunset, (hmem name value).2 (by simp)⟩, hrefused⟩

/-- If the program does not stop, a variable keeps its value, and one that has none gets the last
that is assigned to it. -/
lemma getElem?_withFile (h : (env.withFile order (some text.toUTF8)).stopped = false)
    (name : String) : (env.withFile order (some text.toUTF8)).env[name]? =
      env[name]?.or (lastValue? (assignments text) name) := by
  rw [withFile_toUTF8] at h ⊢
  obtain ⟨done, rest, hentries, -, hvalues, hend⟩ :=
    exists_add env (nodup_arrange order (lasting (assignments text)))
  obtain rfl : rest = [] := by
    rcases hend with ⟨-, hnil⟩ | ⟨hstop, -⟩
    · exact hnil
    · rw [h] at hstop
      contradiction
  rw [List.append_nil] at hentries
  refine Option.ext fun value => ?_
  rw [hvalues, ← hentries, mem_arrange_lasting_iff, Option.or_eq_some_iff]

/-- Even if the program stops, what was set before is kept, and what is new could be set. -/
lemma getElem?_withFile_cases (order : Order) (env : Environment) (text name value : String) :
    (env[name]? = some value → (env.withFile order (some text.toUTF8)).env[name]? = some value) ∧
      ((env.withFile order (some text.toUTF8)).env[name]? = some value →
        env[name]? = some value ∨ Sets env text name value ∧ isSettable name value = true) := by
  obtain ⟨done, rest, hentries, hdone, hvalues, -⟩ :=
    exists_add env (nodup_arrange order (lasting (assignments text)))
  rw [withFile_toUTF8, hvalues]
  refine ⟨.inl, fun h => h.imp_right fun hnew => ?_⟩
  obtain ⟨hunset, hmem⟩ := hnew
  refine ⟨⟨hunset, (mem_arrange_lasting_iff order).1 ?_⟩, hdone name value hmem hunset⟩
  rw [hentries]
  exact List.mem_append_left rest hmem

/-! ## Single lines -/

lemma unquote_sublist (value : List Char) : (unquote value).Sublist value := by
  unfold unquote
  split
  · exact List.Sublist.refl []
  · rename_i q rest
    split
    · exact (List.dropLast_sublist rest).cons q
    · exact List.Sublist.refl _

/-- An assignment has a name, which ends at the first `=`. Nothing in it is made up. -/
lemma assignment?_eq_some (h : assignment? line = some (name, value)) :
    name.toList ≠ [] ∧ '=' ∉ name.toList ∧ name.toList ⊆ line ∧ value.toList ⊆ line := by
  simp only [assignment?] at h
  split at h
  · contradiction
  · rename_i c rest hdrop
    split at h
    · contradiction
    · rename_i hkept
      obtain ⟨rfl, rfl⟩ := Prod.mk.inj (Option.some.inj h)
      have hbefore := trim_sublist ((trim line).takeWhile (· != '='))
      have hbehind : rest.Sublist (trim line) :=
        (List.sublist_cons_self c rest).trans (hdrop ▸ List.dropWhile_sublist _)
      have hvalue := (unquote_sublist (trim rest)).trans (trim_sublist rest)
      simp only [String.toList_ofList]
      refine ⟨?_, ?_, ?_, ?_⟩
      · intro hnil
        simp [hnil] at hkept
      · intro hmem
        simpa using List.mem_takeWhile_imp (hbefore.subset hmem)
      · exact ((hbefore.trans (List.takeWhile_sublist _)).trans (trim_sublist line)).subset
      · exact ((hvalue.trans hbehind).trans (trim_sublist line)).subset

lemma of_mem_assignments (h : (name, value) ∈ assignments text) :
    name.toList ≠ [] ∧ '=' ∉ name.toList ∧ name.toList ⊆ text.toList ∧
      value.toList ⊆ text.toList := by
  obtain ⟨line, hline, hassigned⟩ := List.mem_filterMap.1 h
  obtain ⟨hne, hequals, hname, hvalue⟩ := assignment?_eq_some hassigned
  have hsubset := Text.subset_of_mem_splitOn hline
  exact ⟨hne, hequals, fun _ hc => hsubset (hname hc), fun _ hc => hsubset (hvalue hc)⟩

/-! ## What can be set -/

/-- With a name that is one, a variable can be set if there is no NUL in the name and the value. -/
lemma isSettable_iff (hne : name.toList ≠ []) (hequals : '=' ∉ name.toList) (value : String) :
    isSettable name value = true ↔ '\x00' ∉ name.toList ∧ '\x00' ∉ value.toList := by
  have hempty : name.isEmpty = false := by
    rw [String.isEmpty_eq_false_iff]
    rintro rfl
    exact hne rfl
  have hname : (∀ c ∈ name.toList, c ≠ '=' ∧ c ≠ '\x00') ↔ '\x00' ∉ name.toList := by
    constructor
    · intro hall hnul
      exact (hall _ hnul).2 rfl
    · intro hnul c hc
      exact ⟨fun heq => hequals (heq ▸ hc), fun heq => hnul (heq ▸ hc)⟩
  have hvalue : (∀ c ∈ value.toList, c ≠ '\x00') ↔ '\x00' ∉ value.toList :=
    ⟨fun hall hnul => hall _ hnul rfl, fun hnul c hc heq => hnul (heq ▸ hc)⟩
  simp only [isSettable, hempty, Bool.not_false, Bool.true_and, Bool.and_eq_true,
    List.all_eq_true, bne_iff_ne]
  rw [hname, hvalue]

/-- Every assignment in a file has a name, without `=`. So a variable to be set can be set if there
is no NUL in its name and its value, and reading the file stops the program if some variable to be
set has one there. By then no variable has lost its value, and those that are new are without NUL.
With no NUL in the file the program never stops, and all variables to be set are. -/
theorem stops_iff_nul (text : String) :
    (∀ name value, (name, value) ∈ assignments text → name.toList ≠ [] ∧ '=' ∉ name.toList) ∧
      (∀ env name value, Sets env text name value → (isSettable name value = true ↔
        '\x00' ∉ name.toList ∧ '\x00' ∉ value.toList)) ∧
      (∀ (order : Order) (env : Environment), let added := withFile order env (some text.toUTF8)
        (added.stopped = true ↔ ∃ name value, Sets env text name value ∧
          ('\x00' ∈ name.toList ∨ '\x00' ∈ value.toList)) ∧
        (∀ name value : String, env[name]? = some value → added.env[name]? = some value) ∧
        ∀ name value : String, added.env[name]? = some value → env[name]? = some value ∨
          Sets env text name value ∧ '\x00' ∉ name.toList ∧ '\x00' ∉ value.toList) ∧
      ('\x00' ∉ text.toList → ∀ (order : Order) (env : Environment),
        let added := withFile order env (some text.toUTF8)
        added.stopped = false ∧
          ∀ name : String,
            added.env[name]? = env[name]?.or (lastValue? (assignments text) name)) := by
  have hsettable : ∀ env name value, Sets env text name value → (isSettable name value = true ↔
      '\x00' ∉ name.toList ∧ '\x00' ∉ value.toList) := by
    intro env name value hsets
    obtain ⟨hne, hequals, -, -⟩ := of_mem_assignments (mem_of_lastValue? hsets.2)
    exact isSettable_iff hne hequals value
  have hstops : ∀ order env, (withFile order env (some text.toUTF8)).stopped = true ↔
      ∃ name value, Sets env text name value ∧ ('\x00' ∈ name.toList ∨ '\x00' ∈ value.toList) := by
    intro order env
    rw [stopped_withFile_iff]
    refine exists_congr fun name => exists_congr fun value => and_congr_right fun hsets => ?_
    rw [← Bool.not_eq_true, hsettable env name value hsets, Decidable.not_and_iff_not_or_not,
      Decidable.not_not, Decidable.not_not]
  refine ⟨fun name value hmem => ?_, hsettable, fun order env => ⟨hstops order env,
    fun name value => (getElem?_withFile_cases order env text name value).1,
    fun name value hset => ?_⟩, fun hnul order env => ?_⟩
  · obtain ⟨hne, hequals, -, -⟩ := of_mem_assignments hmem
    exact ⟨hne, hequals⟩
  · refine ((getElem?_withFile_cases order env text name value).2 hset).imp_right fun h => ?_
    exact ⟨h.1, (hsettable env name value h.1).1 h.2⟩
  · have hgo : (withFile order env (some text.toUTF8)).stopped = false := by
      rw [← Bool.not_eq_true, hstops]
      rintro ⟨name, value, hsets, hbad⟩
      obtain ⟨-, -, hname, hvalue⟩ := of_mem_assignments (mem_of_lastValue? hsets.2)
      exact hbad.elim (fun hmem => hnul (hname hmem)) fun hmem => hnul (hvalue hmem)
    exact ⟨hgo, getElem?_withFile hgo⟩

/-- The first line makes an assignment that can be set. With the second the program stops, and what
was in the environment before is still there. -/
theorem stops_iff_nul_secondLine :
    let first := "A = '1'"
    let both := "A = '1'\nB=2\x00"
    let env : Environment := {("C", "3")}
    (withFile .byName env (some first.toUTF8)).stopped = false ∧
      (withFile .byName env (some first.toUTF8)).env["A"]? = some "1" ∧
      ("A".toList ≠ [] ∧ '=' ∉ "A".toList) ∧ isSettable "A" "1" = true ∧
      (withFile .byName env (some both.toUTF8)).stopped = true ∧
      (withFile .byName env (some both.toUTF8)).env["C"]? = some "3" := by
  intro first both env
  have hfirst : assignments first = [("A", "1")] := by decide +kernel
  have hboth : assignments both = [("A", "1"), ("B", "2\x00")] := by decide +kernel
  have hone : Sets env both "A" "1" := ⟨by decide, by rw [hboth]; decide⟩
  have htwo : Sets env both "B" "2\x00" := ⟨by decide, by rw [hboth]; decide⟩
  obtain ⟨hnames, hsettable, hstops, -⟩ := stops_iff_nul both
  obtain ⟨hgo, hvalues⟩ := (stops_iff_nul first).2.2.2 (by decide) .byName env
  obtain ⟨hstop, hkept, -⟩ := hstops .byName env
  refine ⟨hgo, ?_, hnames "A" "1" (by rw [hboth]; decide), ?_, ?_, hkept "C" "3" (by decide)⟩
  · rw [hvalues, hfirst]
    decide
  · exact (hsettable env "A" "1" hone).2 (by decide)
  · exact hstop.2 ⟨"B", "2\x00", htwo, .inr (by decide)⟩

/-- A variable with a NUL in its name cannot be set, and to try stops the program. -/
theorem stops_at_nul :
    (¬ ∀ (text : String) (env : Environment) (name value : String),
      Sets env text name value → isSettable name value = true) ∧
      ¬ ∀ (text : String) (env : Environment),
        (env.withFile .byName (some text.toUTF8)).stopped = false := by
  have hread : assignments "A\x00=1" = [("A\x00", "1")] := by decide +kernel
  have hsets : Sets ∅ "A\x00=1" "A\x00" "1" := ⟨by simp, by rw [hread]; decide⟩
  refine ⟨fun h => ?_, fun h => ?_⟩
  · exact absurd (h _ _ _ _ hsets) (by decide)
  · have hstop := (@stopped_withFile_iff ∅ _ .byName).2 ⟨_, _, hsets, by decide⟩
    rw [h] at hstop
    contradiction

end Environment

end RoomBot
