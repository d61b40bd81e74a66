import RoomBot.Proofs.Command.Typed

/-!
# Who owns a name

A registry goes through claims and releases, in lists and by any owner, and at every moment it is
told by one function from names to owners.  Claiming names gives those that are free to the owner
and leaves the others where they are; releasing names frees those that the owner has.  Both are
said here for one name and a whole list at once (`owner?_register`, `owner?_unregister`), so that
neither the order of a list nor a repetition in it can make a difference.

So there are two ways only in which a name can pass from one state to another (`Passes`), and as
the built-ins release nothing, what they have they keep.  A registry is `Lawful` when its entries,
its complaints, its numbers and the calls that it resolves tell of that one function.  Every
registry is that can come about (`lawful_after`).
-/

namespace RoomBot.Registry

open Text

variable {r : Registry} {owner holder : Owner} {name : String} {names others : List String}

lemma eq_of_owner? {s : Registry} (h : ∀ name, r.owner? name = s.owner? name) : r = s :=
  congrArg Registry.mk (Std.ExtTreeMap.ext_getElem? h)

lemma mem_entries_iff : (name, owner) ∈ r.entries ↔ r.owner? name = some owner :=
  Std.ExtTreeMap.mem_toList_iff_getElem?_eq_some

/-! ## Claiming names -/

lemma owner?_claim (owner : Owner) (r : Registry) (name other : String) :
    (r.claim owner name).owner? other =
      if other = name ∧ r.owner? other = none then some owner else r.owner? other := by
  rw [claim, owner?, Std.ExtTreeMap.getElem?_insertIfNew]
  refine if_congr ?_ rfl rfl
  rw [Std.compare_eq_iff_eq, eq_comm]
  refine and_congr_right ?_
  rintro rfl
  rw [owner?, Std.ExtTreeMap.mem_iff_isSome_getElem?, Option.not_isSome_iff_eq_none]

/-- Of the names that are claimed those that are free go to the owner. -/
theorem owner?_register (r : Registry) (owner : Owner) (names : List String) (name : String) :
    (r.register owner names).2.owner? name =
      if name ∈ names ∧ r.owner? name = none then some owner else r.owner? name := by
  simp only [register]
  induction names generalizing r with
  | nil => simp
  | cons first names ih =>
    rw [List.foldl_cons, ih, owner?_claim]
    by_cases hfree : r.owner? name = none
    · rcases eq_or_ne name first with rfl | hname
      · simp [hfree]
      · simp [hfree, hname]
    · simp [hfree]

lemma conflict?_eq_none_iff : r.conflict? owner name = none ↔
    r.owner? name = none ∨ r.owner? name = some owner := by
  rw [conflict?]
  cases r.owner? name with
  | none => simp
  | some holder => simp

/-- Somebody else has one of the names. -/
def Contested (r : Registry) (owner : Owner) (names : List String) : Prop :=
  ∃ name ∈ names, ∃ holder, r.owner? name = some holder ∧ holder ≠ owner

lemma filterMap_conflict?_eq_nil_iff :
    names.filterMap (r.conflict? owner) = [] ↔ ¬ r.Contested owner names := by
  rw [List.filterMap_eq_nil_iff, Contested]
  push Not
  refine forall₂_congr fun name _ => ?_
  rw [conflict?_eq_none_iff]
  cases r.owner? name <;> simp

lemma register_eq_ok_iff :
    (r.register owner names).1 = .ok () ↔ ¬ r.Contested owner names := by
  rw [← filterMap_conflict?_eq_nil_iff, ← List.isEmpty_iff, register]
  simp only
  split <;> simp_all

lemma register_eq_error_iff :
    (∃ detail, (r.register owner names).1 = .error (.duplicateName detail)) ↔
      r.Contested owner names := by
  rw [← not_iff_not, ← register_eq_ok_iff, register]
  simp only
  split <;> simp

/-! ## Releasing names -/

lemma owner?_release (owner : Owner) (acc : Nat × Registry) (name other : String) :
    (release owner acc name).2.owner? other =
      if other = name ∧ acc.2.owner? other = some owner then none else acc.2.owner? other := by
  rw [release]
  by_cases howner : acc.2.owner? name = some owner
  · rw [if_pos howner, owner?, Std.ExtTreeMap.getElem?_erase]
    by_cases hname : name = other
    · subst hname
      rw [if_pos Std.compare_self, if_pos ⟨rfl, howner⟩]
    · rw [if_neg (mt Std.compare_eq_iff_eq.1 hname), if_neg fun h => hname h.1.symm]
      rfl
  · rw [if_neg howner, if_neg]
    rintro ⟨rfl, h⟩
    exact howner h

/-- Of the names that are released those that the owner has become free, unless it is a
built-in. -/
theorem owner?_unregister (r : Registry) (owner : Owner) (names : List String) (name : String) :
    (r.unregister owner names).2.owner? name =
      if owner.isBuiltin = false ∧ name ∈ names ∧ r.owner? name = some owner then none
      else r.owner? name := by
  have hfold : ∀ acc : Nat × Registry, (names.foldl (release owner) acc).2.owner? name =
      if name ∈ names ∧ acc.2.owner? name = some owner then none else acc.2.owner? name := by
    induction names with
    | nil => simp
    | cons first names ih =>
      intro acc
      rw [List.foldl_cons, ih, owner?_release]
      by_cases howner : acc.2.owner? name = some owner
      · rcases eq_or_ne name first with rfl | hname
        · simp [howner]
        · simp [howner, hname]
      · simp [howner]
  rw [unregister]
  cases owner.isBuiltin with
  | true => simp
  | false => simpa using hfold (0, r)

/-- One release takes away what it counts. -/
lemma length_entries_release (owner : Owner) (acc : Nat × Registry) (name : String) :
    (release owner acc name).1 + (release owner acc name).2.entries.length =
      acc.1 + acc.2.entries.length := by
  simp only [release]
  split
  · rename_i howner
    obtain ⟨hmem, -⟩ := Std.ExtTreeMap.getElem?_eq_some_iff.1 howner
    have hpos : 0 < acc.2.entries.length :=
      List.length_pos_of_mem (mem_entries_iff.2 howner)
    simp only [entries, Std.ExtTreeMap.length_toList] at hpos ⊢
    rw [Std.ExtTreeMap.size_erase, if_pos (Std.ExtTreeMap.mem_iff_contains.1 hmem)]
    omega
  · rfl

/-- The number of names that were released is the number of entries that are gone. -/
lemma length_entries_unregister (r : Registry) (owner : Owner) (names : List String) :
    (r.unregister owner names).1 + (r.unregister owner names).2.entries.length =
      r.entries.length := by
  have hfold : ∀ acc : Nat × Registry, (names.foldl (release owner) acc).1 +
      (names.foldl (release owner) acc).2.entries.length = acc.1 + acc.2.entries.length := by
    induction names with
    | nil => exact fun _ => rfl
    | cons first names ih => exact fun acc => (ih _).trans (length_entries_release owner acc first)
  rw [unregister]
  split
  · exact Nat.zero_add _
  · exact (hfold (0, r)).trans (Nat.zero_add _)

/-! ## Resolving calls -/

/-- A text runs a command of an owner exactly when it consists of the mark, a word that the owner
has and something that can follow a word. -/
lemma dispatch_owner_iff {mark : Char} {text : String} :
    (r.dispatch mark text).map Invocation.owner = some owner ↔
      ∃ word rest, text.toList = mark :: (word ++ rest) ∧ IsWord word ∧ Breaks rest ∧
        (String.ofList word, owner) ∈ r.entries := by
  have hdispatch : (r.dispatch mark text).map Invocation.owner =
      (Command.Call.ofText? mark text).bind fun call => r.owner? call.name := by
    rw [dispatch]
    cases Command.Call.ofText? mark text with
    | none => rfl
    | some call => simp [Option.map_bind]
  rw [hdispatch]
  constructor
  · intro h
    obtain ⟨call, hcall, howner⟩ := Option.bind_eq_some_iff.1 h
    obtain ⟨word, rest, htext, hword, hrest, rfl⟩ := Command.exists_toList_of_ofText? hcall
    exact ⟨word, rest, htext, hword, hrest, mem_entries_iff.2 howner⟩
  · rintro ⟨word, rest, htext, hword, hrest, hentry⟩
    rw [← String.toList_ofList (l := word)] at htext hword
    rw [Command.ofText?_of_toList hword hrest htext]
    exact mem_entries_iff.1 hentry

/-- A text that calls a name runs the command if the name has an owner. -/
lemma exists_dispatch_eq {mark : Char} {text : String} (h : Command.Calls mark name text)
    (hname : IsWord name.toList) (r : Registry) :
    ∃ args, r.dispatch mark text = (r.owner? name).map (Invocation.mk ⟨name, args⟩) := by
  obtain ⟨args, hcall⟩ := h.exists_ofText? hname
  refine ⟨args, ?_⟩
  rw [dispatch, hcall]
  cases hholder : r.owner? name with
  | none => simp [hholder]
  | some holder => simp [hholder]

/-! ## Changes -/

/-- What may be done to a registry. -/
inductive Change
  | register (owner : Owner) (names : List String)
  | unregister (owner : Owner) (names : List String)
deriving DecidableEq, Repr

/-- The registry after a change. -/
def apply (r : Registry) : Change → Registry
  | .register owner names => (r.register owner names).2
  | .unregister owner names => (r.unregister owner names).2

/-- How a change may take a name from one state to another. -/
inductive Passes (name : String) : Change → Option Owner → Option Owner → Prop
  | stays {change : Change} {state : Option Owner} : Passes name change state state
  | claimed {owner : Owner} {names : List String} (listed : name ∈ names) :
      Passes name (.register owner names) none (some owner)
  | released {owner : Owner} {names : List String} (listed : name ∈ names)
      (loose : owner.isBuiltin = false) : Passes name (.unregister owner names) (some owner) none

lemma passes_apply (r : Registry) (change : Change) (name : String) :
    Passes name change (r.owner? name) ((r.apply change).owner? name) := by
  cases change with
  | register owner names =>
    rw [apply, owner?_register]
    split
    · rename_i h
      rw [h.2]
      exact .claimed h.1
    · exact .stays
  | unregister owner names =>
    rw [apply, owner?_unregister]
    split
    · rename_i h
      rw [h.2.2]
      exact .released h.2.1 h.1
    · exact .stays

lemma owner?_apply_of_isBuiltin (h : r.owner? name = some holder)
    (hbuiltin : holder.isBuiltin = true) (change : Change) :
    (r.apply change).owner? name = some holder := by
  have hpasses := r.passes_apply change name
  rw [h] at hpasses
  generalize (r.apply change).owner? name = state at hpasses ⊢
  cases hpasses with
  | stays => rfl
  | released _ loose =>
    rw [hbuiltin] at loose
    contradiction

/-- The registry after some changes. -/
def after (changes : List Change) : Registry := changes.foldl apply initial

lemma owner?_after_of_isBuiltin (h : initial.owner? name = some holder)
    (hbuiltin : holder.isBuiltin = true) (changes : List Change) :
    (after changes).owner? name = some holder := by
  have hfold : ∀ r : Registry, r.owner? name = some holder →
      (changes.foldl apply r).owner? name = some holder := by
    induction changes with
    | nil => exact fun _ h => h
    | cons change changes ih => exact fun r h => ih _ (owner?_apply_of_isBuiltin h hbuiltin change)
  exact hfold initial h

/-! ## The laws of ownership -/

/-- Everything about a registry is told by the owners of its names. -/
structure Lawful (r : Registry) : Prop where
  /-- A name has one owner at most. -/
  unique : ∀ {name : String} {one two : Owner}, (name, one) ∈ r.entries →
    (name, two) ∈ r.entries → one = two
  /-- The built-ins have their names. -/
  builtins : r.owner? "help" = some .help ∧ r.owner? "listcommands" = some .listCommands
  /-- A name passes from nobody to the one who claims it, and from an owner that is no built-in to
  nobody when that owner releases it. -/
  passes : ∀ change name, Passes name change (r.owner? name) ((r.apply change).owner? name)
  /-- A claim fails exactly when somebody else has one of the names. -/
  fails : ∀ owner names,
    ((∃ detail, (r.register owner names).1 = .error (.duplicateName detail)) ↔
      r.Contested owner names) ∧
    ((r.register owner names).1 = .ok () ↔ ¬ r.Contested owner names)
  /-- Whether it fails or not, a claim adds those of the names that were free. -/
  adds : ∀ owner names name, (r.register owner names).2.owner? name =
    if name ∈ names ∧ r.owner? name = none then some owner else r.owner? name
  /-- The order of the names and repetitions do not matter. -/
  order : ∀ owner names others, (∀ name, name ∈ names ↔ name ∈ others) →
    (r.register owner names).2 = (r.register owner others).2
  /-- The number that a release gives is that of the entries that are gone. -/
  counts : ∀ owner names, (r.unregister owner names).1 +
    (r.unregister owner names).2.entries.length = r.entries.length
  /-- A text runs a command of an owner exactly when it begins with the mark and the word behind
  the mark, up to the next blank, is a name of the owner. -/
  resolves : ∀ mark text owner, (r.dispatch mark text).map Invocation.owner = some owner ↔
    ∃ word rest, text.toList = mark :: (word ++ rest) ∧ IsWord word ∧ Breaks rest ∧
      (String.ofList word, owner) ∈ r.entries

/-- Whatever has been claimed and released, the registry is lawful. -/
theorem lawful_after (changes : List Change) : (after changes).Lawful where
  unique hone htwo := by
    rw [mem_entries_iff] at hone htwo
    exact Option.some.inj (hone.symm.trans htwo)
  builtins := ⟨owner?_after_of_isBuiltin rfl rfl changes, owner?_after_of_isBuiltin rfl rfl changes⟩
  passes := passes_apply (after changes)
  fails _ _ := ⟨register_eq_error_iff, register_eq_ok_iff⟩
  adds := owner?_register (after changes)
  order owner names others h := by
    refine eq_of_owner? fun name => ?_
    rw [owner?_register, owner?_register]
    exact if_congr (and_congr_left' (h name)) rfl rfl
  counts := length_entries_unregister (after changes)
  resolves _ _ _ := dispatch_owner_iff

end RoomBot.Registry
