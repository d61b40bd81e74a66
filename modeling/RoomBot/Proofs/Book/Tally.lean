import RoomBot.Bot
import RoomBot.Proofs.Command.Ownership

/-!
# Names and counts

A name is tallied as often as it has been claimed and not released (`Book.Tallies`): that number
is its count, and custom commands own the name while the number is not zero.  A claim adds one, a
release takes one away, and neither has anything to do with another name or with the store.  Nor
does either make a difference to the other owners (`Registry.foreign?`).

The eight names that the bot needs for itself are reserved.  They have their owners from the start
(`Registry.standing`), and nothing is said here about how often they are claimed.
-/

namespace RoomBot

/-! ## The registry, name by name -/

/-- The names that belong to the bot. -/
def reservedNames : List String :=
  ["help", "listcommands", "ping", "8ball", "roll", "addcommand", "modcommand", "remcommand"]

lemma managementNames_subset : managementNames ⊆ reservedNames := by
  simp [managementNames, reservedNames]

namespace Registry

variable {r : Registry} {owner holder : Owner} {name other : String}

lemma owner?_claim_of_ne (hne : other ≠ name) :
    (r.claim owner name).owner? other = r.owner? other := by
  rw [owner?_claim, if_neg fun h => hne h.1]

lemma owner?_claim_self (h : r.conflict? owner name = none) :
    (r.claim owner name).owner? name = some owner := by
  rw [owner?_claim]
  rcases conflict?_eq_none_iff.1 h with hnone | howner
  · rw [if_pos ⟨rfl, hnone⟩]
  · rw [howner, ite_self]

lemma owner?_unregister_self (h : r.owner? name = some .customCommands) :
    (r.unregister .customCommands [name]).2.owner? name = none := by
  rw [owner?_unregister, if_pos ⟨rfl, List.mem_singleton_self name, h⟩]

lemma owner?_unregister_of_ne (hne : other ≠ name) :
    (r.unregister .customCommands [name]).2.owner? other = r.owner? other := by
  rw [owner?_unregister, if_neg fun h => hne (List.mem_singleton.1 h.2.1)]

/-- The owner of a name, if it is another than custom commands. -/
def foreign? (r : Registry) (name : String) : Option Owner :=
  (r.owner? name).filter fun owner => owner ≠ .customCommands

lemma foreign?_eq_some_iff :
    r.foreign? name = some holder ↔ r.owner? name = some holder ∧ holder ≠ .customCommands := by
  rw [foreign?, Option.filter_eq_some_iff, decide_eq_true_iff]

lemma conflict?_eq_none_iff_foreign? :
    r.conflict? .customCommands name = none ↔ r.foreign? name = none := by
  rw [conflict?_eq_none_iff, foreign?, Option.filter_eq_none_iff]
  cases r.owner? name with
  | none => simp
  | some holder => simp

lemma foreign?_claim (h : r.conflict? .customCommands name = none) :
    (r.claim .customCommands name).foreign? = r.foreign? := by
  funext other
  by_cases hne : other = name
  · subst hne
    rw [conflict?_eq_none_iff_foreign?.1 h, foreign?, owner?_claim_self h]
    rfl
  · rw [foreign?, foreign?, owner?_claim_of_ne hne]

lemma foreign?_unregister :
    (r.unregister .customCommands [name]).2.foreign? = r.foreign? := by
  funext other
  by_cases hne : other = name
  · subst hne
    by_cases howner : r.owner? other = some .customCommands
    · rw [foreign?, foreign?, owner?_unregister_self howner, howner]
      rfl
    · simp only [unregister, Owner.isBuiltin, List.foldl_cons, List.foldl_nil, release, howner,
        if_false, Bool.false_eq_true]
  · rw [foreign?, foreign?, owner?_unregister_of_ne hne]

lemma dispatch_eq_some {mark : Char} {text : String} {found : Invocation}
    (h : r.dispatch mark text = some found) :
    Command.Call.ofText? mark text = some found.call ∧
      r.owner? found.call.name = some found.owner := by
  obtain ⟨call, hcall, h⟩ := Option.bind_eq_some_iff.1 h
  obtain ⟨owner, howner, h⟩ := Option.bind_eq_some_iff.1 h
  obtain rfl := Option.some.inj h
  exact ⟨hcall, howner⟩

lemma dispatch_congr {s : Registry} {mark : Char} {text : String}
    (h : ∀ call, Command.Call.ofText? mark text = some call →
      r.owner? call.name = s.owner? call.name) : r.dispatch mark text = s.dispatch mark text := by
  unfold dispatch
  cases hcall : Command.Call.ofText? mark text with
  | none => rfl
  | some call => simp only [Option.bind_eq_bind, Option.bind_some, h call hcall]

/-- The registry when nothing is stored. -/
def standing : Registry := (Bot.firstRegistry.register .customCommands managementNames).2

lemma standing_entries : standing.entries =
    [("8ball", .eightBall), ("addcommand", .customCommands), ("help", .help),
      ("listcommands", .listCommands), ("modcommand", .customCommands), ("ping", .ping),
      ("remcommand", .customCommands), ("roll", .roller)] :=
  rfl

lemma owner?_standing_eq_some_iff :
    standing.owner? name = some owner ↔ (name, owner) ∈ standing.entries :=
  Std.ExtTreeMap.mem_toList_iff_getElem?_eq_some.symm

/-- The reserved names are the ones that have an owner from the start. -/
lemma owner?_standing_eq_none_iff : standing.owner? name = none ↔ name ∉ reservedNames := by
  have hmem : name ∈ reservedNames ↔ name ∈ standing.entries.map Prod.fst := by
    rw [standing_entries]
    simp only [reservedNames, List.map_cons, List.map_nil, List.mem_cons]
    grind
  rw [hmem, List.mem_map]
  constructor
  · rintro hnone ⟨⟨_, owner⟩, hentry, rfl⟩
    rw [owner?_standing_eq_some_iff.2 hentry] at hnone
    contradiction
  · intro hnot
    cases howner : standing.owner? name with
    | none => rfl
    | some owner => exact absurd ⟨_, owner?_standing_eq_some_iff.1 howner, rfl⟩ hnot

lemma mem_managementNames (h : standing.owner? name = some .customCommands) :
    name ∈ managementNames := by
  rw [owner?_standing_eq_some_iff, standing_entries] at h
  simp only [List.mem_cons, Prod.mk.injEq, reduceCtorEq, and_false, and_true, false_or,
    List.not_mem_nil, or_false] at h
  simpa [managementNames] using h

/-- Where the other owners have the names that they had first, nobody but custom commands has a name
that he did not have first. -/
lemma mem_standing_entries (h : r.foreign? = standing.foreign?) (howner : r.owner? name = some owner)
    (hne : owner ≠ .customCommands) : (name, owner) ∈ standing.entries := by
  have hfirst := congrFun h name
  rw [foreign?_eq_some_iff.2 ⟨howner, hne⟩, eq_comm, foreign?_eq_some_iff,
    owner?_standing_eq_some_iff] at hfirst
  exact hfirst.1

lemma owner?_standing_of_mem (h : name ∈ managementNames) :
    standing.owner? name = some .customCommands := by
  rw [owner?_standing_eq_some_iff, standing_entries]
  simp only [managementNames, List.mem_cons, List.not_mem_nil, or_false] at h
  rcases h with rfl | rfl | rfl <;> simp

end Registry

namespace Book

/-! ## What a step leaves alone -/

/-- Nothing but one name has another owner or another count. -/
structure TouchesOnly (name : String) (before after : Book) : Prop where
  vault : after.vault = before.vault
  counts : ∀ other : String, other ≠ name → after.counts[other]? = before.counts[other]?
  owner : ∀ other, other ≠ name → after.registry.owner? other = before.registry.owner? other

/-- A name has been claimed this often. -/
structure Tallies (name : String) (number : Nat) (book : Book) : Prop where
  counts : book.counts[name]? = if number = 0 then none else some number
  owner : book.registry.owner? name = if number = 0 then none else some .customCommands

variable {before after : Book} {name other : String} {number : Nat}

lemma TouchesOnly.refl (book : Book) : TouchesOnly name book book :=
  ⟨rfl, fun _ _ => rfl, fun _ _ => rfl⟩

lemma TouchesOnly.tallies (h : TouchesOnly name before after) (hne : other ≠ name)
    (hbefore : before.Tallies other number) : after.Tallies other number where
  counts := (h.counts other hne).trans hbefore.counts
  owner := (h.owner other hne).trans hbefore.owner

/-! ## Claims -/

lemma claim?_eq (name : String) (book : Book) : book.claim? name =
    if book.registry.conflict? .customCommands name = none then
      some { book with
        registry := book.registry.claim .customCommands name
        counts := book.counts.insert name ((book.counts[name]?).getD 0 + 1) }
    else none := by
  cases h : book.registry.conflict? .customCommands name with
  | none => simp [claim?, Registry.register, h]
  | some complaint => simp [claim?, Registry.register, h]

lemma claim?_touchesOnly (h : before.claim? name = some after) :
    TouchesOnly name before after := by
  rw [claim?_eq] at h
  split at h
  · obtain rfl := Option.some.inj h
    refine ⟨rfl, fun other hne => ?_, fun other hne => Registry.owner?_claim_of_ne hne⟩
    rw [Std.ExtTreeMap.getElem?_insert, if_neg]
    simp [Ne.symm hne]
  · contradiction

lemma claim?_foreign? (h : before.claim? name = some after) :
    after.registry.foreign? = before.registry.foreign? := by
  rw [claim?_eq] at h
  split at h
  · rename_i hfree
    obtain rfl := Option.some.inj h
    exact Registry.foreign?_claim hfree
  · contradiction

/-- A claim adds one. -/
lemma Tallies.claim? (h : before.Tallies name number) :
    ∃ after, before.claim? name = some after ∧ after.Tallies name (number + 1) := by
  have hfree : before.registry.conflict? .customCommands name = none := by
    rw [Registry.conflict?_eq_none_iff, h.owner]
    split
    · exact .inl rfl
    · exact .inr rfl
  refine ⟨_, (claim?_eq name before).trans (if_pos hfree), ?_, ?_⟩
  · have hcount : before.counts[name]?.getD 0 = number := by
      rw [h.counts]
      split
      · rename_i hzero
        exact hzero.symm
      · rfl
    simp [hcount]
  · exact Registry.owner?_claim_self hfree

/-! ## Releases -/

lemma release_touchesOnly (name : String) (book : Book) :
    TouchesOnly name book (book.release name) := by
  simp only [release]
  split
  · exact .refl book
  · split
    · refine ⟨rfl, fun other hne => ?_, fun other hne => Registry.owner?_unregister_of_ne hne⟩
      rw [Std.ExtTreeMap.getElem?_erase, if_neg]
      simp [Ne.symm hne]
    · refine ⟨rfl, fun other hne => ?_, fun _ _ => rfl⟩
      rw [Std.ExtTreeMap.getElem?_insert, if_neg]
      simp [Ne.symm hne]

lemma release_foreign? (name : String) (book : Book) :
    (book.release name).registry.foreign? = book.registry.foreign? := by
  simp only [release]
  split
  · rfl
  · split
    · exact Registry.foreign?_unregister
    · rfl

/-- A release takes one away. -/
lemma Tallies.release {book : Book} (h : book.Tallies name (number + 1)) :
    (book.release name).Tallies name number := by
  have hcount : book.counts[name]? = some (number + 1) := h.counts
  have howner : book.registry.owner? name = some .customCommands := h.owner
  simp only [Book.release, hcount]
  by_cases hlast : number = 0
  · rw [if_pos (by omega)]
    refine ⟨?_, ?_⟩
    · simp [hlast]
    · rw [if_pos hlast]
      exact Registry.owner?_unregister_self howner
  · rw [if_neg (by omega)]
    refine ⟨?_, ?_⟩
    · simp [hlast]
    · rw [if_neg hlast]
      exact howner

/-! ## Adopting what is stored -/

lemma adopt_touchesOnly (book : Book) (definition : Definition) :
    TouchesOnly definition.name book (book.adopt definition) := by
  simp only [adopt]
  cases h : book.claim? definition.name with
  | none => exact .refl book
  | some after => exact claim?_touchesOnly h

lemma foldl_adopt_foreign? (definitions : List Definition) (book : Book) :
    (definitions.foldl adopt book).registry.foreign? = book.registry.foreign? := by
  induction definitions generalizing book with
  | nil => rfl
  | cons definition definitions ih =>
    rw [List.foldl_cons, ih, adopt]
    cases h : book.claim? definition.name with
    | none => rfl
    | some after => exact claim?_foreign? h

lemma vault_foldl_adopt (definitions : List Definition) (book : Book) :
    (definitions.foldl adopt book).vault = book.vault := by
  induction definitions generalizing book with
  | nil => rfl
  | cons definition definitions ih =>
    rw [List.foldl_cons, ih]
    exact (adopt_touchesOnly book definition).vault

/-- A name is counted once for each definition that has it. -/
lemma Tallies.foldl_adopt {book : Book} (h : book.Tallies name number)
    (definitions : List Definition) :
    (definitions.foldl adopt book).Tallies name
      (number + (definitions.filter fun definition => definition.name = name).length) := by
  induction definitions generalizing book number with
  | nil => exact h
  | cons definition definitions ih =>
    rw [List.foldl_cons, List.filter_cons]
    by_cases hname : definition.name = name
    · obtain ⟨after, hclaim, hafter⟩ := h.claim?
      have hadopt : book.adopt definition = after := by
        rw [adopt, hname, hclaim]
        rfl
      rw [if_pos (decide_eq_true hname), List.length_cons, hadopt, Nat.add_comm _ 1,
        ← Nat.add_assoc]
      exact ih hafter
    · rw [if_neg (by simpa using hname)]
      exact ih ((adopt_touchesOnly book definition).tallies (Ne.symm hname) h)

/-- A name that custom commands have without a claim is counted once for each definition all the
same, if there is one. -/
lemma tallies_foldl_adopt {book : Book} (hcounts : book.counts[name]? = none)
    (howner : book.registry.owner? name = some .customCommands) {definitions : List Definition}
    (hdefined : ∃ definition ∈ definitions, definition.name = name) :
    (definitions.foldl adopt book).Tallies name
      (definitions.filter fun definition => definition.name = name).length := by
  induction definitions generalizing book with
  | nil => simp at hdefined
  | cons definition definitions ih =>
    rw [List.foldl_cons, List.filter_cons]
    by_cases hname : definition.name = name
    · have hfree : book.registry.conflict? .customCommands name = none :=
        Registry.conflict?_eq_none_iff.2 (.inr howner)
      have hfirst : (book.adopt definition).Tallies name 1 := by
        rw [adopt, hname, claim?_eq, if_pos hfree]
        refine ⟨?_, Registry.owner?_claim_self hfree⟩
        simp [hcounts]
      rw [if_pos (decide_eq_true hname), List.length_cons, Nat.add_comm]
      exact hfirst.foldl_adopt definitions
    · rw [if_neg (by simpa using hname)]
      have htouched := adopt_touchesOnly book definition
      refine ih ?_ ?_ ?_
      · rw [htouched.counts name (Ne.symm hname)]
        exact hcounts
      · rw [htouched.owner name (Ne.symm hname)]
        exact howner
      · simpa [hname] using hdefined

end Book

end RoomBot
