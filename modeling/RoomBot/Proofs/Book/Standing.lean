import RoomBot.Proofs.Book.Agreement

/-!
# Reserved names stand

Whatever the documents say, the owners other than custom commands have the names that they had
first, and no others (`Book.foreign?_of_start`).  So the five names that such owners have from the
start can never be claimed (`Book.Guarded`).

Where no room defines a reserved name to begin with, none ever does (`Book.Stands`): a management
name cannot be added, and a name of another owner cannot be claimed.  So the name keeps its first
owner and is never counted.  Mostly this is so of all reserved names together (`Book.Standing`).

Together with the agreement of the other names this says everything about the registry and the
counts.  Both can be computed from what the rooms define, and two books whose rooms define the same
are the same but for their stores (`Book.eq_of_defines_iff`).
-/

namespace RoomBot.Book

variable {book before after : Book} {store : Store} {room name : String}

/-! ## Names of other owners -/

/-- The names that custom commands did not have at first still have the owners they had. -/
def Guarded (book : Book) : Prop :=
  ∀ (name : String) (holder : Owner), holder ≠ .customCommands →
    Registry.standing.owner? name = some holder → book.registry.owner? name = some holder

lemma guarded_of_foreign? (h : book.registry.foreign? = Registry.standing.foreign?) :
    book.Guarded := by
  intro name holder hholder hfirst
  have hforeign := congrFun h name
  rw [Registry.foreign?_eq_some_iff.2 ⟨hfirst, hholder⟩] at hforeign
  exact (Registry.foreign?_eq_some_iff.1 hforeign).1

lemma Guarded.step (h : before.Guarded) (hstep : Step room before after) : after.Guarded := by
  intro name holder hholder hfirst
  have hforeign := congrFun hstep.foreign? name
  rw [Registry.foreign?_eq_some_iff.2 ⟨h name holder hholder hfirst, hholder⟩] at hforeign
  exact (Registry.foreign?_eq_some_iff.1 hforeign).1

/-- The names that can be claimed are not reserved. -/
lemma Guarded.notMem_of_claim? (h : before.Guarded) (hfree : name ∉ managementNames)
    (hclaim : before.claim? name = some after) : name ∉ reservedNames := by
  intro hname
  cases hfirst : Registry.standing.owner? name with
  | none => exact Registry.owner?_standing_eq_none_iff.1 hfirst hname
  | some holder =>
    have hholder : holder ≠ .customCommands := by
      rintro rfl
      exact hfree (Registry.mem_managementNames hfirst)
    rw [claim?_eq] at hclaim
    split at hclaim
    · rename_i hconflict
      rw [Registry.conflict?_eq_none_iff, h name holder hholder hfirst] at hconflict
      rcases hconflict with hnone | hcustom
      · contradiction
      · exact hholder (Option.some.inj hcustom)
    · contradiction

/-- A bot that has started has left the other owners their names. -/
theorem foreign?_of_start {settings : Settings} {vault : Vault} {bot : Bot}
    (hpending : ∀ failure, vault.pending = some failure → failure.isPersistence = true)
    (h : Bot.start settings vault = .ok bot) :
    bot.book.registry.foreign? = Registry.standing.foreign? := by
  obtain ⟨store, told, -, -, rfl⟩ := exists_adopted_of_start hpending h
  exact foldl_adopt_foreign? told _

/-! ## Reserved names that no room defines -/

/-- No room defines the name, it is not counted, and it has the owner that it had first. -/
structure Stands (name : String) (book : Book) : Prop where
  definers : book.vault.store.Definers name ∅
  counts : book.counts[name]? = none
  owner : book.registry.owner? name = Registry.standing.owner? name

namespace Stands

lemma not_defines (h : book.Stands name) (room : String) :
    ¬ book.vault.store.Defines room name :=
  fun hdefines => absurd ((h.definers room).2 hdefines) (Finset.notMem_empty room)

lemma withStore (h : book.Stands name) (hstore : store.Definers name ∅) :
    (book.withStore store).Stands name :=
  ⟨hstore, h.counts, h.owner⟩

lemma touchesOnly {other : String} (h : before.Stands name)
    (hafter : TouchesOnly other before after) (hne : name ≠ other) : after.Stands name where
  definers := by
    rw [hafter.vault]
    exact h.definers
  counts := (hafter.counts name hne).trans h.counts
  owner := (hafter.owner name hne).trans h.owner

/-- A reserved name stands, whatever an event does. -/
lemma step (h : before.Stands name) (hname : name ∈ reservedNames) (hguarded : before.Guarded)
    (hsettled : before.vault.store.Settled) (hstep : Step room before after) :
    after.Stands name := by
  cases hstep with
  | idle => exact h
  | asked untouched => exact h.withStore (untouched.definers h.definers)
  | added free claim edited =>
    have hne := ne_of_mem_of_not_mem hname (hguarded.notMem_of_claim? free claim)
    refine (h.touchesOnly (claim?_touchesOnly claim) hne).withStore ?_
    refine edited.definers_of_iff hsettled h.definers ?_
    rw [(Edit.mem_of_add edited.apply).2, or_iff_right hne]
  | @refused other store claimed free claim untouched =>
    have hne := ne_of_mem_of_not_mem hname (hguarded.notMem_of_claim? free claim)
    have hclaimed : (claimed.withStore store).Stands name :=
      (h.touchesOnly (claim?_touchesOnly claim) hne).withStore (untouched.definers h.definers)
    exact hclaimed.touchesOnly (release_touchesOnly other _) hne
  | modified edited =>
    exact h.withStore
      (edited.definers_of_iff hsettled h.definers (Edit.mem_of_modify edited.apply name))
  | @removed _ other _ _ store edited =>
    obtain ⟨hknown, hnames⟩ := Edit.mem_of_remove edited.apply
    have hne : name ≠ other := by
      rintro rfl
      exact h.not_defines room (edited.defines_before.2 hknown)
    refine (h.withStore ?_).touchesOnly (release_touchesOnly other _) hne
    refine edited.definers_of_iff hsettled h.definers ?_
    rw [hnames, and_iff_right hne]

lemma foldl_adopt {told : List Definition} (h : book.Stands name)
    (htold : ∀ definition ∈ told, definition.name ≠ name) :
    (told.foldl adopt book).Stands name := by
  induction told generalizing book with
  | nil => exact h
  | cons definition told ih =>
    rw [List.forall_mem_cons] at htold
    exact ih (h.touchesOnly (adopt_touchesOnly book definition) (Ne.symm htold.1)) htold.2

end Stands

/-- No room defines a reserved name, and each has the owner that it had first. -/
structure Standing (book : Book) : Prop where
  definers : ∀ name ∈ reservedNames, book.vault.store.Definers name ∅
  counts : ∀ name ∈ reservedNames, book.counts[name]? = none
  owner : ∀ name ∈ reservedNames,
    book.registry.owner? name = Registry.standing.owner? name

lemma standing_of_stands (h : ∀ name ∈ reservedNames, book.Stands name) : book.Standing :=
  ⟨fun name hname => (h name hname).definers, fun name hname => (h name hname).counts,
    fun name hname => (h name hname).owner⟩

namespace Standing

lemma stands (h : book.Standing) (hname : name ∈ reservedNames) : book.Stands name :=
  ⟨h.definers name hname, h.counts name hname, h.owner name hname⟩

lemma guarded (h : book.Standing) : book.Guarded := by
  intro name holder _ hfirst
  rw [h.owner name, hfirst]
  by_contra hname
  rw [Registry.owner?_standing_eq_none_iff.2 hname] at hfirst
  contradiction

lemma foreign? (h : book.Standing) (hagrees : book.Agrees) :
    book.registry.foreign? = Registry.standing.foreign? := by
  funext name
  by_cases hname : name ∈ reservedNames
  · rw [Registry.foreign?, Registry.foreign?, h.owner name hname]
  · obtain ⟨rooms, -, htallies⟩ := hagrees.tallies name hname
    rw [Registry.foreign?, Registry.foreign?, Registry.owner?_standing_eq_none_iff.2 hname,
      htallies.owner]
    split <;> rfl

lemma owner?_management (h : book.Standing) (hname : name ∈ managementNames) :
    book.registry.owner? name = some .customCommands := by
  rw [h.owner name (managementNames_subset hname), Registry.owner?_standing_of_mem hname]

/-- Reserved names stand, whatever an event does. -/
lemma step (h : before.Standing) (hagrees : before.Agrees) (hstep : Step room before after) :
    after.Standing :=
  standing_of_stands fun _ hname => (h.stands hname).step hname h.guarded hagrees.settled hstep

end Standing

lemma stands_of_all {told : List Definition} (hfaithful : store.Faithful)
    (htold : store.all.1 = .ok told) (hname : store.Definers name ∅) :
    (told.foldl adopt ⟨Registry.standing, ∅, ⟨store.all.2, none⟩⟩).Stands name := by
  have hfirst : Stands name ⟨Registry.standing, ∅, ⟨store.all.2, none⟩⟩ :=
    ⟨(Store.all_spec store).2.definers hname, Std.ExtTreeMap.getElem?_empty, rfl⟩
  refine hfirst.foldl_adopt fun definition hdefinition hsame => ?_
  have hdefines :=
    (Store.exists_mem_told_iff hfaithful htold).1 ⟨definition, hdefinition, hsame, rfl⟩
  exact absurd ((hname _).2 hdefines) (Finset.notMem_empty _)

/-- A bot starts on a store that has told everything. If no reserved name is defined there, the
reserved names stand. -/
lemma exists_start_of_all {told : List Definition} (hfaithful : store.Faithful)
    (htold : store.all.1 = .ok told) (hreserved : ∀ name ∈ reservedNames, store.Definers name ∅)
    (settings : Settings) :
    ∃ bot, Bot.start settings ⟨store, none⟩ = .ok bot ∧ bot.settings = settings ∧
      bot.book.Agrees ∧ bot.book.Standing ∧ bot.book.vault = ⟨store.all.2, none⟩ := by
  have hstart := @start_of_all settings store told htold
  refine ⟨_, hstart, rfl, ?_, ?_, vault_foldl_adopt told _⟩
  · refine agrees_of_start hfaithful (fun failure hpending => ?_) hstart
    contradiction
  · exact standing_of_stands fun name hname => stands_of_all hfaithful htold (hreserved name hname)

/-! ## Nothing else to know -/

/-- Two books whose rooms define the same have the same registry and the same counts. -/
theorem eq_of_defines_iff {one two : Book} (hone : one.Agrees) (htwo : two.Agrees)
    (sone : one.Standing) (stwo : two.Standing)
    (hdefines : ∀ room name,
      one.vault.store.Defines room name ↔ two.vault.store.Defines room name) :
    one.registry = two.registry ∧ one.counts = two.counts := by
  have hname : ∀ name : String, one.registry.owner? name = two.registry.owner? name ∧
      one.counts[name]? = two.counts[name]? := by
    intro name
    by_cases hreserved : name ∈ reservedNames
    · rw [sone.owner name hreserved, stwo.owner name hreserved, sone.counts name hreserved,
        stwo.counts name hreserved]
      exact ⟨rfl, rfl⟩
    · obtain ⟨rooms, hrooms, htallies⟩ := hone.tallies name hreserved
      obtain ⟨others, hothers, hothertallies⟩ := htwo.tallies name hreserved
      obtain rfl : rooms = others := by
        ext room
        rw [hrooms, hothers, hdefines]
      exact ⟨htallies.owner.trans hothertallies.owner.symm,
        htallies.counts.trans hothertallies.counts.symm⟩
  constructor
  · exact Registry.eq_of_owner? fun name => (hname name).1
  · exact Std.ExtTreeMap.ext_getElem? fun name => (hname name).2

end RoomBot.Book
