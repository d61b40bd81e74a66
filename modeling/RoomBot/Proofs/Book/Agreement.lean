import Mathlib
import RoomBot.Proofs.Book.Step
import RoomBot.Proofs.Book.Tally
import RoomBot.Proofs.Store.Definers

/-!
# Store, counts and registry agree

A book agrees with itself (`Book.Agrees`) when every name that is not reserved is tallied once for
each room that defines it (`Book.Accounted`).  None of the ways in which an event changes a book
(`Book.Step`) spoils that: a new command is claimed before it is stored and given back if it is
refused, a removed one is given back when it is gone, and nothing else changes who defines what.
-/

namespace RoomBot.Book

variable {book claimed after : Book} {store : Store} {room now name other response : String}
  {old new : Commands}

lemma Tallies.withStore {number : Nat} (h : book.Tallies name number) (store : Store) :
    (book.withStore store).Tallies name number :=
  ⟨h.counts, h.owner⟩

/-! ## One name -/

/-- The name is tallied once for each room that defines it. -/
def Accounted (name : String) (book : Book) : Prop :=
  ∃ rooms, book.vault.store.Definers name rooms ∧ book.Tallies name rooms.card

namespace Accounted

lemma withVault (h : book.Accounted name) (vault : Vault)
    (hstore : Store.Untouched book.vault.store vault.store) :
    Accounted name { book with vault } := by
  obtain ⟨rooms, hrooms, htallies⟩ := h
  exact ⟨rooms, hstore.definers hrooms, htallies.counts, htallies.owner⟩

/-- A command was claimed and stored. -/
lemma added (h : book.Accounted other) (hsettled : book.vault.store.Settled)
    (hclaim : book.claim? name = some claimed)
    (hedited : Store.Edited room now (.add name response) old new book.vault.store store) :
    (claimed.withStore store).Accounted other := by
  obtain ⟨hfresh, hnames⟩ := Edit.mem_of_add hedited.apply
  obtain ⟨rooms, hrooms, htallies⟩ := h
  by_cases hne : other = name
  · subst hne
    obtain ⟨after, hafter, hcounted⟩ := htallies.claim?
    obtain rfl := Option.some.inj (hclaim.symm.trans hafter)
    refine ⟨insert room rooms, ?_, ?_⟩
    · exact hedited.definers_insert hsettled hrooms ((hnames other).2 (.inl rfl))
    · rw [Finset.card_insert_of_notMem]
      · exact hcounted.withStore store
      · rw [hrooms, hedited.defines_before]
        exact hfresh
  · refine ⟨rooms, hedited.definers_of_iff hsettled hrooms ?_, ?_⟩
    · rw [hnames, or_iff_right hne]
    · exact ((claim?_touchesOnly hclaim).tallies hne htallies).withStore store

/-- A command was claimed, not stored and given back. -/
lemma refused (h : book.Accounted other) (hclaim : book.claim? name = some claimed)
    (hstore : Store.Untouched book.vault.store store) :
    ((claimed.withStore store).release name).Accounted other := by
  obtain ⟨rooms, hrooms, htallies⟩ := h
  refine ⟨rooms, ?_, ?_⟩
  · rw [(release_touchesOnly name _).vault]
    exact hstore.definers hrooms
  · by_cases hne : other = name
    · subst hne
      obtain ⟨after, hafter, hcounted⟩ := htallies.claim?
      obtain rfl := Option.some.inj (hclaim.symm.trans hafter)
      exact (hcounted.withStore store).release
    · exact (release_touchesOnly name _).tallies hne
        (((claim?_touchesOnly hclaim).tallies hne htallies).withStore store)

lemma modified (h : book.Accounted other) (hsettled : book.vault.store.Settled)
    (hedited : Store.Edited room now (.modify name response) old new book.vault.store store) :
    (book.withStore store).Accounted other := by
  obtain ⟨rooms, hrooms, htallies⟩ := h
  refine ⟨rooms, ?_, htallies.withStore store⟩
  exact hedited.definers_of_iff hsettled hrooms (Edit.mem_of_modify hedited.apply other)

/-- A command is no longer stored and was given back. -/
lemma removed (h : book.Accounted other) (hsettled : book.vault.store.Settled)
    (hedited : Store.Edited room now (.remove name) old new book.vault.store store) :
    ((book.withStore store).release name).Accounted other := by
  obtain ⟨hknown, hnames⟩ := Edit.mem_of_remove hedited.apply
  obtain ⟨rooms, hrooms, htallies⟩ := h
  unfold Accounted
  rw [(release_touchesOnly name _).vault]
  by_cases hne : other = name
  · subst hne
    refine ⟨rooms.erase room, ?_, ?_⟩
    · exact hedited.definers_erase hsettled hrooms fun hmem => ((hnames other).1 hmem).1 rfl
    · have hroom : room ∈ rooms := by
        rw [hrooms, hedited.defines_before]
        exact hknown
      rw [← Finset.card_erase_add_one hroom] at htallies
      exact (htallies.withStore store).release
  · refine ⟨rooms, hedited.definers_of_iff hsettled hrooms ?_, ?_⟩
    · rw [hnames, and_iff_right hne]
    · exact (release_touchesOnly name _).tallies hne (htallies.withStore store)

lemma owner?_of_defines (h : book.Accounted name)
    (hdefines : book.vault.store.Defines room name) :
    book.registry.owner? name = some .customCommands := by
  obtain ⟨rooms, hrooms, htallies⟩ := h
  rw [htallies.owner, if_neg (Finset.card_ne_zero_of_mem ((hrooms room).2 hdefines))]

/-- Whatever an event does, the name goes on to be tallied for the rooms that define it. -/
lemma step (h : book.Accounted name) (hsettled : book.vault.store.Settled)
    (hstep : Step room book after) : after.Accounted name := by
  cases hstep with
  | idle => exact h
  | asked untouched => exact h.withVault ⟨_, none⟩ untouched
  | added _ claim edited => exact h.added hsettled claim edited
  | refused _ claim untouched => exact h.refused claim untouched
  | modified edited => exact h.modified hsettled edited
  | removed edited => exact h.removed hsettled edited

end Accounted

lemma Step.settled (h : Step room book after) (hbefore : book.vault.store.Settled) :
    after.vault.store.Settled := by
  cases h with
  | idle => exact hbefore
  | asked untouched => exact untouched.settled hbefore
  | added _ _ edited => exact edited.settled hbefore
  | refused _ _ untouched =>
    rw [(release_touchesOnly _ _).vault]
    exact untouched.settled hbefore
  | modified edited => exact edited.settled hbefore
  | removed edited =>
    rw [(release_touchesOnly _ _).vault]
    exact edited.settled hbefore

/-! ## Agreement -/

/-- Every name that is not reserved is tallied once for each room that defines it. -/
structure Agrees (book : Book) : Prop where
  settled : book.vault.store.Settled
  tallies : ∀ name, name ∉ reservedNames →
    ∃ rooms, book.vault.store.Definers name rooms ∧ book.Tallies name rooms.card

namespace Agrees

lemma withVault (h : book.Agrees) (vault : Vault)
    (hstore : Store.Untouched book.vault.store vault.store) : { book with vault }.Agrees where
  settled := hstore.settled h.settled
  tallies name hname := Accounted.withVault (h.tallies name hname) vault hstore

lemma step (h : book.Agrees) (hstep : Step room book after) : after.Agrees where
  settled := hstep.settled h.settled
  tallies name hname := Accounted.step (h.tallies name hname) h.settled hstep

lemma owner?_of_defines (h : book.Agrees) (hname : name ∉ reservedNames)
    (hdefines : book.vault.store.Defines room name) :
    book.registry.owner? name = some .customCommands :=
  Accounted.owner?_of_defines (h.tallies name hname) hdefines

end Agrees

/-! ## Starting -/

lemma load_eq (vault : Vault) : load ⟨Bot.firstRegistry, ∅, vault⟩ =
    match call Store.all ⟨Registry.standing, ∅, vault⟩ with
    | (.error failure, book) => (.error failure, book)
    | (.ok told, book) => (.ok (), told.foldl adopt book) := by
  have hregister : Bot.firstRegistry.register .customCommands managementNames =
      (.ok (), Registry.standing) := rfl
  simp only [load, hregister, call]
  cases vault.call Store.all with
  | mk answer vault => cases answer <;> rfl

lemma tallies_standing {name : String} (hname : name ∉ reservedNames) (vault : Vault) :
    Tallies name 0 ⟨Registry.standing, ∅, vault⟩ where
  counts := by simp
  owner := Registry.owner?_standing_eq_none_iff.2 hname

lemma start_of_all {settings : Settings} {store : Store} {told : List Definition}
    (h : store.all.1 = .ok told) : Bot.start settings ⟨store, none⟩ =
      .ok ⟨settings, told.foldl adopt ⟨Registry.standing, ∅, ⟨store.all.2, none⟩⟩⟩ := by
  simp only [Bot.start, load_eq, call, Vault.call, h]

lemma start_empty (settings : Settings) : Bot.start settings ⟨⟨.present ∅, ∅⟩, none⟩ =
    .ok ⟨settings, ⟨Registry.standing, ∅, ⟨⟨.present ∅, ∅⟩, none⟩⟩⟩ := by
  have hall : (⟨.present ∅, ∅⟩ : Store).all = (.ok [], ⟨.present ∅, ∅⟩) := by cbv
  rw [start_of_all (congrArg Prod.fst hall), hall]
  rfl

/-- A bot starts only if its store has not been refused and has told everything. -/
lemma exists_told_of_start {settings : Settings} {vault : Vault} {bot : Bot}
    (hpending : ∀ failure, vault.pending = some failure → failure.isPersistence = true)
    (h : Bot.start settings vault = .ok bot) :
    vault.pending = none ∧ ∃ told, vault.store.all.1 = .ok told := by
  have hfails : ∀ failure : Failure, failure.isPersistence = true →
      ∀ book : Book, call Store.all ⟨Registry.standing, ∅, vault⟩ ≠ (.error failure, book) := by
    intro failure hpersistence book hcall
    simp only [Bot.start, load_eq, hcall] at h
    cases failure <;> simp [Failure.isPersistence] at hpersistence h
  cases hrefusal : vault.pending with
  | some failure =>
    have hcall : call Store.all ⟨Registry.standing, ∅, vault⟩ =
        (.error failure, ⟨Registry.standing, ∅, ⟨vault.store, none⟩⟩) := by
      simp only [call, Vault.call, hrefusal]
    exact absurd hcall (hfails failure (hpending failure hrefusal) _)
  | none =>
    refine ⟨rfl, ?_⟩
    cases htold : vault.store.all.1 with
    | error failure =>
      have hcall : call Store.all ⟨Registry.standing, ∅, vault⟩ =
          (.error failure, ⟨Registry.standing, ∅, ⟨vault.store.all.2, none⟩⟩) := by
        simp only [call, Vault.call, hrefusal, htold]
      exact absurd hcall (hfails failure (Store.isPersistence_of_all htold) _)
    | ok told => exact ⟨told, rfl⟩

lemma exists_adopted_of_start {settings : Settings} {vault : Vault} {bot : Bot}
    (hpending : ∀ failure, vault.pending = some failure → failure.isPersistence = true)
    (h : Bot.start settings vault = .ok bot) :
    ∃ store told, vault = ⟨store, none⟩ ∧ store.all.1 = .ok told ∧
      bot = ⟨settings, told.foldl adopt ⟨Registry.standing, ∅, ⟨store.all.2, none⟩⟩⟩ := by
  obtain ⟨hnone, told, htold⟩ := exists_told_of_start hpending h
  obtain ⟨store, _⟩ := vault
  obtain rfl : _ = none := hnone
  exact ⟨store, told, rfl, htold, Except.ok.inj (h.symm.trans (start_of_all htold))⟩

/-- The book of a bot that has started agrees. -/
lemma agrees_of_start {settings : Settings} {vault : Vault} {bot : Bot}
    (hfaithful : vault.store.Faithful)
    (hpending : ∀ failure, vault.pending = some failure → failure.isPersistence = true)
    (h : Bot.start settings vault = .ok bot) : bot.book.Agrees := by
  obtain ⟨store, told, rfl, htold, rfl⟩ := exists_adopted_of_start hpending h
  refine ⟨?_, fun name hname => ?_⟩
  · rw [vault_foldl_adopt]
    exact Store.settled_of_all hfaithful htold
  · obtain ⟨rooms, hrooms, hcard⟩ := Store.exists_definers_of_all hfaithful htold name
    have htallies := (tallies_standing hname ⟨store.all.2, none⟩).foldl_adopt told
    rw [Nat.zero_add, ← hcard] at htallies
    rw [vault_foldl_adopt]
    exact ⟨rooms, hrooms, htallies⟩

end RoomBot.Book
