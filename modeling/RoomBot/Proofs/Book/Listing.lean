import RoomBot.Proofs.Book.Wording
import RoomBot.Proofs.Store.Definers

/-!
# What the list of commands shows

The list that a room is shown is put together from two sources: the registry, less the names that
custom commands have claimed for whatever room, and the names that the room itself has defined.
What is on the list is said here for any registry and any such names (`Book.mem_namesBeside_iff`);
it is sorted, and no name stands on it twice (`Book.pairwise_namesBeside`).

The list is told when the store can tell the names of the room (`Book.wording_listing_of_ok`), and
otherwise the bot apologizes (`Book.Callable.wording_listing_of_error`).
-/

namespace RoomBot.Book

variable {book : Book} {mark : Char} {room name : String} {names : List String}

/-- Besides the names of the room the list shows those that have an owner, but of those that custom
commands have only the ones of the management. -/
theorem mem_namesBeside_iff : name ∈ book.namesBeside names ↔
    (∃ owner, book.registry.owner? name = some owner ∧
      (owner = .customCommands → name ∈ managementNames)) ∨ name ∈ names := by
  unfold namesBeside
  simp only [Std.ExtTreeSet.mem_toList, Std.ExtTreeSet.mem_ofList, List.contains_iff_mem,
    List.mem_append, List.mem_map, List.mem_filter, Bool.or_eq_true, bne_iff_ne]
  refine or_congr_left ⟨?_, ?_⟩
  · rintro ⟨⟨_, owner⟩, ⟨hentry, howner⟩, rfl⟩
    exact ⟨owner, Registry.mem_entries_iff.1 hentry, howner.resolve_left ∘ not_not.2⟩
  · rintro ⟨owner, hentry, howner⟩
    refine ⟨(name, owner), ⟨Registry.mem_entries_iff.2 hentry, ?_⟩, rfl⟩
    exact or_iff_not_imp_left.2 fun hcustom => howner (not_not.1 hcustom)

/-- The names on the list ascend. -/
theorem pairwise_namesBeside (book : Book) (names : List String) :
    (book.namesBeside names).Pairwise (· < ·) :=
  Std.ExtTreeSet.ordered_toList.imp compare_lt_iff_lt.1

/-- The words that report some names. -/
def report (mark : Char) (names : List String) : String :=
  let listed := ", ".intercalate (names.map fun name => s!"{mark}{name}")
  s!"Available commands: {listed}"

/-- Whoever hears an apology has not been told any names. -/
lemma report_ne_apology (mark : Char) (names : List String) : report mark names ≠
    "Sorry, I could not save or load that right now. Please try again later." := by
  intro h
  have hreport : (report mark names).toList.head? = some 'A' := by
    unfold report
    rw [String.toList_append]
    rfl
  have happology :
      "Sorry, I could not save or load that right now. Please try again later.".toList.head? =
        some 'S' := by
    decide +kernel
  rw [← h, hreport] at happology
  simp at happology

lemma listing_answer : (book.listing mark room).1 =
    (book.call (Store.list room)).1.map fun names => report mark (book.namesBeside names) := by
  simp only [listing]
  split
  · rename_i hcall
    rw [hcall]
    rfl
  · rename_i names after hcall
    have hregistry : after.registry = book.registry :=
      congrArg (fun answer => answer.2.registry) hcall.symm
    have hsame : after.namesBeside names = book.namesBeside names := by
      simp only [namesBeside, hregistry]
    rw [hcall, hsame]
    rfl

/-- The names that a store tells of a room are those that the room defines. -/
lemma mem_iff_defines_of_list (hcall : (book.call (Store.list room)).1 = .ok names) :
    name ∈ names ↔ book.vault.store.Defines room name := by
  rcases call_cases (Store.list room) book with ⟨failure, hrefused⟩ | hasked
  · rw [hrefused] at hcall
    contradiction
  · rw [hasked, Store.list_eq] at hcall
    cases hcommands : book.vault.store.commands room with
    | error failure =>
      rw [hcommands] at hcall
      contradiction
    | ok commands =>
      rw [hcommands] at hcall
      rw [Store.defines_iff_of_commands hcommands, ← Except.ok.inj hcall,
        Std.ExtTreeMap.mem_keys]

/-- The store fails, and the bot apologizes. -/
theorem Callable.wording_listing_of_error (h : book.Callable) {failure : Failure}
    (hcall : (book.call (Store.list room)).1 = .error failure) :
    wording (book.listing mark room).1 =
      "Sorry, I could not save or load that right now. Please try again later." := by
  have hpersistence : failure.isPersistence = true := h.of_call hcall id Store.isPersistence_of_list
  rw [listing_answer, hcall]
  cases failure with
  | persistence path reason => rfl
  | _ => contradiction

theorem wording_listing_of_ok (hcall : (book.call (Store.list room)).1 = .ok names) :
    wording (book.listing mark room).1 = report mark (book.namesBeside names) := by
  rw [listing_answer, hcall]
  rfl

end RoomBot.Book
