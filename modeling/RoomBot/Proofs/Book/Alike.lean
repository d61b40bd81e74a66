import RoomBot.Proofs.Book.Congruence
import RoomBot.Proofs.Store.Refinement

/-!
# Books that behave alike

Two books are alike when they have the same registry and the same counts, and when their stores
hold what one dictionary tells.  They may have written their documents at different times and may
remember different rooms.  Neither shows: whatever is asked of both in a room in play, at whatever
times, they give the same answer and are alike afterwards (`congruence_alike`).
-/

namespace RoomBot.Book

/-- The same registry, the same counts, and stores that hold the entries of the dictionary. -/
structure Alike (rooms : Set String) (dictionary : Dictionary) (one two : Book) : Prop where
  registry : one.registry = two.registry
  counts : one.counts = two.counts
  left_pending : one.vault.pending = none
  right_pending : two.vault.pending = none
  left : one.vault.store.Refines rooms dictionary
  right : two.vault.store.Refines rooms dictionary

variable {rooms : Set String} {room : String}

/-- Both stores hold what some dictionary tells. -/
def HoldSame (rooms : Set String) (one two : Store) : Prop :=
  ∃ dictionary, one.Refines rooms dictionary ∧ two.Refines rooms dictionary

lemma exists_alike_iff {one two : Book} :
    (∃ dictionary, Alike rooms dictionary one two) ↔ Paired (HoldSame rooms) one two := by
  constructor
  · rintro ⟨dictionary, h⟩
    exact ⟨h.registry, h.counts, h.left_pending, h.right_pending, dictionary, h.left, h.right⟩
  · rintro ⟨hregistry, hcounts, hone, htwo, dictionary, hleft, hright⟩
    exact ⟨dictionary, hregistry, hcounts, hone, htwo, hleft, hright⟩

/-- Books that are alike, whatever they hold, stay so in the rooms in play. -/
theorem congruence_alike (hrooms : Set.InjOn digest rooms) (hroom : room ∈ rooms) :
    Congruence room (Paired (HoldSame rooms)) := by
  refine congruence_paired ?_ ?_ ?_
  · rintro one two now later edit ⟨dictionary, hone, htwo⟩
    obtain ⟨hleft, hleft_after⟩ := hone.edit hrooms hroom now edit
    obtain ⟨hright, hright_after⟩ := htwo.edit hrooms hroom later edit
    exact ⟨hleft.trans hright.symm, _, hleft_after, hright_after⟩
  · rintro one two name ⟨dictionary, hone, htwo⟩
    obtain ⟨hleft, hleft_after⟩ := hone.lookup hrooms hroom name
    obtain ⟨hright, hright_after⟩ := htwo.lookup hrooms hroom name
    exact ⟨hleft.trans hright.symm, dictionary, hleft_after, hright_after⟩
  · rintro one two ⟨dictionary, hone, htwo⟩
    obtain ⟨hleft, hleft_after⟩ := hone.list hrooms hroom
    obtain ⟨hright, hright_after⟩ := htwo.list hrooms hroom
    exact ⟨hleft.trans hright.symm, dictionary, hleft_after, hright_after⟩

end RoomBot.Book
