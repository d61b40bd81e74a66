import RoomBot.Proofs.Management

/-!
# Every name that is defined has an owner

Whatever a directory held, whatever was refused and however often the bot was restarted: whoever
defines a name in a room, that name has an owner.  The reasons differ.  A name of another owner is
`Guarded`, and what a document defines under it stays hidden.  A name of the management either
stands, and then no room defines it, or it is counted like all the others.  And a name that is
counted belongs to custom commands as long as some room defines it.

A book of which this is true is `Regular`, and it is true of all books
(`Session.lasting_regular`).
-/

namespace RoomBot

namespace Book

variable {book before after : Book} {owner : Owner} {room name : String}

/-- The other owners have the names that they had first, the names of the management stand or are
counted, and all the others are counted. -/
structure Regular (book : Book) : Prop where
  agrees : book.Agrees
  foreign : book.registry.foreign? = Registry.standing.foreign?
  management : ∀ name ∈ managementNames, book.Stands name ∨ book.Accounted name

namespace Regular

lemma guarded (h : book.Regular) : book.Guarded := guarded_of_foreign? h.foreign

/-- Whatever an event does, a regular book stays regular. -/
lemma step (h : before.Regular) (hstep : Step room before after) : after.Regular where
  agrees := h.agrees.step hstep
  foreign := hstep.foreign?.trans h.foreign
  management name hname := by
    rcases h.management name hname with hstands | haccounted
    · exact .inl (hstands.step (managementNames_subset hname) h.guarded h.agrees.settled hstep)
    · exact .inr (haccounted.step h.agrees.settled hstep)

lemma owner?_of_mem_names (h : book.Regular) (howner : owner ≠ .customCommands)
    (hname : name ∈ owner.names) : book.registry.owner? name = some owner := by
  refine h.guarded name owner howner ?_
  rw [Registry.owner?_standing_eq_some_iff, Registry.standing_entries]
  cases owner with
  | customCommands => contradiction
  | _ =>
    rw [List.mem_singleton.1 hname]
    simp

lemma owner?_management (h : book.Regular) (hname : name ∈ managementNames) :
    book.registry.owner? name = none ∨ book.registry.owner? name = some .customCommands := by
  rcases h.management name hname with hstands | ⟨rooms, -, htallies⟩
  · exact .inr (hstands.owner.trans (Registry.owner?_standing_of_mem hname))
  · rw [htallies.owner]
    split
    · exact .inl rfl
    · exact .inr rfl

/-- A name that some room defines has an owner. -/
lemma exists_owner?_of_defines (h : book.Regular)
    (hdefines : book.vault.store.Defines room name) :
    ∃ owner, book.registry.owner? name = some owner := by
  by_cases hmanagement : name ∈ managementNames
  · rcases h.management name hmanagement with hstands | haccounted
    · exact absurd hdefines (hstands.not_defines room)
    · exact ⟨.customCommands, haccounted.owner?_of_defines hdefines⟩
  · by_cases hreserved : name ∈ reservedNames
    · -- The name is one of another owner, who has it still.
      cases hfirst : Registry.standing.owner? name with
      | none => exact absurd hreserved (Registry.owner?_standing_eq_none_iff.1 hfirst)
      | some owner =>
        have hother : owner ≠ .customCommands := by
          rintro rfl
          exact hmanagement (Registry.mem_managementNames hfirst)
        exact ⟨owner, h.guarded name owner hother hfirst⟩
    · exact ⟨.customCommands, h.agrees.owner?_of_defines hreserved hdefines⟩

end Regular

lemma regular_of_start {settings : Settings} {vault : Vault} {bot : Bot}
    (hfaithful : vault.store.Faithful)
    (hpending : ∀ failure, vault.pending = some failure → failure.isPersistence = true)
    (h : Bot.start settings vault = .ok bot) : bot.book.Regular where
  agrees := agrees_of_start hfaithful hpending h
  foreign := foreign?_of_start hpending h
  management name hname := by
    obtain ⟨store, -, rfl, -, -⟩ := exists_adopted_of_start hpending h
    obtain ⟨rooms, -, hrooms⟩ := exists_definers_of_start hfaithful h hname
    split at hrooms
    · exact .inl hrooms
    · exact .inr hrooms

end Book

/-- At every moment of every session the book is regular. -/
theorem Session.lasting_regular : Lasting Book.Regular where
  started := Book.regular_of_start
  refused {book} pending h := by
    refine ⟨h.agrees.withVault ⟨book.vault.store, pending⟩ (.refl _), h.foreign, ?_⟩
    intro name hname
    rcases h.management name hname with hstands | haccounted
    · exact .inl ⟨hstands.definers, hstands.counts, hstands.owner⟩
    · exact .inr (haccounted.withVault ⟨book.vault.store, pending⟩ (.refl _))
  stepped := Book.Regular.step

end RoomBot
