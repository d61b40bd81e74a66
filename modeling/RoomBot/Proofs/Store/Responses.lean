import RoomBot.Proofs.Store.View

/-!
# Responses that can be seen

The store refuses a response in which there is nothing to see, whether it is added or modified.  So
where all responses in the documents and in the memory of a store can be seen, they always can
(`Store.Telling`): an edit that succeeds brings in a response that has been looked at, and nothing
else brings in any.
-/

namespace RoomBot

/-! ## Texts in which there is something to see -/

/-- Some character is not blank. -/
def Text.IsVisible (s : String) : Prop := ∃ c ∈ s.toList, isBlank c = false

lemma Text.isVisible_iff {s : String} : IsVisible s ↔ isBlankText s.toList = false := by
  simp [IsVisible, isBlankText]

lemma Text.IsVisible.append {s : String} (h : IsVisible s) (t : String) : IsVisible (s ++ t) := by
  obtain ⟨c, hc, hblank⟩ := h
  refine ⟨c, ?_, hblank⟩
  rw [String.toList_append]
  exact List.mem_append_left _ hc

/-- All responses can be seen. -/
def Commands.AreVisible (commands : Commands) : Prop :=
  ∀ (name : String) (command : StoredCommand), commands[name]? = some command →
    Text.IsVisible command.response

namespace Commands.AreVisible

variable {commands : Commands}

lemma empty : AreVisible ∅ := by
  intro name command h
  simp at h

lemma insert (h : AreVisible commands) (name : String) {command : StoredCommand}
    (hcommand : Text.IsVisible command.response) : AreVisible (commands.insert name command) := by
  intro other found hfound
  rw [Std.ExtTreeMap.getElem?_insert] at hfound
  split at hfound
  · rwa [← Option.some.inj hfound]
  · exact h other found hfound

lemma erase (h : AreVisible commands) (name : String) : AreVisible (commands.erase name) := by
  intro other found hfound
  rw [Std.ExtTreeMap.getElem?_erase] at hfound
  split at hfound
  · contradiction
  · exact h other found hfound

end Commands.AreVisible

/-! ## Edits -/

namespace Edit

lemma isVisible_of_checkResponse {response : String} (h : checkResponse response = .ok ()) :
    Text.IsVisible response := by
  rw [checkResponse] at h
  split at h
  · contradiction
  · rename_i hblank
    exact Text.isVisible_iff.2 (by simpa using hblank)

/-- The only response that an edit brings in has been looked at. -/
lemma areVisible_of_apply {edit : Edit} {room now : String} {old new : Commands}
    (hcheck : edit.check = .ok ()) (happly : edit.apply room now old = .ok new)
    (hold : old.AreVisible) : new.AreVisible := by
  cases yields_of_apply happly with
  | @add name response _ =>
    have hresponse : checkResponse response = .ok () := by
      cases hname : Command.checkName name with
      | error failure =>
        rw [check, hname] at hcheck
        contradiction
      | ok _ => rwa [check, hname] at hcheck
    exact hold.insert name (isVisible_of_checkResponse hresponse)
  | @modify name _ _ _ => exact hold.insert name (isVisible_of_checkResponse hcheck)
  | @remove name _ _ => exact hold.erase name

end Edit

/-! ## Stores -/

/-- All responses in the documents can be seen. -/
def Directory.Telling (directory : Directory) : Prop :=
  ∀ (room : String) (commands : Commands), directory.commands room = .ok commands →
    commands.AreVisible

lemma Directory.telling_empty : Directory.Telling (.present ∅) := by
  intro room commands h
  obtain rfl : ∅ = commands := by simpa [Directory.commands, document?, read] using h
  exact .empty

namespace Store

/-- All responses that are remembered or stored can be seen. -/
structure Telling (store : Store) : Prop where
  stored : store.directory.Telling
  remembered : ∀ (room : String) (commands : Commands), store.cache[room]? = some commands →
    commands.AreVisible

variable {before after : Store} {room now : String}

lemma telling_of_ofDirectory {directory : Directory} {store : Store} (h : directory.Telling)
    (hstore : ofDirectory directory = .ok store) : store.Telling := by
  have hempty : ∀ (room : String) (commands : Commands),
      (∅ : Std.ExtTreeMap String Commands)[room]? = some commands → commands.AreVisible := by
    intro room commands hnone
    simp at hnone
  cases directory with
  | missing =>
    rw [← Except.ok.inj hstore]
    exact ⟨Directory.telling_empty, hempty⟩
  | blocked => contradiction
  | present entries =>
    rw [← Except.ok.inj hstore]
    exact ⟨h, hempty⟩

lemma Telling.commands {store : Store} (h : store.Telling) {commands : Commands}
    (hcommands : store.commands room = .ok commands) : commands.AreVisible := by
  cases hcache : store.cache[room]? with
  | some known =>
    rw [commands_of_cached hcache] at hcommands
    rw [← Except.ok.inj hcommands]
    exact h.remembered room known hcache
  | none =>
    rw [commands_of_uncached hcache] at hcommands
    exact h.stored room commands hcommands

lemma Untouched.telling (h : Untouched before after) (hbefore : before.Telling) :
    after.Telling where
  stored room commands hcommands := by
    rw [h.directory_commands] at hcommands
    exact hbefore.stored room commands hcommands
  remembered room commands hafter := by
    cases hcache : before.cache[room]? with
    | some known =>
      rw [h.remembered room known hcache] at hafter
      rw [← Option.some.inj hafter]
      exact hbefore.remembered room known hcache
    | none => exact hbefore.stored room commands (h.learned room commands hcache hafter)

lemma Edited.telling {edit : Edit} {old new : Commands}
    (h : Edited room now edit old new before after) (hbefore : before.Telling) :
    after.Telling := by
  have hnew : new.AreVisible :=
    Edit.areVisible_of_apply h.check h.apply (hbefore.commands h.known)
  refine ⟨fun other commands hcommands => ?_, fun other commands hcommands => ?_⟩
  · by_cases hne : other = room
    · subst hne
      rw [Directory.commands_of_text (by rw [h.read, if_pos rfl])] at hcommands
      rwa [← Except.ok.inj hcommands]
    · by_cases hname : documentName other = documentName room
      · obtain ⟨failure, hfailure⟩ := h.directory_commands_of_shared hne hname
        rw [hfailure] at hcommands
        contradiction
      · rw [h.directory_commands_of_ne hname] at hcommands
        exact hbefore.stored other commands hcommands
  · by_cases hne : other = room
    · rw [hne, h.cache, Std.ExtTreeMap.getElem?_insert_self] at hcommands
      rwa [← Option.some.inj hcommands]
    · rw [h.cache_of_ne hne] at hcommands
      exact hbefore.remembered other commands hcommands

end Store

end RoomBot
