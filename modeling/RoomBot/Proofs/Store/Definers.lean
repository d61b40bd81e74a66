import Mathlib.Data.Finset.Card
import Mathlib.Tactic.Choose
import RoomBot.Proofs.Store.Atomicity
import RoomBot.Proofs.Store.Refinement

/-!
# Who defines a name

A name is counted once for every room that defines it, so the rooms that do are a finite set of
which an edit changes one element at most.  This module says which.

A store that has just told everything is `Settled`: the rooms that it has not met define nothing.
It stays so, and therefore an edit of one room never makes a difference to another, not even where
the two share a file.
-/

namespace RoomBot

/-! ## The names of one room -/

namespace Edit

variable {room now name response : String} {old new : Commands}

lemma mem_of_add (h : (add name response).apply room now old = .ok new) :
    name ∉ old ∧ ∀ other, other ∈ new ↔ other = name ∨ other ∈ old := by
  cases yields_of_apply h with
  | add hnone =>
    refine ⟨by simpa using hnone, fun other => ?_⟩
    rw [Std.ExtTreeMap.mem_insert, Std.compare_eq_iff_eq, eq_comm]

lemma mem_of_modify (h : (modify name response).apply room now old = .ok new) (other : String) :
    other ∈ new ↔ other ∈ old := by
  cases yields_of_apply h with
  | modify hsome =>
    obtain ⟨hname, -⟩ := Std.ExtTreeMap.getElem?_eq_some_iff.1 hsome
    rw [Std.ExtTreeMap.mem_insert, Std.compare_eq_iff_eq, or_iff_right_iff_imp]
    rintro rfl
    exact hname

lemma mem_of_remove (h : (remove name).apply room now old = .ok new) :
    name ∈ old ∧ ∀ other, other ∈ new ↔ other ≠ name ∧ other ∈ old := by
  cases yields_of_apply h with
  | remove hsome =>
    refine ⟨(Std.ExtTreeMap.getElem?_eq_some_iff.1 hsome).1, fun other => ?_⟩
    rw [Std.ExtTreeMap.mem_erase, ne_eq, Std.compare_eq_iff_eq, ne_comm]

end Edit

namespace Store

/-! ## Rooms that define a name -/

/-- Whoever looks the name up in the room hears a response. -/
def Defines (store : Store) (room name : String) : Prop :=
  ∃ response, (store.lookup room name).1 = .ok (some response)

/-- The rooms are those that define the name. -/
def Definers (name : String) (rooms : Finset String) (store : Store) : Prop :=
  ∀ room, room ∈ rooms ↔ store.Defines room name

/-- A room that has not been met defines nothing. -/
def Settled (store : Store) : Prop :=
  ∀ room : String, store.cache[room]? = none → ∀ name, ¬ store.Defines room name

variable {before after : Store} {room other now name : String}

lemma defines_iff {store : Store} :
    store.Defines room name ↔ ∃ commands, store.commands room = .ok commands ∧ name ∈ commands := by
  simp only [Defines, lookup_eq]
  cases store.commands room with
  | error failure => simp [Except.map]
  | ok commands => simp [Except.map, Std.ExtTreeMap.getElem?_eq_some_iff]

lemma defines_iff_of_commands {store : Store} {commands : Commands}
    (h : store.commands room = .ok commands) : store.Defines room name ↔ name ∈ commands := by
  rw [defines_iff, h]
  constructor
  · rintro ⟨found, hfound, hname⟩
    rwa [Except.ok.inj hfound]
  · intro hname
    exact ⟨commands, rfl, hname⟩

lemma not_defines_of_error {store : Store} {failure : Failure}
    (h : store.commands room = .error failure) : ¬ store.Defines room name := by
  rw [defines_iff, h]
  rintro ⟨_, h, -⟩
  contradiction

/-- In a store that holds what a dictionary tells, the entries say who defines what. -/
lemma Refines.defines_iff {rooms : Set String} {dictionary : Dictionary} {store : Store}
    (h : store.Refines rooms dictionary) (hrooms : Set.InjOn digest rooms) :
    store.Defines room name ↔ (room, name) ∈ dictionary := by
  obtain ⟨contents, hholds, hd⟩ := h
  rw [Store.defines_iff, (hd room).mem_iff]
  constructor
  · rintro ⟨commands, hcommands, hname⟩
    rwa [← hholds.eq_of_commands hcommands]
  · intro hname
    have hroom : room ∈ rooms := by
      apply hholds.mem_of_ne_empty
      intro hempty
      simp [hempty] at hname
    exact ⟨contents room, hholds.commands (.of_injOn hrooms hroom), hname⟩

/-! ## Nothing has happened -/

namespace Untouched

lemma defines_iff (h : Untouched before after) :
    after.Defines room name ↔ before.Defines room name := by
  rw [Store.defines_iff, Store.defines_iff, h.commands]

lemma definers {rooms : Finset String} (h : Untouched before after)
    (hrooms : before.Definers name rooms) : after.Definers name rooms := by
  intro room
  rw [h.defines_iff]
  exact hrooms room

lemma settled (h : Untouched before after) (hbefore : before.Settled) : after.Settled := by
  intro room hcache name
  rw [h.defines_iff]
  apply hbefore
  cases hknown : before.cache[room]? with
  | none => rfl
  | some commands =>
    rw [h.remembered room commands hknown] at hcache
    contradiction

end Untouched

/-! ## An edit -/

namespace Edited

variable {edit : Edit} {old new : Commands} {rooms : Finset String}

lemma defines_before (h : Edited room now edit old new before after) :
    before.Defines room name ↔ name ∈ old :=
  defines_iff_of_commands h.known

lemma defines_after (h : Edited room now edit old new before after) :
    after.Defines room name ↔ name ∈ new :=
  defines_iff_of_commands h.commands_self

/-- Another room defines what it has defined: if it cannot be read any more, it was not met before
and defined nothing. -/
lemma defines_of_ne (h : Edited room now edit old new before after) (hbefore : before.Settled)
    (hne : other ≠ room) : after.Defines other name ↔ before.Defines other name := by
  rcases h.commands_of_ne hne with hsame | ⟨hcache, failure, herror⟩
  · rw [defines_iff, defines_iff, hsame]
  · exact iff_of_false (not_defines_of_error herror) (hbefore other hcache name)

lemma settled (h : Edited room now edit old new before after) (hbefore : before.Settled) :
    after.Settled := by
  intro other hcache name
  have hne : other ≠ room := by
    rintro rfl
    rw [h.cache, Std.ExtTreeMap.getElem?_insert_self] at hcache
    contradiction
  rw [h.defines_of_ne hbefore hne]
  rw [h.cache_of_ne hne] at hcache
  exact hbefore other hcache name

lemma definers_of_iff (h : Edited room now edit old new before after) (hbefore : before.Settled)
    (hrooms : before.Definers name rooms) (hname : name ∈ new ↔ name ∈ old) :
    after.Definers name rooms := by
  intro other
  rw [hrooms]
  by_cases hne : other = room
  · rw [hne, h.defines_before, h.defines_after, hname]
  · rw [h.defines_of_ne hbefore hne]

/-- A room that begins to define a name is one more. -/
lemma definers_insert (h : Edited room now edit old new before after) (hbefore : before.Settled)
    (hrooms : before.Definers name rooms) (hname : name ∈ new) :
    after.Definers name (insert room rooms) := by
  intro other
  rw [Finset.mem_insert, hrooms]
  by_cases hne : other = room
  · rw [hne, h.defines_after]
    exact iff_of_true (.inl rfl) hname
  · rw [h.defines_of_ne hbefore hne]
    simp [hne]

lemma definers_erase (h : Edited room now edit old new before after) (hbefore : before.Settled)
    (hrooms : before.Definers name rooms) (hname : name ∉ new) :
    after.Definers name (rooms.erase room) := by
  intro other
  rw [Finset.mem_erase, hrooms]
  by_cases hne : other = room
  · rw [hne, h.defines_after]
    simp [hname]
  · rw [h.defines_of_ne hbefore hne]
    simp [hne]

end Edited

/-! ## Everything that is stored -/

lemma load_cached {store : Store} {commands : Commands}
    (h : (store.load room).1 = .ok commands) :
    (store.load room).2.cache[room]? = some commands := by
  simp only [load] at h ⊢
  cases hcache : store.cache[room]? with
  | some found =>
    rw [hcache] at h
    rw [← Except.ok.inj h]
    exact hcache
  | none =>
    rw [hcache] at h
    cases hread : store.directory.commands room with
    | error failure =>
      rw [hread] at h
      contradiction
    | ok found =>
      rw [hread] at h
      rw [← Except.ok.inj h]
      exact Std.ExtTreeMap.getElem?_insert_self

/-- Rooms whose definitions were collected have been met. -/
lemma exists_cache_of_collect {rooms : List String} {store : Store}
    {found : List Definition} (h : (store.collect rooms).1 = .ok found) (hroom : room ∈ rooms) :
    ∃ commands, (store.collect rooms).2.cache[room]? = some commands := by
  induction rooms generalizing store found with
  | nil => contradiction
  | cons first rooms ih =>
    rw [collect] at h ⊢
    cases hload : store.load first with
    | mk answer loaded =>
      rw [hload] at h
      cases answer with
      | error failure => contradiction
      | ok commands =>
        have hcached : loaded.cache[first]? = some commands := by
          have hfirst : (store.load first).1 = .ok commands := by rw [hload]
          have hmet := load_cached hfirst
          rwa [hload] at hmet
        have hrest := (collect_spec rooms loaded).2
        cases hcollect : loaded.collect rooms with
        | mk rest last =>
          rw [hcollect] at hrest
          simp only [hcollect] at h ⊢
          cases rest with
          | error failure => contradiction
          | ok definitions =>
            rcases List.mem_cons.1 hroom with rfl | hroom
            · exact ⟨commands, hrest.remembered _ commands hcached⟩
            · have hanswer : (loaded.collect rooms).1 = .ok definitions := by rw [hcollect]
              have hmet := ih hanswer hroom
              rwa [hcollect] at hmet

/-- When everything has been told, each room that has a document has told its commands. -/
lemma all_ok {store : Store} {told : List Definition} (h : store.all.1 = .ok told) :
    ∃ (found : List String) (contents : String → Commands), store.directory.rooms = .ok found ∧
      store.all = store.collect found ∧
      (∀ room ∈ found, store.commands room = .ok (contents room)) ∧
      told = (found.map fun room => definitions room (contents room)).flatten := by
  cases hfound : store.directory.rooms with
  | error failure =>
    simp only [all, hfound] at h
    contradiction
  | ok found =>
    rw [(all_spec store).1, hfound] at h
    cases hparts : found.mapM fun room => (store.commands room).map (definitions room) with
    | error failure =>
      simp only [Except.bind, hparts] at h
      contradiction
    | ok parts =>
      simp only [Except.bind, hparts] at h
      have hknown : ∀ room ∈ found, ∃ commands, store.commands room = .ok commands := by
        intro room hroom
        obtain ⟨part, hpart⟩ := exists_of_mapM_eq_ok hparts room hroom
        cases hcommands : store.commands room with
        | error failure =>
          rw [hcommands] at hpart
          contradiction
        | ok commands => exact ⟨commands, rfl⟩
      choose! contents hcontents using hknown
      have hmap : ∀ room ∈ found, (store.commands room).map (definitions room) =
          .ok (definitions room (contents room)) := by
        intro room hroom
        rw [hcontents room hroom]
        rfl
      rw [mapM_eq_ok_map hmap] at hparts
      refine ⟨found, contents, rfl, by simp only [all, hfound], hcontents, ?_⟩
      rw [Except.ok.inj hparts]
      exact (Except.ok.inj h).symm

section Told

variable {store : Store} {told : List Definition}

lemma Faithful.mem_of_defines {found : List String} (hfaithful : store.Faithful)
    (hfound : store.directory.rooms = .ok found) (h : store.Defines room name) :
    room ∈ found := by
  obtain ⟨commands, hcommands, hname⟩ := defines_iff.1 h
  rw [hfaithful.commands] at hcommands
  exact ((Directory.rooms_spec hfound).2 room).2 (Directory.hasDocument_of_mem hcommands hname)

/-- A store that remembers what the documents say can tell everything, if it finds the rooms. -/
lemma Faithful.exists_told {found : List String} (hfaithful : store.Faithful)
    (hfound : store.directory.rooms = .ok found) : ∃ told, store.all.1 = .ok told := by
  have hknown : ∀ room ∈ found, ∃ part,
      (store.commands room).map (definitions room) = .ok part := by
    intro room hroom
    obtain ⟨commands, hfile⟩ := ((Directory.rooms_spec hfound).2 room).1 hroom
    refine ⟨definitions room commands, ?_⟩
    rw [hfaithful.commands, Directory.commands, hfile]
    simp [Except.map]
  obtain ⟨parts, hparts⟩ := exists_mapM_eq_ok hknown
  refine ⟨parts.flatten, ?_⟩
  rw [(all_spec store).1, hfound]
  simp only [Except.bind, hparts]
  rfl

lemma settled_of_all (hfaithful : store.Faithful) (h : store.all.1 = .ok told) :
    store.all.2.Settled := by
  obtain ⟨found, contents, hfound, hall, -, -⟩ := all_ok h
  intro room hcache name hdefines
  rw [(all_spec store).2.defines_iff] at hdefines
  rw [hall] at h hcache
  obtain ⟨commands, hcached⟩ :=
    exists_cache_of_collect h (hfaithful.mem_of_defines hfound hdefines)
  rw [hcache] at hcached
  contradiction

/-- A response has been told if it is what the store answers. -/
lemma Faithful.mem_told_iff (h : store.Faithful) (htold : store.all.1 = .ok told)
    (response : String) : ⟨room, name, response⟩ ∈ told ↔
      (store.lookup room name).1 = .ok (some response) := by
  obtain ⟨found, contents, hfound, -, hcontents, rfl⟩ := all_ok htold
  have hanswer : room ∈ found → ((store.lookup room name).1 = .ok (some response) ↔
      (contents room)[name]?.map StoredCommand.response = some response) := by
    intro hroom
    simp [lookup_eq, hcontents room hroom, Except.map]
  rw [List.mem_flatten]
  constructor
  · rintro ⟨part, hpart, hmem⟩
    obtain ⟨other, hother, rfl⟩ := List.mem_map.1 hpart
    obtain ⟨rfl, hresponse⟩ := mem_definitions_iff.1 hmem
    exact (hanswer hother).2 hresponse
  · intro hlookup
    have hroom : room ∈ found := h.mem_of_defines hfound ⟨response, hlookup⟩
    exact ⟨_, List.mem_map.2 ⟨room, hroom, rfl⟩,
      mem_definitions_iff.2 ⟨rfl, (hanswer hroom).1 hlookup⟩⟩

lemma pairwise_told (htold : store.all.1 = .ok told) : told.Pairwise Definition.Before := by
  obtain ⟨found, contents, hfound, -, -, rfl⟩ := all_ok htold
  exact pairwise_flatten_definitions (Directory.rooms_spec hfound).1 contents

lemma exists_mem_told_iff (hfaithful : store.Faithful) (h : store.all.1 = .ok told) :
    (∃ definition ∈ told, definition.name = name ∧ definition.room = room) ↔
      store.Defines room name := by
  constructor
  · rintro ⟨⟨_, _, response⟩, htell, rfl, rfl⟩
    exact ⟨response, (hfaithful.mem_told_iff h response).1 htell⟩
  · rintro ⟨response, hlookup⟩
    exact ⟨_, (hfaithful.mem_told_iff h response).2 hlookup, rfl, rfl⟩

lemma nodup_rooms_told (h : store.all.1 = .ok told) (name : String) :
    ((told.filter fun definition => definition.name = name).map Definition.room).Nodup := by
  rw [List.Nodup, List.pairwise_map, List.pairwise_filter]
  refine (pairwise_told h).imp ?_
  rintro a b (hroom | ⟨-, hname⟩) ha hb
  · exact hroom.ne
  · rw [of_decide_eq_true ha, of_decide_eq_true hb] at hname
    exact absurd hname (String.lt_irrefl name)

/-- Every name has been told once for each room that defines it. -/
lemma exists_definers_of_all (hfaithful : store.Faithful) (h : store.all.1 = .ok told)
    (name : String) : ∃ rooms, store.all.2.Definers name rooms ∧
      rooms.card = (told.filter fun definition => definition.name = name).length := by
  let named := told.filter fun definition => definition.name = name
  refine ⟨(named.map Definition.room).toFinset, (all_spec store).2.definers fun room => ?_, ?_⟩
  · rw [← exists_mem_told_iff hfaithful h]
    simp [named, and_assoc]
  · rw [List.toFinset_card_of_nodup (nodup_rooms_told h name), List.length_map]

end Told

end Store

end RoomBot
