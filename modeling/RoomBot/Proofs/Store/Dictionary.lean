import Mathlib.Data.Set.Function
import Mathlib.Data.String.Basic
import RoomBot.Store.Basic

/-!
# A dictionary of responses

What the store promises can be said without directories, documents and memory: it is a finite map
from a room and a name to a response, and the operations on it are the obvious ones.  This module
says what the obvious ones are, with every refusal spelled out, and nothing in it is taken from the
way the store goes about them.

Both the store and the dictionary meet sequences of operations (`Operation`) and give a sequence of
answers (`Answer`).  To open the store again is an operation too; a dictionary does not notice it.
-/

namespace RoomBot

/-! ## Operations -/

/-- What can be asked of a store. -/
inductive Operation
  | edit (room now : String) (edit : Edit)
  | lookup (room name : String)
  | list (room : String)
  | all
  /-- A new store takes over the directory. -/
  | reopen
deriving DecidableEq, Repr

/-- What comes of an operation. -/
inductive Answer
  | edited (outcome : Except Failure Unit)
  | response (found : Except Failure (Option String))
  | names (found : Except Failure (List String))
  | definitions (found : Except Failure (List Definition))
  | reopened (outcome : Except Failure Unit)

namespace Operation

/-- The room an operation is about, if it is about one. -/
def room? : Operation → Option String
  | edit room _ _ => some room
  | lookup room _ => some room
  | list room => some room
  | all => none
  | reopen => none

/-- The rooms that some operations are about. -/
def roomsOf (operations : List Operation) : Set String :=
  {room | ∃ operation ∈ operations, operation.room? = some room}

/-- Performs some operations, one after another. -/
def run {State : Type} (perform : Operation → State → Answer × State) :
    List Operation → State → List Answer × State
  | [], state => ([], state)
  | operation :: operations, state =>
    let (answer, state) := perform operation state
    let (answers, state) := run perform operations state
    (answer :: answers, state)

end Operation

/-- Performs an operation on a store that nothing stops. -/
def Store.perform (operation : Operation) (store : Store) : Answer × Store :=
  match operation with
  | .edit room now edit => (store.edit room now edit none).map .edited id
  | .lookup room name => (store.lookup room name).map .response id
  | .list room => (store.list room).map .names id
  | .all => store.all.map .definitions id
  | .reopen =>
    match Store.ofDirectory store.directory with
    | .error failure => (.reopened (.error failure), store)
    | .ok fresh => (.reopened (.ok ()), fresh)

/-! ## Rooms and names in order -/

/-- Rooms with names are in the order of the rooms, and those of one room in that of the names. -/
abbrev compareKey : String × String → String × String → Ordering :=
  compareLex (compareOn Prod.fst) (compareOn Prod.snd)

lemma compareKey_eq_lt_iff {a b : String × String} :
    compareKey a b = .lt ↔ a.1 < b.1 ∨ a.1 = b.1 ∧ a.2 < b.2 := by
  rw [compareKey, compareLex, Ordering.then_eq_lt, compareOn, compareOn, compare_lt_iff_lt,
    compare_eq_iff_eq, compare_lt_iff_lt]

lemma compareKey_eq_eq_iff {a b : String × String} : compareKey a b = .eq ↔ a = b := by
  rw [compareKey, compareLex_eq_eq, compareOn, compareOn, compare_eq_iff_eq, compare_eq_iff_eq,
    Prod.ext_iff]

instance : Std.LawfulEqCmp compareKey where
  eq_of_compare := compareKey_eq_eq_iff.1

/-- One definition comes before another: its room does, or its name in the same room. -/
def Definition.Before (a b : Definition) : Prop :=
  a.room < b.room ∨ a.room = b.room ∧ a.name < b.name

instance : Std.Irrefl Definition.Before where
  irrefl a := by
    rintro (h | ⟨-, h⟩)
    · exact String.lt_irrefl _ h
    · exact String.lt_irrefl _ h

instance : Std.Antisymm Definition.Before where
  antisymm a b hab hba := by
    rcases hab with hroom | ⟨hroom, hname⟩
    · rcases hba with hback | ⟨hback, -⟩
      · exact absurd hback hroom.asymm
      · exact absurd hback.symm hroom.ne
    · rcases hba with hback | ⟨-, hback⟩
      · exact absurd hroom.symm hback.ne
      · exact absurd hback hname.asymm

/-! ## The dictionary -/

/-- A finite map from rooms and names to responses. -/
abbrev Dictionary := Std.ExtTreeMap (String × String) String compareKey

namespace Dictionary

/-- Adds, modifies or removes an entry, or says why not. -/
def edit (room : String) (edit : Edit) (dictionary : Dictionary) :
    Except Failure Unit × Dictionary :=
  match edit with
  | .add name response =>
    if name = "" then (.error (.invalidArgument "command name is empty"), dictionary)
    else if name.toList.any fun c => !Command.isNameChar c then
      (.error (.invalidArgument
        s!"`{name}` is not a valid command name (use letters, digits and _)"), dictionary)
    else if Text.isBlankText response.toList then
      (.error (.invalidArgument "command response is empty"), dictionary)
    else if (room, name) ∈ dictionary then
      (.error (.duplicateName s!"{name} in scope {room}"), dictionary)
    else (.ok (), dictionary.insert (room, name) response)
  | .modify name response =>
    if Text.isBlankText response.toList then
      (.error (.invalidArgument "command response is empty"), dictionary)
    else if (room, name) ∈ dictionary then (.ok (), dictionary.insert (room, name) response)
    else (.error (.notFound s!"{name} in scope {room}"), dictionary)
  | .remove name =>
    if (room, name) ∈ dictionary then (.ok (), dictionary.erase (room, name))
    else (.error (.notFound s!"{name} in scope {room}"), dictionary)

/-- The names of a room. -/
def list (room : String) (dictionary : Dictionary) : List String :=
  (dictionary.keys.filter fun key => key.1 = room).map (·.2)

/-- Every entry. -/
def all (dictionary : Dictionary) : List Definition :=
  dictionary.toList.map fun (key, response) => ⟨key.1, key.2, response⟩

/-- Performs an operation. -/
def perform (operation : Operation) (dictionary : Dictionary) : Answer × Dictionary :=
  match operation with
  | .edit room _ edit => (dictionary.edit room edit).map .edited id
  | .lookup room name => (.response (.ok dictionary[(room, name)]?), dictionary)
  | .list room => (.names (.ok (dictionary.list room)), dictionary)
  | .all => (.definitions (.ok dictionary.all), dictionary)
  | .reopen => (.reopened (.ok ()), dictionary)

/-! ## Lists are sorted and complete -/

lemma pairwise_list (room : String) (dictionary : Dictionary) :
    (dictionary.list room).Pairwise (· < ·) := by
  rw [list, List.pairwise_map, List.pairwise_filter]
  refine Std.ExtTreeMap.ordered_keys.imp ?_
  intro a b hab ha hb
  rcases compareKey_eq_lt_iff.1 hab with hroom | ⟨-, hname⟩
  · rw [of_decide_eq_true ha, of_decide_eq_true hb] at hroom
    exact absurd hroom (String.lt_irrefl room)
  · exact hname

lemma mem_list_iff {room name : String} {dictionary : Dictionary} :
    name ∈ dictionary.list room ↔ (room, name) ∈ dictionary := by
  rw [list, List.mem_map]
  constructor
  · rintro ⟨⟨_, _⟩, hkey, rfl⟩
    obtain ⟨hmem, hroom⟩ := List.mem_filter.1 hkey
    obtain rfl := of_decide_eq_true hroom
    exact Std.ExtTreeMap.mem_keys.1 hmem
  · intro h
    exact ⟨(room, name), List.mem_filter.2 ⟨Std.ExtTreeMap.mem_keys.2 h, decide_eq_true rfl⟩, rfl⟩

lemma pairwise_all (dictionary : Dictionary) : dictionary.all.Pairwise Definition.Before := by
  rw [all, List.pairwise_map]
  exact Std.ExtTreeMap.ordered_keys_toList.imp compareKey_eq_lt_iff.1

lemma mem_all_iff {definition : Definition} {dictionary : Dictionary} :
    definition ∈ dictionary.all ↔
      dictionary[(definition.room, definition.name)]? = some definition.response := by
  rw [all, List.mem_map, ← Std.ExtTreeMap.mem_toList_iff_getElem?_eq_some]
  constructor
  · rintro ⟨⟨⟨_, _⟩, _⟩, h, rfl⟩
    exact h
  · intro h
    exact ⟨_, h, rfl⟩

end Dictionary

/-! ## Edits, entry by entry -/

/-- The refusals of a new command, in order. -/
lemma Edit.check_add (name response : String) : (add name response).check =
    if name = "" then .error (.invalidArgument "command name is empty")
    else if name.toList.any fun c => !Command.isNameChar c then
      .error (.invalidArgument
        s!"`{name}` is not a valid command name (use letters, digits and _)")
    else if Text.isBlankText response.toList then
      .error (.invalidArgument "command response is empty")
    else .ok () := by
  rw [check, Command.checkName, checkResponse, ← List.not_all_eq_any_not]
  simp only [String.isEmpty_iff]
  by_cases hempty : name = ""
  · rw [if_pos hempty, if_pos hempty]
    rfl
  · rw [if_neg hempty, if_neg hempty]
    cases name.toList.all Command.isNameChar <;> rfl

namespace Dictionary

/-- What the dictionary has of a room are the responses of these commands. -/
def Matches (room : String) (commands : Commands) (dictionary : Dictionary) : Prop :=
  ∀ name : String, dictionary[(room, name)]? = commands[name]?.map StoredCommand.response

section Edits

variable {dictionary : Dictionary} {room other name : String} {commands : Commands}

lemma Matches.mem_iff (h : dictionary.Matches room commands) :
    (room, name) ∈ dictionary ↔ name ∈ commands := by
  rw [Std.ExtTreeMap.mem_iff_isSome_getElem?, Std.ExtTreeMap.mem_iff_isSome_getElem?, h,
    Option.isSome_map]

lemma Matches.insert (h : dictionary.Matches room commands) (command : StoredCommand) :
    Matches room (commands.insert name command)
      (dictionary.insert (room, name) command.response) := by
  intro found
  rw [Std.ExtTreeMap.getElem?_insert, Std.ExtTreeMap.getElem?_insert]
  by_cases hname : name = found
  · simp [hname]
  · simp [hname, h found]

lemma Matches.erase (h : dictionary.Matches room commands) :
    Matches room (commands.erase name) (dictionary.erase (room, name)) := by
  intro found
  rw [Std.ExtTreeMap.getElem?_erase, Std.ExtTreeMap.getElem?_erase]
  by_cases hname : name = found
  · simp [hname]
  · simp [hname, h found]

lemma Matches.insert_of_ne (h : dictionary.Matches other commands) (hne : other ≠ room)
    (response : String) : Matches other commands (dictionary.insert (room, name) response) := by
  intro found
  rw [← h found, Std.ExtTreeMap.getElem?_insert, if_neg]
  simp [Ne.symm hne]

lemma Matches.erase_of_ne (h : dictionary.Matches other commands) (hne : other ≠ room) :
    Matches other commands (dictionary.erase (room, name)) := by
  intro found
  rw [← h found, Std.ExtTreeMap.getElem?_erase, if_neg]
  simp [Ne.symm hne]

/-- An edit is refused with the words that the room's commands would refuse it with, and nothing
changes; or both accept it, and the dictionary follows the commands. -/
lemma edit_cases (h : dictionary.Matches room commands) (now : String) (edit : Edit) :
    (∃ failure, (edit.check.bind fun _ => edit.apply room now commands) = .error failure ∧
      dictionary.edit room edit = (.error failure, dictionary)) ∨
    ∃ new after, (edit.check.bind fun _ => edit.apply room now commands) = .ok new ∧
      dictionary.edit room edit = (.ok (), after) ∧ after.Matches room new ∧
      ∀ other commands, other ≠ room → dictionary.Matches other commands →
        after.Matches other commands := by
  cases edit with
  | add name response =>
    rw [Edit.check_add]
    simp only [Dictionary.edit, Edit.apply, h.mem_iff]
    split
    · exact .inl ⟨_, rfl, rfl⟩
    split
    · exact .inl ⟨_, rfl, rfl⟩
    split
    · exact .inl ⟨_, rfl, rfl⟩
    cases hfound : commands[name]? with
    | none =>
      have hmem : name ∉ commands := by simpa using hfound
      rw [if_neg hmem]
      exact .inr ⟨_, _, rfl, rfl, h.insert _, fun _ _ hne h => h.insert_of_ne hne response⟩
    | some command =>
      obtain ⟨hmem, -⟩ := Std.ExtTreeMap.getElem?_eq_some_iff.1 hfound
      rw [if_pos hmem]
      exact .inl ⟨_, rfl, rfl⟩
  | modify name response =>
    simp only [Dictionary.edit, Edit.apply, Edit.check, Edit.checkResponse, h.mem_iff]
    split
    · exact .inl ⟨_, rfl, rfl⟩
    cases hfound : commands[name]? with
    | none =>
      have hmem : name ∉ commands := by simpa using hfound
      rw [if_neg hmem]
      exact .inl ⟨_, rfl, rfl⟩
    | some command =>
      obtain ⟨hmem, -⟩ := Std.ExtTreeMap.getElem?_eq_some_iff.1 hfound
      rw [if_pos hmem]
      exact .inr ⟨_, _, rfl, rfl, h.insert { command with response, updated := now },
        fun _ _ hne h => h.insert_of_ne hne response⟩
  | remove name =>
    simp only [Dictionary.edit, Edit.apply, Edit.check, h.mem_iff]
    cases hfound : commands[name]? with
    | none =>
      have hmem : name ∉ commands := by simpa using hfound
      rw [if_neg hmem]
      exact .inl ⟨_, rfl, rfl⟩
    | some command =>
      obtain ⟨hmem, -⟩ := Std.ExtTreeMap.getElem?_eq_some_iff.1 hfound
      rw [if_pos hmem]
      exact .inr ⟨_, _, rfl, rfl, h.erase, fun _ _ hne h => h.erase_of_ne hne⟩

end Edits

end Dictionary

end RoomBot
