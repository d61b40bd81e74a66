import Mathlib
import RoomBot.Document.Layout
import RoomBot.Proofs.Text.Separators
import RoomBot.Text.Blank

/-!
# Documents are read back as they were written

The text of a document goes through three stages when it is read: it is cut into lexemes, the
lexemes are put together into a value, and the value is taken for a record.  Each stage has a
relation of its own between what was laid out and what comes of it, stated for any rest that may
follow, so that the layout of an object can be built up from the layouts of its fields:

* `Lexeme.Spells cs lexemes`: these characters are cut into these lexemes;
* `Json.Denotes lexemes value`: these lexemes are put together into this value;
* `Json.Shows cs value`: both in a row.

The main statement is `ofText?_text`: whatever the room, the names and the responses, the text of
a document is read as that document.  Nothing is assumed about the characters in them.
-/

namespace RoomBot.Document

/-! ## Characters to lexemes -/

namespace Lexeme

/-- The characters are cut into the lexemes, whatever follows them. -/
def Spells (cs : List Char) (lexemes : List Lexeme) : Prop :=
  ∀ rest, scan? (cs ++ rest) = (scan? rest).map (lexemes ++ ·)

lemma Spells.append {a b : List Char} {l m : List Lexeme} (ha : Spells a l)
    (hb : Spells b m) : Spells (a ++ b) (l ++ m) := by
  intro rest
  rw [List.append_assoc, ha, hb, Option.map_map]
  congr 1
  funext more
  exact (List.append_assoc l m more).symm

lemma spells_gap {cs : List Char} (h : ∀ c ∈ cs, isGap c = true) : Spells cs [] := by
  intro rest
  induction cs with
  | nil => simp
  | cons c cs ih =>
    rw [List.cons_append, scan?, if_pos (h c List.mem_cons_self)]
    exact ih fun d hd => h d (List.mem_cons_of_mem c hd)

/-- Characters that always come out as one lexeme are that lexeme. -/
lemma spells_of_first? {c : Char} {cs : List Char} {lexeme : Lexeme} (hc : isGap c = false)
    (h : ∀ rest, first? (c :: cs ++ rest) = some (lexeme, rest)) : Spells (c :: cs) [lexeme] := by
  intro rest
  have hfirst := h rest
  rw [List.cons_append] at hfirst ⊢
  rw [scan?, if_neg (by simp [hc])]
  split
  · rename_i hnone
    rw [hfirst] at hnone
    contradiction
  · rename_i found after hsome
    rw [hfirst] at hsome
    obtain ⟨rfl, rfl⟩ := Prod.mk.inj (Option.some.inj hsome)
    rfl

lemma spells_quote (value : List Char) :
    Spells (Literal.quote value) [text (some (String.ofList value))] :=
  spells_of_first? rfl fun rest => first?_quote value rest

lemma Spells.flatMap {α : Type} (items : List α) {cs : α → List Char}
    {lexemes : α → List Lexeme} (h : ∀ item ∈ items, Spells (cs item) (lexemes item)) :
    Spells (items.flatMap cs) (items.flatMap lexemes) := by
  induction items with
  | nil => exact spells_gap (by simp)
  | cons item items ih =>
    rw [List.flatMap_cons, List.flatMap_cons]
    exact (h item List.mem_cons_self).append
      (ih fun other ho => h other (List.mem_cons_of_mem item ho))

end Lexeme

/-! ## Lexemes to values -/

namespace Json

/-- The lexemes are put together into the value, whatever is open around them and whatever
follows them. -/
def Denotes (lexemes : List Lexeme) (value : Json) : Prop :=
  ∀ frames rest, read? frames none (lexemes ++ rest) = read? frames (some value) rest

lemma denotes_text (value : Option String) : Denotes [.text value] (.text value) := by
  intro frames rest
  rw [List.singleton_append, read?]

/-- The lexemes of a field: its name, a colon and its value. -/
def fieldLexemes (name : String) (value : List Lexeme) : List Lexeme :=
  .text (some name) :: .colon :: value

/-- Fields that follow the first one complete an open object. -/
lemma read?_fields {α : Type} (name : α → String) {lexemes : α → List Lexeme}
    {value : α → Json} {items : List α} (h : ∀ item ∈ items, Denotes (lexemes item) (value item))
    (read : List (Option String × Json)) (last : Option String) (inner : Json)
    (frames : List Frame) (rest : List Lexeme) :
    read? (.object read last :: frames) (some inner)
        (items.flatMap (fun item => .comma :: fieldLexemes (name item) (lexemes item)) ++
          .closeObject :: rest) =
      read? frames (some (.object (((last, inner) :: read).reverse ++
        items.map fun item => (some (name item), value item)))) rest := by
  induction items generalizing read last inner with
  | nil => simp only [List.flatMap_nil, List.nil_append, read?, List.map_nil, List.append_nil]
  | cons item items ih =>
    have hitem := h item List.mem_cons_self
    have hrest := ih fun other ho => h other (List.mem_cons_of_mem item ho)
    simp only [List.flatMap_cons, fieldLexemes, List.cons_append, List.append_assoc]
    rw [read?, hitem]
    simp only [fieldLexemes] at hrest
    rw [hrest]
    simp

/-- An object, from the lexemes of its fields. -/
lemma denotes_object {α : Type} (name : α → String) {lexemes : α → List Lexeme}
    {value : α → Json} {items : List α}
    (h : ∀ item ∈ items, Denotes (lexemes item) (value item)) :
    Denotes (.openObject ::
        [.comma].intercalate (items.map fun item => fieldLexemes (name item) (lexemes item)) ++
          [.closeObject])
      (.object (items.map fun item => (some (name item), value item))) := by
  intro frames rest
  cases items with
  | nil => simp [read?]
  | cons item items =>
    have hitem := h item List.mem_cons_self
    have hrest := fun other ho => h other (List.mem_cons_of_mem item ho)
    rw [List.map_cons, Text.intercalate_cons, List.flatMap_map]
    simp only [fieldLexemes, List.cons_append, List.append_assoc, List.nil_append]
    rw [read?, hitem]
    have hfields := read?_fields name hrest [] (some (name item)) (value item) frames rest
    simp only [fieldLexemes] at hfields
    rw [hfields]
    simp

/-! ## Characters to values -/

/-- The characters are the layout of the value. -/
def Shows (cs : List Char) (value : Json) : Prop :=
  ∃ lexemes, Lexeme.Spells cs lexemes ∧ Denotes lexemes value

lemma shows_quote (value : String) : Shows (Literal.quote value.toList) (.text (some value)) :=
  ⟨_, Lexeme.spells_quote _, by rw [String.ofList_toList]; exact denotes_text _⟩

lemma isGap_of_mem_newLine {depth : Nat} {c : Char} (h : c ∈ newLine depth) :
    Lexeme.isGap c = true := by
  rcases List.mem_cons.1 h with rfl | h
  · rfl
  · rw [List.eq_of_mem_replicate h]
    rfl

lemma spells_fieldLayout (depth : Nat) (name : String) {cs : List Char}
    {lexemes : List Lexeme} (h : Lexeme.Spells cs lexemes) :
    Lexeme.Spells (fieldLayout depth (name, cs)) (fieldLexemes name lexemes) := by
  have hline : Lexeme.Spells (newLine depth) [] :=
    Lexeme.spells_gap fun _ => isGap_of_mem_newLine
  have hname := Lexeme.spells_quote name.toList
  rw [String.ofList_toList] at hname
  have hcolon : Lexeme.Spells [':'] [.colon] := Lexeme.spells_of_first? rfl fun _ => rfl
  have hspace : Lexeme.Spells [' '] [] := Lexeme.spells_gap (by simp [Lexeme.isGap])
  have hall := (hline.append hname).append (hcolon.append (hspace.append h))
  simpa [fieldLayout, fieldLexemes] using hall

/-- The layout of an object shows the object when the layouts of its values show the values. -/
lemma shows_objectLayout {α : Type} (depth : Nat) (name : α → String) {cs : α → List Char}
    {value : α → Json} {items : List α} (h : ∀ item ∈ items, Shows (cs item) (value item)) :
    Shows (objectLayout depth (items.map fun item => (name item, cs item)))
      (.object (items.map fun item => (some (name item), value item))) := by
  have hopen : Lexeme.Spells ['\x7b'] [.openObject] := Lexeme.spells_of_first? rfl fun _ => rfl
  have hclose : Lexeme.Spells ['\x7d'] [.closeObject] := Lexeme.spells_of_first? rfl fun _ => rfl
  have hcomma : Lexeme.Spells [','] [.comma] := Lexeme.spells_of_first? rfl fun _ => rfl
  have hline : Lexeme.Spells (newLine depth) [] :=
    Lexeme.spells_gap fun _ => isGap_of_mem_newLine
  choose! lexemes hspells hdenotes using h
  refine ⟨_, ?_, denotes_object name hdenotes⟩
  cases items with
  | nil => simpa [objectLayout] using hopen.append hclose
  | cons item items =>
    have hfield := fun other ho =>
      spells_fieldLayout (depth + 1) (name other) (hspells other ho)
    have hfirst := hfield item List.mem_cons_self
    have hmore := Lexeme.Spells.flatMap items fun other ho =>
      hcomma.append (hfield other (List.mem_cons_of_mem item ho))
    have hall := (hopen.append (hfirst.append hmore)).append (hline.append hclose)
    simpa [objectLayout, Text.intercalate_cons, List.flatMap_map] using hall

/-- A text that shows a value is read as that value. -/
lemma ofText?_of_shows {cs : List Char} {value : Json} (h : Shows cs value) :
    ofText? (String.ofList cs) = some value := by
  obtain ⟨lexemes, hspells, hdenotes⟩ := h
  have hscan : Lexeme.scan? cs = some lexemes := by
    have := hspells []
    rw [List.append_nil, show Lexeme.scan? [] = some [] by rw [Lexeme.scan?]] at this
    simpa using this
  have hread : read? [] none lexemes = some value := by
    have := hdenotes [] []
    rw [List.append_nil] at this
    rw [this, read?]
  rw [ofText?, String.toList_ofList, hscan, Option.bind_some, hread]

/-! ## Values to records -/

lemma fields?_object {α : Type} (name : α → String) (value : α → Json) (items : List α) :
    (object (items.map fun item => (some (name item), value item))).fields? =
      some (items.map fun item => (name item, value item)) := by
  rw [fields?]
  induction items with
  | nil => rfl
  | cons item items ih => simp [ih]

end Json

/-- The value that a command is written as. -/
def commandJson (command : StoredCommand) : Json :=
  .object [(some "response", .text (some command.response)),
    (some "created_at", .text (some command.created)),
    (some "updated_at", .text (some command.updated))]

lemma shows_commandLayout (command : StoredCommand) :
    Json.Shows (commandLayout command) (commandJson command) := by
  let fields := [("response", command.response), ("created_at", command.created),
    ("updated_at", command.updated)]
  have h : ∀ field ∈ fields, Json.Shows (Literal.quote field.2.toList) (.text (some field.2)) :=
    fun field _ => Json.shows_quote field.2
  exact Json.shows_objectLayout 2 Prod.fst h

lemma command?_commandJson (command : StoredCommand) :
    command? (commandJson command) = some command := by
  simp [command?, commandJson, Json.record?, Json.fields?, commandFields, textField?, Json.text?,
    List.lookup]

/-- The value that the commands of a room are written as. -/
def commandsJson (commands : Commands) : Json :=
  .object (commands.toList.map fun (name, command) => (some name, commandJson command))

lemma ofList_toList (commands : Commands) : .ofList commands.toList = commands := by
  apply Std.ExtTreeMap.ext_getElem?
  intro name
  cases h : commands[name]? with
  | none =>
    apply Std.ExtTreeMap.getElem?_ofList_of_contains_eq_false
    rw [Std.ExtTreeMap.map_fst_toList_eq_keys, Std.ExtTreeMap.contains_keys]
    rw [Std.ExtTreeMap.contains_eq_isSome_getElem?, h]
    rfl
  | some command =>
    exact Std.ExtTreeMap.getElem?_ofList_of_mem Std.ReflCmp.compare_self
      Std.ExtTreeMap.distinct_keys_toList (Std.ExtTreeMap.mem_toList_iff_getElem?_eq_some.2 h)

lemma commands?_commandsJson (commands : Commands) :
    commands? (commandsJson commands) = some commands := by
  have hread : ∀ entries : List (String × StoredCommand),
      (entries.map fun entry => (entry.1, commandJson entry.2)).mapM
        (fun field => (command? field.2).map (field.1, ·)) = some entries := by
    intro entries
    induction entries with
    | nil => rfl
    | cons entry entries ih => simp [ih, command?_commandJson]
  calc commands? (commandsJson commands)
    _ = ((commands.toList.map fun entry => (entry.1, commandJson entry.2)).mapM
          fun field => (command? field.2).map (field.1, ·)) >>= fun entries =>
            some (.ofList entries) := by
      rw [commands?, commandsJson, Json.fields?_object]
      rfl
    _ = some (.ofList commands.toList) := by rw [hread, Option.bind_eq_bind, Option.bind_some]
    _ = some commands := by rw [ofList_toList]

/-- The value that a document is written as. -/
def toJson (document : Document) : Json :=
  .object [(some "scope", .text (some document.room)),
    (some "commands", commandsJson document.commands)]

lemma shows_text (document : Document) :
    Json.Shows (text document).toList (toJson document) := by
  let fields : List (String × List Char × Json) :=
    [("scope", Literal.quote document.room.toList, .text (some document.room)),
      ("commands", objectLayout 1 (document.commands.toList.map fun (name, command) =>
        (name, commandLayout command)), commandsJson document.commands)]
  have h : ∀ field ∈ fields, Json.Shows field.2.1 field.2.2 := by
    simp only [fields, List.mem_cons, List.not_mem_nil, or_false, forall_eq_or_imp, forall_eq]
    exact ⟨Json.shows_quote document.room,
      Json.shows_objectLayout 1 Prod.fst fun entry _ => shows_commandLayout entry.2⟩
  rw [text, String.toList_ofList]
  exact Json.shows_objectLayout 0 Prod.fst h

lemma ofJson?_toJson (document : Document) : ofJson? (toJson document) = some document := by
  simp [ofJson?, toJson, Json.record?, Json.fields?, documentFields, textField?, Json.text?,
    List.lookup, commands?_commandsJson]

/-- A document is read back as it was written, whatever the room, the names and the responses. -/
theorem ofText?_text (document : Document) : ofText? (text document) = some document := by
  have h := Json.ofText?_of_shows (shows_text document)
  rw [String.ofList_toList] at h
  rw [ofText?, h, Option.bind_some, ofJson?_toJson]

/-- The text of a document is never taken for a file without text. -/
@[simp] lemma isBlankText_text (document : Document) :
    Text.isBlankText (text document).toList = false := by
  rw [text, String.toList_ofList]
  rfl

end RoomBot.Document
