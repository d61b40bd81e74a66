import RoomBot.Document.Lexeme

/-!
# JSON values

Lexemes are put together from left to right, with the objects and arrays that are still open on
a stack (`Frame`).  So a document may be nested to any depth, and every lexeme is looked at once.
Neither objects nor arrays may end in a comma, and nothing may follow the value.
-/

namespace RoomBot.Document

/-- A JSON value. Fields keep their order, and a name may occur twice; `none` stands for a string
literal that is no text. -/
inductive Json
  /-- A number, `true`, `false` or `null`. -/
  | atom
  | text (value : Option String)
  | array (items : List Json)
  | object (fields : List (Option String × Json))

namespace Json

/-- An array or object that is still open, with what it holds so far, the last first. In an
object the name of the next field has been read. -/
inductive Frame
  | array (items : List Json)
  | object (fields : List (Option String × Json)) (name : Option String)

/-- Reads on inside the open frames, the innermost first. The value is the one that has just been
completed, if one has; otherwise one has to come. -/
def read? : List Frame → Option Json → List Lexeme → Option Json
  | frames, none, .atom :: rest => read? frames (some .atom) rest
  | frames, none, .text value :: rest => read? frames (some (.text value)) rest
  | frames, none, .openArray :: .closeArray :: rest => read? frames (some (.array [])) rest
  | frames, none, .openArray :: rest => read? (.array [] :: frames) none rest
  | frames, none, .openObject :: .closeObject :: rest => read? frames (some (.object [])) rest
  | frames, none, .openObject :: .text name :: .colon :: rest =>
    read? (.object [] name :: frames) none rest
  | .array items :: frames, some value, .comma :: rest =>
    read? (.array (value :: items) :: frames) none rest
  | .array items :: frames, some value, .closeArray :: rest =>
    read? frames (some (.array (value :: items).reverse)) rest
  | .object fields name :: frames, some value, .comma :: .text next :: .colon :: rest =>
    read? (.object ((name, value) :: fields) next :: frames) none rest
  | .object fields name :: frames, some value, .closeObject :: rest =>
    read? frames (some (.object ((name, value) :: fields).reverse)) rest
  | [], some value, [] => some value
  | _, _, _ => none

/-- The value that a text is. -/
def ofText? (text : String) : Option Json :=
  (Lexeme.scan? text.toList).bind (read? [] none)

/-! ## Parts of a value -/

/-- The text that a value is. -/
def text? : Json → Option String
  | text value => value
  | _ => none

/-- The fields that an object has, if all their names are texts. -/
def fields? : Json → Option (List (String × Json))
  | object fields => fields.mapM fun (name, value) => name.map (·, value)
  | _ => none

/-- The fields of a record with the given names. A record is an object, in which each of the
names occurs at most once and other fields do not matter, or an array of the first so many
fields in the order of the names. -/
def record? (names : List String) : Json → Option (List (String × Json))
  | array items => if items.length ≤ names.length then some (names.zip items) else none
  | value => do
    let known := (← value.fields?).filter fun field => names.contains field.1
    if (known.map (·.1)).Nodup then some known else none

end Json

end RoomBot.Document
