import SchemaSketch.Document.Basic
import SchemaSketch.Text.Quoted

/-!
# Documents from JSON

`Document.ofJson` finds the shape of a document in a JSON value. It asks for very little: that what should
have members has them, that a few of them are there, and that what should be a list can be gone through.
A text can be gone through too (by its characters) and so can an object (by its names), and that is how they
are read. Missing attributes get their defaults.

A `Fault` says what was asked of which value in vain. Faults of one kind (`isShape`) concern the shape of
the document and are reported as such; a position that is a list of something else than pairs is reported
by itself.
-/

namespace SchemaSketch.Document
open Json Text

/-- Why a JSON value is no document. -/
inductive Fault where
  /-- it is no object -/
  | notObject
  /-- a member is missing -/
  | missing (name : String)
  /-- a value should have members -/
  | noMembers (value : Json)
  /-- a value should be a list -/
  | notList (value : Json)
  /-- an item of a position is no pair of anything -/
  | notPair (index : Nat)
  /-- an item of a position has not two parts -/
  | wrongLength (index parts : Nat)
  /-- a value cannot be a key -/
  | notKey (value : Json)

/-- A fault in words. -/
def Fault.message : Fault → String
  | notObject => "Model document must be a JSON object"
  | missing name => quotedText name
  | noMembers (.array _) => "list indices must be integers or slices, not str"
  | noMembers (.string _) => "string indices must be integers, not 'str'"
  | noMembers value => "'" ++ value.typeName ++ "' object is not subscriptable"
  | notList value => "'" ++ value.typeName ++ "' object is not iterable"
  | notPair index => s!"cannot convert dictionary update sequence element #{index} to a sequence"
  | wrongLength index parts =>
    s!"dictionary update sequence element #{index} has length {parts}; 2 is required"
  | notKey value => "unhashable type: '" ++ value.typeName ++ "'"

/-- Whether a fault concerns the shape of the document. -/
def Fault.isShape : Fault → Bool
  | notObject | wrongLength _ _ => false
  | _ => true

/-- A fault as it is reported of a document. -/
def Fault.report (f : Fault) : String :=
  if f.isShape then "Invalid model document: " ++ f.message else f.message

/-! ## Parts of a value -/

/-- A member that must be there. -/
def member (value : Json) (name : String) : Except Fault Json :=
  match value with
  | .object members =>
    match lookup? name members with
    | some v => .ok v
    | none => .error (.missing name)
  | _ => .error (.noMembers value)

/-- A member, or what stands for it. -/
def memberOr (value : Json) (name : String) (otherwise : Json) : Json :=
  match value with
  | .object members => (lookup? name members).getD otherwise
  | _ => otherwise

/-- What a value is made of: items, characters or names. -/
def itemsOf (value : Json) : Except Fault (List Json) :=
  match value with
  | .array items => .ok items
  | .string s => .ok (s.toList.map fun c => .string c.toString)
  | .object members => .ok (members.map fun (name, _) => .string name)
  | _ => .error (.notList value)

/-- Every item of a value, read. -/
def readItems {α : Type} (read : Json → Except Fault α) (value : Json) : Except Fault (List α) := do
  (← itemsOf value).mapM read

/-! ## Positions -/

/-- A position with a value put under a key. -/
def place (key value : Json) : List (Json × Json) → List (Json × Json)
  | [] => [(key, value)]
  | (k, v) :: rest => if sameKey k key then (k, value) :: rest else (k, v) :: place key value rest

/-- The two parts of an item. -/
def pair (index : Nat) (item : Json) : Except Fault (Json × Json) :=
  match item with
  | .null | .bool _ | .int _ | .float _ => .error (.notPair index)
  | _ =>
    match itemsOf item with
    | .ok [key, value] => if key.isKey then .ok (key, value) else .error (.notKey key)
    | .ok parts => .error (.wrongLength index parts.length)
    | .error fault => .error fault

/-- The position that a list of pairs gives; `index` is the place of the first one. -/
def placeAll (index : Nat) (position : List (Json × Json)) : List Json →
    Except Fault (List (Json × Json))
  | [] => .ok position
  | item :: rest =>
    match pair index item with
    | .error fault => .error fault
    | .ok (key, value) => placeAll (index + 1) (place key value position) rest

/-- A position: the members of an object, or a list of pairs. -/
def positionOf (value : Json) : Except Fault (List (Json × Json)) :=
  match value with
  | .object members => .ok (members.map fun (name, v) => (.string name, v))
  | _ =>
    match itemsOf value with
    | .error fault => .error fault
    | .ok items => placeAll 0 [] items

/-! ## The document -/

/-- A rule. -/
def Validation.ofJson (value : Json) : Except Fault Validation := do
  let type ← member value "type"
  pure ⟨type, memberOr value "value" .null⟩

/-- A field. -/
def Field.ofJson (value : Json) : Except Fault Field := do
  let name ← member value "name"
  let validations ← readItems Validation.ofJson (memberOr value "validations" (.array []))
  pure {
    name
    columnName := memberOr value "columnName" name
    type := memberOr value "type" (.string "String")
    nullable := memberOr value "nullable" (.bool true)
    unique := memberOr value "unique" (.bool false)
    length := memberOr value "length" .null
    default := memberOr value "defaultValue" .null
    validations }

/-- Where an entity stands that says nothing about it. -/
def noPosition : Json := .object [("x", .int 0), ("y", .int 0)]

/-- An entity. -/
def Entity.ofJson (value : Json) : Except Fault Entity := do
  let id ← member value "id"
  let name ← member value "name"
  let fields ← readItems Field.ofJson (memberOr value "fields" (.array []))
  let position ← positionOf (memberOr value "position" noPosition)
  pure { id, name, tableName := memberOr value "tableName" (.string ""), fields, position }

/-- A foreign key. -/
def ForeignKey.ofJson (value : Json) : Except Fault ForeignKey := do
  let columnName ← member value "columnName"
  pure {
    columnName
    nullable := memberOr value "nullable" (.bool true)
    onDelete := memberOr value "onDelete" (.string Action.noAction.name)
    onUpdate := memberOr value "onUpdate" (.string Action.noAction.name) }

/-- A relation. -/
def Relation.ofJson (value : Json) : Except Fault Relation := do
  let id ← member value "id"
  let sourceId ← member value "sourceEntityId"
  let targetId ← member value "targetEntityId"
  let foreignKey ← ForeignKey.ofJson (← member value "foreignKey")
  let cascade ← itemsOf (memberOr value "cascade" (.array []))
  pure {
    id
    type := memberOr value "type" (.string "ManyToOne")
    sourceId
    targetId
    sourceField := memberOr value "sourceFieldName" (.string "")
    foreignKey
    bidirectional := memberOr value "bidirectional" (.bool false)
    fetchType := memberOr value "fetchType" (.string "LAZY")
    cascade }

/-- A document. -/
def ofJson (value : Json) : Except Fault Document :=
  match value with
  | .object _ => do
    let entities ← readItems Entity.ofJson (memberOr value "entities" (.array []))
    let relations ← readItems Relation.ofJson (memberOr value "relations" (.array []))
    pure ⟨entities, relations⟩
  | _ => .error .notObject

end SchemaSketch.Document
