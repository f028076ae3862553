import Mathlib
import SchemaSketch.Document.Data
import SchemaSketch.Proofs.Export.Design

/-!
# Saving a document and loading it again

Loading undoes saving, part by part: rules, fields, foreign keys and relations are JSON, and what is left
out of it when it is null is null when it is missing. A position is where JSON and data part: data keeps
its keys, JSON keeps them only if they are texts (`Entity.TextKeys`). So a document is read back from its
data whatever it holds (`ofData_toData`), and from its JSON if its positions have texts for keys
(`ofJson_toJson`).

A document that was written by someone else is changed when it is loaded and saved (`resave`): defaults are
put in, members that mean nothing are dropped. That happens once.
-/

namespace SchemaSketch.Document
open Json

/-! ## Parts without a position -/

/-- Items that are each read back are read back as a list. -/
theorem readItems_map {α : Type} {read : Json → Except Fault α} {write : α → Json}
    (h : ∀ a, read (write a) = .ok a) (l : List α) : readItems read (.array (l.map write)) = .ok l :=
  (Export.mapM_map_ok l fun a _ => h a).trans (by rw [List.map_id'])

theorem Validation.ofJson_toJson (v : Validation) : ofJson v.toJson = .ok v := by
  obtain ⟨type, value⟩ := v
  cases value <;> rfl

theorem Field.ofJson_toJson (f : Field) : ofJson f.toJson = .ok f := by
  have hlength : memberOr f.toJson "length" .null = f.length := by
    obtain ⟨_, _, _, _, _, length, default, _⟩ := f
    cases length <;> cases default <;> rfl
  have hdefault : memberOr f.toJson "defaultValue" .null = f.default := by
    obtain ⟨_, _, _, _, _, length, default, _⟩ := f
    cases length <;> cases default <;> rfl
  have hvalidations := readItems_map Validation.ofJson_toJson f.validations
  change (readItems Validation.ofJson (.array (f.validations.map Validation.toJson)) >>= _) = _
  rw [hvalidations]
  change Except.ok (⟨f.name, f.columnName, f.type, f.nullable, f.unique, memberOr f.toJson "length" .null,
    memberOr f.toJson "defaultValue" .null, f.validations⟩ : Field) = _
  rw [hlength, hdefault]

theorem Relation.ofJson_toJson (r : Relation) : ofJson r.toJson = .ok r := rfl

/-! ## Entities -/

theorem Entity.ofData_toData (e : Entity) : ofData e.toData = .ok e := by
  change (readItems Field.ofJson (.array (e.fields.map Field.toJson)) >>= _) = _
  rw [readItems_map Field.ofJson_toJson]
  rfl

theorem Entity.toJson_toData (e : Entity) : e.toData.toJson = e.toJson := rfl

/-- Whether every key of a position is a text, so that JSON keeps it. -/
def Entity.TextKeys (e : Entity) : Prop := ∀ entry ∈ e.position, ∃ s, entry.1 = .string s

theorem positionOf_positionJson {position : List (Json × Json)} (h : ∀ entry ∈ position, ∃ s, entry.1 = .string s) :
    positionOf (positionJson position) = .ok position := by
  refine congrArg Except.ok ?_
  rw [List.map_map]
  conv_rhs => rw [← List.map_id position]
  refine List.map_congr_left fun entry hentry => ?_
  obtain ⟨s, hs⟩ := h entry hentry
  obtain ⟨key, value⟩ := entry
  obtain rfl : key = .string s := hs
  rfl

theorem Entity.ofJson_toJson {e : Entity} (h : e.TextKeys) : ofJson e.toJson = .ok e := by
  change (readItems Field.ofJson (.array (e.fields.map Field.toJson)) >>= _) = _
  rw [readItems_map Field.ofJson_toJson]
  change (positionOf (positionJson e.position)).bind (fun position =>
    (.ok { e with position } : Except Fault Entity)) = _
  rw [positionOf_positionJson h]
  rfl

/-! ## Documents -/

theorem toJson_toData (d : Document) : d.toData.toJson = d.toJson := by
  change Json.object [("entities", .array ((d.entities.map Entity.toData).map EntityData.toJson)), _] = _
  rw [List.map_map]
  rfl

theorem ofData_toData (d : Document) : ofData d.toData = .ok d := by
  have hentities : (d.entities.map Entity.toData).mapM Entity.ofData = .ok d.entities :=
    (Export.mapM_map_ok d.entities fun e _ => Entity.ofData_toData e).trans (by rw [List.map_id'])
  change ((d.entities.map Entity.toData).mapM Entity.ofData >>= _) = _
  rw [hentities]
  change (readItems Relation.ofJson (.array (d.relations.map Relation.toJson)) >>= _) = _
  rw [readItems_map Relation.ofJson_toJson]
  rfl

theorem ofJson_toJson {d : Document} (h : ∀ e ∈ d.entities, e.TextKeys) : ofJson d.toJson = .ok d := by
  change (readItems Entity.ofJson (.array (d.entities.map Entity.toJson)) >>= _) = _
  rw [readItems, itemsOf]
  change ((d.entities.map Entity.toJson).mapM Entity.ofJson >>= _) = _
  rw [Export.mapM_map_ok d.entities fun e he => Entity.ofJson_toJson (h e he), List.map_id']
  change (readItems Relation.ofJson (.array (d.relations.map Relation.toJson)) >>= _) = _
  rw [readItems_map Relation.ofJson_toJson]
  rfl

/-- Data that has been loaded and saved. -/
def resave (x : Data) : Except Fault Data := (ofData x).map toData

/-- A document is read back from its data, whatever it holds. So data that has been loaded and saved once is
not changed by doing so again. And a document is read back from its JSON, if its positions have texts for
keys. -/
theorem load_save :
    (∀ d : Document, ofData d.toData = .ok d) ∧
      (∀ x y : Data, resave x = .ok y → resave y = .ok y) ∧
      ∀ d : Document, (∀ e ∈ d.entities, e.TextKeys) → ofJson d.toJson = .ok d := by
  refine ⟨ofData_toData, fun x y hxy => ?_, fun d h => ofJson_toJson h⟩
  rw [resave] at hxy ⊢
  cases hx : ofData x with
  | error fault =>
    rw [hx] at hxy
    cases hxy
  | ok d =>
    obtain rfl : d.toData = y := by
      rw [hx] at hxy
      exact Except.ok.inj hxy
    rw [ofData_toData]
    rfl

/-- An entity that says where it stands by a list of pairs, with a number for a key. -/
def paired : Json :=
  .object [("entities", .array [.object [("id", .string "e"), ("name", .string "E"),
    ("position", .array [.array [.int 1, .int 2]])]])]

/-- A number stays a key in the data of a document, and with a text for a key JSON is enough. -/
theorem load_save_paired :
    (∃ y, resave (.json paired) = .ok y ∧ resave y = .ok y) ∧
      ofJson (toJson ⟨[⟨.string "e", .string "E", .null, [], [(.string "x", .int 0)]⟩], []⟩)
        = .ok ⟨[⟨.string "e", .string "E", .null, [], [(.string "x", .int 0)]⟩], []⟩ := by
  refine ⟨⟨_, rfl, load_save.2.1 (.json paired) _ rfl⟩, load_save.2.2 _ fun e he => ?_⟩
  obtain rfl := List.mem_singleton.1 he
  intro entry hentry
  obtain rfl := List.mem_singleton.1 hentry
  exact ⟨"x", rfl⟩

end SchemaSketch.Document
