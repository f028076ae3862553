import Mathlib
import SchemaSketch.Proofs.Document.RoundTrip
import SchemaSketch.Proofs.Json.Reading
import SchemaSketch.Proofs.Text.Utf8
import SchemaSketch.Text.Utf8

/-!
# Designs as files

The document of a design is a readable value (`Design.readable`), seven levels deep: a list of entities has
a list of fields in each of them, which have lists of rules. All that could keep it from being read back is a
number of too many digits, and then it is not written (`Json.fits`).

So the design's document is read from the bytes of its text (`Design.read_saved`), whatever characters are in
it: the text itself is ASCII.
-/

namespace SchemaSketch

namespace Json

/-! ## Numbers -/

theorem itemsFit_iff {items : List Json} : itemsFit items = true ↔ ∀ item ∈ items, fits item = true := by
  induction items with
  | nil => simp [itemsFit]
  | cons item items ih => simp [itemsFit, ih]

theorem membersFit_iff {members : List (String × Json)} :
    membersFit members = true ↔ ∀ member ∈ members, fits member.2 = true := by
  induction members with
  | nil => simp [membersFit]
  | cons member members ih => simp [membersFit, ih]

@[simp] theorem fits_array {items : List Json} : fits (array items) = true ↔ ∀ item ∈ items, fits item = true := by
  rw [fits, itemsFit_iff]

@[simp] theorem fits_object {members : List (String × Json)} :
    fits (object members) = true ↔ ∀ member ∈ members, fits member.2 = true := by
  rw [fits, membersFit_iff]

theorem Readable.of_fits_int {depth : Nat} {i : Int} (h : fits (.int i) = true) : Readable depth (.int i) :=
  .int (of_decide_eq_true h)

/-- A list is readable if its items are. -/
theorem Readable.array_map_map {α β : Type} {depth : Nat} {f : α → β} {g : β → Json} {l : List α}
    (hread : ∀ a, fits (g (f a)) = true → Readable depth (g (f a))) (h : fits (.array ((l.map f).map g)) = true) :
    Readable (depth + 1) (.array ((l.map f).map g)) := by
  rw [List.map_map] at h ⊢
  refine .array fun item hitem => ?_
  obtain ⟨a, -, rfl⟩ := List.mem_map.1 hitem
  exact hread a (fits_array.1 h _ hitem)

end Json

open Json

/-! ## Members that may be left out -/

namespace Document

theorem mem_unlessNull {name : String} {value : Json} {member : String × Json} (h : member ∈ unlessNull name value) :
    member = (name, value) := by
  unfold unlessNull at h
  split at h
  · cases h
  · exact List.mem_singleton.1 h

theorem names_unlessNull (name : String) (value : Json) :
    List.Sublist ((unlessNull name value).map Prod.fst) [name] := by
  unfold unlessNull
  split
  · exact List.nil_sublist _
  · exact List.Sublist.refl _

end Document

open Document

/-! ## Readable designs -/

theorem Validation.readable (v : Validation) : Readable 1 v.toDocument.toJson := by
  have hnames : List.Nodup (("type", v.toDocument.type) :: unlessNull "value" v.toDocument.value |>.map Prod.fst) :=
    (names_unlessNull "value" v.toDocument.value |>.cons_cons "type").nodup (by decide)
  refine .object hnames fun member hmember => ?_
  obtain rfl | hvalue := List.mem_cons.1 hmember
  · cases v <;> exact .string _
  · rw [mem_unlessNull hvalue]
    cases v with
    | notNull | notBlank => exact .null
    | maxLength n => exact .string _

theorem Field.readable {f : Field} (h : f.toDocument.toJson.fits = true) : Readable 3 f.toDocument.toJson := by
  refine .object ?_ fun member hmember => ?_
  · have hnames := ((List.Sublist.refl ["name", "columnName", "type", "nullable", "unique", "validations"]).append
      (names_unlessNull "length" f.toDocument.length)).append (names_unlessNull "defaultValue" f.toDocument.default)
    have hall := hnames.nodup (by decide)
    rwa [List.map_append, List.map_append]
  · have hfits := fits_object.1 h member hmember
    rw [List.mem_append, List.mem_append] at hmember
    obtain (hfixed | hlength) | hdefault := hmember
    · simp only [List.mem_cons, List.not_mem_nil, or_false] at hfixed
      obtain rfl | rfl | rfl | rfl | rfl | rfl := hfixed
      · exact .string _
      · exact .string _
      · exact .string _
      · exact .bool _
      · exact .bool _
      · exact .array_map_map (fun v _ => v.readable) hfits
    · rw [mem_unlessNull hlength] at hfits ⊢
      obtain ⟨_, _, _, _, _, length, _, _⟩ := f
      cases length with
      | none => exact .null
      | some n => exact .of_fits_int hfits
    · rw [mem_unlessNull hdefault]
      obtain ⟨_, _, _, _, _, _, default, _⟩ := f
      cases default with
      | none => exact .null
      | some text => exact .string text

theorem Entity.readable {e : Entity} (h : e.toDocument.toJson.fits = true) : Readable 5 e.toDocument.toJson := by
  refine .object (by decide : ["id", "name", "tableName", "position", "fields"].Nodup) fun member hmember => ?_
  have hfits := fits_object.1 h member hmember
  simp only [List.mem_cons, List.not_mem_nil, or_false] at hmember
  obtain rfl | rfl | rfl | rfl | rfl := hmember
  · exact .string _
  · exact .string _
  · exact .string _
  · refine .object (by decide : ["x", "y"].Nodup) fun coordinate hcoordinate => ?_
    have hfits := fits_object.1 hfits coordinate hcoordinate
    rw [List.mem_map] at hcoordinate
    obtain ⟨entry, hentry, rfl⟩ := hcoordinate
    obtain rfl | rfl := List.mem_pair.1 hentry
    · exact .of_fits_int hfits
    · exact .of_fits_int hfits
  · exact .array_map_map (fun f hf => f.readable hf) hfits

theorem Relation.readable (r : Relation) : Readable 2 r.toDocument.toJson := by
  refine .object (by decide : ["id", "type", "sourceEntityId", "sourceFieldName", "targetEntityId", "bidirectional",
    "fetchType", "cascade", "foreignKey"].Nodup) fun member hmember => ?_
  simp only [Relation.toDocument, List.mem_cons, List.not_mem_nil, or_false] at hmember
  obtain rfl | rfl | rfl | rfl | rfl | rfl | rfl | rfl | rfl := hmember
  · exact .string _
  · exact .string _
  · exact .string _
  · exact .string _
  · exact .string _
  · exact .bool _
  · exact .string _
  · exact .array fun item hitem => absurd hitem List.not_mem_nil
  · refine .object (by decide : ["columnName", "nullable", "onDelete", "onUpdate"].Nodup) fun part hpart => ?_
    simp only [List.mem_cons, List.not_mem_nil, or_false] at hpart
    obtain rfl | rfl | rfl | rfl := hpart
    · exact .string _
    · exact .bool _
    · exact .string _
    · exact .string _

namespace Design

/-- The document of a design is readable, if its numbers can be written. -/
theorem readable {d : Design} (h : d.toDocument.toJson.fits = true) : Readable 7 d.toDocument.toJson := by
  refine .object (by decide : ["entities", "relations"].Nodup) fun member hmember => ?_
  have hfits := fits_object.1 h member hmember
  obtain rfl | rfl := List.mem_pair.1 hmember
  · exact .array_map_map (fun e he => e.readable he) hfits
  · exact .array_map_map (fun r _ => r.readable.mono (by omega)) hfits

/-! ## Reading a design -/

theorem textKeys_toDocument (d : Design) : ∀ e ∈ d.toDocument.entities, e.TextKeys := by
  intro e he entry hentry
  obtain ⟨e, -, rfl⟩ := List.mem_map.1 he
  obtain rfl | rfl := List.mem_pair.1 hentry
  · exact ⟨"x", rfl⟩
  · exact ⟨"y", rfl⟩

theorem not_mem_indented {d : Design} (h : d.toDocument.toJson.fits = true) :
    '\r' ∉ (indented d.toDocument.toJson).toList := by
  intro hmem
  have hwritten := isWritten_of_mem_indentedAt (readable h) 0 '\r' hmem
  cases hwritten

/-- What is saved of a design is read as its document. -/
theorem read_saved {d : Design} (h : d.toDocument.toJson.fits = true) :
    ∃ text value, Utf8.read (Utf8.write (indented d.toDocument.toJson).toList) = .ok text ∧
      Json.read text = .ok value ∧ Document.ofJson value = .ok d.toDocument := by
  have hread := Utf8.read_write (indented d.toDocument.toJson).toList
  rw [Utf8.plainLines_of_not_mem (not_mem_indented h)] at hread
  have hdepth : 7 ≤ maxNesting := by decide
  exact ⟨_, _, hread, Json.read_indented ((readable h).mono hdepth), ofJson_toJson d.textKeys_toDocument⟩

end Design
end SchemaSketch
