import Mathlib
import SchemaSketch.Proofs.Design.WellFormed
import SchemaSketch.Proofs.Export.Design

/-!
# The columns of a written table

The columns of a written table come from four places: the key, the fields, the relations and the columns
that all tables share.

* **Names as they are written.** Different names are written differently (`Ident.quote_injective`), so a
  table declares a column twice if and only if two of its columns have one name.
* **Fields.** The columns of the fields of a script are pairwise distinct (`Design.columns_fields`), and
  those that all tables share are left out.
* **Relations.** A column is added for a relation unless a field has it. Nothing keeps it apart from the
  shared columns, nor from the column of another relation.

So the columns of a table are pairwise distinct exactly if those that relations add are
(`Design.columns_nodup_iff`).
-/

namespace SchemaSketch

open Text

/-! ## Names as they are written -/

namespace Ident

theorem doubled_injective {a b : List Char} (h : doubled a = doubled b) : a = b := by
  induction a generalizing b with
  | nil =>
    cases b with
    | nil => rfl
    | cons c b =>
      rw [doubled, doubled] at h
      split at h <;> cases h
  | cons c a ih =>
    cases b with
    | nil =>
      rw [doubled, doubled] at h
      split at h <;> cases h
    | cons d b =>
      rw [doubled, doubled] at h
      by_cases hc : c = '"' <;> by_cases hd : d = '"'
      · simp only [hc, hd, beq_self_eq_true, if_true, List.cons.injEq, true_and] at h
        rw [hc, hd, ih h]
      · simp [hc, hd] at h
        exact absurd h.1.symm hd
      · simp [hc, hd] at h
      · simp [hc, hd] at h
        rw [h.1, ih h.2]

/-- A bare identifier does not begin with a quote. -/
theorem isBare_ne_enclosed {a : String} (ha : isBare a = true) (b : List Char) :
    a.toList ≠ enclosed b := by
  intro h
  rw [isBare, h] at ha
  simp [enclosed, isSimple, isSimpleStart] at ha

/-- **Different names are written differently.** -/
theorem quote_injective : Function.Injective quote := by
  intro a b h
  rw [quote, quote] at h
  have hlists := congrArg String.toList h
  by_cases ha : isBare a = true <;> by_cases hb : isBare b = true
  · rwa [if_pos ha, if_pos hb] at h
  · rw [if_pos ha, if_neg hb, String.toList_ofList] at hlists
    exact absurd hlists (isBare_ne_enclosed ha _)
  · rw [if_neg ha, if_pos hb, String.toList_ofList] at hlists
    exact absurd hlists.symm (isBare_ne_enclosed hb _)
  · rw [if_neg ha, if_neg hb, String.toList_ofList, String.toList_ofList, enclosed, enclosed] at hlists
    have hdoubled := List.append_cancel_right (List.cons.inj hlists).2
    exact String.toList_inj.1 (doubled_injective hdoubled)

end Ident

namespace Design

/-! ## Fields -/

/-- A field has the name of its column in the style of fields. -/
theorem name_eq_of_mem_fields {base : BaseColumns} {seen : List String} {columns : List Column}
    {f : Field} (h : f ∈ fields base seen columns) : f.name = Naming.fieldName f.columnName := by
  induction columns generalizing seen with
  | nil => exact absurd h List.not_mem_nil
  | cons c rest ih =>
    rw [fields] at h
    split at h
    · exact ih h
    · dsimp only at h
      split at h
      · exact ih h
      · rcases List.mem_cons.1 h with rfl | h
        · rfl
        · exact ih h

/-- The column of a field is written under its own name. -/
theorem column_eq_of_mem_fields {base : BaseColumns} {seen : List String} {columns : List Column}
    {f : Field} (h : f ∈ fields base seen columns) : f.column = f.columnName := by
  rw [Field.column, if_neg]
  intro hempty
  refine ((names_fields base seen columns).1 f h).1 ?_
  rw [name_eq_of_mem_fields h, String.isEmpty_iff.1 hempty]
  decide

/-- **Fields.** The columns of the fields of a table are pairwise distinct. -/
theorem columns_fields (base : BaseColumns) (columns : List Column) :
    ((fields base [] columns).map (·.column)).Nodup := by
  have hnames := (names_fields base [] columns).2
  have hsame : (fields base [] columns).map (·.name)
      = ((fields base [] columns).map (·.column)).map Naming.fieldName := by
    rw [List.map_map]
    refine List.map_congr_left fun f hf => ?_
    rw [Function.comp, column_eq_of_mem_fields hf, name_eq_of_mem_fields hf]
  rw [hsame] at hnames
  exact hnames.of_map

/-! ## All columns -/

open Export

/-- The names of the columns that every table has. -/
def fixedNames : List String := "id" :: sharedColumns.map (·.1)

theorem isShared_iff (name : String) : isShared name = true ↔ name ∈ fixedNames := by
  rw [isShared, Bool.or_eq_true, beq_iff_eq, List.any_eq_true, fixedNames, List.mem_cons, List.mem_map]
  simp only [beq_iff_eq]

theorem isShared_lowerName_of_mem {name : String} (h : name ∈ fixedNames) :
    isShared (lowerName name) = true := by
  have hall : ∀ name ∈ fixedNames, isShared (lowerName name) = true := by decide +kernel
  exact hall name h

/-- The names of the columns of a table: those that every table has, and those of its own. -/
theorem names_columns_perm (d : Design) (e : Entity) :
    ((d.columns e).map (·.name)).Perm
      (fixedNames ++ (e.ownFields.map (·.column) ++ d.addedNames e)) := by
  have hnames : (d.columns e).map (·.name)
      = "id" :: (e.ownFields.map (·.column) ++ d.addedNames e ++ sharedColumns.map (·.1)) := by
    rw [columns, List.map_append, List.map_append, List.map_cons, List.map_map, List.map_map,
      List.map_map]
    rfl
  rw [hnames, fixedNames, List.cons_append]
  exact List.perm_append_comm.cons "id"

/-- **The columns of a table are pairwise distinct exactly if those that relations add are**, from each
other and from those that every table has. -/
theorem columns_nodup_iff {base : BaseColumns} {script : List Char} {d : Design}
    (h : ofScript base script = .ok d) {e : Entity} (he : e ∈ d.entities) :
    entityStatements d.toDocument e.toDocument = .ok (d.tableScript e) ∧
      (((d.columns e).map (Ident.quote ·.name)).Nodup ↔
        (d.addedNames e).Nodup ∧ ∀ name ∈ d.addedNames e, isShared name = false) := by
  refine ⟨entityStatements_toDocument d e, ?_⟩
  have hfixed : fixedNames.Nodup := by decide
  have hown : (e.ownFields.map (·.column)).Nodup := by
    obtain ⟨statements, -, rfl⟩ := ofScript_eq_ok.1 h
    obtain ⟨columns, hfields⟩ := mem_fields_of_mem_entitiesOf he
    exact (hfields ▸ columns_fields base columns).sublist (List.filter_sublist.map _)
  have hapart : ∀ a ∈ fixedNames, ∀ b ∈ e.ownFields.map (·.column), a ≠ b := by
    rintro a ha b hb rfl
    obtain ⟨f, hf, rfl⟩ := List.mem_map.1 hb
    have hshared := (List.mem_filter.1 hf).2
    rw [isShared_lowerName_of_mem ha] at hshared
    cases hshared
  have hadded : ∀ a ∈ e.ownFields.map (·.column), ∀ b ∈ d.addedNames e, a ≠ b := by
    rintro a ha b hb rfl
    obtain ⟨l, hl, heq⟩ := List.mem_map.1 hb
    obtain ⟨f, hf, hcolumn⟩ := List.mem_map.1 ha
    have hnew := (List.mem_filter.1 hl).2
    have htaken : lowerName l.column ∈ e.ownNames := List.mem_map.2 ⟨f, hf, by rw [hcolumn, heq]⟩
    simp [htaken] at hnew
  have hnames : (d.columns e).map (Ident.quote ·.name) = ((d.columns e).map (·.name)).map Ident.quote := by
    rw [List.map_map]
    rfl
  rw [hnames, List.nodup_map_iff Ident.quote_injective, (names_columns_perm d e).nodup_iff,
    List.nodup_append, List.nodup_append]
  constructor
  · rintro ⟨-, ⟨-, hnodup, -⟩, hdistinct⟩
    refine ⟨hnodup, fun name hname => ?_⟩
    rw [← Bool.not_eq_true, isShared_iff]
    exact fun hmem => hdistinct name hmem name (List.mem_append_right _ hname) rfl
  · rintro ⟨hnodup, hshared⟩
    refine ⟨hfixed, ⟨hown, hnodup, hadded⟩, fun a ha b hb => ?_⟩
    rcases List.mem_append.1 hb with hb | hb
    · exact hapart a ha b hb
    · rintro rfl
      have hnot := hshared a hb
      rw [(isShared_iff a).2 ha] at hnot
      cases hnot

/-- A table that refers to itself by a column of its own. -/
def ownReference : Design where
  entities := [⟨"entity-1", "U", "u", [⟨"x", "x", .integer, true, false, none, none, []⟩], ⟨100, 100⟩⟩]
  relations := [⟨"relation-1", "entity-1", "entity-1", "x", "x", true, .noAction, .noAction⟩]

theorem columns_ownReference :
    ofScript BaseColumns.standard "create table u(x int references u)".toList = .ok ownReference ∧
      ∃ e ∈ ownReference.entities,
        entityStatements ownReference.toDocument e.toDocument = .ok (ownReference.tableScript e) ∧
        ((ownReference.columns e).map (Ident.quote ·.name)).Nodup := by
  have h : ofScript BaseColumns.standard "create table u(x int references u)".toList
      = .ok ownReference := by decide +kernel
  obtain ⟨hwritten, hiff⟩ := columns_nodup_iff h (List.mem_singleton_self _)
  exact ⟨h, _, List.mem_singleton_self _, hwritten, hiff.2 (by decide +kernel)⟩

/-- A table that refers to itself by its key, which becomes no field. -/
def keyReference : Design where
  entities := [⟨"entity-1", "U", "u", [], ⟨100, 100⟩⟩]
  relations := [⟨"relation-1", "entity-1", "entity-1", "id", "id", true, .noAction, .noAction⟩]

/-- A foreign key on the key itself adds a second column of that name. -/
theorem columns_keyReference :
    ofScript BaseColumns.standard "create table u(id int references u)".toList = .ok keyReference ∧
      ∃ e ∈ keyReference.entities,
        entityStatements keyReference.toDocument e.toDocument = .ok (keyReference.tableScript e) ∧
        ¬ ((keyReference.columns e).map (Ident.quote ·.name)).Nodup := by
  refine ⟨by decide +kernel, _, List.mem_singleton_self _, entityStatements_toDocument _ _, ?_⟩
  decide +kernel

end Design
end SchemaSketch
