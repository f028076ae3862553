import SchemaSketch.Proofs.Design.Fields
import SchemaSketch.Proofs.Export.Rereading
import SchemaSketch.Proofs.Export.WrittenColumns
import SchemaSketch.Proofs.Measured

/-!
# The columns that are read of a written table

Of a written table are read the key, a column for each field, one for each relation that adds its own, and those that all
tables share (`Design.ReadColumns`). The columns of the fields become the same fields again, since the others are left out
(`ReadColumns.faces_columns`), and the first column of a relation's name tells whether the reference may be absent
(`ReadColumns.nullable_columns`).
-/

namespace SchemaSketch

open Text

theorem exists_forall₂ {α β : Type} {R : α → β → Prop} {l : List α} (h : ∀ a ∈ l, ∃ b, R a b) :
    ∃ bs, List.Forall₂ R l bs := by
  induction l with
  | nil => exact ⟨[], .nil⟩
  | cons a rest ih =>
    obtain ⟨ha, hrest⟩ := List.forall_mem_cons.1 h
    obtain ⟨b, hb⟩ := ha
    obtain ⟨bs, hbs⟩ := ih hrest
    exact ⟨b :: bs, .cons hb hbs⟩

theorem exists_of_mem_forall₂ {α β : Type} {R : α → β → Prop} {l : List α} {bs : List β} (h : List.Forall₂ R l bs) :
    (∀ a ∈ l, ∃ b ∈ bs, R a b) ∧ ∀ b ∈ bs, ∃ a ∈ l, R a b := by
  induction h with
  | nil => exact ⟨nofun, nofun⟩
  | @cons a b l bs hab _ ih =>
    refine ⟨List.forall_mem_cons.2 ⟨⟨b, List.mem_cons_self .., hab⟩, fun a' ha' => ?_⟩,
      List.forall_mem_cons.2 ⟨⟨a, List.mem_cons_self .., hab⟩, fun b' hb' => ?_⟩⟩
    · obtain ⟨b', hb', hR⟩ := ih.1 a' ha'
      exact ⟨b', List.mem_cons_of_mem _ hb', hR⟩
    · obtain ⟨a', ha', hR⟩ := ih.2 b' hb'
      exact ⟨a', List.mem_cons_of_mem _ ha', hR⟩

namespace Design

open Export

/-! ## Fields of columns -/

/-- A column that is read for a field. -/
structure ReadFor (f : Field) (c : Column) : Prop where
  read : (⟨f.column, f.definition⟩ : WrittenColumn).ReadAs c
  face : (field c f.name).face = f.face

variable {base : BaseColumns}

/-- The columns of fields become these fields again, if nothing is in the way of their names. -/
theorem fields_readFor {fs : List Field} {cs : List Column} (h : List.Forall₂ ReadFor fs cs)
    (hbase : ∀ f ∈ fs, base.holds f.column = false)
    (hnames : ∀ f ∈ fs, f.name = Naming.fieldName f.column ∧ f.name ≠ "") (hnodup : (fs.map (·.name)).Nodup)
    {seen : List String} (hseen : ∀ f ∈ fs, f.name ∉ seen) (rest : List Column) :
    (fields base seen (cs ++ rest)).map (·.face) =
      fs.map (·.face) ++ (fields base ((fs.map (·.name)).reverse ++ seen) rest).map (·.face) := by
  induction h generalizing seen with
  | nil => rfl
  | @cons f c fs cs hc _ ih =>
    obtain ⟨hfbase, hbase⟩ := List.forall_mem_cons.1 hbase
    obtain ⟨⟨hname, hne⟩, hnames⟩ := List.forall_mem_cons.1 hnames
    obtain ⟨hfseen, hseen⟩ := List.forall_mem_cons.1 hseen
    obtain ⟨hnew, hnodup⟩ := List.nodup_cons.1 hnodup
    have hcolumn : c.name = f.column := hc.read.name
    have hkeep : (f.name.isEmpty || seen.contains f.name) = false := by
      rw [Bool.or_eq_false_iff, String.isEmpty_eq_false_iff]
      exact ⟨hne, by simpa using hfseen⟩
    have hmore : ∀ g ∈ fs, g.name ∉ f.name :: seen := fun g hg => List.not_mem_cons_of_ne_of_not_mem
      (fun heq => hnew (List.mem_map.2 ⟨g, hg, heq⟩)) (hseen g hg)
    rw [List.cons_append, fields, hcolumn, hfbase, if_neg Bool.false_ne_true, ← hname]
    dsimp only
    rw [hkeep, if_neg Bool.false_ne_true, List.map_cons, ih hbase hnames hnodup hmore, hc.face, List.map_cons,
      List.map_cons, List.reverse_cons, List.append_assoc]
    rfl

/-- Columns that are left out. -/
theorem fields_eq_nil {seen : List String} {cs : List Column}
    (h : ∀ c ∈ cs, base.holds c.name = true ∨ Naming.fieldName c.name = "" ∨ Naming.fieldName c.name ∈ seen) :
    fields base seen cs = [] := by
  induction cs with
  | nil => rfl
  | cons c rest ih =>
    obtain ⟨hc, hrest⟩ := List.forall_mem_cons.1 h
    rw [fields, ih hrest]
    split
    · rfl
    · next hbase =>
      have hskip : ((Naming.fieldName c.name).isEmpty || seen.contains (Naming.fieldName c.name)) = true := by
        rw [Bool.or_eq_true, List.contains_iff_mem, String.isEmpty_iff]
        exact hc.resolve_left hbase
      exact if_pos hskip

/-- A field is made of a column that is no base column. -/
theorem exists_of_mem_fields {seen : List String} {columns : List Column} {f : Field}
    (h : f ∈ fields base seen columns) : ∃ c ∈ columns, f = field c f.name ∧ base.holds c.name = false := by
  rw [fields_eq_firstBy] at h
  obtain ⟨c, hc, rfl⟩ := List.mem_map.1 h
  obtain ⟨hmem, hkeep⟩ := List.mem_filter.1 ((firstBy_sublist _ _ _).subset hc)
  rw [Bool.and_eq_true, Bool.not_eq_true'] at hkeep
  exact ⟨c, hmem, rfl, hkeep.1⟩

/-- The columns that every table has are base columns, unless others are named. -/
theorem holds_standard_of_mem {name : String} (h : name ∈ fixedNames) : BaseColumns.standard.holds name = true := by
  have hall : ∀ name ∈ fixedNames, BaseColumns.standard.holds name = true := by decide +kernel
  exact hall name h

theorem isShared_of_holds_standard {column : String} (h : BaseColumns.standard.holds column = false) :
    isShared (lowerName column) = false := by
  have hall : ∀ name ∈ fixedNames, BaseColumns.standard.contains name = true := by decide +kernel
  rw [BaseColumns.holds, Bool.or_eq_false_iff] at h
  refine Bool.eq_false_iff.2 fun hshared => ?_
  rw [hall _ ((isShared_iff _).1 hshared)] at h
  exact Bool.false_ne_true h.1.symm

/-! ## The columns of a table -/

/-- The columns of an entity's table as they are read, by the places that they come from. -/
structure ReadColumns (d : Design) (e : Entity) where
  /-- the key -/
  key : Column
  /-- those of the fields -/
  own : List Column
  /-- those that relations add -/
  added : List Column
  /-- those that all tables share -/
  shared : List Column
  read_key : (⟨"id", "BIGSERIAL PRIMARY KEY"⟩ : WrittenColumn).ReadAs key
  nullable_key : key.nullable = false
  read_own : List.Forall₂ ReadFor e.ownFields own
  read_added : List.Forall₂ (fun (l : Lead) c => (⟨l.column, l.definition⟩ : WrittenColumn).ReadAs c ∧
    c.nullable = l.relation.nullable) (d.adding e) added
  read_shared : List.Forall₂ (fun p c => (⟨p.1, p.2⟩ : WrittenColumn).ReadAs c) sharedColumns shared

namespace ReadColumns

variable {d : Design} {e : Entity}

/-- All of them, in order. -/
def columns (r : d.ReadColumns e) : List Column := r.key :: (r.own ++ (r.added ++ r.shared))

/-- **Every column is read**, if the names of fields and relations need no quotes. -/
theorem exists_readColumns
    (hfields : ∀ f ∈ e.fields, Ident.Unquoted f.column ∧ (∀ value ∈ f.value?, PlainDefault value) ∧
      ∃ c : Column, f = field c f.name ∧ c.Measured)
    (hleads : ∀ l ∈ d.leads e, Ident.Unquoted l.column) : Nonempty (d.ReadColumns e) := by
  obtain ⟨key, hkey, hnullable⟩ := exists_readAs_id
  have hown : ∀ f ∈ e.ownFields, ∃ c, ReadFor f c := by
    intro f hf
    obtain ⟨hname, hvalue, c, hc, hmeasured⟩ := hfields f (List.mem_filter.1 hf).1
    obtain ⟨c', hread, htype, hnullable, hunique⟩ := Field.exists_readAs hc hmeasured.length_toDigits_le hname hvalue
    exact ⟨c', hread, by simp only [Field.face, field, htype, hnullable, hunique]⟩
  have hadded : ∀ l ∈ d.adding e, ∃ c, (⟨l.column, l.definition⟩ : WrittenColumn).ReadAs c ∧
      c.nullable = l.relation.nullable := fun l hl => l.exists_readAs (hleads l (List.mem_filter.1 hl).1)
  obtain ⟨own, hown⟩ := exists_forall₂ hown
  obtain ⟨added, hadded⟩ := exists_forall₂ hadded
  obtain ⟨shared, hshared⟩ := exists_forall₂ exists_readAs_shared
  exact ⟨⟨key, own, added, shared, hkey, hnullable, hown, hadded, hshared⟩⟩

theorem forall₂_columns (r : d.ReadColumns e) : List.Forall₂ WrittenColumn.ReadAs (d.columns e) r.columns := by
  have hown := r.read_own.imp fun _ _ h => h.read
  have hadded := r.read_added.imp fun _ _ h => h.1
  rw [Design.columns, List.append_assoc, List.cons_append]
  refine .cons r.read_key (List.rel_append ?_ (List.rel_append ?_ ?_))
  · exact List.forall₂_map_left_iff.2 hown
  · exact List.forall₂_map_left_iff.2 hadded
  · exact List.forall₂_map_left_iff.2 r.read_shared

/-! ## What is made of them -/

/-- **The fields** are those of the entity, if no column that a relation adds becomes another one. -/
theorem faces_columns (r : d.ReadColumns e) (hbase : ∀ f ∈ e.fields, BaseColumns.standard.holds f.column = false)
    (hnames : ∀ f ∈ e.fields, f.name = Naming.fieldName f.column ∧ f.name ≠ "") (hnodup : (e.fields.map (·.name)).Nodup)
    (hadded : ∀ l ∈ d.adding e, BaseColumns.standard.holds l.column = true ∨ Naming.fieldName l.column = "" ∨
      Naming.fieldName l.column ∈ e.fields.map (·.name)) :
    (fields .standard [] r.columns).map (·.face) = e.fields.map (·.face) := by
  have hown : e.ownFields = e.fields := by
    refine List.filter_eq_self.2 fun f hf => ?_
    rw [isShared_of_holds_standard (hbase f hf)]
    rfl
  have hread := r.read_own
  rw [hown] at hread
  have hkey : BaseColumns.standard.holds r.key.name = true := by
    rw [r.read_key.name]
    exact holds_standard_of_mem (List.mem_cons_self ..)
  have hrest : ∀ c ∈ r.added ++ r.shared, BaseColumns.standard.holds c.name = true ∨ Naming.fieldName c.name = "" ∨
      Naming.fieldName c.name ∈ (e.fields.map (·.name)).reverse ++ [] := by
    refine List.forall_mem_append.2 ⟨fun c hc => ?_, fun c hc => ?_⟩
    · obtain ⟨l, hl, hlc, -⟩ := (exists_of_mem_forall₂ r.read_added).2 c hc
      rw [hlc.name, List.append_nil, List.mem_reverse]
      exact hadded l hl
    · obtain ⟨p, hp, hpc⟩ := (exists_of_mem_forall₂ r.read_shared).2 c hc
      rw [hpc.name]
      exact .inl (holds_standard_of_mem (List.mem_cons_of_mem _ (List.mem_map_of_mem hp)))
  rw [columns, fields, hkey, if_pos rfl, fields_readFor hread hbase hnames hnodup (fun _ _ => List.not_mem_nil),
    fields_eq_nil hrest, List.map_nil, List.append_nil]

/-- Among the columns that are added the first of a name tells what all relations with that column tell. -/
theorem nullable_added (r : d.ReadColumns e) {l : Lead} (hl : l ∈ d.adding e)
    (hleads : ∀ l' ∈ d.leads e, lowerName l'.column = lowerName l.column → l'.relation.nullable = l.relation.nullable) :
    ((r.added ++ r.shared).find? (sameName ·.name l.column)).map (·.nullable) = some l.relation.nullable := by
  rw [List.find?_append]
  cases hfind : r.added.find? (sameName ·.name l.column) with
  | none =>
    obtain ⟨c, hc, hlc, -⟩ := (exists_of_mem_forall₂ r.read_added).1 l hl
    have hname : c.name = l.column := hlc.name
    have hnot := List.find?_eq_none.1 hfind c hc
    rw [hname, sameName, beq_self_eq_true] at hnot
    exact absurd rfl hnot
  | some c =>
    obtain ⟨l', hl', hlc, hnullable⟩ := (exists_of_mem_forall₂ r.read_added).2 c (List.mem_of_find?_eq_some hfind)
    have hname : c.name = l'.column := hlc.name
    have hfound := List.find?_some hfind
    rw [hname, sameName, beq_iff_eq] at hfound
    rw [Option.some_or, Option.map_some, hnullable, hleads l' (List.mem_filter.1 hl').1 hfound]

/-- **The first column of a relation's name** may be empty if and only if the reference may be absent. -/
theorem nullable_columns (r : d.ReadColumns e) {l : Lead} (hl : l ∈ d.leads e)
    (hkey : lowerName l.column = "id" → l.relation.nullable = false)
    (hown : ∀ f ∈ e.ownFields, lowerName f.column = lowerName l.column → f.nullable = l.relation.nullable)
    (hleads : ∀ l' ∈ d.leads e, lowerName l'.column = lowerName l.column →
      l'.relation.nullable = l.relation.nullable) :
    (r.columns.find? (sameName ·.name l.column)).map (·.nullable) = some l.relation.nullable := by
  have hkeyname : r.key.name = "id" := r.read_key.name
  have hownname : ∀ {f : Field} {c : Column}, ReadFor f c → c.name = f.column := fun h => h.read.name
  rw [columns, List.find?_cons, hkeyname]
  cases hid : sameName "id" l.column with
  | true =>
    have hlower : lowerName l.column = "id" := by
      rw [← beq_iff_eq.1 hid]
      decide +kernel
    exact congrArg some (r.nullable_key.trans (hkey hlower).symm)
  | false =>
    dsimp only
    rw [List.find?_append]
    cases hfind : r.own.find? (sameName ·.name l.column) with
    | some c =>
      obtain ⟨f, hf, hfc⟩ := (exists_of_mem_forall₂ r.read_own).2 c (List.mem_of_find?_eq_some hfind)
      have hfound := List.find?_some hfind
      rw [hownname hfc, sameName, beq_iff_eq] at hfound
      have hnullable : c.nullable = f.nullable := congrArg (fun face => face.2.2.1) hfc.face
      rw [Option.some_or, Option.map_some, hnullable, hown f hf hfound]
    | none =>
      have hnew : lowerName l.column ∉ e.ownNames := by
        intro hmem
        obtain ⟨f, hf, hlower⟩ := List.mem_map.1 hmem
        obtain ⟨c, hc, hfc⟩ := (exists_of_mem_forall₂ r.read_own).1 f hf
        refine List.find?_eq_none.1 hfind c hc ?_
        rw [hownname hfc, sameName, beq_iff_eq]
        exact hlower
      rw [Option.none_or]
      exact r.nullable_added (List.mem_filter.2 ⟨hl, by simpa using hnew⟩) hleads

end ReadColumns
end Design
end SchemaSketch
