import SchemaSketch.Proofs.Export.Columns
import SchemaSketch.Proofs.Export.ColumnLines
import SchemaSketch.Proofs.Export.RelationStatements
import SchemaSketch.Proofs.Sql.Items
import SchemaSketch.Proofs.Table.DefaultValues

/-!
# The columns of a written table are read back

Each line inside the parentheses of a written table is an item of its list, and it is read as one column of the name
that is written, without a reference (`Export.WrittenColumn.ReadAs`). This is so for the key and the shared columns
(`Export.exists_readAs_shared`), for the columns that relations add (`Export.Lead.exists_readAs`) and for those of the
fields (`Field.exists_readAs`). The column of a field has its flags, and its type leads back to that of the field.
-/

namespace SchemaSketch

open Text Pattern

/-- A default value that may be written in a list, and that says nothing else of its column. -/
structure PlainDefault (value : String) : Prop where
  item : IsItem value.toList
  silent : ColumnDefinition.Silent value.toList

instance (value : String) : Decidable (PlainDefault value) :=
  decidable_of_iff (IsItem value.toList ∧ ColumnDefinition.Silent value.toList)
    ⟨fun h => ⟨h.1, h.2⟩, fun h => ⟨h.item, h.silent⟩⟩

namespace Ident.Unquoted

variable {name : String} (h : Unquoted name)

include h

theorem writtenName : WrittenName name.toList name.toList where
  covered rest := Identifier.part_append h.plain.ne_nil (fun c hc => isBareChar_of_isSimpleChar (h.plain.simple c hc))
    (by rintro c ⟨⟩; decide)
  stands := h.plain.bareName_eq_self
  first := .inl ⟨h.plain.ne_nil, blank_word h.plain.isWord⟩

theorem isItem : IsItem name.toList := h.isPhrase.item h.plain.isWord h.plain.ne_nil

end Ident.Unquoted

theorem Text.IsItem.spaced {a : List Char} (ha : IsItem a) {parts : List (List Char)} (h : ∀ part ∈ parts, IsItem part) :
    IsItem (a ++ spaced parts) := by
  induction parts generalizing a with
  | nil => rwa [SchemaSketch.spaced, List.flatMap_nil, List.append_nil]
  | cons part parts ih =>
    obtain ⟨hpart, hparts⟩ := List.forall_mem_cons.1 h
    rw [spaced_cons, ← List.cons_append, ← List.append_assoc]
    exact ih (ha.space hpart) hparts

namespace Export

/-- The characters of a column without the indent, its name without quotes. -/
def WrittenColumn.text (w : WrittenColumn) : List Char := w.name.toList ++ ' ' :: w.definition.toList

theorem WrittenColumn.toList_line {w : WrittenColumn} (h : Ident.Unquoted w.name) :
    w.line.toList = "    ".toList ++ w.text := by
  rw [line, indent, h.quote_eq, text]
  simp only [String.toList_append, List.append_assoc]
  rfl

/-- A written column is an item, and it is read as this column. -/
structure WrittenColumn.ReadAs (w : WrittenColumn) (c : Column) : Prop where
  item : IsItem w.text
  read : ∀ table, Definition.of? table w.text = .ok (.column c)
  name : c.name = w.name
  references : c.references = none

section

variable {w : WrittenColumn} (hname : Ident.Unquoted w.name) {type : String} {length : Option Nat}
  (htype : WrittenType type.toList length) (hitem : IsItem type.toList) {nullable unique : Bool} {value? : Option String}
  (hvalue : ∀ value ∈ value?, PlainDefault value)
  (hdefinition : w.definition.toList =
    type.toList ++ ColumnDefinition.rest (flagClauses nullable unique) (value?.map String.toList))

include hname htype hitem hvalue hdefinition

/-- **A column is read as it is written**, if its name needs no quotes and its default value says nothing else. -/
theorem WrittenColumn.exists_readAs :
    ∃ c, w.ReadAs c ∧ c.type = type ∧ c.nullable = nullable ∧ c.unique = unique := by
  have hclauses : ∀ clause ∈ flagClauses nullable unique, IsItem clause.text := by
    cases nullable <;> cases unique <;> decide +kernel
  have hword : IsItem "DEFAULT".toList := by decide +kernel
  have hsilent : ∀ v ∈ value?.map String.toList, ColumnDefinition.Silent v := by
    intro v hv
    obtain ⟨value, hmem, rfl⟩ := Option.map_eq_some_iff.1 hv
    exact (hvalue value hmem).silent
  have hparts : ∀ part ∈ (flagClauses nullable unique).map Clause.text ++
      ((value?.map String.toList).map ("DEFAULT ".toList ++ ·)).toList, IsItem part := by
    refine List.forall_mem_append.2 ⟨List.forall_mem_map.2 hclauses, fun part hpart => ?_⟩
    obtain ⟨v, hv, rfl⟩ := Option.map_eq_some_iff.1 (Option.mem_toList.1 hpart)
    obtain ⟨value, hmem, rfl⟩ := Option.map_eq_some_iff.1 hv
    exact hword.space (hvalue value hmem).item
  obtain ⟨c, hread, hbare, hfacts⟩ := Definition.exists_of?_written hname.writtenName htype nullable unique hsilent
  rw [String.ofList_toList] at hbare
  obtain ⟨hctype, hnullable, hunique, hreferences⟩ := hfacts
  rw [String.ofList_toList] at hctype
  refine ⟨c, ⟨?_, fun table => ?_, hbare, hreferences⟩, hctype, hnullable, hunique⟩
  · rw [text, hdefinition]
    exact hname.isItem.space (hitem.spaced hparts)
  · rw [text, hdefinition]
    exact hread table

end

/-- The key is read as it is written. -/
theorem exists_readAs_id :
    ∃ c, (⟨"id", "BIGSERIAL PRIMARY KEY"⟩ : WrittenColumn).ReadAs c ∧ c.nullable = false := by
  have hname : Ident.Unquoted "id" := by decide +kernel
  have htype : WrittenType "BIGSERIAL".toList none := (writtenType_word (by decide) (by cbv)).1
  have hrest : " PRIMARY KEY".toList = spaced ([Clause.primaryKey].map Clause.text) := by decide
  refine ⟨ColumnDefinition.ofClauses "id".toList "BIGSERIAL".toList none [.primaryKey],
    ⟨?_, fun table => ?_, rfl, rfl⟩, rfl⟩
  · exact hname.isItem.space (by decide +kernel)
  · have hread := (read_written hname.writtenName htype (ColumnDefinition.behindType_spaced [.primaryKey]) table).2
    have hcolumn := @ColumnDefinition.column_spaced "id".toList _ _ htype.tidy htype.length [.primaryKey]
    rw [hname.writtenName.stands] at hcolumn
    rw [hcolumn] at hread
    change (Definition.read table ("id".toList ++ ' ' :: ("BIGSERIAL".toList ++ " PRIMARY KEY".toList))).map _ = _
    rw [hrest, hread]
    rfl

/-- The shared columns are read as they are written. -/
theorem exists_readAs_shared : ∀ p ∈ sharedColumns, ∃ c, (⟨p.1, p.2⟩ : WrittenColumn).ReadAs c := by
  have hread : ∀ {name definition type : String} {length : Option Nat} {value? : Option String}, Ident.Unquoted name →
      WrittenType type.toList length → IsItem type.toList → (∀ value ∈ value?, PlainDefault value) →
      definition.toList = type.toList ++ ColumnDefinition.rest (flagClauses true false) (value?.map String.toList) →
      ∃ c, (⟨name, definition⟩ : WrittenColumn).ReadAs c := fun hname htype hitem hvalue hdefinition =>
    (WrittenColumn.exists_readAs hname htype hitem hvalue hdefinition).imp fun _ h => h.1
  have hnumber : ∀ n ∈ [20, 100], (Nat.toDigits 10 n).length ≤ ColumnType.maxDigits := by decide +kernel
  have hvarchar : ∀ n ∈ [20, 100], WrittenType (varchar (toString n)).toList (some n) := fun n hn =>
    (PlainField.writtenType_varchar (hnumber n hn)).1
  have htimestamp : WrittenType "TIMESTAMP".toList none := (writtenType_word (by decide) (by cbv)).1
  have hbigint : WrittenType "BIGINT".toList none := (writtenType_word (by decide) (by cbv)).1
  have hplain : ∀ value ∈ [some "'ACTIVO'", some "CURRENT_TIMESTAMP", some "0", none], ∀ v ∈ value, PlainDefault v := by
    decide +kernel
  have hnames : ∀ p ∈ sharedColumns, Ident.Unquoted p.1 := by decide +kernel
  simp only [sharedColumns, List.forall_mem_cons, List.not_mem_nil, false_implies, implies_true, and_true]
    at hnames hplain ⊢
  obtain ⟨hestado, hcreacion, hactualizacion, hcreado, hmodificado, hversion⟩ := hnames
  obtain ⟨hactivo, hcurrent, hzero, hnone⟩ := hplain
  refine ⟨?_, ?_, ?_, ?_, ?_, ?_⟩
  · exact hread hestado (hvarchar 20 (by decide)) (by decide +kernel) hactivo (by decide +kernel)
  · exact hread hcreacion htimestamp (by decide +kernel) hcurrent (by decide +kernel)
  · exact hread hactualizacion htimestamp (by decide +kernel) hcurrent (by decide +kernel)
  · exact hread hcreado (hvarchar 100 (by decide)) (by decide +kernel) hnone (by decide +kernel)
  · exact hread hmodificado (hvarchar 100 (by decide)) (by decide +kernel) hnone (by decide +kernel)
  · exact hread hversion hbigint (by decide +kernel) hzero (by decide +kernel)

/-- **The column of a relation** is read as it is written. -/
theorem Lead.exists_readAs (l : Lead) (hname : Ident.Unquoted l.column) :
    ∃ c, (⟨l.column, l.definition⟩ : WrittenColumn).ReadAs c ∧ c.nullable = l.relation.nullable := by
  have htype : WrittenType "BIGINT".toList none := (writtenType_word (by decide) (by cbv)).1
  have hdefinition : l.definition.toList = "BIGINT".toList ++
      ColumnDefinition.rest (flagClauses l.relation.nullable false) ((none : Option String).map String.toList) := by
    rw [Lead.definition, String.toList_append]
    cases l.relation.nullable <;> decide
  obtain ⟨c, hread, -, hnullable, -⟩ := WrittenColumn.exists_readAs (w := ⟨l.column, l.definition⟩) hname htype
    (by decide +kernel) (by rintro value ⟨⟩) hdefinition
  exact ⟨c, hread, hnullable⟩

end Export

/-! ## Fields -/

namespace Field

/-- The default value that is written, if one is. -/
def value? (f : Field) : Option String := f.default.filter (!·.isEmpty)

theorem defaultWords_eq (f : Field) : f.defaultWords = (f.value?.map ("DEFAULT " ++ ·)).toList := by
  rw [defaultWords, value?]
  cases f.default with
  | none => rfl
  | some value =>
    dsimp only
    rw [Option.filter_some]
    cases value.isEmpty <;> rfl

theorem toList_definition (f : Field) : f.definition.toList =
    f.sqlType.toList ++ ColumnDefinition.rest (flagClauses f.nullable f.unique) (f.value?.map String.toList) := by
  have hflags : ((if f.nullable then [] else ["NOT NULL"]) ++ (if f.unique then ["UNIQUE"] else [])).map String.toList =
      (flagClauses f.nullable f.unique).map Clause.text := by
    cases f.nullable <;> cases f.unique <;> rfl
  have hdefault : f.defaultWords.map String.toList =
      ((f.value?.map String.toList).map ("DEFAULT ".toList ++ ·)).toList := by
    rw [defaultWords_eq]
    cases f.value? with
    | none => rfl
    | some value => exact congrArg (fun v => [v]) String.toList_append
  rw [definition, PlainField.toList_intercalate_space, List.map_append, hflags, hdefault, ColumnDefinition.rest]

end Field

namespace Design

/-- The length that is written for a text. -/
def width (length : Option Nat) : Nat := (length.filter (· != 0)).getD usualLength

/-- The rules for the length of a text. -/
def widthRules (length : Option Nat) : List Validation :=
  match length with
  | some n => if n != 0 && n != usualLength then [.maxLength n] else []
  | none => []

theorem validations_field (c : Column) (name : String) (h : ColumnType.fieldType c.type.toList = .string) :
    (field c name).toDocument.validations =
      ((if c.nullable then [] else [Validation.notBlank]) ++ widthRules c.length).map Validation.toDocument := by
  change (validations (ColumnType.fieldType c.type.toList) c.nullable c.length).map Validation.toDocument = _
  rw [validations.eq_def, h, if_pos rfl]
  simp only [decide_true, Bool.true_and]
  cases c.length <;> rfl

/-- Only the rules for its length tell how wide a text is. -/
theorem findSome?_sizeOf (nullable : Bool) (rules : List Validation) :
    (((if nullable then [] else [Validation.notBlank]) ++ rules).map Validation.toDocument).findSome? Export.sizeOf? =
      (rules.map Validation.toDocument).findSome? Export.sizeOf? := by
  have hother : Export.sizeOf? Validation.notBlank.toDocument = none := by decide +kernel
  cases nullable with
  | true => rfl
  | false => rw [if_neg Bool.false_ne_true, List.singleton_append, List.map_cons, List.findSome?_cons, hother]

theorem sizeOf?_maxLength (n : Nat) : Export.sizeOf? (Validation.maxLength n).toDocument = some (toString n) := by
  have habout : aboutSize (Validation.maxLength n).toDocument = true :=
    (Json.agrees_string "Size" "Size").trans (beq_self_eq_true "Size")
  exact PlainField.sizeOf?_max habout rfl

/-- **The width of a text** is written from its rules, or else from its length. -/
theorem textType_field (c : Column) (name : String) (h : ColumnType.fieldType c.type.toList = .string) :
    Export.textType (field c name).toDocument = Export.varchar (toString (width c.length)) := by
  have hgiven : (field c name).toDocument.length = match c.length with | some n => .int n | none => .null := rfl
  rw [Export.textType, validations_field c name h, findSome?_sizeOf, hgiven, width]
  cases hlength : c.length with
  | none => rfl
  | some n =>
    by_cases hzero : n = 0
    · subst hzero
      rfl
    by_cases husual : n = usualLength
    · subst husual
      decide +kernel
    · have hwidth : ((some n).filter (· != 0)).getD usualLength = n := by
        rw [Option.filter_some, if_pos (bne_iff_ne.2 hzero), Option.getD_some]
      rw [widthRules, bne_iff_ne.2 hzero, bne_iff_ne.2 husual, Bool.and_self, if_pos rfl, List.map_singleton,
        List.findSome?_singleton, sizeOf?_maxLength, hwidth]

theorem fieldType_ne_instant (written : List Char) : ColumnType.fieldType written ≠ .instant := by
  have hknown : ∀ p ∈ ColumnType.known, p.2 ≠ .instant := by decide
  have hfound : ∀ found : Option (String × FieldType), (∀ p ∈ found, p.2 ≠ .instant) →
      (found.map (·.2)).getD .string ≠ .instant := by
    rintro (_ | p) h
    · decide
    · exact h p rfl
  exact hfound _ fun p hp => hknown p (List.mem_of_find?_eq_some hp)

end Design

/-- A type with a length is an item. -/
theorem Export.isItem_varchar (n : Nat) : IsItem (varchar (toString n)).toList := by
  have hdigits : ∀ d ∈ Nat.toDigits 10 n, d.isDigit = true := (Numeral.ofNat n).isDigit
  have hword : IsPhrase "VARCHAR".toList := by decide +kernel
  have htext : (varchar (toString n)).toList = "VARCHAR".toList ++ '(' :: (Nat.toDigits 10 n ++ [')']) := by
    rw [varchar, String.toList_append, String.toList_append, toList_toString, List.append_assoc]
    rfl
  rw [htext]
  exact hword.call (List.all_eq_true.1 (by decide +kernel)) (.number hdigits) fun d hd =>
    Spot.isWord_of_isDigit (hdigits d hd)

namespace Field

variable {f : Field} {c : Column} {name : String} (hf : f = Design.field c name)
  (hfits : ∀ n ∈ c.length, (Nat.toDigits 10 n).length ≤ ColumnType.maxDigits)

include hf hfits

/-- The type that is written for a field leads back to that of the field. -/
theorem exists_writtenType : ∃ length, WrittenType f.sqlType.toList length ∧ IsItem f.sqlType.toList ∧
    ColumnType.fieldType f.sqlType.toList = f.type := by
  have hftype : f.type = ColumnType.fieldType c.type.toList := by rw [hf]; rfl
  by_cases hstring : f.type = .string
  · have hwidth : (Nat.toDigits 10 (Design.width c.length)).length ≤ ColumnType.maxDigits := by
      rw [Design.width]
      cases hlength : c.length with
      | none => decide +kernel
      | some n =>
        rw [Option.filter_some]
        split
        · exact hfits n hlength
        · decide +kernel
    obtain ⟨htype, hback⟩ := PlainField.writtenType_varchar hwidth
    have hsql : f.sqlType = Export.varchar (toString (Design.width c.length)) := by
      rw [sqlType, if_pos hstring, hf, Design.textType_field c name (hftype.symm.trans hstring)]
    rw [hsql, hstring]
    exact ⟨_, htype, Export.isItem_varchar _, hback⟩
  · have hitems : ∀ p ∈ Export.sqlTypes, IsItem p.2.toList := by decide +kernel
    obtain ⟨type, length, hlookup, htype, hback⟩ :=
      PlainField.exists_lookup hstring (hftype ▸ Design.fieldType_ne_instant c.type.toList)
    have hsql : f.sqlType = type := by rw [sqlType, if_neg hstring, hlookup, Option.getD_some]
    obtain ⟨before, after, hsplit, -⟩ := List.lookup_eq_some_iff.1 hlookup
    have hmem : (f.type.name, type) ∈ Export.sqlTypes := by simp [hsplit]
    rw [hsql]
    exact ⟨length, htype, hitems _ hmem, hback⟩

/-- **The column of a field** is read as it is written, with a type that leads back to that of the field. -/
theorem exists_readAs (hname : Ident.Unquoted f.column) (hvalue : ∀ value ∈ f.value?, PlainDefault value) :
    ∃ c', (⟨f.column, f.definition⟩ : Export.WrittenColumn).ReadAs c' ∧ ColumnType.fieldType c'.type.toList = f.type ∧
      c'.nullable = f.nullable ∧ c'.unique = f.unique := by
  obtain ⟨length, htype, hitem, hback⟩ := exists_writtenType hf hfits
  obtain ⟨c', hread, hctype, hnullable, hunique⟩ := Export.WrittenColumn.exists_readAs (w := ⟨f.column, f.definition⟩)
    hname htype hitem hvalue f.toList_definition
  exact ⟨c', hread, hctype ▸ hback, hnullable, hunique⟩

end Field
end SchemaSketch
