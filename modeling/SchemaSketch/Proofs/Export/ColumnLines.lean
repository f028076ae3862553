import SchemaSketch.Proofs.Json.Numbers
import SchemaSketch.Proofs.Table.Lines
import SchemaSketch.Export.Script

/-!
# Column lines are read as they are written

The line that is written for a field (`Export.columnLine`) is an entry of a column list. For a field of any type but
one, with a name that stands for itself and a constant as its default (`PlainField`), the entry is read as a column of
the same name, flags and default, and its type leads back to the type of the field (`PlainField.addEntry_line`). The
length of a text is the one that its rule about size sets, else its own, else the usual one.

The type that is left out is `Instant`, whose base stands for a local time as well.
-/

namespace SchemaSketch

open Text Pattern Export

/-! ## Numbers -/

/-- The figures of a number say the number. -/
theorem ColumnType.numberFrom_eq {ds : List Char} (h : ∀ c ∈ ds, c.isDigit = true) (value : Nat) :
    numberFrom value ds = Nat.ofDigitChars 10 ds value := by
  induction ds generalizing value with
  | nil => rfl
  | cons c ds ih =>
    obtain ⟨hc, hds⟩ := List.forall_mem_cons.1 h
    have hdecimal : ∀ c ∈ "0123456789".toList, (decimal? c).getD 0 = c.toNat - '0'.toNat :=
      List.forall_iff_forall_mem.1 (by decide)
    rw [numberFrom, ih hds, hdecimal c (mem_figures hc)]
    rfl

theorem ColumnType.numberFrom_toDigits (n : Nat) : numberFrom 0 (Nat.toDigits 10 n) = n := by
  rw [numberFrom_eq fun c hc => Nat.isDigit_of_mem_toDigits (by omega) (by omega) hc]
  exact Nat.ofDigitChars_ten_toDigits

theorem toList_toString (n : Nat) : (toString n).toList = Nat.toDigits 10 n := by
  rw [Nat.toString_eq_ofList_toDigits, String.toList_ofList]

/-- A number as it is written. -/
def Numeral.ofNat (n : Nat) : Numeral where
  negative := false
  digits := Nat.toDigits 10 n
  ne_nil := Nat.toDigits_ne_nil
  isDigit c hc := Nat.isDigit_of_mem_toDigits (by omega) (by omega) hc

/-! ## Fields -/

/-- A constant as a default. -/
inductive Constant where
  | number (n : Numeral)
  | literal (l : Literal)

namespace Constant

/-- The characters of a constant. -/
def text : Constant → List Char
  | number n => n.text
  | literal l => l.text

/-- The clause that gives a constant as the default. -/
def clause : Constant → Clause
  | number n => .defaultNumber n
  | literal l => .defaultLiteral l

theorem text_ne_nil (k : Constant) : k.text ≠ [] := by
  cases k with
  | number n => exact n.text_ne_nil
  | literal l => exact List.cons_ne_nil _ _

theorem value?_clause (k : Constant) : k.clause.value? = some k.text := by cases k <;> rfl

theorem text_clause (k : Constant) : k.clause.text = "DEFAULT ".toList ++ k.text := by cases k <;> rfl

end Constant

/-- Whether a rule is about the size of a value. -/
def aboutSize (rule : Document.Validation) : Bool := rule.type.agrees (.string "Size")

/-- Whether a number can be a length. -/
def IsLength (n : Nat) : Prop := 0 < n ∧ (Nat.toDigits 10 n).length ≤ ColumnType.maxDigits

/-- A field of a document that says what it means, and can be read back. -/
structure PlainField where
  /-- the field -/
  field : Document.Field
  /-- its column -/
  column : String
  columnName_eq : field.columnName = .string column
  column_ne_nil : column.toList ≠ []
  no_quote : '"' ∉ column.toList
  no_line : '\n' ∉ column.toList
  no_zeroWidth : Identifier.zeroWidthSpace ∉ column.toList
  head : ∀ c ∈ column.toList.head?, Identifier.isEnclosing c = false
  last : ∀ c ∈ column.toList.getLast?, Identifier.isEnclosing c = false
  /-- its type -/
  type : FieldType
  type_eq : field.type = .string type.name
  not_instant : type ≠ .instant
  /-- whether it may be empty -/
  nullable : Bool
  nullable_eq : field.nullable = .bool nullable
  /-- whether its values are pairwise distinct -/
  unique : Bool
  unique_eq : field.unique = .bool unique
  /-- its own length -/
  length : Option Nat
  length_eq : field.length = match length with | some n => .int n | none => .null
  isLength : ∀ n ∈ length, IsLength n
  /-- the length that its rule about size sets -/
  size : Option Nat
  rules : (field.validations.filter aboutSize).map (·.value) =
    (size.map fun n => Json.string ("max = " ++ toString n)).toList
  isSize : ∀ n ∈ size, IsLength n
  /-- its default -/
  default : Option Constant
  default_eq : field.default = match default with | some k => .string (String.ofList k.text) | none => .null

namespace PlainField

variable (f : PlainField)

/-- The length of a text: by its rule, else its own, else the usual one. -/
def width : Nat := (f.size.or f.length).getD 255

/-- What its line says behind its type. -/
def clauses : List Clause :=
  (if f.nullable then [] else [.notNull]) ++ (if f.unique then [.unique] else [])
    ++ (f.default.map Constant.clause).toList

/-! ## Lengths -/

/-- The greatest length of a rule is read as it is written. -/
theorem greatest_max (n : Nat) : greatest ("max = ".toList ++ Nat.toDigits 10 n) = some (Nat.toDigits 10 n, []) := by
  have hdigit : ∀ c ∈ Nat.toDigits 10 n, isDecimal c = true ∧ isBlank c = false :=
    (Numeral.ofNat n).forall_mem_digits (by decide)
  have hblanks : blanks (' ' :: Nat.toDigits 10 n) = some 1 := by
    have hrun : ([' '] ++ Nat.toDigits 10 n).takeWhile isBlank = [' '] :=
      takeWhile_append (List.forall_mem_singleton.2 rfl) fun c hc => (hdigit c (List.mem_of_mem_head? hc)).2
    exact congrArg (fun run : List Char => some run.length) hrun
  have hequals : (char '=' >> blanks) ('=' :: ' ' :: Nat.toDigits 10 n) = some 2 :=
    (andThen_of_eq_some (n := 1) rfl _).trans (congrArg (Option.map (1 + ·)) hblanks)
  have hsign : (blanks >> char '=' >> blanks) (' ' :: '=' :: ' ' :: Nat.toDigits 10 n) = some 3 :=
    (andThen_of_eq_some (n := 1) rfl _).trans (congrArg (Option.map (1 + ·)) hequals)
  have hskip : (exactly ['m', 'a', 'x'] >> blanks >> char '=' >> blanks)
      ("max = ".toList ++ Nat.toDigits 10 n) = some 6 :=
    (andThen_of_eq_some (n := 3) rfl _).trans (congrArg (Option.map (3 + ·)) hsign)
  have hdigits : Token.digits1 (Nat.toDigits 10 n) = some (Nat.toDigits 10 n).length := by
    refine many1_eq_some.2 ⟨List.length_pos_iff.2 Nat.toDigits_ne_nil, ?_⟩
    rw [List.takeWhile_eq_self_iff.2 fun c hc => (hdigit c hc).1]
  have htake : Reader.take Token.digits1 (Nat.toDigits 10 n) = some (Nat.toDigits 10 n, []) := by
    rw [Reader.take, hdigits, Option.map_some, List.take_length, List.drop_length]
  rw [greatest, Reader.skip_bind, hskip]
  exact htake

theorem sizeOf?_max {rule : Document.Validation} (habout : aboutSize rule = true) {n : Nat}
    (hvalue : rule.value = .string ("max = " ++ toString n)) : sizeOf? rule = some (toString n) := by
  have htext : ("max = " ++ toString n).toList = "max = ".toList ++ Nat.toDigits 10 n := by
    rw [String.toList_append, toList_toString]
  have hgiven : rule.value.isGiven = true := by
    rw [hvalue, Json.isGiven]
    simp
  have hsearch : search (fun _ here => greatest here) rule.value.display.toList = some (Nat.toDigits 10 n, []) := by
    rw [hvalue, Json.display, htext]
    exact searchAfter_of_eq_some (greatest_max n)
  rw [aboutSize] at habout
  rw [sizeOf?, habout, hgiven, hsearch, Nat.toString_eq_ofList_toDigits]
  rfl

theorem findSome?_sizeOf? : f.field.validations.findSome? sizeOf? = f.size.map toString := by
  -- only rules about size set a length, and there is at most one
  have hfilter : ∀ rules : List Document.Validation,
      rules.findSome? sizeOf? = (rules.filter aboutSize).findSome? sizeOf? := by
    intro rules
    induction rules with
    | nil => rfl
    | cons rule rest ih =>
      by_cases habout : aboutSize rule = true
      · rw [List.filter_cons_of_pos habout, List.findSome?_cons, List.findSome?_cons, ih]
      · have hnone : sizeOf? rule = none := by
          rw [aboutSize] at habout
          rw [sizeOf?, Bool.eq_false_iff.2 habout, Bool.false_and]
          rfl
        rw [List.filter_cons_of_neg habout, List.findSome?_cons, hnone, ih]
  have hrules := f.rules
  rw [hfilter]
  cases hsize : f.size with
  | none =>
    rw [hsize] at hrules
    rw [List.map_eq_nil_iff.1 hrules]
    rfl
  | some n =>
    rw [hsize] at hrules
    obtain ⟨rule, hrule, hvalue⟩ := List.map_eq_singleton_iff.1 hrules
    have habout : aboutSize rule = true := (List.mem_filter.1 (hrule ▸ List.mem_singleton_self rule)).2
    rw [hrule, List.findSome?_cons, sizeOf?_max habout hvalue]
    rfl

/-- The type of a text. -/
theorem textType_eq : textType f.field = varchar (toString f.width) := by
  rw [textType, f.findSome?_sizeOf?, width]
  cases f.size with
  | some n => rfl
  | none =>
    rw [f.length_eq]
    cases hlength : f.length with
    | none => rfl
    | some n =>
      have hgiven : (Json.int n).isGiven = true := by
        have hpos := (f.isLength n hlength).1
        rw [Json.isGiven, bne_iff_ne]
        omega
      exact if_pos hgiven

/-! ## Types -/

/-- A type of one word that is written for a field. -/
theorem exists_lookup_word {t : FieldType} {type : String} (hlookup : sqlTypes.lookup t.name = some type)
    (hascii : type.toList.all Char.isAlphanum = true) (hknown : ColumnType.isKeyword (upper type.toList) = true)
    (hback : ColumnType.fieldTypeOf (upper type.toList) = t) :
    ∃ type length, sqlTypes.lookup t.name = some type ∧ WrittenType type.toList length ∧
      ColumnType.fieldType type.toList = t := by
  obtain ⟨htype, hbase⟩ := writtenType_word hascii hknown
  exact ⟨type, none, hlookup, htype, hbase.trans hback⟩

/-- Each type but two leads back to itself from what is written for it. -/
theorem exists_lookup {t : FieldType} (hstring : t ≠ .string) (hinstant : t ≠ .instant) :
    ∃ type length, sqlTypes.lookup t.name = some type ∧ WrittenType type.toList length ∧
      ColumnType.fieldType type.toList = t := by
  cases t with
  | string => exact absurd rfl hstring
  | instant => exact absurd rfl hinstant
  | long => apply @exists_lookup_word _ "BIGINT" <;> cbv
  | integer => apply @exists_lookup_word _ "INTEGER" <;> cbv
  | float => apply @exists_lookup_word _ "REAL" <;> cbv
  | boolean => apply @exists_lookup_word _ "BOOLEAN" <;> cbv
  | localDate => apply @exists_lookup_word _ "DATE" <;> cbv
  | localDateTime => apply @exists_lookup_word _ "TIMESTAMP" <;> cbv
  | localTime => apply @exists_lookup_word _ "TIME" <;> cbv
  | uuid => apply @exists_lookup_word _ "UUID" <;> cbv
  | bytes => apply @exists_lookup_word _ "BYTEA" <;> cbv
  | double => exact ⟨"DOUBLE PRECISION", none, by cbv, writtenType_doublePrecision, by cbv⟩
  | bigDecimal =>
    have hascii : ∀ c ∈ "DECIMAL".toList, c.isAlphanum = true := List.forall_iff_forall_mem.1 (by decide)
    let e : ColumnText := .typed "DECIMAL".toList hascii (by cbv) [.ofNat 19, .ofNat 2]
      (List.forall_iff_forall_mem.1 (by cbv)) []
    have htext : "DECIMAL(19,2)".toList = e.typeText := rfl
    refine ⟨"DECIMAL(19,2)", e.length?, by cbv, htext ▸ e.writtenType, ?_⟩
    rw [htext, ColumnType.fieldType, e.base_typeText]
    change ColumnType.fieldTypeOf (upper "DECIMAL".toList) = _
    cbv

theorem writtenType_varchar {n : Nat} (hn : (Nat.toDigits 10 n).length ≤ ColumnType.maxDigits) :
    WrittenType (varchar (toString n)).toList (some n) ∧ ColumnType.fieldType (varchar (toString n)).toList = .string := by
  have hascii : ∀ c ∈ "VARCHAR".toList, c.isAlphanum = true := List.forall_iff_forall_mem.1 (by decide)
  let e : ColumnText := .typed "VARCHAR".toList hascii (by decide) [.ofNat n] (List.forall_mem_singleton.2 hn) []
  have htext : (varchar (toString n)).toList = e.typeText := by
    rw [varchar, String.toList_append, String.toList_append, toList_toString, List.append_assoc]
    rfl
  have hlength : e.length? = some n := congrArg some (ColumnType.numberFrom_toDigits n)
  have htype := e.writtenType
  rw [hlength] at htype
  rw [htext]
  exact ⟨htype, congrArg ColumnType.fieldTypeOf e.base_typeText⟩

/-- The type of a field is written so that it leads back to the field. -/
theorem exists_sqlType : ∃ type length, sqlType f.field = .ok type ∧ WrittenType type.toList length ∧
    ColumnType.fieldType type.toList = f.type ∧ (f.type = .string → length = some f.width) := by
  rw [sqlType, f.type_eq]
  by_cases hstring : f.type = .string
  · have hfits : (Nat.toDigits 10 f.width).length ≤ ColumnType.maxDigits := by
      rw [width]
      cases hsize : f.size with
      | some n => exact (f.isSize n hsize).2
      | none =>
        cases hlength : f.length with
        | some n => exact (f.isLength n hlength).2
        | none => decide +kernel
    obtain ⟨htype, hback⟩ := writtenType_varchar hfits
    refine ⟨_, some f.width, ?_, htype, hback.trans hstring.symm, fun _ => rfl⟩
    rw [hstring, ← f.textType_eq]
    exact if_pos (beq_self_eq_true _)
  · obtain ⟨type, length, hlookup, htype, hback⟩ := exists_lookup hstring f.not_instant
    have hname : ∀ t : FieldType, t ≠ .string → (t.name == FieldType.string.name) = false := by
      intro t
      cases t <;> decide +kernel
    refine ⟨type, length, ?_, htype, hback, fun h => absurd h hstring⟩
    dsimp only
    rw [hname _ hstring, hlookup]
    rfl

/-! ## Lines -/

/-- Texts with spaces between them. -/
theorem toList_intercalate_space (first : String) (parts : List String) :
    (" ".intercalate (first :: parts)).toList = first.toList ++ spaced (parts.map String.toList) := by
  induction parts generalizing first with
  | nil => simp [spaced]
  | cons next rest ih =>
    rw [String.intercalate_cons_cons, String.toList_append, String.toList_append, ih, List.map_cons, spaced_cons,
      List.append_assoc]
    rfl

/-- The line of a field is its name, its type and its clauses. -/
theorem columnLine_eq {type : String} (htype : sqlType f.field = .ok type) :
    ∃ line, (columnName f.field >>= columnLine f.field) = .ok line ∧
      line.toList = (Ident.quote f.column).toList ++ ' ' :: (type.toList ++ spaced (f.clauses.map Clause.text)) := by
  have hcolumn : columnName f.field = .ok (.string f.column) := by
    have hgiven : f.field.columnName.isGiven = true := by
      rw [f.columnName_eq, Json.isGiven]
      have hne := f.column_ne_nil
      simpa using hne
    rw [columnName, if_pos hgiven, f.columnName_eq]
  have hnullable : (if f.field.nullable.isGiven then [] else ["NOT NULL"]).map String.toList =
      (if f.nullable then [] else [Clause.notNull]).map Clause.text := by
    rw [f.nullable_eq, Json.isGiven]
    cases f.nullable <;> rfl
  have hunique : (if f.field.unique.isGiven then ["UNIQUE"] else []).map String.toList =
      (if f.unique then [Clause.unique] else []).map Clause.text := by
    rw [f.unique_eq, Json.isGiven]
    cases f.unique <;> rfl
  have hdefault : (if f.field.default.isGiven then ["DEFAULT " ++ f.field.default.display] else []).map String.toList =
      (f.default.map Constant.clause).toList.map Clause.text := by
    rw [f.default_eq]
    cases f.default with
    | none => rfl
    | some k =>
      have hgiven : (Json.string (String.ofList k.text)).isGiven = true := by
        have hne := k.text_ne_nil
        rw [Json.isGiven]
        simpa using hne
      have htext : ("DEFAULT " ++ String.ofList k.text).toList = "DEFAULT ".toList ++ k.text :=
        String.toList_append.trans (congrArg ("DEFAULT ".toList ++ ·) String.toList_ofList)
      dsimp only
      rw [if_pos hgiven, Option.map_some, Option.toList_some, List.map_singleton, List.map_singleton, k.text_clause,
        Json.display, htext]
  refine ⟨" ".intercalate ([Ident.quote f.column, type]
    ++ (if f.field.nullable.isGiven then [] else ["NOT NULL"])
    ++ (if f.field.unique.isGiven then ["UNIQUE"] else [])
    ++ (if f.field.default.isGiven then ["DEFAULT " ++ f.field.default.display] else [])), ?_, ?_⟩
  · rw [hcolumn]
    change columnLine f.field (.string f.column) = _
    rw [columnLine, htype]
    rfl
  · rw [List.append_assoc, List.append_assoc, List.cons_append, toList_intercalate_space, List.cons_append,
      List.map_cons, spaced_cons, List.nil_append, List.map_append, List.map_append, hnullable, hunique, hdefault, clauses,
      List.map_append, List.map_append, List.append_assoc]

/-- What the clauses of a field say. -/
theorem contains_clauses : f.clauses.contains .primaryKey = false ∧ f.clauses.contains .notNull = !f.nullable ∧
    f.clauses.contains .unique = f.unique ∧ f.clauses.findSome? Clause.value? = f.default.map Constant.text := by
  rw [clauses]
  cases f.default with
  | none => cases f.nullable <;> cases f.unique <;> exact ⟨rfl, rfl, rfl, rfl⟩
  | some k => cases k <;> cases f.nullable <;> cases f.unique <;> exact ⟨rfl, rfl, rfl, rfl⟩

/-- **The line of a field is read back.** It is no constraint, and it gives one column and nothing else: a column of the
same name, flags and default, without a reference, whose type leads back to the type of the field. -/
theorem addEntry_line (d : Draft) : ∃ line c,
    (columnName f.field >>= columnLine f.field) = .ok line ∧ Definition.isConstraint line.toList = false ∧
      d.addEntry line.toList = .ok ⟨{ d with table := { d.table with columns := d.table.columns ++ [c] } }, []⟩ ∧
      c.name = f.column ∧ c.nullable = f.nullable ∧ c.unique = f.unique ∧
      c.default = f.default.map (String.ofList ·.text) ∧ c.references = none ∧
      ColumnType.fieldType c.type.toList = f.type ∧ (f.type = .string → c.length = some f.width) := by
  obtain ⟨type, length, hsql, htype, hback, hlength⟩ := f.exists_sqlType
  obtain ⟨line, hline, htext⟩ := f.columnLine_eq hsql
  have hname := Ident.written_quote f.column_ne_nil f.no_quote f.no_line f.no_zeroWidth f.head f.last
  obtain ⟨hconstraint, hentry⟩ := addEntry_written hname htype f.clauses d
  obtain ⟨hprimary, hnotNull, hunique, hvalue⟩ := f.contains_clauses
  rw [← htext] at hconstraint hentry
  refine ⟨line, _, hline, hconstraint, hentry, String.ofList_toList, ?_, ?_, ?_, rfl, ?_, hlength⟩
  · change (!(f.clauses.contains .primaryKey || f.clauses.contains .notNull)) = _
    rw [hprimary, hnotNull, Bool.false_or, Bool.not_not]
  · change (f.clauses.contains .primaryKey || f.clauses.contains .unique) = _
    rw [hprimary, hunique, Bool.false_or]
  · change (f.clauses.findSome? Clause.value?).map String.ofList = _
    rw [hvalue, Option.map_map]
    rfl
  · change ColumnType.fieldType (String.ofList type.toList).toList = _
    rw [String.toList_ofList, hback]

/-- A field whose column is named like a constraint. -/
def keyed : PlainField where
  field := {
    name := .null, columnName := .string "Primary key", type := .string "String", nullable := .bool false
    unique := .bool true, length := .int 20, default := .string "'it''s'"
    validations := [⟨.string "NotBlank", .null⟩, ⟨.string "Size", .string "max = 40"⟩] }
  column := "Primary key"
  columnName_eq := rfl
  column_ne_nil := by decide
  no_quote := by decide
  no_line := by decide
  no_zeroWidth := by decide
  head := by rintro c ⟨⟩; decide
  last := by rintro c ⟨⟩; decide
  type := .string
  type_eq := rfl
  not_instant := by decide
  nullable := false
  nullable_eq := rfl
  unique := true
  unique_eq := rfl
  length := some 20
  length_eq := rfl
  isLength := by rintro n ⟨⟩; exact ⟨by decide, by decide⟩
  size := some 40
  rules := rfl
  isSize := by rintro n ⟨⟩; exact ⟨by decide, by decide⟩
  default := some (.literal ⟨"it's".toList, by decide⟩)
  default_eq := rfl

example : (columnName keyed.field >>= columnLine keyed.field).toOption =
    some "\"Primary key\" VARCHAR(40) NOT NULL UNIQUE DEFAULT 'it''s'" := by decide +kernel

end PlainField

end SchemaSketch
