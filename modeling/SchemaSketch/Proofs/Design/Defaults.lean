import SchemaSketch.Design.Assembly
import SchemaSketch.Proofs.Sql.Limits
import SchemaSketch.Proofs.Sql.Parts
import SchemaSketch.Proofs.Sql.Words
import SchemaSketch.Proofs.Table.Exchange
import SchemaSketch.Proofs.Table.Kinds
import SchemaSketch.Proofs.Table.Lines
import SchemaSketch.Proofs.Text.Narrow

/-!
# A default value on its way to the design

A literal crosses every stage of reading: comments are taken out, the script is cut into statements, blanks are
squeezed, the list in parentheses is taken and cut, and the clauses of a column are looked for. A statement with one
column and a literal as its default is followed through all of them.

* **Tokens.** The literal is one token, whatever stands in it (`lex_text`), so the statement is one segment with one
  entry in its list.
* **Reading.** The column has the literal as its default, character by character (`value_readCreate`).
* **Preparing.** Only squeezing knows nothing of literals. It narrows the blanks in this one too (`prepare_text`), so
  the design has the literal as it is written exactly if its blanks are narrow already (`ofScript_text`).
-/

namespace SchemaSketch

open Text Pattern

/-! ## Literals without quotes -/

theorem Literal.doubled_of_not_mem {content : List Char} (h : '\'' ∉ content) : doubled content = content ++ ['\''] := by
  induction content with
  | nil => rfl
  | cons c rest ih =>
    obtain ⟨hc, hrest⟩ := not_or.1 (mt List.mem_cons.2 h)
    rw [doubled, if_neg (by simpa using Ne.symm hc), ih hrest]
    rfl

section

variable {content : List Char} (hquote : '\'' ∉ content) (hbackslash : '\\' ∉ content)

include hquote hbackslash

theorem Literal.literalCloses_of_not_mem : Comment.literalCloses (content ++ ['\'']) = true := by
  rw [← doubled_of_not_mem hquote]
  exact literalCloses_doubled hbackslash

/-- A literal is one token, whatever else stands in it. -/
theorem Token.lexAfter_literal (before : Option Char) {tail : List Char} (htail : tail.head? ≠ some '\'') :
    lexAfter before ('\'' :: (content ++ '\'' :: tail)) = quoted content :: lexAfter (some '\'') tail := by
  have hcovered := literal_apply (Literal.literalCloses_of_not_mem hquote hbackslash) htail
  rw [List.append_assoc, List.singleton_append] at hcovered
  rw [lexAfter_cons, first_quote (.head _) before hcovered]
  dsimp only
  rw [Nat.add_sub_cancel, ← List.singleton_append (l := tail), ← List.append_assoc, List.take_left, List.drop_left,
    ← List.cons_append, List.getLast?_concat]
  rfl

end

theorem Reading.table?_creation {read : Noted (Except ReadFault Table)} {t : Table} (h : read.value = .ok t) :
    (Reading.creation read).table? = some t := by
  obtain ⟨value, notes⟩ := read
  obtain rfl : value = .ok t := h
  rfl

/-! ## A declaration with a default -/

namespace Declaration

/-- A column with a literal as its default. -/
def columnText (content : List Char) : List Char := "c TEXT DEFAULT '".toList ++ (content ++ ['\''])

/-- A statement that declares a table with that column. -/
def text (content : List Char) : List Char := "CREATE TABLE t (".toList ++ (columnText content ++ [')'])

/-- The tokens of the column. -/
def columnTokens (content : List Char) : List Token :=
  [⟨.other, "c".toList⟩, .space, ⟨.other, "TEXT".toList⟩, .space, ⟨.other, "DEFAULT".toList⟩, .space, .quoted content]

/-- The tokens of the list. -/
def listTokens (content : List Char) : List Token :=
  ⟨.punctuation, ['(']⟩ :: (columnTokens content ++ [⟨.punctuation, [')']⟩])

/-- The tokens of the statement. -/
def tokens (content : List Char) : List Token :=
  [⟨.definer, "CREATE".toList⟩, .space, ⟨.other, "TABLE".toList⟩, .space, ⟨.other, "t".toList⟩, .space]
    ++ listTokens content

/-- The column that is declared. -/
def column (content : List Char) : Column where
  name := "c"
  type := "TEXT"
  nullable := true
  unique := false
  primaryKey := false
  default := some (String.ofList ('\'' :: (content ++ ['\''])))
  length := none
  references := none

/-- The table that is declared. -/
def table (content : List Char) : Table := ⟨"t", [column content], [], []⟩

/-- The design with that table. -/
def design (content : List Char) : Design where
  entities := [{
    id := "entity-1"
    name := "T"
    tableName := "t"
    fields := [{
      name := "c"
      columnName := "c"
      type := .string
      nullable := true
      unique := false
      length := none
      default := some (String.ofList ('\'' :: (content ++ ['\''])))
      validations := [] }]
    place := Place.origin }]
  relations := []

theorem design_injective {a b : List Char} (h : design a = design b) : a = b := by
  have hfields := congrArg (fun d => d.entities.flatMap fun e => e.fields.map (·.default)) h
  have hdefault := Option.some.inj (List.cons.inj hfields).1
  exact List.append_cancel_right (List.cons.inj (String.ofList_injective hdefault)).2

/-! ## Tokens -/

section

variable {content : List Char} (hquote : '\'' ∉ content) (hbackslash : '\\' ∉ content)

include hquote hbackslash

theorem lex_front {tail : List Char} (htail : tail.head? ≠ some '\'') :
    Token.lex ("c TEXT DEFAULT '".toList ++ (content ++ '\'' :: tail)) =
      columnTokens content ++ Token.lexAfter (some '\'') tail := by
  have hname : ∀ rest, Token.first none ('c' :: ([] ++ ' ' :: 'T' :: rest)) = (.other, 1) := fun rest => rfl
  have htype : ∀ rest, Token.first none ('T' :: (['E', 'X', 'T'] ++ ' ' :: 'D' :: rest)) = (.other, 4) := fun rest => rfl
  have hdefault : ∀ rest, Token.first none ('D' :: (['E', 'F', 'A', 'U', 'L', 'T'] ++ ' ' :: '\'' :: rest)) = (.other, 7) :=
    fun rest => rfl
  refine (Token.lex_word (hname _)).trans (congrArg (_ :: _ :: ·) ?_)
  refine (Token.lex_word (htype _)).trans (congrArg (_ :: _ :: ·) ?_)
  refine (Token.lex_word (hdefault _)).trans (congrArg (_ :: _ :: ·) ?_)
  exact Token.lexAfter_literal hquote hbackslash none htail

theorem lex_columnText : Token.lex (columnText content) = columnTokens content := by
  have htail : ([] : List Char).head? ≠ some '\'' := by rintro ⟨⟩
  exact (lex_front hquote hbackslash htail).trans (List.append_nil _)

theorem lex_list : Token.lex ('(' :: (columnText content ++ [')'])) = listTokens content := by
  have hinner : Token.lexAfter (some '(') (columnText content ++ [')']) = Token.lex (columnText content ++ [')']) :=
    Token.lexAfter_eq_lex (by decide) rfl _
  have hcolumn : columnText content ++ [')'] = "c TEXT DEFAULT '".toList ++ (content ++ '\'' :: [')']) :=
    (List.append_assoc ..).trans (congrArg ("c TEXT DEFAULT '".toList ++ ·) (List.append_assoc content _ _))
  have hclosing : Token.lexAfter (some '\'') [')'] = [⟨.punctuation, [')']⟩] :=
    Token.lexAfter_mark (.inr (.inl rfl)) (some '\'') []
  refine (Token.lexAfter_mark (.inl rfl) none _).trans (congrArg (_ :: ·) ?_)
  refine hinner.trans ((congrArg Token.lex hcolumn).trans ((lex_front hquote hbackslash (by rintro ⟨⟩)).trans ?_))
  exact congrArg (columnTokens content ++ ·) hclosing

/-- The tokens of the statement, of which the literal is one. -/
theorem lex_text : Token.lex (text content) = tokens content := by
  have hcreate : ∀ rest, Token.first none ('C' :: (['R', 'E', 'A', 'T', 'E'] ++ ' ' :: 'T' :: rest)) = (.definer, 6) :=
    fun rest => rfl
  have htable : ∀ rest, Token.first none ('T' :: (['A', 'B', 'L', 'E'] ++ ' ' :: 't' :: rest)) = (.other, 5) :=
    fun rest => rfl
  have hname : ∀ rest, Token.first none ('t' :: ([] ++ ' ' :: '(' :: rest)) = (.other, 1) := fun rest => rfl
  refine (Token.lex_word (hcreate _)).trans (congrArg (_ :: _ :: ·) ?_)
  refine (Token.lex_word (htable _)).trans (congrArg (_ :: _ :: ·) ?_)
  exact (Token.lex_word (hname _)).trans (congrArg (_ :: _ :: ·) (lex_list hquote hbackslash))

/-! ## Segments -/

omit hquote hbackslash in
/-- Nothing in the statement ends a segment. -/
theorem cut_of_subset {ts : List Token} (hts : ts ⊆ tokens content) (hspace : ts.all Token.isSpace = false) :
    Script.cut ts = [ts] := by
  have hall : ∀ t ∈ tokens content, t.isMark ';' = false ∧ Blocks.endsBatch t = false := by
    simp only [tokens, listTokens, columnTokens, List.cons_append, List.nil_append, List.forall_mem_cons, List.not_mem_nil,
      false_implies, implies_true, and_true]
    and_intros
    all_goals rfl
  exact Script.cut_eq_singleton (fun t ht => hall t (hts ht)) hspace

omit hquote hbackslash in
theorem listTokens_subset : listTokens content ⊆ tokens content := List.subset_append_right ..

omit hquote hbackslash in
theorem columnTokens_subset : columnTokens content ⊆ tokens content := fun _ ht =>
  listTokens_subset (List.mem_cons_of_mem _ (List.mem_append_left _ ht))

theorem segments_text : Script.segments (text content) = .ok [tokens content] := by
  rw [Script.segments, lex_text hquote hbackslash, cut_of_subset (List.Subset.refl _) rfl]
  rfl

theorem tokens_list : Script.tokens ('(' :: (columnText content ++ [')'])) = .ok (listTokens content) := by
  rw [Script.tokens, Script.segments, lex_list hquote hbackslash, cut_of_subset listTokens_subset rfl]
  rfl

theorem tokens_columnText : Script.tokens (columnText content) = .ok (columnTokens content) := by
  rw [Script.tokens, Script.segments, lex_columnText hquote hbackslash, cut_of_subset columnTokens_subset rfl]
  rfl

/-! ## The statement is read -/

omit hquote hbackslash in
theorem columnText_eq (content : List Char) :
    columnText content = 'c' :: (" TEXT DEFAULT '".toList ++ content ++ ['\'']) :=
  (List.append_assoc "c TEXT DEFAULT '".toList content ['\'']).symm

theorem textOf_columnTokens : Statement.textOf (columnTokens content) = columnText content := by
  rw [← lex_columnText hquote hbackslash]
  exact Token.lex_texts _

theorem inParentheses?_list :
    Statement.inParentheses? ('(' :: (columnText content ++ [')'])) = .ok (some (columnText content)) := by
  have hclosed : Statement.untilClosed 0 [] (listTokens content) =
      some (Statement.textOf (columnTokens content).reverse.reverse) := rfl
  rw [Statement.inParentheses?, tokens_list hquote hbackslash, Except.map, hclosed, List.reverse_reverse,
    textOf_columnTokens hquote hbackslash]

theorem definitions_columnText : Statement.definitions (columnText content) = .ok [columnText content] := by
  have htrim : trim (columnText content) = columnText content := by
    rw [columnText_eq]
    exact trimBy_between (by decide) (by decide) _
  have hblank : (columnText content).all isBlank = false := rfl
  have hruns : Statement.commaRuns 0 [] (columnTokens content) = [columnTokens content] := rfl
  rw [Statement.definitions, hblank, if_neg Bool.false_ne_true, tokens_columnText hquote hbackslash, Except.map, hruns,
    List.map_singleton, textOf_columnTokens hquote hbackslash, htrim]
  rfl

omit hquote hbackslash in
theorem created_text (content : List Char) :
    Heading.created (text content) = some (['t'], '(' :: (columnText content ++ [')'])) := by
  have hwords : ∀ rest, Heading.createWords ('C' :: 'R' :: 'E' :: 'A' :: 'T' :: 'E' :: ' ' ::
      'T' :: 'A' :: 'B' :: 'L' :: 'E' :: ' ' :: 't' :: rest) = some 13 := fun rest => rfl
  have hname : ∀ rest, Identifier.qualified ('t' :: ' ' :: '(' :: rest) = some 1 := fun rest => rfl
  have hblanks : ∀ rest, blanks (' ' :: '(' :: rest) = some 1 := fun rest => rfl
  rw [Heading.created, Reader.skip_bind]
  refine (congrArg (Option.bind · _) (hwords _)).trans ?_
  rw [Option.bind_some, Reader.take_bind]
  refine (congrArg (Option.bind · _) (hname _)).trans ?_
  rw [Option.bind_some, Reader.skip_bind]
  exact congrArg (Option.bind · _) (hblanks _)

theorem kind?_text : Heading.kind? (text content) = .ok (some .createTable) := by
  refine (Heading.kind?_eq_createTable (segments_text hquote hbackslash)).2 ?_
  rw [created_text]
  rfl

/-- The entry of the list is the column. -/
theorem addEntry_columnText :
    (Draft.named "t").addEntry (columnText content) = .ok ⟨⟨table content, []⟩, []⟩ := by
  have hname : WrittenName ['c'] ['c'] :=
    ⟨fun rest => rfl, by cbv, .inl ⟨List.cons_ne_nil _ _, List.forall_mem_singleton.2 rfl⟩⟩
  have htype : WrittenType "TEXT".toList none := (writtenType_word (by decide) (by cbv)).1
  have hliteral : Literal.text ⟨content, hbackslash⟩ = '\'' :: (content ++ ['\'']) :=
    congrArg ('\'' :: ·) (Literal.doubled_of_not_mem hquote)
  have hclause : Clause.text (.defaultLiteral ⟨content, hbackslash⟩) = "DEFAULT '".toList ++ (content ++ ['\'']) :=
    congrArg ("DEFAULT ".toList ++ ·) hliteral
  obtain ⟨-, hentry⟩ := addEntry_written hname htype [.defaultLiteral ⟨content, hbackslash⟩] (Draft.named "t")
  have hwritten : ['c'] ++ ' ' :: ("TEXT".toList ++
      spaced (List.map Clause.text [.defaultLiteral ⟨content, hbackslash⟩])) = columnText content := by
    rw [List.map_singleton, spaced_cons, hclause]
    exact congrArg ("c TEXT DEFAULT '".toList ++ ·) (List.append_nil _)
  have hcolumn : ColumnDefinition.ofClauses ['c'] "TEXT".toList none [.defaultLiteral ⟨content, hbackslash⟩] =
      column content := by
    rw [column, ← hliteral]
    rfl
  rw [hwritten, hcolumn] at hentry
  exact hentry

/-- The table is read from the statement, with the literal as it stands there. -/
theorem value_readCreate : (Table.readCreate (text content)).value = .ok (table content) := by
  have hbare : Identifier.bareName ['t'] = ['t'] := by cbv
  have hname : String.ofList (Identifier.bareName ['t']) = "t" := congrArg String.ofList hbare
  have hentries : ((Draft.named "t").addEntries [columnText content]).value = .ok ⟨table content, []⟩ := by
    rw [Draft.addEntries, addEntry_columnText hquote hbackslash]
    rfl
  rw [Table.readCreate, created_text]
  dsimp only
  rw [inParentheses?_list hquote hbackslash]
  dsimp only
  rw [definitions_columnText hquote hbackslash, hname]
  dsimp only
  rw [hentries]
  rfl

/-! ## The design of the statement -/

theorem ofReadings_text : Register.ofReadings [Reading.ofStatement (text content)] = [("t", table content)] := by
  have hreading : Reading.ofStatement (text content) = .creation (Table.readCreate (text content)) := by
    rw [Reading.ofStatement, kind?_text hquote hbackslash]
  have htable := Reading.table?_creation (value_readCreate hquote hbackslash)
  have hlower : lowerName "t" = "t" := by cbv
  have hdeclared : Register.declared [Reading.ofStatement (text content)] = [("t", table content)] := by
    rw [Register.declared, List.foldl_cons, Register.afterCreation, hreading, htable]
    exact congrArg (fun key => [(key, table content)]) hlower
  rw [Register.ofReadings, hdeclared, List.foldl_cons, Register.afterAlteration, hreading]
  rfl

omit hquote hbackslash in
theorem fields_column (content : List Char) {base : BaseColumns} (hbase : base.holds "c" = false) :
    Design.fields base [] [column content] =
      [⟨"c", "c", .string, true, false, none, some (String.ofList ('\'' :: (content ++ ['\'']))), []⟩] := by
  have hname : Naming.fieldName "c" = "c" := by cbv
  have hseen : (("c".isEmpty || [].contains "c") : Bool) = false := by cbv
  have hfield : ∀ value, Design.field ⟨"c", "TEXT", true, false, false, value, none, none⟩ "c" =
      ⟨"c", "c", .string, true, false, none, value, []⟩ := by
    intro value
    have htype : ColumnType.fieldType "TEXT".toList = .string := by cbv
    simp only [Design.field, Design.validations, htype, if_true, List.append_nil]
  simp only [Design.fields, column, hbase, hname, hseen, hfield, Bool.false_eq_true, if_false]

theorem ofStatements_text {base : BaseColumns} (hbase : base.holds "c" = false) :
    Design.ofStatements base [text content] = design content := by
  have hname : Design.entityName "t" [] = "T" := by cbv
  have hid : Design.entityId 0 = "entity-1" := by cbv
  rw [Design.ofStatements, List.map_singleton, ofReadings_text hquote hbackslash, Design.ofRegister, Design.entitiesOf,
    List.map_singleton, Design.entitiesFrom]
  dsimp only [table]
  rw [hname, hid, fields_column content hbase]
  rfl

/-! ## The script is prepared -/

/-- The script is the one statement. -/
theorem split_text : Statement.split (text content) = .ok [text content] := by
  have hends : text content = 'C' :: ("REATE TABLE t (".toList ++ columnText content ++ [')']) :=
    (List.append_assoc "CREATE TABLE t (".toList (columnText content) [')']).symm
  have htext : Statement.textOf (tokens content) = text content := by
    rw [← lex_text hquote hbackslash]
    exact Token.lex_texts _
  have htrim : trim (text content) = text content := by
    rw [hends]
    exact trimBy_between (by decide) (by decide) _
  have hend : dropEnd (· == ';') (text content) = text content := by
    rw [hends, ← List.cons_append]
    exact dropEnd_append_of_neg (by decide) _
  have hrecover : Statement.recoverFrom 0 [] (tokens content) = [tokens content] := rfl
  have hsegment : Statement.ofSegment (tokens content) = [text content] := by
    rw [Statement.ofSegment, hrecover, List.map_singleton, Statement.trimmed, htext, htrim, hend, htrim, hends]
    rfl
  rw [Statement.split, segments_text hquote hbackslash]
  exact congrArg Except.ok ((List.flatMap_singleton _ _).trans hsegment)

omit hquote hbackslash in
/-- The literal between what stands on its two sides. -/
theorem text_eq (content : List Char) :
    text content = "CREATE TABLE t (c TEXT DEFAULT '".toList ++ (content ++ "')".toList) := by
  refine congrArg ("CREATE TABLE t (".toList ++ ·) ((List.append_assoc ..).trans ?_)
  exact congrArg ("c TEXT DEFAULT '".toList ++ ·) (List.append_assoc ..)

/-- No comment is taken out. -/
theorem strip_text : Comment.strip (text content) = text content := by
  have hcode : ∀ {cs : List Char}, (cs.all fun c => !Comment.isQuote c && c != '$') = true →
      ¬ ['-', '-'] <:+: cs → ¬ ['/', '*'] <:+: cs → Comment.IsCode cs := fun hcalm hline hblock =>
    ⟨fun c hc => by simpa using List.all_eq_true.1 hcalm c hc, hline, hblock⟩
  have hfront : Comment.IsCode "CREATE TABLE t (c TEXT DEFAULT ".toList :=
    hcode (by decide +kernel) (by decide +kernel) (by decide +kernel)
  have hback : Comment.IsCode [')'] := hcode (by decide) (by decide) (by decide)
  have hparts : Comment.MadeUp none [.code "CREATE TABLE t (c TEXT DEFAULT ".toList,
      .quoted ('\'' :: (content ++ ['\''])), .code [')']] := by
    refine ⟨hfront, ?_, .literal (Literal.literalCloses_of_not_mem hquote hbackslash), ?_, hback, ?_, trivial⟩
    all_goals
      rintro q ⟨⟩
      try rfl
  have hwhole : text content = [.code "CREATE TABLE t (c TEXT DEFAULT ".toList,
      .quoted ('\'' :: (content ++ ['\''])), .code [')']].flatMap Comment.Part.text := by
    have hsplit : "CREATE TABLE t (c TEXT DEFAULT '".toList = "CREATE TABLE t (c TEXT DEFAULT ".toList ++ ['\''] := rfl
    have hclosing : "')".toList = ['\'', ')'] := rfl
    rw [text_eq, hsplit, hclosing]
    simp only [List.flatMap_cons, List.flatMap_nil, Comment.Part.text, List.append_assoc, List.cons_append,
      List.nil_append]
  rw [hwhole]
  exact Comment.strip_parts hparts

omit hquote hbackslash in
/-- Squeezing narrows the blanks of the literal. -/
theorem squeeze_text (content : List Char) : squeeze (text content) = text (narrow content) := by
  have hinked : (["CREATE", "TABLE", "t", "(c", "TEXT", "DEFAULT", "'"].map String.toList).all
      (fun w => !w.isEmpty && w.all (!isBlank ·)) = true := by cbv
  have hfront : Tidy (join [' '] (["CREATE", "TABLE", "t", "(c", "TEXT", "DEFAULT", "'"].map String.toList)) := by
    refine tidy_join (List.cons_ne_nil _ _) fun w hw => ?_
    have hword := List.all_eq_true.1 hinked w hw
    rw [Bool.and_eq_true, List.all_eq_true] at hword
    exact ⟨by simpa using hword.1, fun c hc => by simpa using hword.2 c hc⟩
  have hback : Tidy "')".toList := .word (List.cons_ne_nil _ _) (List.forall_iff_forall_mem.1 (by decide))
  rw [text_eq, text_eq]
  exact (squeeze_narrow hfront hback).1

/-- The script is prepared: its one statement stands on one line, and the blanks in the literal are narrow. -/
theorem prepare_text : Statement.prepare (text content) = .ok [text (narrow content)] := by
  have hblank : (text content).all isBlank = false := rfl
  rw [Statement.prepare, hblank, if_neg Bool.false_ne_true, strip_text hquote hbackslash, split_text hquote hbackslash]
  exact congrArg (fun statement => Except.ok [statement]) (squeeze_text content)

end

/-- **A literal as a default** comes through to the design with its blanks narrowed: as it is written exactly if each
blank in it is a space and no two of them stand side by side. -/
theorem ofScript_text {base : BaseColumns} (hbase : base.holds "c" = false) {content : List Char}
    (hquote : '\'' ∉ content) (hbackslash : '\\' ∉ content) :
    Design.ofScript base (text content) = .ok (design (narrow content)) ∧
      (Design.ofScript base (text content) = .ok (design content) ↔ IsNarrow content) := by
  have hquote' : '\'' ∉ narrow content := fun h => hquote (mem_narrowFrom (by decide) h)
  have hbackslash' : '\\' ∉ narrow content := fun h => hbackslash (mem_narrowFrom (by decide) h)
  have hread : Design.ofScript base (text content) = .ok (design (narrow content)) := by
    rw [Design.ofScript, prepare_text hquote hbackslash]
    exact congrArg Except.ok (ofStatements_text hquote' hbackslash' hbase)
  refine ⟨hread, ?_⟩
  rw [hread, Except.ok.injEq, ← narrow_eq_self_iff]
  exact ⟨fun h => design_injective h, congrArg design⟩

/-- Marks of comments, marks that end a statement or an entry, and words that are looked for. -/
theorem ofScript_marks : BaseColumns.standard.holds "c" = false ∧
    Design.ofScript BaseColumns.standard (text "a--b /*;),( NOT NULL".toList) =
      .ok (design "a--b /*;),( NOT NULL".toList) := by
  have hbase : BaseColumns.standard.holds "c" = false := by cbv
  have hnarrow : IsNarrow "a--b /*;),( NOT NULL".toList := narrow_eq_self_iff.1 (by cbv)
  exact ⟨hbase, (ofScript_text hbase (by decide) (by decide)).2.2 hnarrow⟩

/-- Of two spaces in a literal one is lost. -/
theorem ofScript_twoSpaces :
    (Design.ofScript BaseColumns.standard (text "a  b".toList)).toOption = some (design "a b".toList) ∧
      design "a b".toList ≠ design "a  b".toList := by decide +kernel

end Declaration

end SchemaSketch
