import SchemaSketch.Proofs.Export.Design
import SchemaSketch.Proofs.Sql.Words
import SchemaSketch.Proofs.Table.KeyClauses
import SchemaSketch.Proofs.Table.Kinds
import SchemaSketch.Proofs.Text.Narrow

/-!
# Statements of foreign keys, read back

The statement that is written for a relation (`KeyStatement.written`) adds one foreign key to one table. Squeezed onto
one line it is read again: its kind is told by its heading and its list of columns, and its key by the clauses
between the words `ADD`. Its names are written without quotes if they look like no reserved word. That is not enough:
a table called `only` and a column or a target called `add` are taken for words of the statement, and a line end, which
a bare name may have at its end, is lost with the white space. **In all other cases the statement is read as it was
meant** (`KeyStatement.readsBack_iff`).
-/

namespace SchemaSketch

open Text Pattern

namespace KeyStatement

section

variable {s : KeyStatement} (h : s.Bare)

include h

/-! ## The clauses -/

/-- The keys behind the name of the table are those in the clauses of the body. -/
theorem keysOf_rest_eq : Alteration.keysOf s.rest = (Alteration.cutPieces [.lone ' '] s.body).filterMap Alteration.keyOf := by
  have hadd : Alteration.isAdd (.spaced "ADD") = true := by cbv
  have hword : Piece.Plain (.spaced "ADD") := Piece.plain_of_isPlain (by cbv)
  exact Alteration.keysOf_spell hword hadd (plain_body h)

omit h in
theorem isAdd_name {name : String} (hname : name = "add") (mark : Char) :
    Alteration.isAdd ⟨name.toList, mark⟩ = true := by
  rw [hname]
  rfl

/-- A column of the name `add` cuts the clause in front of the column. -/
theorem keysOf_of_column (hcolumn : s.column = "add") : Alteration.keysOf s.rest = [] := by
  rw [keysOf_rest_eq h, body, Alteration.cutPieces_append_cons _ (isAdd_front h) (isAdd_name hcolumn ')')]
  have hmark : ')' ∈ [' ', '(', ')', ';'] := by decide
  exact (List.filterMap_cons_none (keyOf_unlisted h)).trans (Reference.filterMap_keyOf_eq_nil (quiet_reference h) hmark)

/-- Up to the column no clause ends if the column has another name. -/
theorem isAdd_column (hcolumn : s.column ≠ "add") :
    ∀ p ∈ s.naming ++ listing ++ [⟨s.column.toList, ')'⟩], Alteration.isAdd p = false := by
  have hne : s.column.toList ≠ "add".toList := fun heq => hcolumn (String.toList_inj.1 heq)
  intro p hp
  rcases List.mem_append.1 hp with hp | hp
  · exact isAdd_front h p hp
  · rw [List.mem_singleton.1 hp]
    exact congrArg Option.isSome (h.column.wholeWord_eq_none hne)

/-- A target of the name `add` cuts the clause in front of the target. -/
theorem keysOf_of_target (hcolumn : s.column ≠ "add") (htarget : s.target = "add") : Alteration.keysOf s.rest = [] := by
  have hbody : s.body = (s.naming ++ listing ++ ⟨s.column.toList, ')'⟩ :: referring) ++
      ⟨s.target.toList, '('⟩ :: ⟨"id".toList, ')'⟩ :: s.acting := by
    rw [body, reference, List.append_assoc (s.naming ++ listing), List.cons_append]
  have hpieces : ∀ p ∈ s.naming ++ listing ++ ⟨s.column.toList, ')'⟩ :: referring, Alteration.isAdd p = false := by
    intro p hp
    rw [List.append_cons] at hp
    rcases List.mem_append.1 hp with hp | hp
    · exact isAdd_column h hcolumn p hp
    · exact (calm_referring p hp).add
  rw [keysOf_rest_eq h, hbody, Alteration.cutPieces_append_cons _ hpieces (isAdd_name htarget '(')]
  have hmark : '(' ∈ [' ', '(', ')', ';'] := by decide
  have hbehind := calm_behind s
  refine (List.filterMap_cons_none (keyOf_unreferred h)).trans ?_
  exact Reference.filterMap_keyOf_eq_nil (fun p hp => ⟨(hbehind p hp).plain, (hbehind p hp).foreign⟩) hmark

/-- **With other names the key that is meant is the one that is read.** -/
theorem keysOf_rest (hcolumn : s.column ≠ "add") (htarget : s.target ≠ "add") : Alteration.keysOf s.rest = [s.key] := by
  have hpieces : ∀ p ∈ s.body, Alteration.isAdd p = false := by
    intro p hp
    rw [body, List.append_cons] at hp
    rcases List.mem_append.1 hp with hp | hp
    · exact isAdd_column h hcolumn p hp
    · exact isAdd_reference h htarget p hp
  rw [keysOf_rest_eq h, Alteration.cutPieces_eq_singleton _ hpieces]
  exact List.filterMap_cons_some (keyOf_body h)

/-! ## The statement as it is read -/

omit h in
theorem rest_eq (s : KeyStatement) : s.rest = " ADD ".toList ++ spell s.body := by
  simp only [rest, spell_cons, Piece.spaced, Piece.lone, String.reduceToList, List.cons_append, List.nil_append]

omit h in
theorem text_eq (s : KeyStatement) : s.text = "ALTER TABLE ".toList ++ (s.table.toList ++ s.rest) := by
  simp only [text, pieces, rest, spell_cons, Piece.spaced, Piece.lone, String.reduceToList, List.cons_append,
    List.nil_append]

theorem altered_text (honly : s.table ≠ "only") : Heading.altered s.text = some (s.table.toList, s.rest) := by
  have hif : s.table.toList ≠ "if".toList := (h.unreserved s.table (by simp [names])).1
  have hne : s.table.toList ≠ "only".toList := fun heq => honly (String.toList_inj.1 heq)
  rw [text_eq, rest_eq]
  exact Heading.altered_append h.table hif hne ("DD ".toList ++ spell s.body)

/-- **What is read of the statement** is the key that is meant, unless a name is one of two words. -/
theorem value_read_iff :
    (Alteration.read s.text).value = .ok ⟨s.table, [s.key]⟩ ↔
      s.table ≠ "only" ∧ s.column ≠ "add" ∧ s.target ≠ "add" := by
  by_cases honly : s.table = "only"
  · -- the word behind the name is taken for the table
    obtain ⟨tail, hrest⟩ : ∃ tail, s.rest = " ADD C".toList ++ tail := by
      refine ⟨"ONSTRAINT ".toList ++ spell (⟨s.constraint.toList, ' '⟩ :: (listing ++ ⟨s.column.toList, ')'⟩ :: s.reference)), ?_⟩
      rw [rest_eq, body, naming]
      simp only [List.cons_append, List.nil_append, spell_cons, Piece.spaced, String.reduceToList]
    have haltered : Heading.altered s.text = some ("ADD".toList, " C".toList ++ tail) := by
      rw [text_eq, hrest, honly, ← List.append_assoc "only".toList]
      exact Heading.altered_only tail
    have hname : String.ofList (Identifier.bareName "ADD".toList) = "ADD" := by cbv
    rw [Alteration.value_read haltered, hname]
    refine iff_of_false (fun heq => ?_) fun hnames => hnames.1 honly
    split at heq
    · cases heq
    · have htable : "ADD" = s.table := congrArg Alteration.table (Except.ok.inj heq)
      rw [honly] at htable
      exact absurd htable (by decide)
  · rw [Alteration.value_read (altered_text h honly), h.table.bareName_eq_self, String.ofList_toList]
    by_cases hcolumn : s.column = "add"
    · rw [keysOf_of_column h hcolumn]
      exact iff_of_false (fun heq => by cases heq) fun hnames => hnames.2.1 hcolumn
    by_cases htarget : s.target = "add"
    · rw [keysOf_of_target h hcolumn htarget]
      exact iff_of_false (fun heq => by cases heq) fun hnames => hnames.2.2 htarget
    · rw [keysOf_rest h hcolumn htarget]
      exact iff_of_true rfl ⟨honly, hcolumn, htarget⟩

/-! ## The kind of the statement -/

theorem plain_pieces : ∀ p ∈ s.pieces, p.Plain := by
  refine List.forall_mem_cons.2 ⟨Piece.plain_of_isPlain (by cbv), ?_⟩
  refine List.forall_mem_cons.2 ⟨Piece.plain_of_isPlain (by cbv), ?_⟩
  refine List.forall_mem_cons.2 ⟨h.table.piece (by decide), ?_⟩
  exact List.forall_mem_cons.2 ⟨Piece.plain_of_isPlain (by cbv), plain_body h⟩

omit h in
theorem length_pieces_le (s : KeyStatement) : s.pieces.length ≤ 23 := by
  have haction : ∀ (mark : Char) (a : Action), (a.pieces mark).length ≤ 2 := by
    intro mark a
    cases a <;> simp [Action.pieces]
  have honDelete := haction ' ' s.onDelete
  have honUpdate := haction ';' s.onUpdate
  simp only [pieces, body, naming, listing, reference, referring, acting, List.length_cons, List.length_append,
    List.length_nil]
  omega

/-- The search for the columns passes over the heading and the name of the constraint. -/
theorem searchWord_heading (tail : List Char) :
    searchWord Reference.keyColumns (spell (.spaced "ALTER" :: .spaced "TABLE" :: ⟨s.table.toList, ' '⟩ ::
      .spaced "ADD" :: s.naming) ++ tail) = searchWord Reference.keyColumns tail := by
  have htable : s.table.toList ≠ "foreign".toList := (h.unreserved s.table (by simp [names])).2
  have hquiet : ∀ p ∈ Piece.spaced "ALTER" :: .spaced "TABLE" :: ⟨s.table.toList, ' '⟩ :: .spaced "ADD" :: s.naming,
      p.Plain ∧ wholeWord "foreign" p.word = none := by
    simp only [List.forall_mem_cons]
    refine ⟨⟨Piece.plain_of_isPlain (by cbv), by cbv⟩, ⟨Piece.plain_of_isPlain (by cbv), by cbv⟩,
      ⟨h.table.piece (by decide), h.table.wholeWord_eq_none htable⟩, ⟨Piece.plain_of_isPlain (by cbv), by cbv⟩,
      fun p hp => ?_⟩
    have hcalm := calm_naming h p (List.mem_cons_of_mem _ hp)
    exact ⟨hcalm.plain, hcalm.foreign⟩
  exact searchWord_spell_append (fun p hp => (hquiet p hp).1)
    (fun p hp => Piece.avoids Reference.begins_keyColumns (by decide) (hquiet p hp).1 (hquiet p hp).2) tail

/-- The list of columns is found in the statement. -/
theorem hasWord_keyList : hasWord Heading.keyList s.text = true := by
  have hpieces : s.pieces =
      (.spaced "ALTER" :: .spaced "TABLE" :: ⟨s.table.toList, ' '⟩ :: .spaced "ADD" :: s.naming) ++
        (listing ++ ⟨s.column.toList, ')'⟩ :: s.reference) := by
    rw [pieces, body, List.append_assoc]
    rfl
  have hfound : searchWord Reference.keyColumns (spell (listing ++ ⟨s.column.toList, ')'⟩ :: s.reference)) =
      some (s.column.toList, spell s.reference) := searchAfter_of_eq_some (keyColumns_listing h s.reference)
  rw [Reference.hasWord_keyList, text, hpieces, spell_append, searchWord_heading h, hfound]
  rfl

/-- **The statement alters a table.** -/
theorem kind?_text (honly : s.table ≠ "only") : Heading.kind? s.text = .ok (some .alterTable) := by
  have hfits : 2 * s.pieces.length + 1 ≤ Script.maxDepth := by
    have hlength := s.length_pieces_le
    rw [Script.maxDepth]
    omega
  have hsegments := Script.segments_spell (plain_pieces h) hfits
  refine (Heading.kind?_eq_alterTable hsegments).2 ⟨?_, hasWord_keyList h⟩
  rw [← text, altered_text h honly]
  rfl

/-! ## The statement as it is written -/

/-- The lines of the statement. -/
def lines (s : KeyStatement) : List (List Char) := [
  "ALTER TABLE ".toList ++ s.table.toList,
  "ADD CONSTRAINT ".toList ++ s.constraint.toList,
  "FOREIGN KEY (".toList ++ (s.column.toList ++ [')']),
  "REFERENCES ".toList ++ (s.target.toList ++ "(id)".toList),
  "ON DELETE ".toList ++ s.onDelete.words.toList,
  "ON UPDATE ".toList ++ (s.onUpdate.words.toList ++ [';'])]

omit h in
theorem spell_pieces (a : Action) (mark : Char) : spell (a.pieces mark) = a.words.toList ++ [mark] := by
  cases a <;> rfl

omit h in
/-- On one line there are spaces between them. -/
theorem text_eq_join (s : KeyStatement) : s.text = join [' '] s.lines := by
  simp only [text, pieces, body, naming, listing, reference, referring, acting, lines, join, spell_append, spell_cons,
    spell_pieces, Piece.spaced, Piece.lone, String.reduceToList, List.cons_append, List.nil_append, List.append_assoc]

omit h in
/-- A simple name between characters that are not blank is a word. -/
theorem tidy_between {name : List Char} (hname : Ident.Plain name) {front back : List Char}
    (hfront : front.all (! isBlank ·) = true) (hback : back.all (! isBlank ·) = true) : Tidy (front ++ (name ++ back)) := by
  rw [List.all_eq_true] at hfront hback
  refine .word (by simp [hname.ne_nil]) fun c hc => ?_
  rcases List.mem_append.1 hc with hc | hc
  · simpa using hfront c hc
  rcases List.mem_append.1 hc with hc | hc
  · exact hname.isBlank c hc
  · simpa using hback c hc

omit h in
theorem tidy_action (a : Action) :
    Tidy ("ON DELETE ".toList ++ a.words.toList) ∧ Tidy ("ON UPDATE ".toList ++ (a.words.toList ++ [';'])) := by
  cases a
  all_goals exact ⟨tidy_of_squeeze_eq (by decide) (by cbv), tidy_of_squeeze_eq (by decide) (by cbv)⟩

/-- In the lines there are single spaces between the words. -/
theorem tidy_lines : ∀ line ∈ s.lines, Tidy line := by
  have hclosed : ∀ cs ∈ ["ALTER TABLE".toList, "ADD CONSTRAINT".toList, "FOREIGN KEY".toList, "REFERENCES".toList],
      Tidy cs := by
    have hsqueezed : (["ALTER TABLE".toList, "ADD CONSTRAINT".toList, "FOREIGN KEY".toList, "REFERENCES".toList].all
        fun cs => cs != [] && squeeze cs == cs) = true := by cbv
    intro cs hcs
    have h := List.all_eq_true.1 hsqueezed cs hcs
    rw [Bool.and_eq_true, bne_iff_ne, beq_iff_eq] at h
    exact tidy_of_squeeze_eq h.1 h.2
  simp only [List.forall_mem_cons, List.not_mem_nil, false_implies, implies_true, and_true] at hclosed
  obtain ⟨halter, hadd, hforeign, hreferences⟩ := hclosed
  have htable : Tidy ([] ++ (s.table.toList ++ [])) := tidy_between h.table rfl rfl
  have hconstraint : Tidy ([] ++ (s.constraint.toList ++ [])) := tidy_between (plain_constraint h) rfl rfl
  have hcolumn : Tidy (['('] ++ (s.column.toList ++ [')'])) := tidy_between h.column rfl rfl
  have htarget : Tidy ([] ++ (s.target.toList ++ "(id)".toList)) := tidy_between h.target rfl (by decide)
  rw [List.append_nil] at htable hconstraint
  simp only [lines, List.forall_mem_cons, List.not_mem_nil, false_implies, implies_true, and_true]
  refine ⟨?_, ?_, ?_, ?_, (tidy_action s.onDelete).1, (tidy_action s.onUpdate).2⟩
  · exact halter.space htable
  · exact hadd.space hconstraint
  · exact hforeign.space hcolumn
  · exact hreferences.space htarget

/-- The lines of the statement are squeezed onto one. -/
theorem squeeze_lines : squeeze ('\n' :: join ('\n' :: "    ".toList) s.lines) = s.text := by
  have hgap : Blank "    ".toList := List.forall_iff_forall_mem.1 (by decide)
  have hfront : words ('\n' :: join ('\n' :: "    ".toList) s.lines) = words (join ('\n' :: "    ".toList) s.lines) :=
    words_blank_append (List.forall_mem_singleton.2 rfl) _
  rw [squeeze, hfront, text_eq_join]
  exact squeeze_join rfl hgap (List.cons_ne_nil _ _) (tidy_lines h)

end

/-- The statement as it is written, on lines of its own. -/
def written (s : KeyStatement) : String :=
  "\n".intercalate [
    "",
    "ALTER TABLE " ++ Ident.quote s.table,
    "    ADD CONSTRAINT " ++ Ident.quote s.constraint,
    "    FOREIGN KEY (" ++ Ident.quote s.column ++ ")",
    "    REFERENCES " ++ Ident.quote s.target ++ "(id)",
    "    ON DELETE " ++ s.onDelete.words,
    "    ON UPDATE " ++ s.onUpdate.words ++ ";"]

/-- The names and the actions of a relation are those of the statement. -/
structure Tells (s : KeyStatement) (o : Export.Outgoing) : Prop where
  column : Export.keyColumn o = .ok (.string s.column)
  target : Export.tableName o.target = .ok (.string s.target)
  onDelete : o.relation.foreignKey.onDelete = .string s.onDelete.name
  onUpdate : o.relation.foreignKey.onUpdate = .string s.onUpdate.name

theorem foreignKeyStatement_eq {s : KeyStatement} {o : Export.Outgoing} (h : s.Tells o) :
    Export.foreignKeyStatement s.table o = .ok s.written := by
  rw [Export.foreignKeyStatement, h.column, h.target, h.onDelete, h.onUpdate]
  simp only [bind, Except.bind, Export.text, Export.actionWords_name]
  rfl

/-- A name is no reserved word if none begins like it. -/
theorem isBare_of_prefix {front : List Char} (hreserved : (Ident.reserved.all fun word => !(upper front).isPrefixOf word.toList) = true)
    {name : String} (hname : Ident.Plain name.toList) (hfront : front <+: name.toList) : Ident.isBare name = true := by
  have hcapitals : upper front <+: (upperName name).toList := by
    obtain ⟨rest, hrest⟩ := hfront
    exact ⟨upper rest, by rw [upperName, String.toList_ofList, ← hrest, upper_append]⟩
  have hother : Ident.reserved.contains (upperName name) = false := by
    refine Bool.eq_false_iff.2 fun hmem => ?_
    have hnot := List.all_eq_true.1 hreserved _ (List.contains_iff_mem.1 hmem)
    rw [List.isPrefixOf_iff_prefix.2 hcapitals] at hnot
    cases hnot
  obtain ⟨⟨c, rest, htext, hstart⟩, hsimple⟩ := hname
  rw [htext] at hsimple
  have hrest : Ident.simpleRest rest = true := Ident.simpleRest_iff.2 (.inl (List.forall_mem_cons.1 hsimple).2)
  rw [Ident.isBare, hother, htext, Ident.isSimple, hstart, hrest]
  rfl

theorem isBare_constraint {s : KeyStatement} (h : s.Bare) : Ident.isBare s.constraint = true := by
  have hfront : "fk_".toList <+: s.constraint.toList := ⟨(s.table ++ "_" ++ s.column).toList, by simp [constraint]⟩
  exact isBare_of_prefix (by decide +kernel) (plain_constraint h) hfront

/-- Names that need no quotes stand in the statement as they are. -/
theorem toList_written {s : KeyStatement} (h : s.Bare) (hbare : ∀ name ∈ s.names, Ident.isBare name = true) :
    s.written.toList = '\n' :: join ('\n' :: "    ".toList) s.lines := by
  have hquote : ∀ {name : String}, Ident.isBare name = true → Ident.quote name = name := fun h => if_pos h
  rw [written, hquote (hbare s.table (by simp [names])), hquote (isBare_constraint h),
    hquote (hbare s.column (by simp [names])), hquote (hbare s.target (by simp [names]))]
  simp only [lines, join, String.intercalate_cons_cons, String.intercalate_singleton, String.toList_append,
    String.reduceToList, List.cons_append, List.nil_append, List.append_assoc]

/-- No line end is read in a text on one line. -/
theorem newline_not_mem_of_read {s : KeyStatement} {cs : List Char}
    (h : (Alteration.read (squeeze cs)).value = .ok ⟨s.table, [s.key]⟩) : ∀ name ∈ s.names, '\n' ∉ name.toList := by
  have hwithin := Alteration.within_of_read h
  have hkey := hwithin.foreignKeys s.key (List.mem_cons_self ..)
  have hline := newline_not_mem_squeeze cs
  simp only [names, List.forall_mem_cons, List.not_mem_nil, false_implies, implies_true, and_true]
  exact ⟨fun hmem => hline (hwithin.table hmem), fun hmem => hline (hkey.columns s.column (List.mem_cons_self ..) hmem),
    fun hmem => hline (hkey.refTable hmem)⟩

/-- **A statement of names that are written bare is read as it was meant** exactly if no name ends a line, and none is a
word that the reader looks for at its place. -/
theorem readsBack_iff {s : KeyStatement} {o : Export.Outgoing} (h : s.Tells o)
    (hbare : ∀ name ∈ s.names, Ident.isBare name = true) :
    ∃ written, Export.foreignKeyStatement s.table o = .ok written ∧
      (Heading.kind? (squeeze written.toList) = .ok (some .alterTable) ∧
          (Alteration.read (squeeze written.toList)).value = .ok ⟨s.table, [s.key]⟩ ↔
        (∀ name ∈ s.names, '\n' ∉ name.toList) ∧ s.table ≠ "only" ∧ s.column ≠ "add" ∧ s.target ≠ "add") := by
  refine ⟨s.written, foreignKeyStatement_eq h, ?_⟩
  by_cases hline : ∀ name ∈ s.names, '\n' ∉ name.toList
  · have hnames := bare_of_isBare hbare hline
    rw [toList_written hnames hbare, squeeze_lines hnames, value_read_iff hnames]
    constructor
    · exact fun hread => ⟨hline, hread.2⟩
    · exact fun hread => ⟨kind?_text hnames hread.2.1, hread.2⟩
  · exact iff_of_false (fun hread => hline (newline_not_mem_of_read hread.2)) fun hnames => hline hnames.1

/-- A relation from one table to another. -/
def relating (column target : String) : Export.Outgoing :=
  Export.Lead.toDocument {
    relation := {
      id := "relation-1", sourceId := "entity-1", targetId := "entity-2", sourceField := column
      columnName := column, nullable := true, onDelete := .setNull, onUpdate := .noAction }
    target := { id := "entity-2", name := "T", tableName := target, fields := [], place := ⟨100, 100⟩ } }

/-- The two words make no difference at other places. -/
theorem readsBack_elsewhere :
    ∃ written, Export.foreignKeyStatement "add" (relating "only" "only") = .ok written ∧
      Heading.kind? (squeeze written.toList) = .ok (some .alterTable) ∧
        (Alteration.read (squeeze written.toList)).value =
          .ok ⟨"add", [⟨some "fk_add_only", ["only"], "only", ["id"], some .setNull, some .noAction⟩]⟩ := by
  let s : KeyStatement := ⟨"add", "only", "only", .setNull, .noAction⟩
  have htells : s.Tells (relating "only" "only") := ⟨rfl, rfl, rfl, rfl⟩
  obtain ⟨written, hwritten, hread⟩ := readsBack_iff htells (by decide +kernel)
  exact ⟨written, hwritten, hread.2 (by decide +kernel)⟩

/-- The statement is read back as the key that is meant. -/
def IsReadBack (s : KeyStatement) : Prop := (Alteration.read (squeeze s.written.toList)).value = .ok ⟨s.table, [s.key]⟩

/-- The words cost the key wherever they matter. -/
theorem not_isReadBack {s : KeyStatement} (hbare : ∀ name ∈ s.names, Ident.isBare name = true)
    (hline : ∀ name ∈ s.names, '\n' ∉ name.toList) (hword : s.table = "only" ∨ s.column = "add" ∨ s.target = "add") :
    ¬ s.IsReadBack := by
  have hnames := bare_of_isBare hbare hline
  rw [IsReadBack, toList_written hnames hbare, squeeze_lines hnames, value_read_iff hnames]
  rintro ⟨htable, hcolumn, htarget⟩
  rcases hword with h | h | h
  · exact htable h
  · exact hcolumn h
  · exact htarget h

/-- A column or a target of the name `add` cuts the clause, and behind a table of the name `only` there is none. -/
theorem not_readsBack_words :
    ["u", "x", "t", "add", "only"].all Ident.isBare = true ∧
      ¬ IsReadBack ⟨"u", "add", "t", .noAction, .noAction⟩ ∧
      ¬ IsReadBack ⟨"u", "x", "add", .noAction, .noAction⟩ ∧
      ¬ IsReadBack ⟨"only", "x", "t", .noAction, .noAction⟩ := by
  refine ⟨by decide +kernel, not_isReadBack ?_ ?_ ?_, not_isReadBack ?_ ?_ ?_, not_isReadBack ?_ ?_ ?_⟩
  all_goals decide +kernel

end KeyStatement
end SchemaSketch
