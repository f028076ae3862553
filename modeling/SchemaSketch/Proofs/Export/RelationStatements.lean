import SchemaSketch.Proofs.Export.KeyStatements
import SchemaSketch.Proofs.Export.Keys
import SchemaSketch.Proofs.Sql.RegularStatements

/-!
# The statements of a relation in a script

For each relation a script has the statement of a foreign key and that of an index. When a script is cut into
statements, each of the two is read without its semicolon and on one line.

* **Foreign keys.** The words of the last action end the statement. They are all words other than `ADD`, so the clause
  goes up to the end, and the key that is meant is the one that is read (`KeyStatement.value_read_line`).
* **Indexes** are ignored, whatever their names are (`IndexStatement.ignored`).
* **Cuts.** Both are regular texts if their names are words that open and close no block
  (`KeyStatement.isStatement_raw`, `IndexStatement.isStatement_raw`).
-/

namespace SchemaSketch

open Text Pattern

/-! ## A word at the end -/

namespace Reader

variable {α : Type} {r : Reader α}

/-- Inside a word no word begins, up to its end. -/
theorem passes_within {w : List Char} (hw : ∀ c ∈ w, isWord c = true) {before : Option Char}
    (hbefore : wordMayBegin before = false) : r.Passes before w [] := by
  induction w generalizing before with
  | nil => trivial
  | cons c w ih =>
    obtain ⟨hc, hw⟩ := List.forall_mem_cons.1 hw
    have hinside : wordMayBegin (some c) = false := by rw [wordMayBegin, hc]; rfl
    refine ⟨fun hword => ?_, ih hw hinside⟩
    rw [hbefore] at hword
    cases hword

/-- Nothing is read at the last word of a text. -/
theorem passes_last {w : List Char} (hw : ∀ c ∈ w, isWord c = true) (hnone : r w = none) (before : Option Char) :
    r.Passes before w [] := by
  cases w with
  | nil => trivial
  | cons c w =>
    obtain ⟨hc, hrest⟩ := List.forall_mem_cons.1 hw
    refine ⟨fun _ => ?_, passes_within hrest (by rw [wordMayBegin, hc]; rfl)⟩
    rw [List.append_nil]
    exact hnone

end Reader

namespace Alteration

/-- Text up to which no clause begins again is one clause. -/
theorem clauses_add {cs : List Char} (h : add.Passes (some ' ') cs []) : clauses (" ADD ".toList ++ cs) = [' ' :: cs] := by
  have hspace : (Piece.lone ' ').Plain := Piece.plain_lone (by decide)
  have hword : (Piece.spaced "ADD").Plain := Piece.plain_of_isPlain (by cbv)
  have hadd : isAdd (.spaced "ADD") = true := by cbv
  have htext : " ADD ".toList ++ cs = (Piece.lone ' ').text ++ ((Piece.spaced "ADD").text ++ cs) := rfl
  have hwhole := clausesFrom_passes h (some [' '])
  rw [List.append_nil] at hwhole
  rw [clauses, htext, clausesFrom_other hspace (by decide), clausesFrom_add hword hadd rfl]
  refine hwhole.trans ?_
  rw [Option.map_some, clausesFrom, Option.map_some, List.reverse_append, List.reverse_reverse]
  rfl

end Alteration

/-! ## The last action -/

/-- The last word of an action. -/
def Action.last : Action → List Char
  | .cascade => "CASCADE".toList
  | .setNull => "NULL".toList
  | .restrict => "RESTRICT".toList
  | .noAction => "ACTION".toList

/-- The words in front of the last one. -/
def Action.ahead : Action → List Piece
  | .cascade | .restrict => []
  | .setNull => [.spaced "SET"]
  | .noAction => [.spaced "NO"]

theorem Action.pieces_eq (mark : Char) (a : Action) : a.pieces mark = a.ahead ++ [⟨a.last, mark⟩] := by
  cases a <;> rfl

theorem Action.words_eq (a : Action) : a.words.toList = spell a.ahead ++ a.last := by cases a <;> rfl

theorem Action.last_quiet (a : Action) : (∀ c ∈ a.last, isWord c = true) ∧ Alteration.add a.last = none := by
  have hquiet : (a.last.all isWord && !Alteration.addWord.fits a.last) = true := by
    cases a <;> decide +kernel
  rw [Bool.and_eq_true, Bool.not_eq_true'] at hquiet
  refine ⟨List.all_eq_true.1 hquiet.1, Option.map_eq_none_iff.2 ?_⟩
  exact Option.isNone_iff_eq_none.1 (Option.isSome_eq_false_iff.1 hquiet.2)

namespace KeyStatement

/-! ## The statement on one line -/

/-- The words and marks behind the reference, up to the last word. -/
def actingFront (s : KeyStatement) : List Piece :=
  [.lone ' ', .spaced "ON", .spaced "DELETE"] ++ s.onDelete.pieces ' ' ++ ([.spaced "ON", .spaced "UPDATE"] ++ s.onUpdate.ahead)

/-- What follows the reference. -/
def actingText (s : KeyStatement) : List Char := spell s.actingFront ++ s.onUpdate.last

/-- The words and marks of the clause, up to the last word. -/
def front (s : KeyStatement) : List Piece :=
  (s.naming ++ listing) ++ ⟨s.column.toList, ')'⟩ :: (referring ++ ⟨s.target.toList, '('⟩ :: ⟨"id".toList, ')'⟩ :: s.actingFront)

theorem body_eq (s : KeyStatement) : s.body = s.front ++ [⟨s.onUpdate.last, ';'⟩] := by
  simp only [body, reference, acting, front, actingFront, Action.pieces_eq ';', List.append_assoc, List.cons_append]

/-- What follows the name of the table. -/
def lineRest (s : KeyStatement) : List Char := " ADD ".toList ++ (spell s.front ++ s.onUpdate.last)

/-- The statement on one line, without the semicolon. -/
def line (s : KeyStatement) : List Char := "ALTER TABLE ".toList ++ (s.table.toList ++ s.lineRest)

/-- What follows the list of columns. -/
def lineReference (s : KeyStatement) : List Char :=
  ' ' :: ("REFERENCES ".toList ++ (s.target.toList ++ '(' :: ("id".toList ++ ')' :: s.actingText)))

/-- The clause, cut behind the name of the constraint. -/
theorem spell_front (s : KeyStatement) : spell s.front ++ s.onUpdate.last =
    spell s.naming ++ ("FOREIGN KEY (".toList ++ (s.column.toList ++ ')' :: s.lineReference)) := by
  simp only [front, lineReference, actingText, listing, referring, spell_append, spell_cons, Piece.spaced, Piece.lone,
    String.reduceToList, List.cons_append, List.nil_append, List.append_assoc]

section

variable {s : KeyStatement} (h : s.Bare)

include h

theorem plain_front : ∀ p ∈ s.front, p.Plain := fun p hp =>
  plain_body h p (s.body_eq ▸ List.mem_append_left _ hp)

/-- Up to the end no clause begins again. -/
theorem passes_line (hcolumn : s.column ≠ "add") (htarget : s.target ≠ "add") :
    Alteration.add.Passes (some ' ') (spell s.front ++ s.onUpdate.last) [] := by
  have hother : ∀ p ∈ s.front, Alteration.isAdd p = false := by
    intro p hp
    have hbody : p ∈ s.body := s.body_eq ▸ List.mem_append_left _ hp
    rw [body, List.append_cons] at hbody
    rcases List.mem_append.1 hbody with hbody | hbody
    · exact isAdd_column h hcolumn p hbody
    · exact isAdd_reference h htarget p hbody
  obtain ⟨hword, hlast⟩ := s.onUpdate.last_quiet
  refine (passes_spell (plain_front h) (fun p hp => ?_) _ _).append (Reader.passes_last hword hlast _)
  have hnone : Alteration.addWord p.word = none :=
    Option.isNone_iff_eq_none.1 (Option.isSome_eq_false_iff.1 (hother p hp))
  exact Piece.avoids (k := "add") (fun cs h => Option.map_eq_none_iff.2 h) (by decide) (plain_front h p hp) hnone

/-! ## The key that is read -/

/-- The column is found behind the name of the constraint. -/
theorem searchWord_clause :
    searchWord Reference.keyColumns (' ' :: (spell s.front ++ s.onUpdate.last)) = some (s.column.toList, s.lineReference) := by
  have hnaming : spell (.lone ' ' :: s.naming) = ' ' :: spell s.naming := spell_cons (.lone ' ') s.naming
  rw [s.spell_front, ← List.cons_append, ← hnaming, searchWord_keyColumns h]
  exact searchAfter_of_eq_some (Reference.keyColumns_append h.column.ne_nil (free_column h) s.lineReference)

/-- The table referred to is found behind the column. -/
theorem searchWord_lineReference :
    searchWord Reference.target s.lineReference = some ((s.target.toList, "id".toList), s.actingText) := by
  have hid : ∀ c ∈ "id".toList, (c != ')') = true := List.all_eq_true.1 (by decide)
  rw [lineReference, searchWord_space Reference.begins_target (by decide)]
  exact searchAfter_of_eq_some (Reference.target_append h.target (by decide) hid s.actingText)

/-- The name of the constraint is found at the front. -/
theorem exists_constraintName :
    ∃ tail, searchWord Reference.constraintName (' ' :: (spell s.front ++ s.onUpdate.last)) = some (s.constraint.toList, tail) := by
  have htext : spell s.front ++ s.onUpdate.last = "CONSTRAINT ".toList ++ (s.constraint.toList ++
      ' ' :: ("FOREIGN KEY (".toList ++ (s.column.toList ++ ')' :: s.lineReference))) := by
    rw [s.spell_front, naming, spell_cons, spell_cons]
    simp only [Piece.spaced, String.reduceToList, spell_nil, List.cons_append, List.nil_append, List.append_assoc]
  rw [htext, searchWord_space Reference.begins_constraintName (by decide)]
  exact ⟨_, searchAfter_of_eq_some (Reference.constraintName_append (plain_constraint h) _)⟩

omit h in
theorem actions_actingText (s : KeyStatement) :
    (Reference.actions s.actingText).value = ⟨some s.onDelete, some s.onUpdate⟩ := by
  rw [actingText, actingFront]
  cases s.onDelete <;> cases s.onUpdate <;> decide +kernel

/-- The clause holds the key. -/
theorem keysOf_lineRest (hcolumn : s.column ≠ "add") (htarget : s.target ≠ "add") :
    Alteration.keysOf s.lineRest = [s.key] := by
  have hid : Identifier.names "id".toList = ["id"] := by cbv
  obtain ⟨tail, hconstraint⟩ := exists_constraintName h
  rw [Alteration.keysOf, lineRest, Alteration.clauses_add (passes_line h hcolumn htarget), List.filterMap_cons,
    Reference.foreignKey?, hconstraint, searchWord_clause h]
  dsimp only
  rw [searchWord_lineReference h]
  dsimp only
  rw [s.actions_actingText, Option.map_some, (plain_constraint h).bareName_eq_self, h.target.bareName_eq_self,
    Reference.names_eq_singleton h.column, hid, String.ofList_toList, String.ofList_toList, String.ofList_toList, key]
  rfl

theorem altered_line (honly : s.table ≠ "only") : Heading.altered s.line = some (s.table.toList, s.lineRest) := by
  have hif : s.table.toList ≠ "if".toList := (h.unreserved s.table (by simp [names])).1
  have hne : s.table.toList ≠ "only".toList := fun heq => honly (String.toList_inj.1 heq)
  exact Heading.altered_append h.table hif hne ("DD ".toList ++ (spell s.front ++ s.onUpdate.last))

/-- **The key that is meant is the one that is read**, up to the end of the statement. -/
theorem value_read_line (honly : s.table ≠ "only") (hcolumn : s.column ≠ "add") (htarget : s.target ≠ "add") :
    (Alteration.read s.line).value = .ok ⟨s.table, [s.key]⟩ := by
  rw [Alteration.value_read (altered_line h honly), h.table.bareName_eq_self, String.ofList_toList,
    keysOf_lineRest h hcolumn htarget]
  rfl

omit h in
/-- The statement, cut behind the name of the constraint. -/
theorem line_eq (s : KeyStatement) :
    s.line = spell (.spaced "ALTER" :: .spaced "TABLE" :: ⟨s.table.toList, ' '⟩ :: .spaced "ADD" :: s.naming) ++
      ("FOREIGN KEY (".toList ++ (s.column.toList ++ ')' :: s.lineReference)) := by
  have hheading : spell (.spaced "ALTER" :: .spaced "TABLE" :: ⟨s.table.toList, ' '⟩ :: .spaced "ADD" :: s.naming) =
      "ALTER TABLE ".toList ++ (s.table.toList ++ (" ADD ".toList ++ spell s.naming)) := by
    simp only [spell_cons, Piece.spaced, String.reduceToList, List.cons_append, List.nil_append]
  rw [hheading, List.append_assoc, List.append_assoc, List.append_assoc, ← s.spell_front]
  rfl

/-- **The statement alters a table**, unless it is too much. -/
theorem kind?_line (honly : s.table ≠ "only") {segments : List (List Token)}
    (hsegments : Script.segments s.line = .ok segments) : Heading.kind? s.line = .ok (some .alterTable) := by
  have hcolumns : searchWord Reference.keyColumns ("FOREIGN KEY (".toList ++ (s.column.toList ++ ')' :: s.lineReference)) =
      some (s.column.toList, s.lineReference) :=
    searchAfter_of_eq_some (Reference.keyColumns_append h.column.ne_nil (free_column h) s.lineReference)
  refine (Heading.kind?_eq_alterTable hsegments).2 ⟨by rw [altered_line h honly]; rfl, ?_⟩
  rw [Reference.hasWord_keyList, line_eq, searchWord_heading h, hcolumns]
  rfl

end
end KeyStatement

/-! ## Names in regular texts -/

/-- What begins like no word of a block is none. -/
theorem Text.isLoud_of_prefix {front : List Char}
    (hloud : (loudWords.all fun word => !(upper front).isPrefixOf word) = true)
    (hgo : front.isPrefixOf ['G', 'O'] = false) {word : List Char} (h : front <+: word) : isLoud word = false := by
  obtain ⟨rest, rfl⟩ := h
  rw [isLoud, Bool.or_eq_false_iff, upper_append]
  constructor
  · refine Bool.eq_false_iff.2 fun hmem => ?_
    have hnot := List.all_eq_true.1 hloud _ (List.contains_iff_mem.1 hmem)
    rw [List.isPrefixOf_iff_prefix.2 (List.prefix_append _ _)] at hnot
    cases hnot
  · rw [beq_eq_false_iff_ne]
    intro heq
    rw [← heq, List.isPrefixOf_iff_prefix.2 (List.prefix_append _ _)] at hgo
    cases hgo

namespace Ident

theorem Plain.isPhrase {name : List Char} (h : Plain name) (hquiet : isLoud name = false) : IsPhrase name := by
  refine .word h.ne_nil h.isWord (fun c hc => ?_) hquiet
  have hmark : ' ' ∈ [' ', '(', ')', ';'] := List.mem_cons_self ..
  exact (h.piece hmark).begins c hc

/-- A name that is written without quotes and on one line, and that opens or closes no block. -/
structure Unquoted (name : String) : Prop where
  /-- it needs no quotes -/
  bare : isBare name = true
  /-- it has no line end -/
  line : '\n' ∉ name.toList
  /-- it is no word of a block -/
  quiet : isLoud name.toList = false

instance (name : String) : Decidable (Unquoted name) :=
  decidable_of_iff (isBare name = true ∧ '\n' ∉ name.toList ∧ isLoud name.toList = false)
    ⟨fun h => ⟨h.1, h.2.1, h.2.2⟩, fun h => ⟨h.bare, h.line, h.quiet⟩⟩

namespace Unquoted

variable {name : String} (h : Unquoted name)

include h

theorem plain : Plain name.toList := plain_of_isBare h.bare h.line

theorem isPhrase : IsPhrase name.toList := h.plain.isPhrase h.quiet

theorem quote_eq : quote name = name := if_pos h.bare

end Unquoted
end Ident

/-! ## The statement of a foreign key -/

namespace KeyStatement

/-- The lines of the statement up to the last word. -/
def openLines (s : KeyStatement) : List (List Char) := [
  "ALTER TABLE ".toList ++ s.table.toList,
  "ADD CONSTRAINT ".toList ++ s.constraint.toList,
  "FOREIGN KEY (".toList ++ (s.column.toList ++ [')']),
  "REFERENCES ".toList ++ (s.target.toList ++ "(id)".toList),
  "ON DELETE ".toList ++ s.onDelete.words.toList,
  "ON UPDATE ".toList ++ s.onUpdate.words.toList]

/-- The statement in a script, without the semicolon. -/
def raw (s : KeyStatement) : List Char := '\n' :: join ('\n' :: "    ".toList) s.openLines

/-- On one line there are spaces between the lines. -/
theorem line_eq_join (s : KeyStatement) : s.line = join [' '] s.openLines := by
  simp only [line_eq, lineReference, actingText, actingFront, naming, openLines, join, spell_append, spell_cons, spell_pieces,
    Action.words_eq s.onUpdate, Piece.spaced, Piece.lone, String.reduceToList, spell_nil, List.cons_append,
    List.nil_append, List.append_assoc]

/-- What is written is the statement and a semicolon. -/
theorem join_lines (s : KeyStatement) : '\n' :: join ('\n' :: "    ".toList) s.lines = s.raw ++ [';'] := by
  simp only [raw, lines, openLines, join, List.cons_append, List.append_assoc]

section

variable {s : KeyStatement} (h : s.Bare)

include h

theorem tidy_openLines : ∀ line ∈ s.openLines, Tidy line := by
  have hlines := tidy_lines h
  simp only [lines, openLines, List.forall_mem_cons, List.not_mem_nil, false_implies, implies_true, and_true] at hlines ⊢
  obtain ⟨htable, hconstraint, hcolumn, htarget, honDelete, -⟩ := hlines
  refine ⟨htable, hconstraint, hcolumn, htarget, honDelete, ?_⟩
  cases s.onUpdate
  all_goals exact tidy_of_squeeze_eq (by decide) (by cbv)

theorem squeeze_raw : squeeze s.raw = s.line := by
  have hgap : Blank "    ".toList := List.forall_iff_forall_mem.1 (by decide)
  have hfront : words s.raw = words (join ('\n' :: "    ".toList) s.openLines) :=
    words_blank_append (List.forall_mem_singleton.2 rfl) _
  rw [squeeze, hfront, line_eq_join]
  exact squeeze_join rfl hgap (List.cons_ne_nil _ _) (tidy_openLines h)

theorem isPhrase_openLines (hquiet : ∀ name ∈ s.names, isLoud name.toList = false) :
    ∀ line ∈ s.openLines, IsPhrase line := by
  have hclosed : (∀ cs ∈ ["ALTER TABLE", "ADD CONSTRAINT", "FOREIGN KEY ", "REFERENCES", "id"], IsPhrase cs.toList) ∧
      ∀ a : Action, IsPhrase ("ON DELETE ".toList ++ a.words.toList) ∧ IsPhrase ("ON UPDATE ".toList ++ a.words.toList) :=
    ⟨by decide +kernel, fun a => by cases a <;> decide +kernel⟩
  obtain ⟨hwords, hactions⟩ := hclosed
  simp only [List.forall_mem_cons, List.not_mem_nil, false_implies, implies_true, and_true] at hwords
  obtain ⟨halter, hadd, hforeign, hreferences, hid⟩ := hwords
  simp only [names, List.forall_mem_cons, List.not_mem_nil, false_implies, implies_true, and_true] at hquiet
  obtain ⟨htable, hcolumn, htarget⟩ := hquiet
  have hfront : "fk_".toList <+: s.constraint.toList := ⟨(s.table ++ "_" ++ s.column).toList, by simp [constraint]⟩
  have hconstraint : isLoud s.constraint.toList = false := isLoud_of_prefix (by decide +kernel) (by decide) hfront
  simp only [openLines, List.forall_mem_cons, List.not_mem_nil, false_implies, implies_true, and_true]
  refine ⟨?_, ?_, ?_, ?_, (hactions s.onDelete).1, (hactions s.onUpdate).2⟩
  · exact halter.apart (.inl rfl) (h.table.isPhrase htable)
  · exact hadd.apart (.inl rfl) ((plain_constraint h).isPhrase hconstraint)
  · exact hforeign.enclose (h.column.isPhrase hcolumn) .nil
  · exact hreferences.apart (.inl rfl) ((h.target.isPhrase htarget).enclose hid .nil)

/-- **The statement is one of the script.** -/
theorem isStatement_raw (hquiet : ∀ name ∈ s.names, isLoud name.toList = false) : IsStatement s.raw := by
  have hphrase : IsPhrase s.raw :=
    IsPhrase.nil.apart (.inr (.inl rfl)) (.join (List.forall_iff_forall_mem.1 (by decide)) (isPhrase_openLines h hquiet))
  have hlast : s.raw = '\n' :: (s.openLines.dropLast.flatMap (· ++ '\n' :: "    ".toList) ++
      ("ON UPDATE ".toList ++ spell s.onUpdate.ahead)) ++ s.onUpdate.last := by
    simp [raw, openLines, join, Action.words_eq s.onUpdate]
  refine ⟨hphrase, ?_⟩
  rw [hlast, List.getLast?_append]
  cases s.onUpdate
  all_goals exact ⟨_, rfl, by decide, by decide⟩

end
end KeyStatement

/-! ## The statement of an index -/

namespace Index

/-- The words of the statement, with the list of columns behind the table. -/
def words (table column : String) : List (List Char) := [
  "CREATE INDEX".toList,
  (Export.indexName table column).toList,
  "ON".toList,
  table.toList ++ '(' :: (column.toList ++ [')'])]

/-- The statement on one line, without the semicolon. -/
def line (table column : String) : List Char := join [' '] (words table column)

theorem kind?_line (table column : String) : ∀ kind, Heading.kind? (line table column) ≠ .ok (some kind) := by
  have hline : ∃ rest, line table column = "CREATE INDEX ".toList ++ rest := by
    refine ⟨join [' '] (words table column).tail, ?_⟩
    simp only [line, words, join, List.tail_cons, List.append_assoc]
    rfl
  obtain ⟨rest, hline⟩ := hline
  have hcreate : ∀ rest, Heading.createWords ("CREATE INDEX ".toList ++ rest) = none := fun rest => rfl
  have halter : ∀ rest, (phrase ["alter", "table"] >> blanks1) ("CREATE INDEX ".toList ++ rest) = none := fun rest => rfl
  have hcreated : Heading.created (line table column) = none := by
    rw [hline, Heading.created, Reader.skip_bind, hcreate]
    rfl
  have haltered : Heading.altered (line table column) = none := by
    rw [hline, Heading.altered, Reader.skip_bind, halter]
    rfl
  intro kind hkind
  obtain ⟨segment, hsegment⟩ := Heading.exists_of_kind? hkind
  cases kind with
  | createTable =>
    have h := (Heading.kindOf?_eq_createTable.1 hsegment).2
    rw [hcreated] at h
    cases h
  | alterTable =>
    have h := (Heading.kindOf?_eq_alterTable.1 hsegment).2.1
    rw [haltered] at h
    cases h

/-- **The statement is ignored**: it declares nothing and alters nothing. -/
theorem ignored (table column : String) : (Reading.ofStatement (line table column)).table? = none ∧
    (Reading.ofStatement (line table column)).alteration? = none := by
  have hkind := kind?_line table column
  rw [Reading.ofStatement]
  cases h : Heading.kind? (line table column) with
  | error cause => exact ⟨rfl, rfl⟩
  | ok kind =>
    cases kind with
    | none => exact ⟨rfl, rfl⟩
    | some kind => exact absurd h (hkind kind)

variable {table column : String} (htable : Ident.Unquoted table) (hcolumn : Ident.Unquoted column)

include htable hcolumn

/-- The name of the index is simple too. -/
theorem plain_indexName : Ident.Plain (Export.indexName table column).toList := by
  have hletters : ∀ c ∈ "idx_".toList, Ident.isSimpleChar c = true := List.all_eq_true.1 (by decide)
  have htext : (Export.indexName table column).toList = "idx_".toList ++ (table.toList ++ '_' :: column.toList) := by
    simp [Export.indexName]
  rw [htext]
  refine ⟨⟨'i', _, rfl, rfl⟩, fun c hc => ?_⟩
  rcases List.mem_append.1 hc with hc | hc
  · exact hletters c hc
  rcases List.mem_append.1 hc with hc | hc
  · exact htable.plain.simple c hc
  rcases List.mem_cons.1 hc with rfl | hc
  · rfl
  · exact hcolumn.plain.simple c hc

omit htable hcolumn in
theorem prefix_indexName (table column : String) : "idx_".toList <+: (Export.indexName table column).toList := by
  exact ⟨(table ++ "_" ++ column).toList, by simp [Export.indexName]⟩

theorem quote_indexName : Ident.quote (Export.indexName table column) = Export.indexName table column :=
  if_pos (KeyStatement.isBare_of_prefix (by decide +kernel) (plain_indexName htable hcolumn)
    (prefix_indexName table column))

theorem tidy_words : ∀ word ∈ words table column, Tidy word := by
  have hcreate : Tidy "CREATE INDEX".toList := tidy_of_squeeze_eq (by decide) (by cbv)
  have hon : Tidy "ON".toList := .word (by decide) (List.forall_iff_forall_mem.1 (by decide))
  have hlist : Tidy (column.toList ++ [')']) := by
    refine .word (by simp) fun c hc => ?_
    rcases List.mem_append.1 hc with hc | hc
    · exact hcolumn.plain.isBlank c hc
    · rw [List.mem_singleton.1 hc]
      rfl
  have hname := plain_indexName htable hcolumn
  simp only [words, List.forall_mem_cons, List.not_mem_nil, false_implies, implies_true, and_true]
  refine ⟨hcreate, .word hname.ne_nil hname.isBlank, hon, ?_⟩
  exact (hlist.prepend (a := ['(']) (List.forall_mem_singleton.2 rfl)).prepend htable.plain.isBlank

theorem squeeze_raw : squeeze ('\n' :: line table column) = line table column :=
  (Tidy.join (List.cons_ne_nil _ _) (tidy_words htable hcolumn)).squeeze_of_words
    (words_blank_append (b := ['\n']) (List.forall_mem_singleton.2 rfl) _)

/-- **The statement is one of the script.** -/
theorem isStatement_raw : IsStatement ('\n' :: line table column) := by
  have hquiet : isLoud (Export.indexName table column).toList = false :=
    isLoud_of_prefix (by decide +kernel) (by decide) (prefix_indexName table column)
  have hwords : ∀ word ∈ words table column, IsPhrase word := by
    simp only [words, List.forall_mem_cons, List.not_mem_nil, false_implies, implies_true, and_true]
    refine ⟨by decide +kernel, (plain_indexName htable hcolumn).isPhrase hquiet, by decide +kernel, ?_⟩
    exact htable.isPhrase.enclose hcolumn.isPhrase .nil
  have hphrase : IsPhrase ('\n' :: line table column) :=
    IsPhrase.nil.apart (.inr (.inl rfl)) (.join (List.forall_mem_singleton.2 (.inl rfl)) hwords)
  have hlast : '\n' :: line table column = '\n' :: (join [' '] (words table column).dropLast ++ ' ' ::
      (table.toList ++ '(' :: column.toList)) ++ [')'] := by
    simp [line, words, join]
  rw [hlast] at hphrase ⊢
  exact hphrase.isStatement (by decide)

end Index

end SchemaSketch
