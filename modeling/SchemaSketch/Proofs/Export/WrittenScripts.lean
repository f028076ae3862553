import SchemaSketch.Proofs.Export.Comments
import SchemaSketch.Proofs.Export.WrittenTables

/-!
# A written script is cut into its steps

The script of a design is comments and the statements of its steps, each beginning on a line of its own. If names are
written as they are and columns are items of a list, then each statement is a regular text that ends with its
semicolon, and so the script is cut into the steps again, each on one line (`Design.prepare_script`).
-/

namespace SchemaSketch

open Text

/-- A comment on one line has no statements. -/
theorem Statement.says_comment {cs : List Char} (h : '\n' ∉ cs) : Says ('-' :: '-' :: cs) [] := by
  obtain ⟨houtside, hstrip⟩ := Comment.strip_comment h
  refine ⟨⟨houtside, hstrip ▸ .blank (List.forall_mem_nil _)⟩, fun found hfound => ?_⟩
  rw [← prepare_strip, hstrip] at hfound
  exact (Except.ok.inj hfound).symm

/-- Lines that all begin with the same characters. -/
theorem Text.intercalate_indented (sep indent : List Char) {lines : List (List Char)} (hne : lines ≠ []) :
    sep.intercalate (lines.map (indent ++ ·)) = indent ++ join (sep ++ indent) lines := by
  induction lines with
  | nil => exact absurd rfl hne
  | cons line rest ih =>
    cases rest with
    | nil => rw [List.map_singleton, List.intercalate_singleton, join]
    | cons next rest =>
      rw [List.map_cons, List.map_cons, List.intercalate_cons_cons, ← List.map_cons, ih (List.cons_ne_nil _ _), join]
      simp only [List.append_assoc]

namespace Export

/-- The statement of the foreign key of a relation. -/
def Lead.keyStatement (table : String) (l : Lead) : KeyStatement :=
  ⟨table, l.column, l.target.table, l.relation.onDelete, l.relation.onUpdate⟩

/-- The characters of an index. -/
theorem Lead.toList_index {table : String} {l : Lead} (htable : Ident.Unquoted table)
    (hcolumn : Ident.Unquoted l.column) : (l.index table).toList = ('\n' :: Index.line table l.column) ++ [';'] := by
  have hname : Ident.quote ("idx_" ++ table ++ "_" ++ l.column) = indexName table l.column :=
    Index.quote_indexName htable hcolumn
  have hindex : l.index table = "\nCREATE INDEX " ++ Ident.quote ("idx_" ++ table ++ "_" ++ l.column) ++ " ON " ++
      Ident.quote table ++ "(" ++ Ident.quote l.column ++ ");" := rfl
  rw [hindex, hname, htable.quote_eq, hcolumn.quote_eq]
  simp only [Index.line, Index.words, join, String.toList_append, String.reduceToList, List.append_assoc,
    List.cons_append, List.nil_append]

namespace Step

/-- The statement of a step. -/
def statement (d : Design) : Step → String
  | create e => "\n".intercalate ["CREATE TABLE " ++ Ident.quote e.table ++ " (",
      ",\n".intercalate ((d.columns e).map (·.line)), ");"]
  | refer e l => l.foreignKey e.table
  | index e l => l.index e.table

/-- Its characters without the semicolon, if no name needs quotes. -/
def raw (d : Design) : Step → List Char
  | create e => Creation.raw e.table ((d.columns e).map (·.text))
  | refer e l => (l.keyStatement e.table).raw
  | index e l => '\n' :: Index.line e.table l.column

/-- These on one line. -/
def line (d : Design) : Step → List Char
  | create e => Creation.line e.table ((d.columns e).map (·.text))
  | refer e l => (l.keyStatement e.table).line
  | index e l => Index.line e.table l.column

end Step
end Export

namespace Design

open Export

theorem tableScript_eq_statements (d : Design) (e : Entity) :
    d.tableScript e = "\n".intercalate (("-- Entity: " ++ e.name) :: (d.stepsOf e).map (·.statement d)) := by
  rw [stepsOf, List.map_cons, List.map_append, List.map_map, List.map_map, tableScript, List.append_assoc]
  exact (intercalate_append_intercalate "\n" ["-- Entity: " ++ e.name] (List.cons_ne_nil _ _) _).symm

theorem script_eq_statements (d : Design) (project : String) : d.script project = "\n".intercalate (heading project ++
    d.ordered.flatMap fun e => ("-- Entity: " ++ e.name) :: (d.stepsOf e).map (·.statement d) ++ [""]) := by
  simp only [script, tableScript_eq_statements]
  exact intercalate_flatMap_intercalate "\n" (fun e => List.cons_ne_nil _ _) (fun _ => [""]) d.ordered _

/-! ## The statements of a table -/

/-- The names of a table are written as they are, and its columns are items of a list. -/
structure WrittenBare (d : Design) (e : Entity) : Prop where
  table : Ident.Unquoted e.table
  names : ∀ w ∈ d.columns e, Ident.Unquoted w.name
  items : ∀ w ∈ d.columns e, IsItem w.text
  leads : ∀ l ∈ d.leads e, Ident.Unquoted l.column ∧ Ident.Unquoted l.target.table

namespace WrittenBare

variable {d : Design} {e : Entity} (h : d.WrittenBare e)

include h

theorem forall_names {l : Lead} (hl : l ∈ d.leads e) : ∀ name ∈ (l.keyStatement e.table).names, Ident.Unquoted name := by
  obtain ⟨hcolumn, htarget⟩ := h.leads l hl
  simp only [KeyStatement.names, List.forall_mem_cons, List.not_mem_nil, false_implies, implies_true, and_true]
  exact ⟨h.table, hcolumn, htarget⟩

theorem bare {l : Lead} (hl : l ∈ d.leads e) : (l.keyStatement e.table).Bare :=
  KeyStatement.bare_of_isBare (fun name hname => (h.forall_names hl name hname).bare)
    fun name hname => (h.forall_names hl name hname).line

omit h in
theorem texts_ne_nil (d : Design) (e : Entity) : (d.columns e).map (·.text) ≠ [] :=
  mt List.map_eq_nil_iff.1 (List.cons_ne_nil _ _)

/-- The characters of a creation. -/
theorem toList_create :
    (Step.statement d (.create e)).toList = Creation.raw e.table ((d.columns e).map (·.text)) ++ [';'] := by
  have hlines : (d.columns e).map (String.toList ∘ (·.line)) =
      ((d.columns e).map (·.text)).map ("    ".toList ++ ·) := by
    rw [List.map_map]
    exact List.map_congr_left fun w hw => WrittenColumn.toList_line (h.names w hw)
  have hlist : (",\n".intercalate ((d.columns e).map (·.line))).toList =
      "    ".toList ++ join (',' :: '\n' :: "    ".toList) ((d.columns e).map (·.text)) := by
    rw [String.toList_intercalate, List.map_map, hlines]
    exact intercalate_indented _ _ (texts_ne_nil d e)
  rw [Step.statement, h.table.quote_eq, String.toList_intercalate]
  simp only [List.map_cons, List.map_nil, String.toList_append, hlist, List.intercalate_cons_cons,
    List.intercalate_singleton, Creation.raw, Creation.heading_eq, Table.creation, onLines, String.reduceToList,
    List.cons_append, List.nil_append, List.append_assoc]

/-- The characters of a step are those that are expected, and a semicolon. -/
theorem toList_statement {s : Step} (hs : s ∈ d.stepsOf e) : (s.statement d).toList = s.raw d ++ [';'] := by
  rcases mem_stepsOf_iff.1 hs with rfl | ⟨l, hl, rfl | rfl⟩
  · exact h.toList_create
  · have hbare : ∀ name ∈ (l.keyStatement e.table).names, Ident.isBare name = true := fun name hname =>
      (h.forall_names hl name hname).bare
    exact (KeyStatement.toList_written (h.bare hl) hbare).trans (l.keyStatement e.table).join_lines
  · obtain ⟨hcolumn, -⟩ := h.leads l hl
    exact l.toList_index h.table hcolumn

/-- **Each step is a statement of the script.** -/
theorem isStatement_raw {s : Step} (hs : s ∈ d.stepsOf e) : IsStatement (s.raw d) ∧ squeeze (s.raw d) = s.line d := by
  rcases mem_stepsOf_iff.1 hs with rfl | ⟨l, hl, rfl | rfl⟩
  · have hitems : ∀ item ∈ (d.columns e).map (·.text), IsItem item := List.forall_mem_map.2 h.items
    exact ⟨Creation.isStatement_raw h.table hitems,
      Creation.squeeze_raw h.table hitems (texts_ne_nil d e)⟩
  · exact ⟨KeyStatement.isStatement_raw (h.bare hl) fun name hname => (h.forall_names hl name hname).quiet,
      KeyStatement.squeeze_raw (h.bare hl)⟩
  · obtain ⟨hcolumn, -⟩ := h.leads l hl
    exact ⟨Index.isStatement_raw h.table hcolumn, Index.squeeze_raw h.table hcolumn⟩

end WrittenBare

/-- The parts of a script that are about an entity, and what each says. -/
def saidParts (d : Design) (e : Entity) : List (List Char × List (List Char)) :=
  ("-- Entity: ".toList ++ e.name.toList, []) :: (d.stepsOf e).map (fun s => (s.raw d ++ [';'], [s.line d])) ++ [([], [])]

/-- The parts of the heading, which say nothing. -/
def headingParts (project : String) : List (List Char × List (List Char)) :=
  (heading project).map fun line => (line.toList, [])

theorem says_headingParts {project : String} (h : '\n' ∉ project.toList) :
    ∀ p ∈ headingParts project, Statement.Says p.1 p.2 := by
  obtain ⟨hrule, hmaker, hruleLine, hmakerLine⟩ := heading_comments
  have hproject : ("-- Project: " ++ project).toList = '-' :: '-' :: (" Project: ".toList ++ project.toList) := by
    simp only [String.toList_append, String.reduceToList, List.cons_append, List.nil_append]
  have hname : '\n' ∉ " Project: ".toList ++ project.toList := List.not_mem_append (by decide) h
  simp only [headingParts, heading, List.map_cons, List.map_nil, List.forall_mem_cons, List.not_mem_nil,
    false_implies, implies_true, and_true, hrule, hmaker, hproject]
  exact ⟨Statement.says_comment hruleLine, Statement.says_comment hmakerLine, Statement.says_comment hname,
    Statement.says_comment hruleLine, Statement.says_nil⟩

theorem says_saidParts {d : Design} {e : Entity} (hname : '\n' ∉ e.name.toList) (h : d.WrittenBare e) :
    ∀ p ∈ d.saidParts e, Statement.Says p.1 p.2 := by
  have hcomment : "-- Entity: ".toList ++ e.name.toList = '-' :: '-' :: (" Entity: ".toList ++ e.name.toList) := by
    simp only [String.reduceToList, List.cons_append, List.nil_append]
  refine List.forall_mem_append.2 ⟨List.forall_mem_cons.2 ⟨?_, List.forall_mem_map.2 fun s hs => ?_⟩, ?_⟩
  · rw [hcomment]
    exact Statement.says_comment (List.not_mem_append (by decide) hname)
  · obtain ⟨hstatement, hsqueeze⟩ := h.isStatement_raw hs
    exact hsqueeze ▸ Statement.says_regular hstatement
  · exact List.forall_mem_singleton.2 Statement.says_nil

/-- The parts of a script, each on lines of its own. -/
def scriptParts (d : Design) (project : String) : List (List Char × List (List Char)) :=
  headingParts project ++ d.ordered.flatMap d.saidParts

/-- **The characters of a script** are those of its parts. -/
theorem toList_script_eq_parts {d : Design} (h : ∀ e ∈ d.entities, d.WrittenBare e) (project : String) :
    (d.script project).toList = ['\n'].intercalate ((d.scriptParts project).map (·.1)) := by
  rw [script_eq_statements, scriptParts, String.toList_intercalate, List.map_append, List.map_append, List.map_flatMap,
    List.map_flatMap, headingParts, List.map_map]
  refine congrArg (fun parts => ['\n'].intercalate (_ ++ parts)) (List.flatMap_congr fun e he => ?_)
  rw [saidParts]
  simp only [List.map_append, List.map_cons, List.map_nil, List.map_map, String.toList_append]
  refine congrArg (fun steps => _ :: steps ++ _) (List.map_congr_left fun s hs => ?_)
  exact (h e ((ordered_perm d).mem_iff.1 he)).toList_statement hs

/-- **The script of a design is cut into its steps.** -/
theorem prepare_script {d : Design} (hnames : ∀ e ∈ d.entities, '\n' ∉ e.name.toList)
    (h : ∀ e ∈ d.entities, d.WrittenBare e) {project : String} (hproject : '\n' ∉ project.toList)
    {statements : List (List Char)} (hstatements : Statement.prepare (d.script project).toList = .ok statements) :
    statements = d.steps.map (·.line d) := by
  have hparts : ∀ p ∈ d.scriptParts project, Statement.Says p.1 p.2 := by
    refine List.forall_mem_append.2 ⟨says_headingParts hproject, fun p hp => ?_⟩
    obtain ⟨e, he, hp⟩ := List.mem_flatMap.1 hp
    have hmem := (ordered_perm d).mem_iff.1 he
    exact says_saidParts (hnames e hmem) (h e hmem) p hp
  have hheading : (headingParts project).flatMap (·.2) = [] := by
    rw [headingParts, List.flatMap_map]
    exact List.flatMap_eq_nil_iff.2 fun _ _ => rfl
  rw [toList_script_eq_parts h] at hstatements
  rw [Statement.prepare_intercalate hparts hstatements, scriptParts, List.flatMap_append, hheading, List.nil_append,
    List.flatMap_assoc, steps, List.map_flatMap]
  refine List.flatMap_congr fun e _ => ?_
  rw [saidParts, List.flatMap_append, List.flatMap_cons, List.flatMap_map, List.map_eq_flatMap]
  exact List.append_nil _

end Design
end SchemaSketch
