import Mathlib
import SchemaSketch.Proofs.Design.Joining
import SchemaSketch.Proofs.Export.Steps
import SchemaSketch.Proofs.Export.Rereading
import SchemaSketch.Proofs.Naming
import SchemaSketch.Proofs.Text.Lines

/-!
# The names in the comments of a script

The script of a design names its project and its entities in comments, each on a line. When the script is
read, do these names matter?

* **The project** has any name, and it is written as it is. A comment ends with its line: what stands behind the
  first line end of the name is read as SQL, and may add tables or hide all that follow
  (`Design.script_injected`). Up to there the name makes no difference.
* **Entities** have names that were made of those of tables, and these are on one line, whatever the table is
  called (`Design.newline_not_mem_name`). What a comment says about an entity makes no difference, unless a quote
  is open where it stands. A table is written with the default values that were read, and one of them may
  have been cut short in a quote; so it is asked that none is left open behind any table.

`Design.comments_inert` says both.
-/

namespace SchemaSketch

open Text

/-! ## Texts on one line -/

namespace Text

/-- What a text is from its first line end on. -/
def fromLineEnd (cs : List Char) : List Char := cs.dropWhile (· != '\n')

/-- A text is its first line, and what it is from its first line end on. -/
theorem exists_firstLine (cs : List Char) : ∃ first, '\n' ∉ first ∧ cs = first ++ fromLineEnd cs := by
  refine ⟨cs.takeWhile (· != '\n'), fun h => ?_, List.takeWhile_append_dropWhile.symm⟩
  have := List.all_eq_true.1 List.all_takeWhile _ h
  simp at this

theorem head?_fromLineEnd {cs more : List Char} {c : Char} (h : fromLineEnd cs = c :: more) : c = '\n' := by
  have hhead := List.head?_dropWhile_not (· != '\n') cs
  rw [← fromLineEnd, h] at hhead
  simpa using hhead

theorem fromLineEnd_of_notMem {cs : List Char} (h : '\n' ∉ cs) : fromLineEnd cs = [] := by
  rw [fromLineEnd, List.dropWhile_eq_nil_iff]
  intro c hc
  simpa using fun heq : c = '\n' => h (heq ▸ hc)

end Text

/-! ## Names of entities -/

namespace Design

theorem newline_not_mem_baseName (table : String) : '\n' ∉ (baseName table).toList := by
  rw [baseName, nonEmpty, nonEmpty]
  split
  · split
    · decide
    · exact Naming.newline_not_mem_pascalCase table
  · exact Naming.newline_not_mem_entityName table

/-- A number added to a name adds no line end. -/
theorem newline_not_mem_numbered {base : String} (h : '\n' ∉ base.toList) (n : Nat) :
    '\n' ∉ (base ++ toString n).toList := by
  rw [String.toList_append, List.mem_append]
  exact not_or.2 ⟨h, newline_not_mem_toString n⟩

theorem newline_not_mem_freeSuffix {base : String} (h : '\n' ∉ base.toList) (used : List String) (k rounds : Nat) :
    '\n' ∉ (freeSuffix base used k rounds).toList := by
  induction rounds generalizing k with
  | zero => exact newline_not_mem_numbered h k
  | succ rounds ih =>
    rw [freeSuffix]
    split
    · exact ih (k + 1)
    · exact newline_not_mem_numbered h k

theorem newline_not_mem_entityName (table : String) (used : List String) :
    '\n' ∉ (entityName table used).toList := by
  rw [entityName, freeName]
  split
  · exact newline_not_mem_freeSuffix (newline_not_mem_baseName table) used 2 used.length
  · exact newline_not_mem_baseName table

/-- **The name of an entity is on one line**, whatever its table is called. -/
theorem newline_not_mem_name {base : BaseColumns} {index : Nat} {used : List String} {place : Place}
    {tables : List Table} {e : Entity} (he : e ∈ entitiesFrom base index used place tables) :
    '\n' ∉ e.name.toList := by
  induction tables generalizing index used place with
  | nil => cases he
  | cons table rest ih =>
    rcases List.mem_cons.1 he with rfl | he
    · exact newline_not_mem_entityName table.name used
    · exact ih he

end Design

/-! ## Comments up to the end of a line -/

namespace Comment

theorem endsOutside_line {cs : List Char} (h : '\n' ∉ cs) (before : Option Char) :
    endsOutside .line before cs = true ∧ stripFrom .line before cs = [] := by
  induction cs generalizing before with
  | nil => exact ⟨rfl, rfl⟩
  | cons c rest ih =>
    obtain ⟨hc, hrest⟩ := not_or.1 (mt List.mem_cons.2 h)
    have hstep : step .line before c rest = ([], .line) := if_neg fun hbeq => hc (beq_iff_eq.1 hbeq).symm
    rw [endsOutside, stripFrom_dropped hstep, hstep]
    exact ih hrest (some c)

/-- Nothing is left of a comment on one line. -/
theorem strip_comment {cs : List Char} (h : '\n' ∉ cs) :
    endsOutside .code none ('-' :: '-' :: cs) = true ∧ strip ('-' :: '-' :: cs) = [] :=
  endsOutside_line h (some '-')

theorem strip_newline (more : List Char) : strip ('\n' :: more) = '\n' :: strip more :=
  strip_join (by rfl : endsOutside .code none [] = true) more

theorem strip_comment_join {cs : List Char} (h : '\n' ∉ cs) (more : List Char) :
    strip ('-' :: '-' :: cs ++ '\n' :: more) = '\n' :: strip more := by
  rw [strip_join (strip_comment h).1, (strip_comment h).2, List.nil_append]

/-- **Lines by themselves.** What is joined by line ends may be read part by part, if nothing is left open in any
part but the last. -/
theorem strip_intercalate {parts : List (List Char)} (h : ∀ part ∈ parts, endsOutside .code none part = true) :
    strip (['\n'].intercalate parts) = ['\n'].intercalate (parts.map strip) := by
  induction parts with
  | nil => rfl
  | cons part rest ih =>
    obtain ⟨hpart, hrest⟩ := List.forall_mem_cons.1 h
    cases rest with
    | nil => rw [List.map_singleton, List.intercalate_singleton, List.intercalate_singleton]
    | cons next rest =>
      rw [List.intercalate_cons_cons, List.append_assoc, List.singleton_append, strip_join hpart, ih hrest,
        List.map_cons, List.map_cons, List.map_cons, List.intercalate_cons_cons, List.append_assoc]
      rfl

end Comment

/-! ## Scripts -/

namespace Design

open Export Comment

/-- What is written for an entity, behind its comment. -/
def tableText (d : Design) (e : Entity) : String :=
  "\n".intercalate (["CREATE TABLE " ++ Ident.quote e.table ++ " (",
      ",\n".intercalate ((d.columns e).map (·.line)), ");"]
    ++ (d.leads e).map (·.foreignKey e.table) ++ (d.leads e).map (·.index e.table))

theorem toList_tableText (d : Design) (e : Entity) :
    (d.tableText e).toList = ['\n'].intercalate (["CREATE TABLE ".toList ++ (Ident.quote e.table).toList
        ++ " (".toList, ",\n".toList.intercalate ((d.columns e).map (·.line.toList)), ");".toList]
      ++ (d.leads e).map (·.foreignKey e.table |>.toList) ++ (d.leads e).map (·.index e.table |>.toList)) := by
  rw [tableText, String.toList_intercalate]
  simp [String.toList_intercalate, Function.comp_def]

/-- The script of a design with other words in the comments of its entities. -/
def annotated (d : Design) (project : String) (note : Entity → String) : String :=
  "\n".intercalate (heading project
    ++ d.ordered.flatMap fun e => ["-- Entity: " ++ note e, d.tableText e, ""])

theorem tableScript_eq (d : Design) (e : Entity) :
    d.tableScript e = "\n".intercalate ["-- Entity: " ++ e.name, d.tableText e] := by
  rw [String.intercalate_cons_cons, String.intercalate_singleton, tableText,
    ← String.intercalate_cons_of_ne_nil (by simp)]
  rfl

theorem script_eq_annotated (d : Design) (project : String) : d.script project = d.annotated project (·.name) := by
  simp only [script, tableScript_eq]
  exact intercalate_flatMap_intercalate "\n" (fun e => List.cons_ne_nil _ _) (fun _ => [""]) d.ordered _

/-- The parts of a script behind the line of the project. -/
def partsBehind (d : Design) (note : Entity → String) : List (List Char) :=
  "-- ===========================================".toList :: [] :: d.ordered.flatMap fun e =>
    ["-- Entity: ".toList ++ (note e).toList, (d.tableText e).toList, []]

theorem toList_annotated (d : Design) (project : String) (note : Entity → String) :
    (d.annotated project note).toList = ['\n'].intercalate
      ("-- ===========================================".toList :: "-- Generated by EntityForge".toList
        :: ("-- Project: ".toList ++ project.toList) :: d.partsBehind note) := by
  rw [annotated, String.toList_intercalate, List.map_append, List.map_flatMap]
  simp only [heading, partsBehind, List.map_cons, List.map_nil, String.toList_append]
  rfl

/-- The lines of a heading that are the same for all projects are comments. -/
theorem heading_comments :
    "-- ===========================================".toList
        = '-' :: '-' :: " ===========================================".toList ∧
      "-- Generated by EntityForge".toList = '-' :: '-' :: " Generated by EntityForge".toList ∧
      '\n' ∉ " ===========================================".toList ∧ '\n' ∉ " Generated by EntityForge".toList := by
  decide

/-- **The heading is taken out**, and the name of the project with it, up to the first line end. -/
theorem strip_annotated (d : Design) (project : String) (note : Entity → String) :
    strip (d.annotated project note).toList = '\n' :: '\n' :: strip (fromLineEnd project.toList
      ++ '\n' :: ['\n'].intercalate (d.partsBehind note)) := by
  obtain ⟨first, hfirst, hproject⟩ := exists_firstLine project.toList
  obtain ⟨hrule, hmaker, hruleLine, hmakerLine⟩ := heading_comments
  obtain ⟨part, rest, hparts⟩ : ∃ part rest, d.partsBehind note = part :: rest := ⟨_, _, rfl⟩
  have hname : '\n' ∉ " Project: ".toList ++ first := by
    rw [List.mem_append]
    exact not_or.2 ⟨by decide, hfirst⟩
  -- what follows the first line of the name begins with a line end in any case
  obtain ⟨more, hmore⟩ : ∃ more, fromLineEnd project.toList
      ++ '\n' :: ['\n'].intercalate (d.partsBehind note) = '\n' :: more := by
    cases hend : fromLineEnd project.toList with
    | nil => exact ⟨_, rfl⟩
    | cons c cs => exact ⟨_, by rw [head?_fromLineEnd hend, List.cons_append]⟩
  have hline : "-- Project: ".toList ++ project.toList ++ '\n' :: ['\n'].intercalate (d.partsBehind note)
      = '-' :: '-' :: (" Project: ".toList ++ first) ++ '\n' :: more := by
    have hfront : "-- Project: ".toList = '-' :: '-' :: " Project: ".toList := by decide
    rw [← hmore, hfront]
    nth_rewrite 1 [hproject]
    simp only [List.cons_append, List.append_assoc]
  have hjoin : (d.annotated project note).toList
      = '-' :: '-' :: " ===========================================".toList ++ '\n' ::
        ('-' :: '-' :: " Generated by EntityForge".toList ++ '\n' ::
          ("-- Project: ".toList ++ project.toList ++ '\n' :: ['\n'].intercalate (d.partsBehind note))) := by
    rw [toList_annotated, hrule, hmaker, List.intercalate_cons_cons, List.intercalate_cons_cons, hparts,
      List.intercalate_cons_cons]
    simp only [List.append_assoc, List.singleton_append]
  rw [hjoin, strip_comment_join hruleLine, strip_comment_join hmakerLine, hline, strip_comment_join hname, hmore]
  rw [strip_newline]

/-- The comment of an entity is on one line, and so nothing is left of it. -/
theorem strip_entityComment {e : Entity} {note : Entity → String} (h : '\n' ∉ (note e).toList) :
    endsOutside .code none ("-- Entity: ".toList ++ (note e).toList) = true ∧
      strip ("-- Entity: ".toList ++ (note e).toList) = [] := by
  have hfront : "-- Entity: ".toList = '-' :: '-' :: " Entity: ".toList := by decide
  have hline : '\n' ∉ " Entity: ".toList ++ (note e).toList := by
    rw [List.mem_append]
    exact not_or.2 ⟨by decide, h⟩
  rw [hfront]
  exact strip_comment hline

/-- **Comments about entities are taken out**, if none of them stands in a quote. -/
theorem strip_partsBehind {d : Design} {note : Entity → String}
    (hclosed : ∀ e ∈ d.entities, endsOutside .code none (d.tableText e).toList = true)
    (hnote : ∀ e ∈ d.entities, '\n' ∉ (note e).toList) :
    strip (['\n'].intercalate (d.partsBehind note)) = ['\n'].intercalate
      ([] :: [] :: d.ordered.flatMap fun e => [[], strip (d.tableText e).toList, []]) := by
  have hentities : ∀ e ∈ d.ordered, e ∈ d.entities := fun e => (ordered_perm d).mem_iff.1
  obtain ⟨hrule, -, hruleLine, -⟩ := heading_comments
  have hcomment := strip_comment hruleLine
  rw [← hrule] at hcomment
  rw [strip_intercalate]
  · rw [partsBehind, List.map_cons, List.map_cons, hcomment.2, List.map_flatMap]
    refine congrArg (fun parts => ['\n'].intercalate ([] :: [] :: parts)) (List.flatMap_congr fun e he => ?_)
    rw [List.map_cons, (strip_entityComment (hnote e (hentities e he))).2]
    rfl
  · intro part hpart
    rw [partsBehind, List.mem_cons, List.mem_cons, List.mem_flatMap] at hpart
    rcases hpart with rfl | rfl | ⟨e, he, hpart⟩
    · exact hcomment.1
    · rfl
    · rw [List.mem_cons, List.mem_cons, List.mem_singleton] at hpart
      rcases hpart with rfl | rfl | rfl
      · exact (strip_entityComment (hnote e (hentities e he))).1
      · exact hclosed e (hentities e he)
      · rfl

/-- Scripts that are the same without their comments have the same design. -/
theorem ofScript_eq_of_strip_eq (base : BaseColumns) {a b : List Char} (h : strip a = strip b) :
    ofScript base a = ofScript base b := by
  rw [ofScript, ofScript, ← Statement.prepare_strip a, h, Statement.prepare_strip]

/-- **What comments say makes no difference**, as long as it is on one line. Let a design have been read from a
script. Then the script that is written for it is read the same for all names of the project that are the same
from their first line end on, and thus for all that are on one line. The names of its entities always are. If
nothing is left open behind any table, the comments may also say anything else about the entities. -/
theorem comments_inert {base : BaseColumns} {script : List Char} {d : Design} (h : ofScript base script = .ok d) :
    (∀ project, (Export.script d.toDocument project).value = .ok (d.script project)) ∧
    (∀ project project' : String, fromLineEnd project.toList = fromLineEnd project'.toList →
      ∀ base', ofScript base' (d.script project).toList = ofScript base' (d.script project').toList) ∧
    (∀ e ∈ d.entities, '\n' ∉ e.name.toList) ∧
    ((∀ e ∈ d.entities, endsOutside .code none (d.tableText e).toList = true) →
      ∀ (project project' : String) (note : Entity → String), '\n' ∉ project.toList → '\n' ∉ project'.toList →
        (∀ e ∈ d.entities, '\n' ∉ (note e).toList) →
        ∀ base', ofScript base' (d.annotated project note).toList = ofScript base' (d.script project').toList) := by
  obtain ⟨statements, -, rfl⟩ := ofScript_eq_ok.1 h
  have hnames : ∀ e ∈ (ofStatements base statements).entities, '\n' ∉ e.name.toList :=
    fun e he => newline_not_mem_name he
  refine ⟨fun project => Export.script_toDocument _ project, fun project project' hend base' => ?_, hnames,
    fun hclosed project project' note hproject hproject' hnote base' => ?_⟩
  · apply ofScript_eq_of_strip_eq
    rw [script_eq_annotated, script_eq_annotated, strip_annotated, strip_annotated, hend]
  · apply ofScript_eq_of_strip_eq
    rw [script_eq_annotated, strip_annotated, strip_annotated, fromLineEnd_of_notMem hproject,
      fromLineEnd_of_notMem hproject', List.nil_append, List.nil_append, strip_newline, strip_newline,
      strip_partsBehind hclosed hnote, strip_partsBehind hclosed hnames]

/-- A table with one column. -/
def oneTable : Design where
  entities := [⟨"entity-1", "U", "u", [⟨"x", "x", .integer, true, false, none, none, []⟩], ⟨100, 100⟩⟩]
  relations := []

theorem ofScript_oneTable : ofScript .standard "create table u(x int)".toList = .ok oneTable := by decide +kernel

/-- Marks of all kinds in the name of a project, and in a comment, do no harm on one line. -/
theorem comments_inert_oneTable :
    ofScript .standard "create table u(x int)".toList = .ok oneTable ∧
      (∀ e ∈ oneTable.entities, endsOutside .code none (oneTable.tableText e).toList = true) ∧
      ofScript .standard (oneTable.annotated "'/*; $$" fun _ => "\"--").toList
        = ofScript .standard (oneTable.script "shop").toList := by
  have hclosed : ∀ e ∈ oneTable.entities, endsOutside .code none (oneTable.tableText e).toList = true := by
    simp only [toList_tableText]
    decide +kernel
  obtain ⟨-, -, -, hsame⟩ := comments_inert ofScript_oneTable
  exact ⟨ofScript_oneTable, hclosed, hsame hclosed _ _ _ (by decide) (by decide)
    (fun e _ => by decide) .standard⟩

/-- **A name with a line end injects what stands behind it**: a table that the design does not have, or a mark
that hides the table that it has. -/
theorem script_injected :
    ofScript .standard "create table u(x int)".toList = .ok oneTable ∧
      (ofScript .standard (oneTable.script "shop\ncreate table t(y int);").toList).map tables = .ok ["t", "u"] ∧
      (ofScript .standard (oneTable.script "shop\n/*").toList).map tables = .ok [] := by
  simp only [toList_script, toList_tableScript]
  exact ⟨ofScript_oneTable, by decide +kernel, by decide +kernel⟩

end Design
end SchemaSketch
