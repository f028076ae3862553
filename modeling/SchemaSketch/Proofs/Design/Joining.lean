import SchemaSketch.Proofs.Design.Declarations
import SchemaSketch.Proofs.Sql.Joining

/-!
# The tables of scripts read together

All scripts of a folder are read as one, each on lines of its own. No table of any of them is lost as long as
each script but the last is finished (`Design.tables_folder`, `Design.tables_join`). A script by itself need not
be: without a semicolon at its end its last statement is whole, but when another script is written under it,
it goes on in there, and the first table of that one is lost (`Design.tables_join_lost`).
-/

namespace SchemaSketch

open Text
open Statement (created?)

namespace Design

/-- The names of the tables of a design, in small letters. -/
def tables (d : Design) : List String := d.entities.map (lowerName ·.tableName)

theorem mem_tables_ofStatements {base : BaseColumns} {statements : List (List Char)} {name : String} :
    name ∈ (ofStatements base statements).tables ↔
      ∃ statement ∈ statements, ∃ t, created? statement = some t ∧ lowerName t.name = name := by
  rw [tables, (declared_ofStatements base statements).places, List.mem_eraseDups, List.mem_map]
  constructor
  · rintro ⟨t, ht, hname⟩
    obtain ⟨statement, hstatement, hcreated⟩ := List.mem_filterMap.1 ht
    exact ⟨statement, hstatement, t, hcreated, hname⟩
  · rintro ⟨statement, hstatement, t, hcreated, hname⟩
    exact ⟨t, List.mem_filterMap.2 ⟨statement, hstatement, hcreated⟩, hname⟩

theorem mem_tables_append {base : BaseColumns} {mine others : List (List Char)} {name : String} :
    name ∈ (ofStatements base (mine ++ others)).tables ↔
      name ∈ (ofStatements base mine).tables ∨ name ∈ (ofStatements base others).tables := by
  simp only [mem_tables_ofStatements, List.mem_append, or_and_right, exists_or]

/-- Of a finished script and another the tables are those of each. -/
theorem exists_of_join {base : BaseColumns} {first second : List Char} (hfirst : Script.Finished first)
    {d : Design} (hd : ofScript base (first ++ '\n' :: second) = .ok d) :
    ∃ mine others, ofScript base first = .ok mine ∧ ofScript base second = .ok others ∧
      ∀ name, name ∈ d.tables ↔ name ∈ mine.tables ∨ name ∈ others.tables := by
  obtain ⟨statements, hstatements, rfl⟩ := ofScript_eq_ok.1 hd
  obtain ⟨mine, others, hmine, hothers, rfl⟩ := Statement.prepare_join hfirst hstatements
  exact ⟨_, _, ofScript_eq_ok.2 ⟨mine, hmine, rfl⟩, ofScript_eq_ok.2 ⟨others, hothers, rfl⟩,
    fun name => mem_tables_append⟩

/-- **No table of a finished script is lost**, nor one of the script under it: read as one, the two have the
tables of each. They are not refused if neither is, unless a statement of the second is so long that
there is no room for the blanks in front of it. -/
theorem tables_join (base : BaseColumns) {first : List Char} (hfirst : Script.Finished first)
    (second : List Char) :
    (∀ d, ofScript base (join ['\n'] [first, second]) = .ok d →
      ∃ mine others, ofScript base first = .ok mine ∧ ofScript base second = .ok others ∧
        ∀ name, name ∈ d.tables ↔ name ∈ mine.tables ∨ name ∈ others.tables) ∧
    (∀ mine others, ofScript base first = .ok mine → ofScript base second = .ok others →
      (∀ segment ∈ Script.segmentsOf second,
        segment.length + (Comment.strip first).length < Script.maxTokens) →
      ∃ d, ofScript base (join ['\n'] [first, second]) = .ok d) := by
  have hjoin : join ['\n'] [first, second] = first ++ '\n' :: second := List.append_assoc first ['\n'] second
  rw [hjoin]
  refine ⟨fun d hd => exists_of_join hfirst hd, fun mine others hmine hothers hroom => ?_⟩
  obtain ⟨statements, hstatements, -⟩ := ofScript_eq_ok.1 hmine
  obtain ⟨statements', hstatements', -⟩ := ofScript_eq_ok.1 hothers
  exact ⟨_, ofScript_eq_ok.2 ⟨_, Statement.prepare_join_eq_ok hfirst hroom hstatements hstatements', rfl⟩⟩

/-- **No table of any script of a folder is lost**, if all scripts but the last are finished. -/
theorem tables_folder (base : BaseColumns) {scripts : List (List Char)}
    (hscripts : ∀ script ∈ scripts.dropLast, Script.Finished script) {d : Design}
    (hd : ofScript base (join ['\n'] scripts) = .ok d) (name : String) :
    name ∈ d.tables ↔ ∃ script ∈ scripts, ∃ part, ofScript base script = .ok part ∧ name ∈ part.tables := by
  induction scripts generalizing d with
  | nil =>
    obtain rfl : ofStatements base [] = d := Except.ok.inj hd
    simp [mem_tables_ofStatements]
  | cons first rest ih =>
    cases rest with
    | nil =>
      have hone : ofScript base first = .ok d := hd
      simp [hone]
    | cons second rest =>
      have hjoin : join ['\n'] (first :: second :: rest) = first ++ '\n' :: join ['\n'] (second :: rest) :=
        List.append_assoc first ['\n'] _
      rw [hjoin] at hd
      obtain ⟨hfirst, hothers⟩ := List.forall_mem_cons.1 hscripts
      obtain ⟨mine, others, hmine, hrest, hnames⟩ := exists_of_join hfirst hd
      rw [hnames, ih hothers hrest]
      simp [hmine]

/-- A script that ends with a semicolon, a comment and a line end. -/
def finishedScript : List Char := "create table A(x int); -- the first\n".toList

/-- A script without a semicolon at its end. -/
def openScript : List Char := "create table a(x int)".toList

/-- A script to be written under another. -/
def otherScript : List Char := "create table b(y int)".toList

theorem finished_finishedScript : Script.Finished finishedScript where
  outside := by decide +kernel
  ends := by
    have hstrip : Comment.strip finishedScript = "create table A(x int)".toList ++ ';' :: " \n".toList := by
      decide +kernel
    rw [hstrip]
    have hblank : " \n".toList.all isBlank = true := by decide
    exact .semicolon (by decide +kernel) (by decide +kernel) (List.all_eq_true.1 hblank)

/-- A script whose tables are known is read. -/
theorem exists_of_map_tables {base : BaseColumns} {script : List Char} {names : List String}
    (h : (ofScript base script).map tables = .ok names) :
    ∃ d, ofScript base script = .ok d ∧ d.tables = names := by
  cases hscript : ofScript base script with
  | error cause =>
    rw [hscript] at h
    cases h
  | ok d =>
    rw [hscript] at h
    exact ⟨d, rfl, Except.ok.inj h⟩

/-- Under a script that is finished another keeps its table. -/
theorem tables_join_finishedScript : Script.Finished finishedScript ∧
    ∃ d, ofScript .standard (join ['\n'] [finishedScript, otherScript]) = .ok d ∧
      ∀ name, name ∈ d.tables ↔ name = "a" ∨ name = "b" := by
  obtain ⟨hunion, hread⟩ := tables_join .standard finished_finishedScript otherScript
  obtain ⟨mine, hmine, ha⟩ := @exists_of_map_tables .standard finishedScript ["a"] (by decide +kernel)
  obtain ⟨others, hothers, hb⟩ := @exists_of_map_tables .standard otherScript ["b"] (by decide +kernel)
  obtain ⟨d, hd⟩ := hread mine others hmine hothers (by decide +kernel)
  obtain ⟨mine', others', hmine', hothers', hnames⟩ := hunion d hd
  obtain rfl : mine = mine' := Except.ok.inj (hmine.symm.trans hmine')
  obtain rfl : others = others' := Except.ok.inj (hothers.symm.trans hothers')
  refine ⟨finished_finishedScript, d, hd, fun name => ?_⟩
  rw [hnames, ha, hb, List.mem_singleton, List.mem_singleton]

/-- **The second table is lost**: without a semicolon behind the first statement, it is a part of that. Each
script is in order by itself, and nothing is left open in it. -/
theorem tables_join_lost :
    (∀ script ∈ [openScript, otherScript], Comment.endsOutside .code none script = true ∧
      Token.isShut (Token.lex (Comment.strip script)) = true ∧ openAfter 0 script = some 0) ∧
    (ofScript .standard openScript).map tables = .ok ["a"] ∧
    (ofScript .standard otherScript).map tables = .ok ["b"] ∧
    (ofScript .standard (join ['\n'] [openScript, otherScript])).map tables = .ok ["a"] :=
  ⟨by decide +kernel, by decide +kernel, by decide +kernel, by decide +kernel⟩

end Design
end SchemaSketch
