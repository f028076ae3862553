import SchemaSketch.Proofs.Design.Attempt
import SchemaSketch.Proofs.Design.WellFormed
import SchemaSketch.Proofs.Sql.Recovery

/-!
# What an unclosed statement costs

A script begins with a `CREATE TABLE` whose column list is never closed and goes on with statements that
are in order. The unclosed statement should cost its own table and no other.

* **The unclosed statement** declares no table (`Reading.table?_unclosed`).
* **The others** declare one each, under the names in their headings, if the script is cut into its
  statements and each of these is read (`Design.recovered_iff`). If nothing but the unclosed list keeps
  the level above zero, the script is cut so only when one statement stands behind it.
-/

namespace SchemaSketch

open Text

/-! ## Names of tables -/

namespace Statement

/-- The name that a statement gives to the table it creates. -/
def tableName (statement : List Char) : String :=
  match Heading.created (squeeze statement) with
  | some (written, _) => String.ofList (Identifier.bareName written)
  | none => ""

/-- What a statement of a script has to say. -/
def reading (statement : List Char) : Reading := Reading.ofStatement (squeeze statement)

end Statement

/-- The table that a statement creates is read from a list in parentheses, and has the name in the
heading. -/
theorem Table.readCreate_eq_ok {statement : List Char} {t : Table}
    (h : (Table.readCreate statement).value = .ok t) :
    ∃ written fromList body, Heading.created statement = some (written, fromList) ∧
      Statement.inParentheses? fromList = .ok (some body) ∧
      t.name = String.ofList (Identifier.bareName written) := by
  obtain ⟨name, definitions, hfound, rfl⟩ := Table.exists_of_readCreate h
  obtain ⟨written, fromList, body, -, hcreated, hbody, -, rfl, -⟩ := Table.definitions?_eq_ok hfound
  exact ⟨written, fromList, body, hcreated, hbody, Table.name_ofDefinitions _ _⟩

/-- **An unclosed statement declares no table.** -/
theorem Reading.table?_unclosed {cs : List Char} (h : Statement.Unclosed cs) :
    (Statement.reading cs).table? = none := by
  rw [Option.eq_none_iff_forall_ne_some]
  intro t ht
  obtain ⟨written, rest, hcreated, hopen⟩ := h.opened
  obtain ⟨written', fromList, body, hcreated', hbody, -⟩ :=
    Table.readCreate_eq_ok (Reading.readCreate_of_table? ht)
  obtain ⟨-, rfl⟩ : written = written' ∧ '(' :: rest = fromList := by
    simpa using hcreated.symm.trans hcreated'
  obtain ⟨front, hfront, -⟩ := Heading.exists_of_created (isPlain_squeeze h.plain) hcreated
  have hrest : isPlain rest = true := by
    have hplain := isPlain_drop (hfront ▸ isPlain_squeeze h.plain) (front.length + 1)
    rwa [← List.drop_drop, List.drop_left, List.drop_one] at hplain
  exact Statement.inParentheses?_ne_some hrest hopen body hbody

theorem Reading.name_of_table? {cs : List Char} {t : Table}
    (h : (Statement.reading cs).table? = some t) : t.name = Statement.tableName cs := by
  obtain ⟨written, fromList, body, hcreated, -, hname⟩ :=
    Table.readCreate_eq_ok (Reading.readCreate_of_table? h)
  rw [hname, Statement.tableName, hcreated]

/-- The names of the tables that are read are those in the headings, without those of statements from
which no table is read. -/
theorem Reading.names_sublist (statements : List (List Char)) :
    (((statements.map Statement.reading).filterMap Reading.table?).map (·.name)).Sublist
      (statements.map Statement.tableName) := by
  induction statements with
  | nil => exact List.Sublist.refl []
  | cons cs rest ih =>
    rw [List.map_cons, List.map_cons]
    cases hread : (Statement.reading cs).table? with
    | none =>
      rw [List.filterMap_cons_none hread]
      exact ih.cons _
    | some t =>
      rw [List.filterMap_cons_some hread, List.map_cons, Reading.name_of_table? hread]
      exact ih.cons_cons _

/-- All names are there if and only if a table is read from every statement. -/
theorem Reading.names_eq_iff (statements : List (List Char)) :
    ((statements.map Statement.reading).filterMap Reading.table?).map (·.name)
        = statements.map Statement.tableName ↔
      ∀ S ∈ statements, (Statement.reading S).table?.isSome = true := by
  have hlength : ((statements.map Statement.reading).filterMap Reading.table?).length
      = (statements.map Statement.reading).length ↔
        ∀ S ∈ statements, (Statement.reading S).table?.isSome = true := by
    rw [List.filterMap_length_eq_length, List.forall_mem_map]
  rw [← hlength]
  constructor
  · intro h
    have hnames := congrArg List.length h
    rwa [List.length_map, List.length_map, ← List.length_map (f := Statement.reading)] at hnames
  · intro h
    exact (Reading.names_sublist statements).eq_of_length (by simpa using h)

/-! ## The design of a script -/

namespace Statement

/-- A script with an unclosed statement in front is cut as it is. -/
theorem prepare_script {first : List Char} (hfirst : Unclosed first) {others : List (List Char)}
    (hothers : ∀ S ∈ others, Closed S) :
    prepare (script first others) = (split (script first others)).map (·.map squeeze) := by
  have hblank : (script first others).all isBlank = false := by
    rw [script, List.all_append, List.all_cons, Bool.and_comm]
    rfl
  rw [prepare, hblank, strip_script hothers hfirst.plain]
  rfl

end Statement

namespace Design

open Statement

/-- Behind an unclosed statement each statement gives an entity if and only if a table is read from it and
no other has its name. -/
theorem tableNames_ofStatements_iff (base : BaseColumns) {first : List Char} (hfirst : Unclosed first)
    (others : List (List Char)) :
    (ofStatements base (squeeze first :: others.map squeeze)).entities.map (·.tableName)
        = others.map tableName ↔
      (others.map (lowerName <| tableName ·)).Nodup ∧
        ∀ S ∈ others, (reading S).table?.isSome = true := by
  have hreadings : (squeeze first :: others.map squeeze).map Reading.ofStatement
      = reading first :: others.map reading := by
    rw [List.map_cons, List.map_map]
    rfl
  have hnames : (others.map (lowerName <| tableName ·)).Nodup →
      (Register.ofReadings (reading first :: others.map reading)).map (·.2.name)
        = ((others.map reading).filterMap Reading.table?).map (·.name) := by
    intro hnodup
    have hfound : (reading first :: others.map reading).filterMap Reading.table?
        = (others.map reading).filterMap Reading.table? :=
      List.filterMap_cons_none (Reading.table?_unclosed hfirst)
    have hsublist := (Reading.names_sublist others).map lowerName
    rw [List.map_map, List.map_map, ← hfound] at hsublist
    rw [Register.names_ofReadings (hsublist.nodup hnodup), hfound]
  rw [ofStatements, ofRegister, hreadings, tableNames_entitiesOf, ← Reading.names_eq_iff]
  constructor
  · intro h
    -- the keys of a register are the names of its tables, and no key stands twice
    have hkeyed := Register.keyed_ofReadings (reading first :: others.map reading)
    have hkeys := tables_entitiesOf base hkeyed
    rw [← Function.comp_def lowerName, ← List.map_map, tableNames_entitiesOf, h, List.map_map] at hkeys
    have hnodup : (others.map (lowerName <| tableName ·)).Nodup := hkeys ▸ hkeyed.nodup
    exact ⟨hnodup, (hnames hnodup).symm.trans h⟩
  · rintro ⟨hnodup, hread⟩
    exact (hnames hnodup).trans hread

/-- **What an unclosed statement costs.** A script of an unclosed statement and others in order is cut into
its statements if and only if no limit is exceeded, the unclosed statement is whole, and either there is
one other or the segment has ended before it. If it is cut so, each other statement gives its entity if and
only if a table is read from it and no other has its name. -/
theorem recovered_iff (base : BaseColumns) {first : List Char} (hfirst : Unclosed first)
    {others : List (List Char)} (hothers : ∀ S ∈ others, Closed S) (hne : others ≠ []) :
    (split (Statement.script first others) = .ok (trim first :: others.map trim) ↔
      (∀ segment ∈ Script.cut (Token.lex (Statement.script first others)), Script.Fits segment) ∧
        Script.endsWhole (Token.lex first) = true ∧
          (others.length = 1 ∨ Script.endsBefore (Token.lex first) = true)) ∧
    (split (Statement.script first others) = .ok (trim first :: others.map trim) →
      ((∃ design, ofScript base (Statement.script first others) = .ok design ∧
          design.entities.map (·.tableName) = others.map tableName) ↔
        (others.map (lowerName <| tableName ·)).Nodup ∧
          ∀ S ∈ others, (reading S).table?.isSome = true)) := by
  refine ⟨split_eq_ok.trans (and_congr_right' (flatMap_cut_script_iff hfirst hothers hne)), fun h => ?_⟩
  have hscript : ofScript base (Statement.script first others)
      = .ok (ofStatements base (squeeze first :: others.map squeeze)) := by
    have hsqueeze : (trim first :: others.map trim).map squeeze = squeeze first :: others.map squeeze := by
      rw [List.map_cons, List.map_map, squeeze_trim]
      exact congrArg _ (List.map_congr_left fun S _ => squeeze_trim S)
    rw [ofScript, prepare_script hfirst hothers, h]
    exact congrArg (fun statements => Except.ok (ofStatements base statements)) hsqueeze
  rw [hscript, ← tableNames_ofStatements_iff base hfirst others]
  constructor
  · rintro ⟨design, hdesign, hentities⟩
    cases hdesign
    exact hentities
  · exact fun hentities => ⟨_, rfl, hentities⟩

/-- A table whose column list is not closed. -/
def unclosedTable : List Char := "CREATE TABLE a (x INT".toList

/-- Two tables that stand behind it. -/
def closedTables : List (List Char) :=
  [" CREATE TABLE b (y INT)".toList, " CREATE TABLE c (z INT)".toList]

theorem unclosed_unclosedTable : Unclosed unclosedTable where
  plain := by decide +kernel
  single := by decide +kernel
  opened := ⟨"a".toList, "x INT".toList, by decide +kernel, by decide +kernel⟩

theorem closed_closedTables : ∀ S ∈ closedTables, Closed S := by
  have hplain : ∀ S ∈ closedTables, isPlain S = true := by decide +kernel
  have hopens : ∀ S ∈ closedTables, Text.opensFirst S = true := by decide +kernel
  have hsingle : ∀ S ∈ closedTables, ';' ∉ S := by decide +kernel
  have hbalanced : ∀ S ∈ closedTables, openAfter 0 S = some 0 := by decide +kernel
  have hcreates : ∀ S ∈ closedTables,
      Heading.definingWord? (Token.lex S) = some "CREATE".toList := by decide +kernel
  have hcreated : ∀ S ∈ closedTables, (Heading.created (squeeze S)).isSome = true := by decide +kernel
  have hquiet : ∀ S ∈ closedTables, ∀ t ∈ Token.lex S, t.isQuiet = true := by decide +kernel
  exact fun S hS => ⟨hplain S hS, hopens S hS, hsingle S hS, hbalanced S hS, hcreates S hS,
    hcreated S hS, hquiet S hS⟩

/-- One table behind the unclosed one is recovered. -/
theorem recovered_first :
    Unclosed unclosedTable ∧ (∀ S ∈ closedTables.take 1, Closed S) ∧ closedTables.take 1 ≠ [] ∧
      split (Statement.script unclosedTable (closedTables.take 1))
        = .ok ["CREATE TABLE a (x INT".toList, "CREATE TABLE b (y INT)".toList] ∧
      ∃ design, ofScript .standard (Statement.script unclosedTable (closedTables.take 1)) = .ok design ∧
        design.entities.map (·.tableName) = ["b"] := by
  have hothers : ∀ S ∈ closedTables.take 1, Closed S :=
    fun S hS => closed_closedTables S (List.mem_of_mem_take hS)
  have hne : closedTables.take 1 ≠ [] := by decide
  obtain ⟨hsplit, hdesign⟩ := recovered_iff .standard unclosed_unclosedTable hothers hne
  have hfits : ∀ segment ∈ Script.cut (Token.lex (Statement.script unclosedTable (closedTables.take 1))),
      Script.Fits segment := by
    have hcheck : (Script.cut (Token.lex (Statement.script unclosedTable (closedTables.take 1)))).forM
        Script.check = .ok () := by decide +kernel
    exact fun segment hsegment => Script.check_eq_ok.1 (Except.forM_eq_ok.1 hcheck segment hsegment)
  have hrecovered := hsplit.2 ⟨hfits, by decide +kernel, .inl rfl⟩
  have hfound := (hdesign hrecovered).2 ⟨by decide +kernel, by decide +kernel⟩
  have hnames : (closedTables.take 1).map tableName = ["b"] := by decide +kernel
  rw [hnames] at hfound
  exact ⟨unclosed_unclosedTable, hothers, hne, hrecovered, hfound⟩

/-- **The second table is lost**: it is a part of the statement before it. -/
theorem recovered_second_lost :
    Unclosed unclosedTable ∧ (∀ S ∈ closedTables, Closed S) ∧
      (closedTables.map (lowerName <| tableName ·)).Nodup ∧
      split (Statement.script unclosedTable closedTables)
        = .ok ["CREATE TABLE a (x INT".toList,
            "CREATE TABLE b (y INT); CREATE TABLE c (z INT)".toList] ∧
      split (Statement.script unclosedTable closedTables)
        ≠ .ok (trim unclosedTable :: closedTables.map trim) ∧
      (ofScript .standard (Statement.script unclosedTable closedTables)).map (·.entities.map (·.tableName))
        = .ok ["b"] := by
  have hsplit : split (Statement.script unclosedTable closedTables)
      = .ok ["CREATE TABLE a (x INT".toList,
          "CREATE TABLE b (y INT); CREATE TABLE c (z INT)".toList] := by decide +kernel
  refine ⟨unclosed_unclosedTable, closed_closedTables, by decide +kernel, hsplit, ?_, by decide +kernel⟩
  rw [hsplit]
  decide +kernel

end Design
end SchemaSketch
