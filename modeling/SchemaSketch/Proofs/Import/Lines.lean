import SchemaSketch.Import.Event
import SchemaSketch.Proofs.Design.Declarations
import SchemaSketch.Proofs.Log.Lines
import SchemaSketch.Proofs.Naming
import SchemaSketch.Proofs.Sql.Limits
import SchemaSketch.Proofs.Table.Kinds

/-!
# A warning of an import is one line

A script may have a line end anywhere, in a quoted name too. But its statements are put on one line each before
they are read (`Statement.newline_not_mem_of_prepare`), and names are read out of the statement. So what a
warning shows has no line end: the reason why a statement is not read (`Table.newline_not_mem_fault`,
`Alteration.newline_not_mem_fault`) and the names of a table and of its columns.
-/

namespace SchemaSketch

open Text

/-- Every statement stands on one line. -/
theorem Statement.newline_not_mem_of_prepare {script : List Char} {statements : List (List Char)}
    (h : prepare script = .ok statements) : ∀ statement ∈ statements, '\n' ∉ statement := by
  obtain ⟨-, rfl⟩ := prepare_eq_ok.1 h
  intro statement hstatement
  obtain ⟨cs, -, rfl⟩ := List.mem_map.1 hstatement
  exact newline_not_mem_squeeze cs

/-! ## Reasons -/

theorem Script.newline_not_mem_limitFault (cause : LimitFault) : '\n' ∉ cause.message.toList := by
  cases cause <;> decide

theorem ColumnType.newline_not_mem_lengthFault (cause : LengthFault) : '\n' ∉ cause.message.toList := by
  cases cause with
  | notDecimal figures =>
    exact newline_not_mem_append (by decide) (newline_not_mem_clip (newline_not_mem_quoted figures) 200)
  | tooLong digits =>
    refine newline_not_mem_append (newline_not_mem_append (newline_not_mem_append ?_ ?_) ?_) ?_
    · decide
    · exact newline_not_mem_toString digits
    · decide
    · decide

/-- A verdict shows the statement, and the name of the table if it has one. -/
theorem newline_not_mem_verdict {reason : String} {statement : List Char} (hreason : '\n' ∉ reason.toList)
    (hstatement : '\n' ∉ statement) : '\n' ∉ (verdict reason statement).toList := by
  refine newline_not_mem_append (newline_not_mem_append (newline_not_mem_append hreason (by decide))
    (newline_not_mem_clip hstatement _)) ?_
  split <;> decide

/-- **Why no table is read** is told on one line. -/
theorem Table.newline_not_mem_fault {statement : List Char} (hstatement : '\n' ∉ statement) {fault : ReadFault}
    (h : (readCreate statement).value = .error fault) : '\n' ∉ fault.message.toList := by
  cases refusal_of_readCreate h with
  | heading _ => exact newline_not_mem_verdict (by decide) hstatement
  | limit cause => exact Script.newline_not_mem_limitFault cause
  | unclosed hcreated =>
    refine newline_not_mem_verdict (newline_not_mem_append (by decide) ?_) hstatement
    rw [String.toList_ofList]
    exact fun hmem => hstatement ((subset_of_created hcreated).1 hmem)
  | blank => decide
  | length cause => exact ColumnType.newline_not_mem_lengthFault cause

/-- **Why no foreign key is read** is told on one line. -/
theorem Alteration.newline_not_mem_fault {statement : List Char} (hstatement : '\n' ∉ statement) {fault : ReadFault}
    (h : (read statement).value = .error fault) : '\n' ∉ fault.message.toList := by
  cases refusal_of_read h with
  | heading _ => exact newline_not_mem_verdict (by decide) hstatement
  | @keyless written rest haltered =>
    refine newline_not_mem_verdict (newline_not_mem_append (by decide) ?_) hstatement
    rw [String.toList_ofList]
    obtain ⟨front, rfl⟩ := Heading.altered_eq_append haltered
    exact fun hmem => hstatement (List.mem_append_right _
      (List.mem_append_left _ (Identifier.subset_bareName written hmem)))

/-! ## Names -/

/-- A table of a script was read out of one of its statements. -/
theorem Register.exists_within_of_mem {statements : List (List Char)} {x : String × Table}
    (h : x ∈ ofReadings (statements.map Reading.ofStatement)) :
    ∃ statement ∈ statements, x.2.Within statement := by
  obtain ⟨key, table⟩ := x
  obtain ⟨statement, read, hdeclaration, hcreated, htable⟩ := exists_declaration_of_mem h
  have hmem := List.mem_reverse.1 (List.mem_of_find?_eq_some hdeclaration)
  have hwithin := Table.within_of_readCreate (Reading.readCreate_of_table? hcreated)
  exact ⟨statement, hmem, htable ▸ ⟨hwithin.name, hwithin.columns⟩⟩

/-! ## Warnings -/

namespace Event

open Log (Record)

theorem onLine_refused (index : Nat) (cause : Script.LimitFault) : (refused index cause).record.OnLine where
  message := newline_not_mem_append (by decide) (Script.newline_not_mem_limitFault cause)
  text := List.forall_mem_singleton.2 (newline_not_mem_toString index)
  json := List.forall_mem_singleton.2 (Json.onLine_nat index)

theorem onLine_unread {fault : ReadFault} (hfault : '\n' ∉ fault.message.toList) {statement : List Char}
    (hstatement : '\n' ∉ statement) (index : Nat) (kind : StatementKind) :
    (unread index kind fault statement).record.OnLine where
  message := by
    change '\n' ∉ (unreadMessage fault statement).toList
    unfold unreadMessage
    split
    · exact hfault
    · exact newline_not_mem_append (newline_not_mem_append (newline_not_mem_append (by decide) hfault)
        (by decide)) (newline_not_mem_clip hstatement _)
  text := List.forall_mem_cons.2 ⟨newline_not_mem_toString index,
    List.forall_mem_singleton.2 (by cases kind <;> decide)⟩
  json := List.forall_mem_cons.2 ⟨Json.onLine_nat index, List.forall_mem_singleton.2 (Json.onLine_string _)⟩

theorem onLine_duplicateField {table field column : String} (htable : '\n' ∉ table.toList)
    (hfield : '\n' ∉ field.toList) (hcolumn : '\n' ∉ column.toList) :
    (duplicateField table field column).record.OnLine where
  message := newline_not_mem_append (newline_not_mem_append (newline_not_mem_append
    (newline_not_mem_append (by decide) hfield) (by decide)) hcolumn) (by decide)
  text := List.forall_mem_cons.2 ⟨htable, List.forall_mem_singleton.2 (by decide)⟩
  json := List.forall_mem_cons.2 ⟨Json.onLine_string _, List.forall_mem_singleton.2 (Json.onLine_string _)⟩

end Event
end SchemaSketch
