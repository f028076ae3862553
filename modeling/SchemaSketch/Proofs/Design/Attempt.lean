import SchemaSketch.Proofs.Design.Relations
import SchemaSketch.Proofs.Measured
import SchemaSketch.Proofs.Sql.Limits
import SchemaSketch.Proofs.Text.Squeeze

/-!
# What can go wrong on the way to a design

`Design.ofScript` fails for one reason only, and its type says so. But its stages could fail in more ways
if they were less careful: the type of a column is read a second time when its field is made, a word is
capitalised by its first character, and the place of a table is looked up by its key. `attempt` goes
through the same stages and lets each of these fail where it could.

* **None of them does.** Every registered column is measured, no word of a name is empty, and a table's
  key is a key. So `attempt` does what `ofScript` does (`attempt_eq_ofScript`).
* **The limits remain.** Reading one statement is guarded, cutting the whole script into statements is
  not. A script fails exactly if one of its segments is too much, and it fails for what is wrong with the
  first of these (`attempt_outcome`).
-/

namespace SchemaSketch

open Text

/-! ## The words of a name -/

theorem Naming.ne_nil_of_mem_wordsOf {name word : List Char} (h : word ∈ wordsOf name) : word ≠ [] :=
  ne_nil_of_mem_runsFrom h

namespace Design

/-! ## The stages -/

/-- What a stage could fail with. -/
inductive Fault where
  /-- the script is too much -/
  | limit (cause : Script.LimitFault)
  /-- the length of a type cannot be read -/
  | length (cause : ColumnType.LengthFault)
  /-- a word has no first character -/
  | emptyWord
  /-- a table is not there -/
  | unknownKey (key : String)
  deriving DecidableEq, Repr

namespace Attempt

/-- A word capitalised by its first character. -/
def capitalised : List Char → Except Fault (List Char)
  | [] => .error .emptyWord
  | c :: rest => .ok (Naming.capitalised (c :: rest))

/-- Words written together, each capitalised. -/
def pascal : List (List Char) → Except Fault (List Char)
  | [] => .ok []
  | word :: rest => do
    let front ← capitalised word
    let more ← pascal rest
    pure (front ++ more)

/-- Words written together, the first small and the others capitalised. -/
def camel : List (List Char) → Except Fault (List Char)
  | [] => .ok []
  | first :: others => (pascal others).map (lower first ++ ·)

/-- The name for a column's field. -/
def fieldName (column : String) : Except Fault String :=
  (camel (Naming.wordsOf column.toList)).map String.ofList

/-- The name for a table's entity, if it is free. -/
def baseName (table : String) : Except Fault String := do
  let words := Naming.wordsOf table.toList
  let name ← pascal (Naming.wordsOf (join ['_'] (Naming.singularLast words)))
  let spare ← pascal words
  pure (nonEmpty (String.ofList name) (nonEmpty (String.ofList spare) "Entity"))

/-- The field for a column, whose type is read once more. -/
def field (c : Column) (name : String) : Except Fault Field :=
  ((ColumnType.length? c.type.toList).mapError .length).map fun _ => Design.field c name

/-- The fields for a list of columns; `seen` are the names that are taken. -/
def fields (base : BaseColumns) (seen : List String) : List Column → Except Fault (List Field)
  | [] => .ok []
  | c :: rest =>
    if base.holds c.name then fields base seen rest
    else do
      let name ← fieldName c.name
      if name.isEmpty || seen.contains name then fields base seen rest
      else do
        let made ← field c name
        let more ← fields base (name :: seen) rest
        pure (made :: more)

/-- Entities for tables, given their names and places; `index` is the first one's. -/
def entitiesFrom (base : BaseColumns) (index : Nat) (used : List String) (place : Place) :
    List Table → Except Fault (List Entity)
  | [] => .ok []
  | table :: rest => do
    let wanted ← baseName table.name
    let name := freeName wanted used
    let made ← fields base [] table.columns
    let more ← entitiesFrom base (index + 1) (name :: used) place.next rest
    pure ({ id := entityId index, name, tableName := table.name, fields := made, place } :: more)

/-- The place of a key. -/
def placeOf (r : Register) (key : String) : Except Fault Nat :=
  match r.findIdx? (·.1 == key) with
  | some place => .ok place
  | none => .error (.unknownKey key)

/-- The links of the entries of a register. -/
def links (r : Register) : List (String × Table) → Except Fault (List Link)
  | [] => .ok []
  | (key, table) :: rest => do
    let source ← placeOf r key
    let more ← links r rest
    pure (table.foreignKeys.filterMap (link? r source table) ++ more)

end Attempt

/-- The design of a script, where every stage fails if it can. Reading one statement is guarded: what is
wrong with it is part of its `Reading`, and the statement says nothing. -/
def attempt (base : BaseColumns) (script : List Char) : Except Fault Design := do
  let statements ← (Statement.prepare script).mapError .limit
  let register := Register.ofReadings (statements.map Reading.ofStatement)
  let entities ← Attempt.entitiesFrom base 0 [] Place.origin (register.map (·.2))
  let links ← Attempt.links register register
  pure ⟨entities, (firstLinks [] links).mapIdx relation⟩

/-! ## None of them does -/

namespace Attempt

theorem pascal_eq_ok {words : List (List Char)} (h : ∀ word ∈ words, word ≠ []) :
    pascal words = .ok (Naming.pascal words) := by
  induction words with
  | nil => rfl
  | cons word rest ih =>
    obtain ⟨hword, hrest⟩ := List.forall_mem_cons.1 h
    obtain ⟨c, cs, rfl⟩ := List.exists_cons_of_ne_nil hword
    rw [pascal, ih hrest]
    rfl

theorem camel_eq_ok {words : List (List Char)} (h : ∀ word ∈ words, word ≠ []) :
    camel words = .ok (Naming.camel words) := by
  cases words with
  | nil => rfl
  | cons first others =>
    rw [camel, pascal_eq_ok fun word hword => h word (List.mem_cons_of_mem _ hword)]
    rfl

theorem fieldName_eq_ok (column : String) : fieldName column = .ok (Naming.fieldName column) := by
  rw [fieldName, camel_eq_ok fun _ => Naming.ne_nil_of_mem_wordsOf]
  rfl

theorem baseName_eq_ok (table : String) : baseName table = .ok (Design.baseName table) := by
  simp only [baseName, pascal_eq_ok fun _ => Naming.ne_nil_of_mem_wordsOf]
  rfl

theorem field_eq_ok {c : Column} (hc : c.Measured) (name : String) :
    field c name = .ok (Design.field c name) := by
  rw [field, hc]
  rfl

theorem fields_eq_ok (base : BaseColumns) {columns : List Column} (h : ∀ c ∈ columns, c.Measured)
    (seen : List String) : fields base seen columns = .ok (Design.fields base seen columns) := by
  induction columns generalizing seen with
  | nil => rfl
  | cons c rest ih =>
    obtain ⟨hc, hrest⟩ := List.forall_mem_cons.1 h
    rw [fields, Design.fields]
    split
    · exact ih hrest seen
    · rw [fieldName_eq_ok]
      dsimp only [bind, Except.bind]
      split
      · exact ih hrest seen
      · rw [field_eq_ok hc, ih hrest]
        rfl

theorem entitiesFrom_eq_ok (base : BaseColumns) {tables : List Table} (h : ∀ t ∈ tables, t.Measured)
    (index : Nat) (used : List String) (place : Place) :
    entitiesFrom base index used place tables
      = .ok (Design.entitiesFrom base index used place tables) := by
  induction tables generalizing index used place with
  | nil => rfl
  | cons table rest ih =>
    obtain ⟨htable, hrest⟩ := List.forall_mem_cons.1 h
    rw [entitiesFrom, baseName_eq_ok, fields_eq_ok base htable]
    dsimp only [bind, Except.bind]
    rw [ih hrest]
    rfl

theorem placeOf_eq_ok {before after : Register} {key : String} {table : Table}
    (hnodup : (Register.keys (before ++ (key, table) :: after)).Nodup) :
    placeOf (before ++ (key, table) :: after) key = .ok before.length := by
  -- no entry before the key's own has that key
  have hbefore : before.findIdx? (·.1 == key) = none := by
    rw [List.findIdx?_eq_none_iff]
    intro entry hentry
    rw [Register.keys, List.map_append, List.nodup_append] at hnodup
    exact beq_eq_false_iff_ne.2 (hnodup.2.2 entry.1 (List.mem_map_of_mem hentry) key (by simp))
  rw [placeOf, List.findIdx?_append, hbefore, List.findIdx?_cons]
  simp

theorem links_eq_ok {r before after : Register} (hr : r = before ++ after)
    (hnodup : (Register.keys r).Nodup) :
    links r after = .ok (Design.linksFrom r before.length (after.map (·.2))) := by
  induction after generalizing before with
  | nil => rfl
  | cons entry rest ih =>
    obtain ⟨key, table⟩ := entry
    have hplace : placeOf r key = .ok before.length := by
      rw [hr] at hnodup ⊢
      exact placeOf_eq_ok hnodup
    have hrest := @ih (before ++ [(key, table)]) (by rw [hr, List.append_assoc]; rfl)
    rw [links, hplace, hrest, List.length_append]
    rfl

end Attempt

/-- **No stage fails but the first.** -/
theorem attempt_eq_ofScript (base : BaseColumns) (script : List Char) :
    attempt base script = (ofScript base script).mapError .limit := by
  rw [attempt, ofScript]
  cases Statement.prepare script with
  | error cause => rfl
  | ok statements =>
    have hmeasured : (Register.ofReadings (statements.map Reading.ofStatement)).Measured :=
      Register.measured_ofStatements statements
    have hkeyed : (Register.ofReadings (statements.map Reading.ofStatement)).Keyed :=
      Register.keyed_ofReadings _
    dsimp only [Except.mapError, bind, Except.bind]
    rw [Attempt.entitiesFrom_eq_ok base (List.forall_mem_map.2 hmeasured),
      Attempt.links_eq_ok (List.nil_append _).symm hkeyed.nodup]
    rfl

/-! ## The limits remain -/

/-- **When a script has a design, and why it has none.** It has one if all of its segments fit, whatever
else is in it. If not, it fails for what is wrong with the first that does not fit. -/
theorem attempt_outcome (base : BaseColumns) (script : List Char) :
    ((∃ d, attempt base script = .ok d) ↔ ∀ segment ∈ Script.segmentsOf script, Script.Fits segment) ∧
      ∀ fault, attempt base script = .error fault ↔
        ∃ before segment after cause, Script.segmentsOf script = before ++ segment :: after ∧
          (∀ s ∈ before, Script.Fits s) ∧ Script.check segment = .error cause ∧
          fault = .limit cause := by
  rw [attempt_eq_ofScript, ofScript, Statement.prepare_eq]
  simp only [← Script.check_eq_ok]
  cases hchecked : (Script.segmentsOf script).forM Script.check with
  | ok u =>
    have hall := Except.forM_eq_ok.1 hchecked
    refine ⟨⟨fun _ => hall, fun _ => ⟨_, rfl⟩⟩, fun fault => ⟨fun h => (by cases h), ?_⟩⟩
    rintro ⟨before, segment, after, cause, hsplit, -, hcause, -⟩
    have hsegment := hall segment (by rw [hsplit]; simp)
    rw [hsegment] at hcause
    cases hcause
  | error cause =>
    obtain ⟨before, segment, after, hsplit, hbefore, hcause⟩ := Except.forM_eq_error.1 hchecked
    refine ⟨⟨?_, fun hall => ?_⟩, fun fault => ⟨fun h => ?_, ?_⟩⟩
    · rintro ⟨d, hd⟩
      cases hd
    · have hok := Except.forM_eq_ok.2 hall
      rw [hchecked] at hok
      cases hok
    · cases h
      exact ⟨before, segment, after, cause, hsplit, hbefore, hcause, rfl⟩
    · rintro ⟨before', segment', after', cause', hsplit', hbefore', hcause', rfl⟩
      have hfirst := Except.forM_eq_error.2 ⟨before', segment', after', hsplit', hbefore', hcause'⟩
      rw [hchecked] at hfirst
      cases hfirst
      rfl

/-- A good table, and then a statement of no interest with one nest too many. -/
def deepScript : List Char :=
  "create table u(x int);select ".toList ++ List.replicate 101 '(' ++ '1' :: List.replicate 101 ')'

/-- The statement of no interest costs the table. -/
theorem attempt_deepScript :
    attempt BaseColumns.standard deepScript = .error (.limit .tooDeep) := by
  decide +kernel

end Design
end SchemaSketch
