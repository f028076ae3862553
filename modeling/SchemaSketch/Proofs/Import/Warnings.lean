import Mathlib
import SchemaSketch.Import.Report
import SchemaSketch.Proofs.Design.Fields
import SchemaSketch.Proofs.Import.Lines

/-!
# No statement is dropped silently

When nothing more is asked of the log, it shows warnings and no more. Those of an import are told here
without the passes that an import makes (`Import.Accounted`):

* a statement that creates or alters a table says what it has to say, or there is one warning about it, which
  shows its number and its kind (`Import.Tells`);
* a statement that is too much to be told apart has one warning too, and any other has none;
* all that is left is one warning for each column that is dropped because an earlier one of its table makes a
  field of the same name.

An import goes through the statements twice, and alterations wait for the second pass. Their warnings stand
behind the others (`Import.warnings_events`), but each of them keeps the number of its statement. Each warning is
one line (`Import.onLine_of_mem_warnings`), so no script can make one look like two.
-/

namespace SchemaSketch

open Text

/-! ## What repeats an earlier key -/

section
variable {α κ : Type} [DecidableEq κ]

/-- The members of a list whose key was seen before. -/
def repeats (key : α → κ) (seen : List κ) : List α → List α
  | [] => []
  | a :: rest => if key a ∈ seen then a :: repeats key seen rest else repeats key (key a :: seen) rest

/-- What is not the first of its key repeats one. -/
theorem firstBy_append_repeats_perm (key : α → κ) (seen : List κ) (l : List α) :
    (firstBy key seen l ++ repeats key seen l).Perm l := by
  induction l generalizing seen with
  | nil => exact .refl _
  | cons a rest ih =>
    rw [firstBy, repeats]
    split
    · exact List.perm_middle.trans ((ih seen).cons a)
    · exact (ih (key a :: seen)).cons a

theorem mem_of_mem_repeats {key : α → κ} {seen : List κ} {l : List α} {a : α} (h : a ∈ repeats key seen l) : a ∈ l :=
  (firstBy_append_repeats_perm key seen l).subset (List.mem_append_right _ h)

end

/-- The columns of a table that are dropped because an earlier one makes a field of the same name. -/
def BaseColumns.dropped (base : BaseColumns) (columns : List Column) : List Column :=
  repeats (Naming.fieldName ·.name) [] (base.leave columns)

/-- Of the columns that could become fields those are dropped that do not. -/
theorem BaseColumns.fields_append_dropped_perm (base : BaseColumns) (columns : List Column) :
    ((Design.fields base [] columns).map (·.columnName) ++ (base.dropped columns).map (·.name)).Perm
      ((base.leave columns).map (·.name)) := by
  rw [Design.fields_eq_firstBy, List.map_map, dropped]
  have hperm := firstBy_append_repeats_perm (Naming.fieldName ·.name) [] (base.leave columns)
  have hnames := hperm.map (·.name)
  rwa [List.map_append] at hnames

/-- A foreign key is added, or nothing is. -/
theorem Alteration.foreignKeys_ne_nil {statement : List Char} {a : Alteration}
    (h : (read statement).value = .ok a) : a.foreignKeys ≠ [] := by
  unfold read at h
  split at h
  · cases h
  · dsimp only at h
    split at h
    · cases h
    · next hkeys =>
      obtain rfl := Except.ok.inj h
      simpa using hkeys

namespace Log

/-- The number of the statement that a record is about. -/
def Record.statement? (r : Record) : Option Int :=
  match Json.lookup? "statement_index" r.context with
  | some (.int n) => some n
  | _ => none

/-- The records about the statement of a number. -/
def about (n : Int) (records : List Record) : List Record := records.filter (·.statement? = some n)

end Log

namespace Import

open Log (about Record)

/-! ## What is told -/

/-- A statement of a kind says what it has to say: it creates a table, or it adds foreign keys to one. -/
def Says : StatementKind → List Char → Prop
  | .createTable, statement => ∃ t, (Reading.ofStatement statement).table? = some t
  | .alterTable, statement =>
    ∃ a, (Reading.ofStatement statement).alteration? = some a ∧ a.foreignKeys ≠ []

/-- A record is a warning that shows the number of a statement and its kind, in either format. -/
structure Tells (r : Record) (n : Nat) (kind : StatementKind) : Prop where
  /-- it is a warning -/
  level : r.level = .warning
  /-- a line of text ends in the kind and the number -/
  text : ∀ color, ∃ front, r.text color = front ++ (" [stmt=" ++ kind.name ++ ", at=" ++ toString n ++ "]")
  /-- a JSON object has them for its context -/
  json : ∀ time, ∃ members, r.json time = .object members ∧ Json.lookup? "context" members
    = some (.object [("statement_type", .string kind.name), ("statement_index", .int n)])

/-- The records of some events that are warnings. -/
def warnings (events : List Event) : List Record := (events.map Event.record).filter (·.level = .warning)

/-- **Every warning is accounted for**, and every statement that is not read has one. -/
structure Accounted (base : BaseColumns) (statements : List (List Char)) (warnings : List Record) : Prop where
  /-- a statement of a kind that is read says what it has to say, or one warning tells that it does not -/
  read : ∀ i statement kind, statements[i]? = some statement → Heading.kind? statement = .ok (some kind) →
    Says kind statement ∧ about (i + 1 : Nat) warnings = [] ∨
      ¬ Says kind statement ∧ ∃ fault, Tells (Event.unread (i + 1) kind fault statement).record (i + 1) kind ∧
        about (i + 1 : Nat) warnings = [(Event.unread (i + 1) kind fault statement).record]
  /-- there is one warning about a statement that cannot be told apart -/
  refused : ∀ i statement cause, statements[i]? = some statement → Heading.kind? statement = .error cause →
    about (i + 1 : Nat) warnings = [(Event.refused (i + 1) cause).record]
  /-- there is none about one of no kind that is read -/
  ignored : ∀ i statement, statements[i]? = some statement → Heading.kind? statement = .ok none →
    about (i + 1 : Nat) warnings = []
  /-- no warning is about a statement that is not there -/
  numbered : ∀ r ∈ warnings, ∀ n, r.statement? = some n → ∃ i < statements.length, n = (i + 1 : Nat)
  /-- a column that could become a field is that of a field, or it is dropped -/
  dropped : ∀ x ∈ Register.ofReadings (statements.map Reading.ofStatement),
    ((Design.fields base [] x.2.columns).map (·.columnName) ++ (base.dropped x.2.columns).map (·.name)).Perm
      ((base.leave x.2.columns).map (·.name))
  /-- and all other warnings are about dropped columns, one about each -/
  others : warnings.filter (·.statement? = none)
    = (Register.ofReadings (statements.map Reading.ofStatement)).flatMap fun x =>
        (base.dropped x.2.columns).map fun c =>
          (Event.duplicateField x.2.name (Naming.fieldName c.name) c.name).record

/-! ## Warnings of single events -/

theorem warnings_append (a b : List Event) : warnings (a ++ b) = warnings a ++ warnings b := by
  rw [warnings, List.map_append, List.filter_append]
  rfl

theorem warnings_flatMap {α : Type} (f : α → List Event) (l : List α) :
    warnings (l.flatMap f) = l.flatMap fun a => warnings (f a) := by
  induction l with
  | nil => rfl
  | cons a rest ih => rw [List.flatMap_cons, List.flatMap_cons, warnings_append, ih]

theorem warnings_eq_nil {events : List Event} (h : ∀ e ∈ events, e.record.level ≠ .warning) :
    warnings events = [] := by
  rw [warnings, List.filter_eq_nil_iff]
  intro r hr
  obtain ⟨e, he, rfl⟩ := List.mem_map.1 hr
  simpa using h e he

theorem warnings_notes (notes : List Note) : warnings (notes.map .note) = [] := by
  refine warnings_eq_nil fun e he => ?_
  obtain ⟨n, -, rfl⟩ := List.mem_map.1 he
  cases n <;> exact nofun

/-- Whether a statement waits for the second pass. -/
def Item.isAlteration (item : Item) : Bool :=
  match item.reading with
  | .alteration _ => true
  | _ => false

/-- The warning that a statement of a kind cannot be read, if it cannot. -/
def Item.unread? {α : Type} (item : Item) (kind : StatementKind) : Except ReadFault α → Option Record
  | .ok _ => none
  | .error fault => some (Event.unread item.index kind fault item.statement).record

theorem Item.unread?_eq_some {α : Type} {item : Item} {kind : StatementKind} {value : Except ReadFault α}
    {r : Record} : item.unread? kind value = some r ↔
      ∃ fault, value = .error fault ∧ (Event.unread item.index kind fault item.statement).record = r := by
  cases value <;> simp [unread?]

/-- The warning about a statement, if there is one. -/
def Item.warning? (item : Item) : Option Record :=
  match item.reading with
  | .refused cause => some (Event.refused item.index cause).record
  | .ignored => none
  | .creation read => item.unread? .createTable read.value
  | .alteration read => item.unread? .alterTable read.value

theorem warnings_readingEvents {α : Type} (item : Item) (kind : StatementKind)
    (read : Noted (Except ReadFault α)) :
    warnings (readingEvents item kind read) = (item.unread? kind read.value).toList := by
  rw [readingEvents, warnings_append, warnings_notes, List.nil_append]
  cases read.value <;> rfl

theorem warnings_declarationEvents (r : Register) (item : Item) :
    warnings (declarationEvents r item) = if item.isAlteration then [] else item.warning?.toList := by
  obtain ⟨index, statement, reading⟩ := item
  cases reading with
  | refused cause => rfl
  | ignored => rfl
  | alteration read => rfl
  | creation read =>
    rw [declarationEvents, warnings_append, warnings_readingEvents]
    obtain ⟨value, notes⟩ := read
    cases value with
    | error fault => rfl
    | ok table =>
      dsimp only
      split <;> rfl

theorem warnings_alterationEvents (r : Register) (item : Item) :
    warnings (alterationEvents r item) = if item.isAlteration then item.warning?.toList else [] := by
  obtain ⟨index, statement, reading⟩ := item
  cases reading with
  | refused cause => rfl
  | ignored => rfl
  | creation read => rfl
  | alteration read =>
    rw [alterationEvents, warnings_append, warnings_readingEvents]
    obtain ⟨value, notes⟩ := read
    cases value with
    | error fault => rfl
    | ok a =>
      dsimp only
      split <;> rfl

/-- The warnings about the columns of a table: one for each that repeats an earlier one. -/
theorem warnings_fieldEvents (base : BaseColumns) (table : String) (seen : List String) (columns : List Column) :
    warnings (fieldEvents base table seen columns)
      = (repeats (Naming.fieldName ·.name) seen (base.leave columns)).map fun c =>
          (Event.duplicateField table (Naming.fieldName c.name) c.name).record := by
  induction columns generalizing seen with
  | nil => rfl
  | cons c rest ih =>
    rw [BaseColumns.leave, List.filter_cons, fieldEvents]
    dsimp only
    by_cases hbase : base.holds c.name = true
    · rw [if_pos hbase, if_neg (by simp [hbase])]
      exact ih seen
    by_cases hempty : (Naming.fieldName c.name).isEmpty = true
    · rw [if_neg hbase, if_pos hempty, if_neg (by simp [hempty]), ih]
      rfl
    have hkeep : (!base.holds c.name && !(Naming.fieldName c.name).isEmpty) = true := by
      simp [hbase, hempty]
    rw [if_neg hbase, if_neg hempty, if_pos hkeep, repeats]
    by_cases hseen : Naming.fieldName c.name ∈ seen
    · rw [if_pos (by simpa using hseen), if_pos hseen, List.map_cons, ← BaseColumns.leave, ← ih]
      rfl
    · rw [if_neg (by simpa using hseen), if_neg hseen, ← BaseColumns.leave, ← ih]

theorem warnings_relations (r : Register) : warnings (r.flatMap fun (_, table) => relationEvents r table) = [] := by
  refine warnings_eq_nil fun e he => ?_
  obtain ⟨x, -, he⟩ := List.mem_flatMap.1 he
  obtain ⟨key, -, hkey⟩ := List.mem_filterMap.1 he
  split at hkey
  · cases hkey
  · obtain rfl := Option.some.inj hkey
    exact nofun

/-! ## Warnings of an import -/

theorem warnings_declarations (r : Register) (all : List Item) :
    warnings (declarations r all) = (all.filter (! ·.isAlteration)).filterMap Item.warning? := by
  induction all generalizing r with
  | nil => rfl
  | cons item rest ih =>
    rw [declarations, warnings_append, warnings_declarationEvents, ih, List.filter_cons]
    cases item.isAlteration with
    | true => rfl
    | false =>
      simp only [Bool.false_eq_true, if_false, Bool.not_false, if_true, List.filterMap_cons]
      cases item.warning? <;> rfl

theorem warnings_alterations (r : Register) (all : List Item) :
    warnings (all.flatMap (alterationEvents r)) = (all.filter Item.isAlteration).filterMap Item.warning? := by
  rw [warnings_flatMap]
  induction all with
  | nil => rfl
  | cons item rest ih =>
    rw [List.flatMap_cons, ih, warnings_alterationEvents, List.filter_cons]
    cases item.isAlteration with
    | true =>
      simp only [if_true, List.filterMap_cons]
      cases item.warning? <;> rfl
    | false => rfl

/-- The warnings about the columns that are dropped. -/
def droppedWarnings (base : BaseColumns) (statements : List (List Char)) : List Record :=
  (Register.ofReadings (statements.map Reading.ofStatement)).flatMap fun x =>
    (base.dropped x.2.columns).map fun c => (Event.duplicateField x.2.name (Naming.fieldName c.name) c.name).record

theorem map_reading_items (index : Nat) (statements : List (List Char)) :
    (items index statements).map (·.reading) = statements.map Reading.ofStatement := by
  induction statements generalizing index with
  | nil => rfl
  | cons statement rest ih => rw [items, List.map_cons, List.map_cons, ih]

/-- **The warnings of an import**, in their order. -/
theorem warnings_events (base : BaseColumns) (statements : List (List Char)) :
    warnings (events base statements)
      = ((items 1 statements).filter (! ·.isAlteration)).filterMap Item.warning?
        ++ ((items 1 statements).filter Item.isAlteration).filterMap Item.warning?
        ++ droppedWarnings base statements := by
  rw [events]
  dsimp only
  rw [map_reading_items, warnings_append, warnings_append, warnings_append, warnings_declarations,
    warnings_alterations, warnings_relations, List.append_nil, warnings_flatMap]
  simp only [warnings_fieldEvents]
  rfl

/-- Up to their order they are those about the statements, one by one, and those about dropped columns. -/
theorem warnings_events_perm (base : BaseColumns) (statements : List (List Char)) :
    (warnings (events base statements)).Perm
      ((items 1 statements).filterMap Item.warning? ++ droppedWarnings base statements) := by
  rw [warnings_events, ← List.filterMap_append]
  refine List.Perm.append_right _ (List.Perm.filterMap _ ?_)
  exact List.perm_append_comm.trans (List.filter_append_perm ..)

/-! ## Which statement a warning is about -/

/-- The warning about a statement shows its number. -/
theorem statement?_of_warning? {item : Item} {r : Record} (h : item.warning? = some r) :
    r.statement? = some (item.index : Int) := by
  obtain ⟨index, statement, reading⟩ := item
  cases reading with
  | refused cause =>
    obtain rfl := Option.some.inj h
    rfl
  | ignored => cases h
  | creation read | alteration read =>
    obtain ⟨value, notes⟩ := read
    cases value with
    | ok value => cases h
    | error fault =>
      obtain rfl := Option.some.inj h
      rfl

theorem statement?_of_mem_droppedWarnings {base : BaseColumns} {statements : List (List Char)} {r : Record}
    (h : r ∈ droppedWarnings base statements) : r.statement? = none := by
  obtain ⟨x, -, hr⟩ := List.mem_flatMap.1 h
  obtain ⟨c, -, rfl⟩ := List.mem_map.1 hr
  rfl

/-- A numbered statement is one of the statements, with what it has to say. -/
theorem exists_of_mem_items {index : Nat} {statements : List (List Char)} {item : Item}
    (h : item ∈ items index statements) :
    ∃ i statement, statements[i]? = some statement ∧ item = ⟨index + i, statement, .ofStatement statement⟩ := by
  induction statements generalizing index with
  | nil => cases h
  | cons statement rest ih =>
    rw [items, List.mem_cons] at h
    rcases h with rfl | h
    · exact ⟨0, statement, rfl, rfl⟩
    · obtain ⟨i, other, hother, rfl⟩ := ih h
      exact ⟨i + 1, other, hother, by rw [Nat.add_right_comm, Nat.add_assoc]⟩

/-- Nothing is told of the statements behind the last. -/
theorem about_items_of_lt {n index : Nat} (h : n < index) (statements : List (List Char)) :
    about n ((items index statements).filterMap Item.warning?) = [] := by
  rw [about, List.filter_eq_nil_iff]
  intro r hr
  obtain ⟨item, hitem, hwarning⟩ := List.mem_filterMap.1 hr
  obtain ⟨i, _, -, rfl⟩ := exists_of_mem_items hitem
  rw [statement?_of_warning? hwarning, decide_eq_true_iff]
  intro hn
  have := Option.some.inj hn
  dsimp only at this
  omega

/-- **What is told of one statement** is its own warning. -/
theorem about_items {statements : List (List Char)} {i : Nat} {statement : List Char}
    (h : statements[i]? = some statement) (index : Nat) :
    about (index + i : Nat) ((items index statements).filterMap Item.warning?)
      = (Item.warning? ⟨index + i, statement, .ofStatement statement⟩).toList := by
  induction statements generalizing i index with
  | nil => cases h
  | cons first rest ih =>
    rw [items, List.filterMap_cons]
    cases i with
    | zero =>
      obtain rfl := Option.some.inj h
      have hrest := about_items_of_lt (Nat.lt_succ_self index) rest
      rw [Nat.add_zero]
      cases hwarning : Item.warning? ⟨index, first, .ofStatement first⟩ with
      | none => exact hrest
      | some r =>
        have hnumber := statement?_of_warning? hwarning
        simp only [about, List.filter_cons, hnumber, decide_true, if_true] at hrest ⊢
        rw [hrest]
        rfl
    | succ i =>
      have hrest := ih h (index + 1)
      rw [Nat.add_right_comm, Nat.add_assoc] at hrest
      cases hwarning : Item.warning? ⟨index, first, .ofStatement first⟩ with
      | none => exact hrest
      | some r =>
        have hnumber : r.statement? ≠ some ((index + (i + 1) : Nat) : Int) := by
          rw [statement?_of_warning? hwarning]
          intro hn
          have := Option.some.inj hn
          dsimp only at this
          omega
        rw [← hrest]
        simp only [about, List.filter_cons, hnumber, decide_false, Bool.false_eq_true, if_false]

/-- The warnings of an import about one of its statements. -/
theorem about_warnings_events {base : BaseColumns} {statements : List (List Char)} {i : Nat} {statement : List Char}
    (h : statements[i]? = some statement) :
    about (i + 1 : Nat) (warnings (events base statements))
      = (Item.warning? ⟨i + 1, statement, .ofStatement statement⟩).toList := by
  have hdropped : about (i + 1 : Nat) (droppedWarnings base statements) = [] := by
    rw [about, List.filter_eq_nil_iff]
    intro r hr
    rw [statement?_of_mem_droppedWarnings hr]
    simp
  have hperm := (warnings_events_perm base statements).filter (·.statement? = some ((i + 1 : Nat) : Int))
  have hitems := about_items h 1
  rw [Nat.add_comm 1 i] at hitems
  rw [List.filter_append] at hperm
  rw [about] at hdropped hitems
  rw [hdropped, hitems, List.append_nil] at hperm
  -- at most one warning is left, so its place does not matter
  cases hwarning : Item.warning? ⟨i + 1, statement, .ofStatement statement⟩ with
  | none =>
    rw [hwarning] at hperm
    exact hperm.eq_nil
  | some r =>
    rw [hwarning] at hperm
    exact List.perm_singleton.1 hperm

/-! ## Warnings stand on one line -/

/-- What is told of a statement on one line is told on one line. -/
theorem onLine_of_warning? {n : Nat} {statement : List Char} (hstatement : '\n' ∉ statement) {r : Record}
    (h : Item.warning? ⟨n, statement, .ofStatement statement⟩ = some r) : r.OnLine := by
  rw [Reading.ofStatement] at h
  split at h
  · obtain rfl := Option.some.inj h
    exact Event.onLine_refused ..
  · cases h
  · obtain ⟨fault, hfault, rfl⟩ := Item.unread?_eq_some.1 h
    exact Event.onLine_unread (Table.newline_not_mem_fault hstatement hfault) hstatement ..
  · obtain ⟨fault, hfault, rfl⟩ := Item.unread?_eq_some.1 h
    exact Event.onLine_unread (Alteration.newline_not_mem_fault hstatement hfault) hstatement ..

/-- A dropped column has the name that is written in the statement. -/
theorem onLine_of_mem_droppedWarnings {base : BaseColumns} {statements : List (List Char)}
    (h : ∀ statement ∈ statements, '\n' ∉ statement) {r : Record} (hr : r ∈ droppedWarnings base statements) :
    r.OnLine := by
  obtain ⟨x, hx, hr⟩ := List.mem_flatMap.1 hr
  obtain ⟨c, hc, rfl⟩ := List.mem_map.1 hr
  obtain ⟨statement, hstatement, hwithin⟩ := Register.exists_within_of_mem hx
  have hcolumn : c ∈ x.2.columns := List.mem_of_mem_filter (mem_of_mem_repeats hc)
  exact Event.onLine_duplicateField (fun hmem => h statement hstatement (hwithin.name hmem))
    (Naming.newline_not_mem_fieldName c.name)
    fun hmem => h statement hstatement (hwithin.columns c hcolumn hmem)

/-- **Every warning is one line**, since every statement is. -/
theorem onLine_of_mem_warnings {base : BaseColumns} {statements : List (List Char)}
    (h : ∀ statement ∈ statements, '\n' ∉ statement) {r : Record} (hr : r ∈ warnings (events base statements)) :
    r.OnLine := by
  rcases List.mem_append.1 ((warnings_events_perm base statements).mem_iff.1 hr) with hr | hr
  · obtain ⟨item, hitem, hwarning⟩ := List.mem_filterMap.1 hr
    obtain ⟨i, statement, hstatement, rfl⟩ := exists_of_mem_items hitem
    exact onLine_of_warning? (h statement (List.mem_of_getElem? hstatement)) hwarning
  · exact onLine_of_mem_droppedWarnings h hr

/-! ## What a warning shows -/

/-- The number and the kind of a statement are shown. -/
theorem shown_unread (n : Nat) (kind : StatementKind) :
    Log.shown [Event.atStatement n, ("statement_type", .string kind.name)]
      = [("statement_type", "stmt", .string kind.name), ("statement_index", "at", .int n)] := rfl

theorem contextText_unread (n : Nat) (kind : StatementKind) :
    Log.contextText [Event.atStatement n, ("statement_type", .string kind.name)]
      = " [stmt=" ++ kind.name ++ ", at=" ++ toString n ++ "]" := by
  rw [Log.contextText, shown_unread]
  change " [" ++ ", ".intercalate ["stmt" ++ "=" ++ kind.name, "at" ++ "=" ++ toString n] ++ "]" = _
  rw [String.intercalate_cons_cons, String.intercalate_singleton]
  simp only [String.append_assoc]
  rfl

theorem tells_unread (n : Nat) (kind : StatementKind) (fault : ReadFault) (statement : List Char) :
    Tells (Event.unread n kind fault statement).record n kind where
  level := rfl
  text _ := ⟨_, congrArg (_ ++ ·) (contextText_unread n kind)⟩
  json _ := ⟨_, rfl, rfl⟩

/-- **A statement of a kind that is read** says what it has to say, or there is a warning about it. -/
theorem says_or_unread {statement : List Char} {kind : StatementKind}
    (h : Heading.kind? statement = .ok (some kind)) (n : Nat) :
    Says kind statement ∧ Item.warning? ⟨n, statement, .ofStatement statement⟩ = none ∨
      ¬ Says kind statement ∧ ∃ fault,
        Item.warning? ⟨n, statement, .ofStatement statement⟩ = some (Event.unread n kind fault statement).record := by
  cases kind with
  | createTable =>
    have hreading : Reading.ofStatement statement = .creation (Table.readCreate statement) := by
      rw [Reading.ofStatement, h]
    rw [Says, hreading]
    obtain ⟨value, notes⟩ := Table.readCreate statement
    cases value with
    | ok t => exact .inl ⟨⟨t, rfl⟩, rfl⟩
    | error fault =>
      refine .inr ⟨?_, fault, rfl⟩
      rintro ⟨_, ht⟩
      cases ht
  | alterTable =>
    have hreading : Reading.ofStatement statement = .alteration (Alteration.read statement) := by
      rw [Reading.ofStatement, h]
    have hkeys := @Alteration.foreignKeys_ne_nil statement
    rw [Says, hreading]
    generalize Alteration.read statement = read at hkeys ⊢
    obtain ⟨value, notes⟩ := read
    cases value with
    | ok a => exact .inl ⟨⟨a, rfl, hkeys rfl⟩, rfl⟩
    | error fault =>
      refine .inr ⟨?_, fault, rfl⟩
      rintro ⟨_, ha, -⟩
      cases ha

/-! ## No statement is dropped silently -/

/-- What is asked of the log at first: warnings and nothing less. -/
theorem writes_iff (json noColor terminal : Bool) (e : Event) :
    (Log.Settings.of 0 json noColor terminal).writes e.record.level = decide (e.record.level = .warning) := by
  cases e with
  | note n => cases n <;> rfl
  | _ => rfl

theorem lines_eq (json noColor terminal : Bool) (time : String) (events : List Event) :
    Log.lines (.of 0 json noColor terminal) time (events.map Event.record)
      = (warnings events).map (·.line (Log.Settings.of 0 json noColor terminal).format time) := by
  refine congrArg (List.map _) (List.filter_congr fun r hr => ?_)
  obtain ⟨e, -, rfl⟩ := List.mem_map.1 hr
  exact writes_iff ..

theorem accounted_events (base : BaseColumns) (statements : List (List Char)) :
    Accounted base statements (warnings (events base statements)) where
  read i statement kind hstatement hkind := by
    rw [about_warnings_events hstatement]
    rcases says_or_unread hkind (i + 1) with ⟨htold, hwarning⟩ | ⟨hsilent, fault, hwarning⟩
    · exact .inl ⟨htold, by rw [hwarning]; rfl⟩
    · exact .inr ⟨hsilent, fault, tells_unread .., by rw [hwarning]; rfl⟩
  refused i statement cause hstatement hkind := by
    rw [about_warnings_events hstatement, Reading.ofStatement, hkind]
    rfl
  ignored i statement hstatement hkind := by
    rw [about_warnings_events hstatement, Reading.ofStatement, hkind]
    rfl
  numbered r hr n hn := by
    rcases List.mem_append.1 ((warnings_events_perm base statements).mem_iff.1 hr) with hr | hr
    · obtain ⟨item, hitem, hwarning⟩ := List.mem_filterMap.1 hr
      obtain ⟨i, _, hi, rfl⟩ := exists_of_mem_items hitem
      rw [statement?_of_warning? hwarning, Nat.add_comm] at hn
      exact ⟨i, (List.getElem?_eq_some_iff.1 hi).1, (Option.some.inj hn).symm⟩
    · rw [statement?_of_mem_droppedWarnings hr] at hn
      cases hn
  dropped x _ := base.fields_append_dropped_perm x.2.columns
  others := by
    rw [warnings_events, List.filter_append, List.filter_eq_nil_iff.2, List.nil_append, List.filter_eq_self.2]
    · rfl
    · intro r hr
      rw [statement?_of_mem_droppedWarnings hr, decide_eq_true_iff]
    · intro r hr
      rw [← List.filterMap_append] at hr
      obtain ⟨item, -, hwarning⟩ := List.mem_filterMap.1 hr
      rw [statement?_of_warning? hwarning]
      simp

/-- **No statement is dropped silently.** A script that can be cut into statements is imported. What the log
shows of it, if nothing more is asked for, are warnings, each on one line: for each statement of a kind that is
read it says what it has to say or has one that shows its number and its kind; each that is too much to be told
apart has one; and so has each column that is dropped because its field is there already. -/
theorem accounted (base : BaseColumns) {script : List Char} {statements : List (List Char)}
    (h : Statement.prepare script = .ok statements) :
    ∃ imported, run base script = .ok imported ∧ imported.design = Design.ofStatements base statements ∧
      Accounted base statements (warnings imported.events) ∧
      (∀ r ∈ warnings imported.events, ∀ format time, '\n' ∉ (r.line format time).toList) ∧
      ∀ json noColor terminal time, Log.lines (.of 0 json noColor terminal) time (imported.events.map Event.record)
        = (warnings imported.events).map (·.line (Log.Settings.of 0 json noColor terminal).format time) := by
  have hlines : ∀ r ∈ warnings (events base statements), ∀ format time, '\n' ∉ (r.line format time).toList :=
    fun r hr => (onLine_of_mem_warnings (Statement.newline_not_mem_of_prepare h) hr).newline_not_mem_line
  refine ⟨⟨Design.ofStatements base statements, events base statements⟩, ?_, rfl,
    accounted_events base statements, hlines, fun json noColor terminal time => lines_eq ..⟩
  rw [run, h]
  rfl

/-- A script with an alteration that adds nothing, a column whose field is there already, and a table that is
never closed. -/
def troubled : List Char :=
  "alter table a foreign key(x);create table a(x int,X int);create table b(y int;drop table a".toList

theorem accounted_troubled :
    Statement.prepare troubled = .ok (["alter table a foreign key(x)", "create table a(x int,X int)",
        "create table b(y int", "drop table a"].map String.toList) ∧
      ∃ imported, run BaseColumns.standard troubled = .ok imported ∧
        ∃ fault, about 1 (warnings imported.events)
          = [(Event.unread 1 .alterTable fault "alter table a foreign key(x)".toList).record] := by
  have h : Statement.prepare troubled = .ok (["alter table a foreign key(x)", "create table a(x int,X int)",
      "create table b(y int", "drop table a"].map String.toList) := by decide +kernel
  obtain ⟨imported, hrun, -, haccounted, -⟩ := accounted BaseColumns.standard h
  refine ⟨h, imported, hrun, ?_⟩
  rcases haccounted.read 0 _ .alterTable rfl (by decide +kernel) with ⟨⟨a, ha, -⟩, -⟩ | ⟨-, fault, -, hone⟩
  · have hsilent : (Reading.ofStatement "alter table a foreign key(x)".toList).alteration? = none := by
      decide +kernel
    rw [hsilent] at ha
    cases ha
  · exact ⟨fault, hone⟩

end Import
end SchemaSketch
