import Mathlib
import SchemaSketch.Cli.Run
import SchemaSketch.Proofs.Export.Writable

/-!
# What comes of a document

A document that has been read may still not be usable, since little is asked of it when it is read. It has
a summary when what is looked up can be looked up (`Document.exists_summary_iff`), and it is written as a
script when what should be a text is one (`Export.exists_script_iff`).

For the command that makes a script, this means: it prints or saves the script (`Cli.Made`), or it reports
trouble (`Cli.Reported`), or the text that it is given is unusable (`Cli.exists_ends_iff`).
-/

namespace SchemaSketch

namespace Document

/-! ## Summaries -/

/-- A document has a summary: its identifiers can be keys, and so can what its relations join. -/
structure Summarisable (d : Document) : Prop where
  /-- every identifier can be a key -/
  identifiers : ∀ e ∈ d.entities, e.id.isKey = true
  /-- what a relation joins can be looked up -/
  ends : ∀ r ∈ d.relations, r.sourceId.isKey = true ∧ r.targetId.isKey = true

theorem exists_nameOf_iff {d : Document} {id : Json} : (∃ name, nameOf d id = .ok name) ↔ id.isKey = true := by
  unfold nameOf
  split <;> simp_all

theorem exists_relationLine_iff {d : Document} {r : Relation} :
    (∃ line, relationLine d r = .ok line) ↔ r.sourceId.isKey = true ∧ r.targetId.isKey = true := by
  constructor
  · rintro ⟨line, h⟩
    obtain ⟨source, hsource, h⟩ := Except.bind_eq_ok.1 h
    obtain ⟨target, htarget, -⟩ := Except.bind_eq_ok.1 h
    exact ⟨exists_nameOf_iff.1 ⟨source, hsource⟩, exists_nameOf_iff.1 ⟨target, htarget⟩⟩
  · rintro ⟨hsource, htarget⟩
    obtain ⟨source, hsource⟩ := exists_nameOf_iff.2 hsource
    obtain ⟨target, htarget⟩ := exists_nameOf_iff.2 htarget
    exact ⟨_, Except.bind_eq_ok.2 ⟨source, hsource, Except.bind_eq_ok.2 ⟨target, htarget, rfl⟩⟩⟩

theorem exists_summary_iff {d : Document} : (∃ text, d.summary = .ok text) ↔ Summarisable d := by
  have hlines : (∃ lines, d.relations.mapM (relationLine d) = .ok lines) ↔
      ∀ r ∈ d.relations, r.sourceId.isKey = true ∧ r.targetId.isKey = true := by
    rw [Except.exists_mapM_eq_ok]
    exact forall₂_congr fun r _ => exists_relationLine_iff
  unfold summary
  cases hbad : d.entities.find? (! ·.id.isKey) with
  | some e =>
    have hids : ¬ ∀ e ∈ d.entities, e.id.isKey = true := by
      intro h
      have hno : d.entities.find? (! ·.id.isKey) = none := by simpa using h
      rw [hno] at hbad
      cases hbad
    exact ⟨fun ⟨_, h⟩ => (by cases h), fun h => absurd h.identifiers hids⟩
  | none =>
    have hids : ∀ e ∈ d.entities, e.id.isKey = true := by simpa using hbad
    constructor
    · rintro ⟨text, h⟩
      obtain ⟨lines, h, -⟩ := Except.bind_eq_ok.1 h
      exact ⟨hids, hlines.1 ⟨lines, h⟩⟩
    · intro h
      obtain ⟨lines, h⟩ := hlines.2 h.ends
      exact ⟨_, Except.bind_eq_ok.2 ⟨lines, h, rfl⟩⟩

end Document

namespace Cli

/-! ## Documents in files -/

/-- The text of the file at a path, if a file is there and holds a text. -/
def textAt? (files : Files) (path : String) : Option (List Char) :=
  match files.find? path with
  | some (.file bytes) => (Utf8.read bytes).toOption
  | _ => none

theorem textAt?_of_file {files : Files} {path : String} {bytes : List UInt8}
    (h : files.find? path = some (.file bytes)) :
    textAt? files path = (Utf8.read bytes).toOption := by
  simp only [textAt?, h]

theorem no_text_of_no_file {files : Files} {path : String} (h : ∀ bytes, files.find? path ≠ some (.file bytes)) :
    textAt? files path = none ∧ readDocument files path = .ok (.error (.notFound path)) := by
  cases hfind : files.find? path with
  | none => simp only [textAt?, readDocument, hfind, and_self]
  | some tree =>
    cases tree with
    | file bytes => exact absurd hfind (h bytes)
    | folder entries => simp only [textAt?, readDocument, hfind, and_self]

/-- What is at a path is a text, which is read, or it is trouble. -/
theorem readDocument_cases (files : Files) (path : String) :
    (∃ text, textAt? files path = some text ∧ readDocument files path = documentOf path text) ∨
      textAt? files path = none ∧ ∃ t, readDocument files path = .ok (.error t) := by
  by_cases hfile : ∃ bytes, files.find? path = some (.file bytes)
  · obtain ⟨bytes, hfile⟩ := hfile
    cases hread : Utf8.read bytes with
    | error fault =>
      have hdocument : readDocument files path = .ok (.error (.notText fault)) := by
        simp only [readDocument, hfile, hread]
      exact .inr ⟨by rw [textAt?_of_file hfile, hread]; rfl, _, hdocument⟩
    | ok text =>
      have hdocument : readDocument files path = documentOf path text := by
        simp only [readDocument, hfile, hread]
      exact .inl ⟨text, by rw [textAt?_of_file hfile, hread]; rfl, hdocument⟩
  · obtain ⟨htext, hread⟩ := no_text_of_no_file fun bytes h => hfile ⟨bytes, h⟩
    exact .inr ⟨htext, _, hread⟩

theorem documentOf_eq_ok {path : String} {text : List Char} {d : Document} :
    documentOf path text = .ok (.ok d) ↔ ∃ value, Json.read text = .ok value ∧ Document.ofJson value = .ok d := by
  unfold documentOf
  cases Json.read text with
  | error fault =>
    by_cases hdeep : (fault.cause == .tooDeep) = true <;> simp [hdeep]
  | ok value => cases h : Document.ofJson value <;> simp [h, Except.mapError]

theorem documentOf_eq_error {path : String} {text : List Char} {b : Breakdown} :
    documentOf path text = .error b ↔ b = .nesting ∧ ∃ fault, Json.read text = .error fault ∧
      fault.cause = .tooDeep := by
  unfold documentOf
  cases Json.read text with
  | error fault =>
    by_cases hdeep : fault.cause = .tooDeep <;> simp [hdeep, @eq_comm _ Breakdown.nesting b]
  | ok value => simp

/-- A document is read from a path if the text there writes a value that is one. -/
theorem readDocument_eq_ok {files : Files} {path : String} {d : Document} :
    readDocument files path = .ok (.ok d) ↔
      ∃ text value, textAt? files path = some text ∧ Json.read text = .ok value ∧ Document.ofJson value = .ok d := by
  obtain ⟨text, htext, hread⟩ | ⟨htext, t, ht⟩ := readDocument_cases files path
  · simp [htext, hread, documentOf_eq_ok]
  · simp [htext, ht]

/-- The only text that cannot even be refused is one that is nested too deep. -/
theorem readDocument_eq_error {files : Files} {path : String} {b : Breakdown} :
    readDocument files path = .error b ↔
      b = .nesting ∧ ∃ text fault, textAt? files path = some text ∧ Json.read text = .error fault ∧
        fault.cause = .tooDeep := by
  obtain ⟨text, htext, hread⟩ | ⟨htext, t, ht⟩ := readDocument_cases files path
  · simp [htext, hread, documentOf_eq_error]
  · simp [htext, ht]

/-! ## Making a script -/

/-- A text from which no script is made, and that is not refused either: lists and objects are nested too
deep in it, or it holds a document that cannot be written. -/
def Unusable (text : List Char) : Prop :=
  (∃ fault, Json.read text = .error fault ∧ fault.cause = .tooDeep) ∨
    ∃ value d, Json.read text = .ok value ∧ Document.ofJson value = .ok d ∧ ¬ Export.Writable d

/-- The end of a job that is done: the script is printed, or it is saved and the path is printed. -/
structure Made (o : Outcome) (sql : String) (saveTo? : Option String) : Prop where
  /-- all went well -/
  status : o.status = 0
  /-- the script is printed, or where it is saved -/
  output : o.output = line (match saveTo? with | none => sql | some path => "SQL saved to " ++ path)
  /-- the script is saved, if there is a path for it -/
  saved : o.saved? = saveTo?.map fun path => ⟨path, sql⟩

/-- The end of a job in trouble: nothing is printed but a report. -/
structure Reported (o : Outcome) : Prop where
  /-- there was trouble -/
  status : o.status = 1
  /-- nothing is printed -/
  output : o.output = ""
  /-- nothing is saved -/
  saved : o.saved? = none
  /-- a report stands at the end of the log -/
  report : ∃ log message, o.errors = log ++ line ("Error: " ++ message)

theorem Course.reported_trouble (events : List Event) (t : Trouble) (log : Log.Settings) (time : String) :
    Reported ((Course.trouble events t).outcome log time) :=
  ⟨rfl, rfl, rfl, _, _, rfl⟩

section

variable {files : Files} {source project : String} {saveTo? : Option String} {d : Document}

theorem makeScript_of_trouble {t : Trouble} (h : readDocument files source = .ok (.error t)) :
    makeScript files source project saveTo? = .ok (.trouble [] t) := by
  rw [makeScript, h]
  rfl

theorem makeScript_of_breakdown {b : Breakdown} (h : readDocument files source = .error b) :
    makeScript files source project saveTo? = .error b := by
  rw [makeScript, h]
  rfl

theorem makeScript_of_fault {fault : Export.Fault} (h : readDocument files source = .ok (.ok d))
    (hscript : (Export.script d project).value = .error fault) :
    makeScript files source project saveTo? = .error (.document fault) := by
  rw [makeScript, h]
  change ((Export.script d project).value.mapError Breakdown.document >>= _) = _
  rw [hscript]
  rfl

/-- A document that is written as a script: the script is printed. -/
theorem makeScript_printed {sql : String} (h : readDocument files source = .ok (.ok d))
    (hscript : (Export.script d project).value = .ok sql) :
    ∃ c, makeScript files source project none = .ok c ∧ ∀ log time, Made (c.outcome log time) sql none := by
  rw [makeScript, h]
  change ∃ c, ((Export.script d project).value.mapError Breakdown.document >>= _) = .ok c ∧ _
  rw [hscript]
  exact ⟨_, rfl, fun log time => ⟨rfl, rfl, rfl⟩⟩

/-- A document that is written as a script: the script is printed or saved, or the path is refused. -/
theorem makeScript_of_script {sql : String} (h : readDocument files source = .ok (.ok d))
    (hscript : (Export.script d project).value = .ok sql) :
    ∃ c, makeScript files source project saveTo? = .ok c ∧
      ∀ log time, Made (c.outcome log time) sql saveTo? ∨ Reported (c.outcome log time) := by
  cases saveTo? with
  | none =>
    obtain ⟨c, hc, hmade⟩ := makeScript_printed h hscript
    exact ⟨c, hc, fun log time => .inl (hmade log time)⟩
  | some path =>
    rw [makeScript, h]
    change ∃ c, ((Export.script d project).value.mapError Breakdown.document >>= _) = .ok c ∧ _
    rw [hscript]
    refine ⟨_, rfl, fun log time => ?_⟩
    dsimp only [save]
    cases files.targetOf path with
    | error fault => exact .inr ⟨rfl, rfl, rfl, _, _, rfl⟩
    | ok target => exact .inl ⟨rfl, rfl, rfl⟩

end

/-- Making a script ends well, with the script of the document at the path, or in trouble. -/
def Ends (files : Files) (source project : String) (saveTo? : Option String) (o : Outcome) : Prop :=
  (∃ d sql, readDocument files source = .ok (.ok d) ∧ (Export.script d project).value = .ok sql ∧ Made o sql saveTo?) ∨
    Reported o

theorem exists_unusable_iff {files : Files} {path : String} :
    (∃ text, textAt? files path = some text ∧ Unusable text) ↔
      (∃ b, readDocument files path = .error b) ∨ ∃ d, readDocument files path = .ok (.ok d) ∧ ¬ Export.Writable d := by
  simp only [readDocument_eq_error, readDocument_eq_ok, exists_eq_left]
  constructor
  · rintro ⟨text, htext, ⟨fault, hfault⟩ | ⟨value, d, hvalue, hd, hwritable⟩⟩
    · exact .inl ⟨text, fault, htext, hfault⟩
    · exact .inr ⟨d, ⟨text, value, htext, hvalue, hd⟩, hwritable⟩
  · rintro (⟨text, fault, htext, hfault⟩ | ⟨d, ⟨text, value, htext, hvalue, hd⟩, hwritable⟩)
    · exact ⟨text, htext, .inl ⟨fault, hfault⟩⟩
    · exact ⟨text, htext, .inr ⟨value, d, hvalue, hd, hwritable⟩⟩

/-- Making a script comes to an end, unless the text is there and unusable. -/
theorem exists_ends_iff {s : Surroundings} {log : LogWish} {source project : String} {saveTo? : Option String} :
    (∃ o, answer s (.job log (.makeScript source project saveTo?)) = .ok o ∧ Ends s.files source project saveTo? o) ↔
      ¬ ∃ text, textAt? s.files source = some text ∧ Unusable text := by
  rw [exists_unusable_iff]
  have hanswer : answer s (.job log (.makeScript source project saveTo?))
      = (makeScript s.files source project saveTo?).map fun c => c.outcome (log.settings s.terminal) s.time := rfl
  rw [hanswer]
  cases hread : readDocument s.files source with
  | error b =>
    rw [makeScript_of_breakdown hread]
    exact iff_of_false (by simp [Except.map]) (by simp)
  | ok found =>
    cases found with
    | error t =>
      rw [makeScript_of_trouble hread]
      exact iff_of_true ⟨_, rfl, .inr (Course.reported_trouble [] t _ _)⟩ (by simp)
    | ok d =>
      have hwritable := Export.exists_script_iff (d := d) project
      cases hscript : (Export.script d project).value with
      | error fault =>
        have hno : ¬ Export.Writable d := by simp [← hwritable, hscript]
        rw [makeScript_of_fault hread hscript]
        exact iff_of_false (by simp [Except.map]) (by simp [hno])
      | ok sql =>
        have hyes : Export.Writable d := hwritable.1 ⟨sql, hscript⟩
        obtain ⟨c, hc, hend⟩ : ∃ c, makeScript s.files source project saveTo? = .ok c ∧
            ∀ log time, Made (c.outcome log time) sql saveTo? ∨ Reported (c.outcome log time) :=
          makeScript_of_script hread hscript
        rw [hc]
        exact iff_of_true ⟨_, rfl, (hend _ _).imp_left fun h => ⟨d, sql, hread, hscript, h⟩⟩ (by simp [hyes])

end Cli

/-! ## The whole -/

/-- What documents can be used for: a summary, a script, and the command that makes one. -/
theorem usable_iff :
    (∀ d : Document, (∃ text, d.summary = .ok text) ↔ d.Summarisable) ∧
      (∀ (d : Document) (project : String),
        (∃ sql, (Export.script d project).value = .ok sql) ↔ Export.Writable d) ∧
      ∀ (s : Cli.Surroundings) (log : Cli.LogWish) (source project : String) (saveTo? : Option String),
        (∃ o, Cli.answer s (.job log (.makeScript source project saveTo?)) = .ok o ∧
            Cli.Ends s.files source project saveTo? o) ↔
          ¬ ∃ text, Cli.textAt? s.files source = some text ∧ Cli.Unusable text :=
  ⟨fun _ => Document.exists_summary_iff, fun _ project => Export.exists_script_iff project,
    fun _ _ _ _ _ => Cli.exists_ends_iff⟩

/-- An entity with a list for its identifier. -/
def listedDocument : Json :=
  .object [("entities", .array [.object [("id", .array []), ("name", .string "A")]])]

/-- A list cannot be looked up. -/
theorem unusable_listed : ¬ ∀ (v : Json) (d : Document), Document.ofJson v = .ok d →
    (∃ text, d.summary = .ok text) ∧ ∀ project, ∃ sql, (Export.script d project).value = .ok sql := by
  intro h
  obtain ⟨text, htext⟩ := (h listedDocument _ rfl).1
  cases htext

end SchemaSketch
