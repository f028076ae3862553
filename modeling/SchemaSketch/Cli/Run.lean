import SchemaSketch.Cli.Invocation
import SchemaSketch.Document.Reader
import SchemaSketch.Document.Writer
import SchemaSketch.Document.Summary
import SchemaSketch.Files.Search
import SchemaSketch.Import.Report
import SchemaSketch.Json.Reader
import SchemaSketch.Text.Utf8

/-!
# Running a command line

`run` answers a command line in given `Surroundings`: with a status, with what is printed to the output and to
the log, and with the file that is saved, if one is. It changes nothing itself. Two kinds of failure are told apart:

* a `Trouble` is a fault of what the user gave, such as a path with nothing there; it is reported behind the
  log, and the status is 1;
* a `Breakdown` is a fault that no command answers for, such as a script that is too much for the reader;
  then there is no outcome.

A job is described by its `Course`: what it reports, what it prints, and how it ends.
-/

namespace SchemaSketch.Cli
open Text

/-- Where a command line is run. -/
structure Surroundings where
  /-- the files -/
  files : Files
  /-- the time that the log gives -/
  time : String
  /-- whether the log goes to a terminal -/
  terminal : Bool

/-- A file that is saved. -/
structure Saved where
  /-- its path -/
  path : String
  /-- its text -/
  text : String
  deriving DecidableEq, Repr

/-- What comes of a command line. -/
structure Outcome where
  /-- the status: 0 if all went well, 1 in trouble, 2 for a command line that is refused -/
  status : Nat
  /-- what is printed -/
  output : String
  /-- what is logged, with the report of trouble behind it -/
  errors : String
  /-- the file that is saved -/
  saved? : Option Saved
  deriving DecidableEq, Repr

/-- A fault of what the user gave. -/
inductive Trouble where
  /-- nothing is at a path -/
  | notFound (path : String)
  /-- a folder has no scripts -/
  | noScripts (path : String)
  /-- a file cannot be used -/
  | file (path : String) (fault : Files.Fault)
  /-- a file holds no text -/
  | notText (fault : Utf8.Fault)
  /-- a text is no JSON -/
  | notJson (path : String) (fault : Json.Fault) (text : List Char)
  /-- a JSON value is no document -/
  | notDocument (fault : Document.Fault)
  /-- a whole number has too many digits to be written -/
  | longNumber

/-- Trouble in words. -/
def Trouble.message : Trouble → String
  | notFound path => "Path not found: " ++ path
  | noScripts path => "No .sql files found in directory: " ++ path
  | file path fault => fault.message path
  | notText fault => fault.message
  | notJson path fault text =>
    (if fault.cause.hasPlace then "Invalid JSON in " ++ path ++ ": " else "") ++ fault.message text
  | notDocument fault => fault.report
  | longNumber =>
    s!"Exceeds the limit ({Json.maxDigits} digits) for integer string conversion; "
      ++ "use sys.set_int_max_str_digits() to increase the limit"

/-- A fault that no command answers for. -/
inductive Breakdown where
  /-- a script is too much -/
  | script (fault : Script.LimitFault)
  /-- a document is nested too deep to be read -/
  | nesting
  /-- a document cannot be written as a script -/
  | document (fault : Export.Fault)
  /-- an identifier cannot be looked up -/
  | identifier (fault : Document.NoKey)

/-- A breakdown in words. -/
def Breakdown.message : Breakdown → String
  | script fault => fault.message
  | nesting => Json.Cause.tooDeep.message
  | document fault => fault.message
  | identifier fault => (Export.Fault.notKey fault.value).message

/-- How a job goes. -/
structure Course where
  /-- what it reports, in order -/
  events : List Event
  /-- what it prints -/
  output : String
  /-- how it ends: in trouble, or with a file that is saved or none -/
  ending : Except Trouble (Option Saved)

/-- A job that ends in trouble with nothing printed. -/
def Course.trouble (events : List Event) (t : Trouble) : Course := ⟨events, "", .error t⟩

/-- A line of output. -/
def line (text : String) : String := text ++ "\n"

/-- The end of a job whose result is saved at a path, if that can be done, with a line that says so. -/
def save (files : Files) (c : Course) (path text : String) (said : String) : Course :=
  match files.targetOf path with
  | .error fault => { c with ending := .error (.file path fault) }
  | .ok _ => { c with output := c.output ++ line (said ++ path), ending := .ok (some ⟨path, text⟩) }

/-! ## From scripts to a document -/

/-- The texts at paths, read one after the other up to the first that is in trouble, with reports. -/
def readAll (files : Files) : List String → List Event × Except Trouble (List (List Char))
  | [] => ([], .ok [])
  | path :: rest =>
    match files.find? path with
    | some (.file bytes) =>
      let (events, texts) := readAll files rest
      (.reading path :: events, texts.map (Utf8.readLenient bytes :: ·))
    | some (.folder _) => ([.reading path], .error (.file path .isFolder))
    | none => ([.reading path], .error (.file path .missing))

/-- The script at a path: that of a file, or those of all files of a folder, each on lines of its own. -/
def readScript (files : Files) (path : String) : List Event × Except Trouble (List Char) :=
  match files.find? path with
  | none => ([], .error (.notFound path))
  | some (.file bytes) => ([.reading path], .ok (Utf8.readLenient bytes))
  | some (.folder _) =>
    match files.scripts path with
    | [] => ([], .error (.noScripts path))
    | paths =>
      let (events, texts) := readAll files paths
      (events, texts.map (join ['\n']))

/-- The end of making a document: it is saved, or printed unless a summary was. -/
def handOver (files : Files) (events : List Event) (summary? : Option String) (d : Document)
    (saveTo? : Option String) : Course :=
  if ! d.toJson.fits then ⟨events, summary?.getD "", .error .longNumber⟩
  else
    let text := d.toJson.indented
    match saveTo? with
    | some path => save files ⟨events, summary?.getD "", .ok none⟩ path text "JSON model saved to "
    | none => ⟨events, summary?.getD (line text), .ok none⟩

/-- The course of making a document. -/
def makeDocument (files : Files) (source : String) (base : BaseColumns) (summary : Bool)
    (saveTo? : Option String) : Except Breakdown Course :=
  match readScript files source with
  | (events, .error t) => .ok (.trouble events t)
  | (events, .ok script) => do
    let found ← (Import.run base script).mapError .script
    let made := found.design.toDocument
    let summary? ← (if summary then (made.summary.map some).mapError .identifier else .ok none)
    let reported := events ++ found.events
      ++ [.imported found.design.entities.length found.design.relations.length]
    pure (handOver files reported summary? made saveTo?)

/-! ## From a document to a script -/

/-- The document in a text. -/
def documentOf (path : String) (text : List Char) : Except Breakdown (Except Trouble Document) :=
  match Json.read text with
  | .error fault =>
    if fault.cause == .tooDeep then .error .nesting else .ok (.error (.notJson path fault text))
  | .ok value => .ok ((Document.ofJson value).mapError .notDocument)

/-- The document at a path. -/
def readDocument (files : Files) (path : String) : Except Breakdown (Except Trouble Document) :=
  match files.find? path with
  | some (.file bytes) =>
    match Utf8.read bytes with
    | .error fault => .ok (.error (.notText fault))
    | .ok text => documentOf path text
  | _ => .ok (.error (.notFound path))

/-- The course of making a script. -/
def makeScript (files : Files) (source project : String) (saveTo? : Option String) :
    Except Breakdown Course := do
  match ← readDocument files source with
  | .error t => pure (.trouble [] t)
  | .ok d =>
    let made := Export.script d project
    let text ← made.value.mapError .document
    let events := made.written.map Event.exported
    pure (match saveTo? with
      | some path => save files ⟨events, "", .ok none⟩ path text "SQL saved to "
      | none => ⟨events, line text, .ok none⟩)

/-! ## The whole -/

/-- The course of a job. -/
def course (files : Files) : Job → Except Breakdown Course
  | .makeDocument source base summary saveTo? => makeDocument files source base summary saveTo?
  | .makeScript source project saveTo? => makeScript files source project saveTo?

/-- What comes of a course, with its reports written to a log. -/
def Course.outcome (c : Course) (s : Log.Settings) (time : String) : Outcome :=
  let log := String.join ((Log.lines s time (c.events.map Event.record)).map line)
  match c.ending with
  | .ok saved? => ⟨0, c.output, log, saved?⟩
  | .error t => ⟨1, c.output, log ++ line ("Error: " ++ t.message), none⟩

/-- An option in a text of help. -/
def helpLine (r : Rule Key) : String :=
  "  " ++ ", ".intercalate r.names
    ++ (match r.takes with
      | .nothing | .nothingMore => ""
      | .text => " TEXT"
      | .oneOf words => " " ++ "|".intercalate words)
    ++ (if r.isRequired then " (required)" else "")

/-- How a program or a command is used. -/
def helpText (g : Grammar Key) : String :=
  let commands := if g.commands.isEmpty then "" else " " ++ "|".intercalate g.commands ++ " ..."
  line ("usage: " ++ g.program ++ " [options]" ++ commands) ++ line ""
    ++ String.join (g.rules.map fun r => line (helpLine r))

/-- What comes of what is asked for. -/
def answer (s : Surroundings) : Invocation → Except Breakdown Outcome
  | .help g => .ok ⟨0, helpText g, "", none⟩
  | .version => .ok ⟨0, line versionLine, "", none⟩
  | .refused program fault => .ok ⟨2, "", line (program ++ ": error: " ++ fault.message), none⟩
  | .job log job => (course s.files job).map fun c => c.outcome (log.settings s.terminal) s.time

/-- What comes of a command line. -/
def run (s : Surroundings) (arguments : List String) : Except Breakdown Outcome :=
  answer s (.read arguments)

end SchemaSketch.Cli
