import SchemaSketch.Cli.Options
import SchemaSketch.Design.Assembly
import SchemaSketch.Export.Script
import SchemaSketch.Log.Record

/-!
# What a command line asks for

The program has two commands: one reads scripts and makes a document of them, the other one reads a document and
makes a script of it. `Invocation.read` reads a command line to the end, in the grammar of the program and then
in that of the command, and says what is asked for in the terms of the library.
-/

namespace SchemaSketch.Cli
open Text

/-- What the options are for. -/
inductive Key where
  | help
  | version
  | verbose
  | logFormat
  | noColor
  | source
  | documentOut
  | summary
  | baseColumns
  | keepBaseColumns
  | scriptOut
  | projectName
  deriving DecidableEq, Repr

/-- The name of the program. -/
def programName : String := "ef"

/-- What the program answers to a question for its version. -/
def versionLine : String := "EntityForge v0.1.0"

/-- The option that asks for help. -/
def helpRule : Rule Key := ⟨.help, ["-h", "--help"], .nothingMore, false⟩

/-- An option that may be left out. -/
def rule (key : Key) (name : String) (takes : Takes) : Rule Key := ⟨key, [name], takes, false⟩

/-- The options about the log, which both commands have, and the one about their source. -/
def sharedRules : List (Rule Key) := [
  helpRule,
  ⟨.verbose, ["--verbose", "-v"], .nothing, false⟩,
  rule .logFormat "--log-format" (.oneOf ["text", "json"]),
  rule .noColor "--no-color" .nothing,
  ⟨.source, ["--source"], .text, true⟩]

/-- The command that makes a document of scripts. -/
def importGrammar : Grammar Key :=
  ⟨programName ++ " parse", sharedRules ++ [
    rule .documentOut "--json-out" .text,
    rule .summary "--summary" .nothing,
    rule .baseColumns "--base-fields" .text,
    rule .keepBaseColumns "--keep-base-fields" .nothing], []⟩

/-- The command that makes a script of a document. -/
def exportGrammar : Grammar Key :=
  ⟨programName ++ " generate", sharedRules ++ [
    rule .scriptOut "--sql-out" .text,
    rule .projectName "--project-name" .text], []⟩

/-- The program. -/
def programGrammar : Grammar Key :=
  ⟨programName, [helpRule, rule .version "--version" .nothingMore], ["parse", "generate"]⟩

/-- A job to do. -/
inductive Job where
  /-- a document is made of the scripts at a path; it is saved or printed, and a summary may be printed -/
  | makeDocument (source : String) (base : BaseColumns) (summary : Bool) (saveTo? : Option String)
  /-- a script is made of the document at a path; it is saved or printed -/
  | makeScript (source project : String) (saveTo? : Option String)
  deriving DecidableEq, Repr

/-- What is asked of the log, apart from what its output allows. -/
structure LogWish where
  /-- the degree of verbosity -/
  verbosity : Nat
  /-- whether JSON is wanted -/
  json : Bool
  /-- whether colour is not wanted -/
  noColor : Bool
  deriving DecidableEq, Repr

/-- The settings for a log, given whether its output is a terminal. -/
def LogWish.settings (w : LogWish) (terminal : Bool) : Log.Settings :=
  .of w.verbosity w.json w.noColor terminal

/-- What a command line asks for. -/
inductive Invocation where
  /-- help about a program or a command -/
  | help (grammar : Grammar Key)
  /-- the version -/
  | version
  /-- nothing that can be made out; the program or the command that says so, and why -/
  | refused (program : String) (fault : OptionFault)
  /-- a job -/
  | job (log : LogWish) (job : Job)
  deriving DecidableEq, Repr

namespace Invocation

/-- The names in a list with commas between them. -/
def listed (text : String) : List String :=
  (((splitAtChar ',' text.toList).map trim).filter (! ·.isEmpty)).map String.ofList

/-- The base columns: none if all columns are kept, else those that are named, else the usual ones. -/
def baseColumns (r : Reading Key) : BaseColumns :=
  if r.has .keepBaseColumns then .ofNames []
  else
    match r.value? .baseColumns with
    | some names => .ofNames (listed names)
    | none => .standard

/-- The path that something is saved to, which may be none and may not be empty. -/
def saveTo? (r : Reading Key) (key : Key) : Option String := (r.value? key).filter (! ·.isEmpty)

/-- The job of the command that makes a document. -/
def importJob (r : Reading Key) : Job :=
  .makeDocument ((r.value? .source).getD "") (baseColumns r) (r.has .summary) (saveTo? r .documentOut)

/-- The job of the command that makes a script. -/
def exportJob (r : Reading Key) : Job :=
  .makeScript ((r.value? .source).getD "") ((r.value? .projectName).getD Export.usualProject) (saveTo? r .scriptOut)

/-- What is asked of the log. -/
def logWish (r : Reading Key) : LogWish :=
  ⟨r.count .verbose, r.value? .logFormat == some "json", r.has .noColor⟩

/-- What the arguments of a command ask for; `extras` were left over before. -/
def ofCommand (g : Grammar Key) (jobOf : Reading Key → Job) (extras arguments : List String) : Invocation :=
  match g.read arguments with
  | .error fault => .refused g.program fault
  | .ok r =>
    if r.ended?.isSome then .help g
    else if extras.isEmpty && r.extras.isEmpty then .job (logWish r) (jobOf r)
    else .refused programName (.unrecognized (extras ++ r.extras))

/-- What a command line asks for. -/
def read (arguments : List String) : Invocation :=
  match programGrammar.read arguments with
  | .error fault => .refused programName fault
  | .ok r =>
    match r.ended?, r.command? with
    | some .version, _ => .version
    | none, some (command, rest) =>
      if command == "parse" then ofCommand importGrammar importJob r.extras rest
      else ofCommand exportGrammar exportJob r.extras rest
    | _, _ => .help programGrammar

end Invocation
end SchemaSketch.Cli
