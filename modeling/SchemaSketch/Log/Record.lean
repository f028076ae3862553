import SchemaSketch.Json.Printer

/-!
# Log records

A record has a level, the name of the logger it came from, a message and a *context*: what the message is
about, as named values. Five names are known and shown, in a fixed order; a value of null is as good as
none. Records are written in one of two formats, chosen with the threshold in `Settings`:

* as text, `[WARNING] message [table=orders, at=3]`, with the level in colour on a terminal;
* as one JSON object on a line.
-/

namespace SchemaSketch.Log

/-- How much a record matters. -/
inductive Level where
  | debug | info | warning | error | critical
  deriving DecidableEq, Repr

/-- The rank of a level. -/
def Level.rank : Level → Nat
  | .debug => 10
  | .info => 20
  | .warning => 30
  | .error => 40
  | .critical => 50

/-- The name of a level. -/
def Level.name : Level → String
  | .debug => "DEBUG"
  | .info => "INFO"
  | .warning => "WARNING"
  | .error => "ERROR"
  | .critical => "CRITICAL"

/-- The colour of a level on a terminal. -/
def Level.color : Level → Nat
  | .debug => 36
  | .info => 32
  | .warning => 33
  | .error => 31
  | .critical => 35

/-- Named values, in the order in which they were first given. -/
abbrev Context := List (String × Json)

/-- One context and another over it: a name given twice counts with its second value in its first
place. -/
def Context.over (below above : Context) : Context :=
  above.foldl (fun context (name, value) => Json.insert name value context) below

/-- The known names with their short forms, in the order in which they are shown. -/
def knownNames : List (String × String) := [
  ("table_name", "table"), ("operation", "op"), ("statement_type", "stmt"),
  ("statement_index", "at"), ("file_path", "file")]

/-- The known names that have a value, with their short forms and values. -/
def shown (context : Context) : List (String × String × Json) :=
  knownNames.filterMap fun (name, short) =>
    match Json.lookup? name context with
    | none | some .null => none
    | some value => some (name, short, value)

/-- A record. -/
structure Record where
  /-- how much it matters -/
  level : Level
  /-- where it came from -/
  logger : String
  /-- what it says -/
  message : String
  /-- what it is about -/
  context : Context
  /-- the text of an error that goes with it -/
  exception : Option String

/-! ## Settings -/

/-- How records are written. -/
inductive Format where
  /-- as text, in colour or not -/
  | text (color : Bool)
  /-- as JSON -/
  | json
  deriving DecidableEq, Repr

/-- Which records are written, and how. -/
structure Settings where
  /-- the least level that is written -/
  threshold : Level
  /-- how it is written -/
  format : Format
  deriving DecidableEq, Repr

/-- The threshold for a degree of verbosity. -/
def thresholdFor (verbosity : Int) : Level :=
  if verbosity ≥ 2 then .debug else if verbosity = 1 then .info else .warning

/-- Settings from a degree of verbosity, the wish for JSON or against colour, and whether the output is a
terminal. -/
def Settings.of (verbosity : Int) (json noColor terminal : Bool) : Settings :=
  ⟨thresholdFor verbosity, if json then .json else .text (!noColor && terminal)⟩

/-- Whether records of a level are written. -/
def Settings.writes (s : Settings) (level : Level) : Bool := s.threshold.rank ≤ level.rank

/-! ## Lines -/

/-- The control sequence for a colour. -/
def colorCode (n : Nat) : String :=
  String.ofList [Char.ofNat 27, '['] ++ toString n ++ "m"

/-- The context of a record as text. -/
def contextText (context : Context) : String :=
  match shown context with
  | [] => ""
  | values =>
    " [" ++ ", ".intercalate (values.map fun (_, short, value) => short ++ "=" ++ value.display) ++ "]"

/-- A record as text. -/
def Record.text (r : Record) (color : Bool) : String :=
  (if color then colorCode r.level.color ++ "[" ++ r.level.name ++ "]" ++ colorCode 0
    else "[" ++ r.level.name ++ "]") ++ " " ++ r.message ++ contextText r.context

/-- A record as a JSON object; the time is given. -/
def Record.json (r : Record) (time : String) : Json :=
  let context := (shown r.context).map fun (name, _, value) => (name, value)
  .object ([("timestamp", .string time), ("level", .string r.level.name), ("logger", .string r.logger),
      ("message", .string r.message)]
    ++ (if context.isEmpty then [] else [("context", .object context)])
    ++ (match r.exception with | some text => [("exception", .string text)] | none => []))

/-- A record as it is written. -/
def Record.line (r : Record) (format : Format) (time : String) : String :=
  match format with
  | .text color => r.text color
  | .json => (r.json time).oneLine

/-- The lines of the records that are written. -/
def lines (s : Settings) (time : String) (records : List Record) : List String :=
  (records.filter fun r => s.writes r.level).map (·.line s.format time)

/-! ## Loggers -/

/-- The name that all loggers share. -/
def rootName : String := "entityforge"

/-- The full name of a logger. -/
def loggerName (name : String) : String := if name.isEmpty then rootName else rootName ++ "." ++ name

/-- A logger with a context that it puts under the context of each record. -/
structure Logger where
  /-- its full name -/
  name : String
  /-- what all its records are about -/
  context : Context

/-- A logger of a name. -/
def Logger.named (name : String) (context : Context) : Logger := ⟨loggerName name, context⟩

/-- A logger with more context. -/
def Logger.bind (l : Logger) (context : Context) : Logger := { l with context := l.context.over context }

/-- Names that every record uses for itself, and that no context may use. -/
def reservedNames : List String := [
  "name", "msg", "args", "levelname", "levelno", "pathname", "filename", "module", "exc_info", "exc_text",
  "stack_info", "lineno", "funcName", "created", "msecs", "relativeCreated", "thread", "threadName",
  "processName", "process", "message", "asctime"]

/-- The first name of a context that is reserved. -/
def reserved? (context : Context) : Option String :=
  (context.find? fun (name, _) => reservedNames.contains name).map (·.1)

/-- The lines for one record of a logger. A reserved name in the context is refused, if the record is
written at all. -/
def Logger.write (l : Logger) (s : Settings) (time : String) (level : Level) (message : String)
    (extra : Context) (exception : Option String) : Except String (List String) :=
  if s.writes level then
    let context := l.context.over extra
    match reserved? context with
    | some name => .error name
    | none => .ok [Record.line ⟨level, l.name, message, context, exception⟩ s.format time]
  else .ok []

end SchemaSketch.Log
