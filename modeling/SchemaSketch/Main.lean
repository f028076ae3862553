import SchemaSketch.Cli.Run
import SchemaSketch.Cli.Scope
import SchemaSketch.Log.Clock
import Std.Time.DateTime.Timestamp

/-!
# The program

The files that the job looks at are gathered, the command line is run, and what comes of it is printed and
saved. All that is decided is decided by `Cli.run`.
-/

namespace SchemaSketch.Cli

/-- What is at the end of a chain of names, as far as it is in a scope; folders deeper than `depth` are
left out. -/
def gather (scope : Scope) (depth : Nat) (chain : List String) : IO (Option FileTree) := do
  match depth with
  | 0 => return none
  | depth + 1 =>
    let path := "/" ++ "/".intercalate chain
    try
      let found ← IO.FS.realPath path
      match (← found.metadata).type with
      | .dir =>
        let listed ← if scope.listsAll chain then found.readDir else pure #[]
        let names := (listed.toList.map (·.fileName) ++ scope.namesOnWays chain).eraseDups
        let entries ← names.filterMapM fun name => do
          return (← gather scope depth (chain ++ [name])).map fun tree => (name, tree)
        return some (.folder entries)
      | .file =>
        let bytes ← if scope.reads chain then IO.FS.readBinFile path else pure ByteArray.empty
        return some (.file bytes.data.toList)
      | _ => return none
    catch _ => return none

/-- How deep folders are gathered. -/
def maxDepth : Nat := 1000

/-- The files that a command line looks at. -/
def gatherFor (home : List String) (arguments : List String) : IO Files := do
  match Invocation.read arguments with
  | .job _ job => return ⟨(← gather (job.scope home) maxDepth []).getD (.folder []), home⟩
  | _ => return ⟨.folder [], home⟩

/-- The time of the clock, as a text. -/
def now : IO String := do
  let time ← Std.Time.Timestamp.now
  return Log.timeText (time.toNanosecondsSinceUnixEpoch.val / 1000).toNat

/-- Runs a command line and says what the status is. -/
def execute (arguments : List String) : IO UInt32 := do
  let home := (pathNames (← IO.currentDir).toString).filter (! ·.isEmpty)
  let files ← gatherFor home arguments
  let terminal ← (← IO.getStderr).isTty
  match run ⟨files, ← now, terminal⟩ arguments with
  | .error breakdown =>
    IO.eprintln breakdown.message
    return 1
  | .ok outcome =>
    IO.eprint outcome.errors
    IO.print outcome.output
    match outcome.saved? with
    | some saved => IO.FS.writeFile saved.path saved.text
    | none => pure ()
    return outcome.status.toUInt32

end SchemaSketch.Cli

/-- Runs the command line of the program. -/
def main (arguments : List String) : IO UInt32 := SchemaSketch.Cli.execute arguments
