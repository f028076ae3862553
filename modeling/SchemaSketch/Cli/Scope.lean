import SchemaSketch.Cli.Invocation
import SchemaSketch.Files.Search

/-!
# What a job looks at

Before a job is run, the part of the files that it looks at is gathered into a tree. A `Scope` says which part:
the places on the *ways* of the paths that the job names, and whatever is under the folder where a search for
scripts begins. A place is given by the chain of names that leads to it from the top.
-/

namespace SchemaSketch.Cli

/-- A part of the files. -/
structure Scope where
  /-- places on the ways of paths -/
  ways : List (List String)
  /-- folders that are searched -/
  searched : List (List String)
  /-- files that are read -/
  sources : List (List String)

/-- Where a name leads from the end of a chain. -/
def chainAfter (chain : List String) (name : String) : List String :=
  if name == "" || name == "." then chain
  else if name == ".." then chain.dropLast
  else chain ++ [name]

/-- The places on the way along some names from the end of a chain. -/
def waysFrom (chain : List String) : List String → List (List String)
  | [] => [chain]
  | name :: rest => chain :: waysFrom (chainAfter chain name) rest

/-- The places on the way of a path. -/
def waysOf (home : List String) (path : String) : List (List String) :=
  waysFrom [] (Files.route ⟨.folder [], home⟩ path)

/-- Where the way of a path ends. -/
def endOf (home : List String) (path : String) : List String := ((waysOf home path).getLast?).getD []

/-- The part of the files that a job looks at. -/
def Job.scope (home : List String) : Job → Scope
  | .makeDocument source _ _ saveTo? =>
    let start := Files.lookedUp (Files.partsOf source).1
    ⟨waysOf home source ++ waysOf home start ++ (saveTo?.map (waysOf home)).getD [],
      [endOf home start], [endOf home source]⟩
  | .makeScript source _ saveTo? =>
    ⟨waysOf home source ++ (saveTo?.map (waysOf home)).getD [], [], [endOf home source]⟩

namespace Scope

/-- Whether all entries of a folder are of interest. -/
def listsAll (s : Scope) (chain : List String) : Bool := s.searched.any (·.isPrefixOf chain)

/-- The names of the entries of a folder that are on the ways. -/
def namesOnWays (s : Scope) (chain : List String) : List String :=
  s.ways.filterMap fun way => if chain.isPrefixOf way then way[chain.length]? else none

/-- Whether the bytes of a file are of interest. -/
def reads (s : Scope) (chain : List String) : Bool :=
  s.sources.contains chain
    || (s.listsAll chain
      && (chain.getLast?.map fun name => Wildcard.accepts Files.scriptPattern name.toList).getD false)

end Scope
end SchemaSketch.Cli
