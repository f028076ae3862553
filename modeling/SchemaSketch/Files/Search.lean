import SchemaSketch.Files.Tree
import SchemaSketch.Files.Wildcard

/-!
# Searching for files

A search begins at a path that is taken as it stands and goes on with *parts*: a name, a pattern for the
names in a folder, or `**` for a folder and all folders under it. What is found are paths, spelled as the search
was. `Files.scripts` searches a folder for scripts; the name of the folder may hold patterns itself.
-/

namespace SchemaSketch.Files
open Text

/-- A path with a name behind it. -/
def join (path name : String) : String :=
  if path.isEmpty || path.toList.getLast? == some '/' then path ++ name else path ++ "/" ++ name

/-- A part of a search. -/
inductive Part where
  /-- what has this name -/
  | named (name : String)
  /-- what has a name that the pattern fits -/
  | fitting (pattern : List Char)
  /-- the folder itself and all folders under it -/
  | deep
  deriving DecidableEq, Repr

/-- The part that a name in a search stands for. -/
def Part.ofName (name : String) : Part :=
  if name == "**" then .deep
  else if Wildcard.isPattern name.toList then .fitting name.toList
  else .named name

mutual

/-- The folders under a tree that are not hidden, by their paths from it. -/
def foldersUnder : FileTree → List String
  | .file _ => []
  | .folder entries => foldersAmong entries

/-- The folders among entries and under them. -/
def foldersAmong : List (String × FileTree) → List String
  | [] => []
  | (name, t) :: rest =>
    (if t.isFolder && !Wildcard.isHidden name.toList then name :: (foldersUnder t).map (join name) else [])
      ++ foldersAmong rest

end

/-- The path of a folder as it is looked up: none is the folder that relative paths begin at. -/
def lookedUp (path : String) : String := if path.isEmpty then "." else path

/-- What a part finds from a path on; `foldersOnly` leaves out the files that a pattern fits. -/
def expand (files : Files) (foldersOnly : Bool) (part : Part) (path : String) : List String :=
  match part with
  | .named name => if (files.find? (join path name)).isSome then [join path name] else []
  | .fitting pattern =>
    ((files.entriesAt (lookedUp path)).filter fun (name, t) =>
      Wildcard.accepts pattern name.toList && (!foldersOnly || t.isFolder)).map fun (name, _) => join path name
  | .deep =>
    (if path.isEmpty || files.isFolderAt path then [join path ""] else [])
      ++ ((files.find? (lookedUp path)).map fun t => (foldersUnder t).map (join path)).getD []

/-- The folders that a search for folders finds. -/
def folders (files : Files) (start : String) (parts : List Part) : List String :=
  parts.foldl (fun paths part => paths.flatMap (files.expand true part)) [start]

/-- A path without slashes at its end, unless it has nothing else. -/
def withoutSlashes (path : List Char) : List Char :=
  match dropEnd (· == '/') path with
  | [] => path
  | kept => kept

/-- Where a search in a folder begins, and its parts. -/
def partsOf (folder : String) : String × List Part :=
  let names := splitAtChar '/' folder.toList
  match names.dropWhile (! Wildcard.isPattern ·) with
  | [] => (String.ofList (withoutSlashes folder.toList), [])
  | found =>
    let before := (Text.join ['/'] (names.takeWhile (! Wildcard.isPattern ·) ++ [[]]))
    (String.ofList (withoutSlashes before),
      (found.filter (! ·.isEmpty)).map fun name => Part.ofName (String.ofList name))

/-- The pattern that the names of scripts fit. -/
def scriptPattern : List Char := "*.sql".toList

/-- The paths of the scripts in a folder and the folders under it, in the order of their characters. -/
def scripts (files : Files) (folder : String) : List String :=
  let (start, parts) := partsOf folder
  ((files.folders start (parts ++ [.deep])).flatMap (files.expand false (.fitting scriptPattern))).mergeSort
    fun a b => decide (a ≤ b)

end SchemaSketch.Files
