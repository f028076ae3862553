import SchemaSketch.Text.Trim
import SchemaSketch.Text.Quoted

/-!
# Files and folders

A `FileTree` is a file with its bytes or a folder with its named entries. `Files` are a tree with the folder
that relative paths begin at. A path is walked name by name: an empty name and a point stay where they are, two
points go up (and stay at the top), and every other name goes down. Each step needs a folder to stand in, so
that a slash behind the name of a file is a fault.
-/

namespace SchemaSketch
open Text

/-- A file or a folder. -/
inductive FileTree where
  /-- a file with its bytes -/
  | file (bytes : List UInt8)
  /-- a folder with its entries -/
  | folder (entries : List (String × FileTree))
  deriving Inhabited

namespace FileTree

/-- The entry of a name. -/
def child? (name : String) : List (String × FileTree) → Option FileTree
  | [] => none
  | (n, t) :: rest => if n == name then some t else child? name rest

/-- Entries with one put in the place of the one of its name, or at the end. -/
def setChild (name : String) (t : FileTree) : List (String × FileTree) → List (String × FileTree)
  | [] => [(name, t)]
  | (n, u) :: rest => if n == name then (n, t) :: rest else (n, u) :: setChild name t rest

/-- What is put in under a name is found under it. -/
theorem child?_setChild_self (name : String) (t : FileTree) (es : List (String × FileTree)) :
    child? name (setChild name t es) = some t := by
  induction es with
  | nil => simp [setChild, child?]
  | cons head rest ih =>
    obtain ⟨n, u⟩ := head
    simp only [setChild]
    split
    · next h => simp [child?, h]
    · next h => simp [child?, h, ih]

/-- What is put in under a name changes nothing under another. -/
theorem child?_setChild_of_ne {name other : String} (h : other ≠ name) (t : FileTree)
    (es : List (String × FileTree)) : child? other (setChild name t es) = child? other es := by
  induction es with
  | nil => simp [setChild, child?, Ne.symm h]
  | cons head rest ih =>
    obtain ⟨n, u⟩ := head
    simp only [setChild]
    split
    · next hn =>
      have hne : (n == other) = false := by
        rw [beq_iff_eq.1 hn]
        simpa using Ne.symm h
      simp [child?, hne]
    · simp only [child?, ih]

/-- The entries of a folder. -/
def entries : FileTree → List (String × FileTree)
  | file _ => []
  | folder es => es

/-- Whether it is a folder. -/
def isFolder : FileTree → Bool
  | file _ => false
  | folder _ => true

/-- A tree with another one put in at the end of a chain of names; folders on the way are made. -/
def put (new : FileTree) : List String → FileTree → FileTree
  | [], _ => new
  | name :: rest, t => folder (setChild name (put new rest ((child? name t.entries).getD (folder []))) t.entries)

end FileTree

/-- The names in a path. -/
def pathNames (path : String) : List String := (splitAtChar '/' path.toList).map String.ofList

/-- A tree with the folder that relative paths begin at. -/
structure Files where
  /-- the whole tree -/
  root : FileTree
  /-- the names on the way to the folder -/
  home : List String

namespace Files

/-- Why a path cannot be used. -/
inductive Fault where
  /-- nothing is there -/
  | missing
  /-- a file is where a folder should be -/
  | notFolder
  /-- a folder is where a file should be -/
  | isFolder
  /-- the path holds a null character -/
  | nullCharacter
  deriving DecidableEq, Repr

/-- A fault of a path in words. -/
def Fault.message (path : String) : Fault → String
  | missing => "[Errno 2] No such file or directory: " ++ quotedText path
  | notFolder => "[Errno 20] Not a directory: " ++ quotedText path
  | isFolder => "[Errno 21] Is a directory: " ++ quotedText path
  | nullCharacter => "embedded null byte"

/-- A place in a tree: what is there, and the folders above it with the names that lead down from them, the
nearest first. -/
structure Place where
  /-- what is there -/
  here : FileTree
  /-- what is above -/
  above : List (String × FileTree)

/-- The chain of names down to a place. -/
def Place.names (p : Place) : List String := (p.above.map (·.1)).reverse

/-- One step of a walk. -/
def Place.step (p : Place) (name : String) : Except Fault Place :=
  match p.here with
  | .file _ => .error .notFolder
  | .folder entries =>
    if name == "" || name == "." then .ok p
    else if name == ".." then
      match p.above with
      | [] => .ok p
      | (_, up) :: rest => .ok ⟨up, rest⟩
    else
      match FileTree.child? name entries with
      | none => .error .missing
      | some t => .ok ⟨t, (name, p.here) :: p.above⟩

/-- The names that are walked for a path. -/
def route (files : Files) (path : String) : List String :=
  if path.toList.head? == some '/' then pathNames path else files.home ++ pathNames path

/-- Where some names lead from the top. -/
def walk (files : Files) (names : List String) : Except Fault Place :=
  names.foldlM Place.step ⟨files.root, []⟩

/-- What is at a path. -/
def find? (files : Files) (path : String) : Option FileTree :=
  if path.isEmpty then none else (walk files (files.route path)).toOption.map (·.here)

/-- The entries of the folder at a path. -/
def entriesAt (files : Files) (path : String) : List (String × FileTree) :=
  ((files.find? path).map FileTree.entries).getD []

/-- Whether a folder is at a path. -/
def isFolderAt (files : Files) (path : String) : Bool :=
  ((files.find? path).map FileTree.isFolder).getD false

/-! ## Writing -/

/-- The place that a file with the given last name would have in its folder. -/
def target (folder : Place) (last : String) (slash : Bool) : Except Fault (List String) :=
  match folder.here with
  | .file _ => .error .notFolder
  | .folder entries =>
    if slash || last == "" || last == "." || last == ".." then .error .isFolder
    else
      match FileTree.child? last entries with
      | some (.folder _) => .error .isFolder
      | _ => .ok (folder.names ++ [last])

/-- The chain of names down to the file that writing at a path makes or replaces. -/
def targetOf (files : Files) (path : String) : Except Fault (List String) :=
  if path.isEmpty then .error .missing
  else if path.toList.contains (Char.ofNat 0) then .error .nullCharacter
  else
    let names := files.route path
    let kept := (names.reverse.dropWhile (·.isEmpty)).reverse
    match kept.getLast? with
    | none => .error .isFolder
    | some last => do
      let folder ← walk files kept.dropLast
      target folder last (kept.length != names.length)

/-- The files after writing at a path. -/
def write (files : Files) (path : String) (bytes : List UInt8) : Except Fault Files :=
  (files.targetOf path).map fun names => { files with root := FileTree.put (.file bytes) names files.root }

end Files
end SchemaSketch
