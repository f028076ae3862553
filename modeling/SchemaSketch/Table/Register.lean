import SchemaSketch.Table.Reader

/-!
# The register of tables

A script declares tables and alters them, in any order. The *register* holds the tables under their names
in small letters, in the order in which the names were first declared. A second declaration of a name
takes the place of the first. Foreign keys that are added later wait until every table is declared.

What a statement has to say is its `Reading`, which depends on nothing but the statement. The register
of a script is made of the readings in two passes: declarations first, then alterations.
-/

namespace SchemaSketch
open Text

/-- What a statement has to say. -/
inductive Reading where
  /-- it is too much to be told apart -/
  | refused (cause : Script.LimitFault)
  /-- it is of no kind that is read -/
  | ignored
  /-- it creates a table -/
  | creation (read : Noted (Except ReadFault Table))
  /-- it adds foreign keys to a table -/
  | alteration (read : Noted (Except ReadFault Alteration))

/-- What a statement has to say. -/
def Reading.ofStatement (statement : List Char) : Reading :=
  match Heading.kind? statement with
  | .error cause => .refused cause
  | .ok none => .ignored
  | .ok (some .createTable) => .creation (Table.readCreate statement)
  | .ok (some .alterTable) => .alteration (Alteration.read statement)

/-- The table that a statement creates, if it creates one. -/
def Reading.table? : Reading → Option Table
  | .creation ⟨.ok found, _⟩ => some found
  | _ => none

/-- The foreign keys that a statement adds, if it adds any. -/
def Reading.alteration? : Reading → Option Alteration
  | .alteration ⟨.ok found, _⟩ => some found
  | _ => none

/-- Tables under their names in small letters, in the order of first declaration. -/
abbrev Register := List (String × Table)

namespace Register

/-- The table of a name. -/
def table? (r : Register) (name : String) : Option Table :=
  (List.find? (·.1 == lowerName name) r).map (·.2)

/-- The register with a table put under a key: in the place of the one that is there, or at the end. -/
def put (key : String) (table : Table) : Register → Register
  | [] => [(key, table)]
  | (k, t) :: rest => if k == key then (k, table) :: rest else (k, t) :: put key table rest

/-- The register with a table declared. -/
def declare (r : Register) (table : Table) : Register := r.put (lowerName table.name) table

/-- The register with foreign keys added to a table; an unknown table gets none. -/
def alter (r : Register) (a : Alteration) : Register :=
  r.map fun (key, table) =>
    if key == lowerName a.table then
      (key, { table with foreignKeys := table.foreignKeys ++ a.foreignKeys })
    else (key, table)

/-- The register after a declaration, if the reading is one. -/
def afterCreation (r : Register) (reading : Reading) : Register :=
  match reading.table? with
  | some table => r.declare table
  | none => r

/-- The register after an alteration, if the reading is one. -/
def afterAlteration (r : Register) (reading : Reading) : Register :=
  match reading.alteration? with
  | some alteration => r.alter alteration
  | none => r

/-- The tables that a script declares. -/
def declared (readings : List Reading) : Register := readings.foldl afterCreation []

/-- The tables that a script declares, with the foreign keys that it adds. -/
def ofReadings (readings : List Reading) : Register :=
  readings.foldl afterAlteration (declared readings)

/-- The keys of a register. -/
def keys (r : Register) : List String := r.map (·.1)

/-- Putting a table keeps the keys, or adds one at the end. -/
theorem keys_put (key : String) (table : Table) (r : Register) :
    keys (put key table r) = if key ∈ keys r then keys r else keys r ++ [key] := by
  induction r with
  | nil => simp [put, keys]
  | cons head rest ih =>
    obtain ⟨k, t⟩ := head
    simp only [put]
    by_cases h : k = key
    · subst h
      simp [keys]
    · have hne : ¬ key = k := fun e => h e.symm
      simp only [beq_iff_eq, h, if_false]
      have hmem : key ∈ keys ((k, t) :: rest) ↔ key ∈ keys rest := by simp [keys, hne]
      have hcons : keys ((k, t) :: put key table rest) = k :: keys (put key table rest) := rfl
      rw [hcons, ih]
      by_cases hin : key ∈ keys rest
      · rw [if_pos hin, if_pos (hmem.2 hin)]; rfl
      · rw [if_neg hin, if_neg (fun e => hin (hmem.1 e))]; rfl

/-- Adding foreign keys changes no key. -/
theorem keys_alter (r : Register) (a : Alteration) : keys (alter r a) = keys r := by
  simp only [keys, alter, List.map_map]
  apply List.map_congr_left
  intro entry _
  obtain ⟨k, t⟩ := entry
  simp only [Function.comp]
  split <;> rfl

end Register
end SchemaSketch
