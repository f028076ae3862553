import SchemaSketch.Proofs.Except
import SchemaSketch.Proofs.Sql.Lists
import SchemaSketch.Proofs.Table.Reader

/-!
# Types that cost a table

Every type has a base and a field type, which is text if the base is unknown (`ColumnType.fieldType_of_unknown`).
Only its length can be out of reach: the first parameter is taken for a number if all of it are figures, and
figures need not write a number. They may be no decimal digits, or too many (`ColumnType.Unreadable`).

Such a type costs the whole table. Nothing else about an entry can fail, so a statement whose column list is cut
into entries gives a table exactly if no column of it has such a type (`Table.read_iff_readable`).
-/

namespace SchemaSketch

open Text

namespace ColumnType

/-- A parameter that is taken for a number and is none. -/
structure Unreadable (parameter : List Char) : Prop where
  /-- there is something in it -/
  ne_nil : parameter ≠ []
  /-- it is all figures -/
  figures : parameter.all isFigure = true
  /-- one of them is no decimal digit, or there are more than a number may have -/
  fault : parameter.all isDecimal = false ∨ maxDigits < parameter.length

/-- Figures write a number if they are decimal digits and not too many. -/
theorem exists_readLength_iff (figures : List Char) :
    (∃ n, readLength figures = .ok n) ↔ figures.all isDecimal = true ∧ figures.length ≤ maxDigits := by
  rw [readLength]
  cases hall : figures.all isDecimal with
  | false =>
    refine ⟨?_, fun h => absurd h.1 Bool.false_ne_true⟩
    rintro ⟨n, h⟩
    split at h <;> cases h
  | true =>
    have hrun : figures.takeWhile isDecimal = figures := by
      have h : (figures ++ []).takeWhile isDecimal = figures ++ [].takeWhile isDecimal :=
        List.takeWhile_append_of_pos (List.all_eq_true.1 hall)
      rwa [List.append_nil, List.takeWhile_nil, List.append_nil] at h
    rw [hrun]
    split
    · next hlong => exact ⟨fun ⟨n, h⟩ => (by cases h), fun h => absurd h.2 (Nat.not_le_of_gt hlong)⟩
    · next hshort => exact ⟨fun _ => ⟨rfl, Nat.le_of_not_lt hshort⟩, fun _ => ⟨_, rfl⟩⟩

/-- **The length of a type can be read** unless its first parameter is taken for a number and is none. -/
theorem exists_length?_iff (written : List Char) :
    (∃ length, length? written = .ok length) ↔ ¬ Unreadable (firstParameter written) := by
  rw [length?]
  split
  · next htaken =>
    rw [Bool.and_eq_true, Bool.not_eq_true', List.isEmpty_eq_false_iff] at htaken
    rw [Except.exists_map_eq_ok, exists_readLength_iff]
    constructor
    · rintro ⟨hall, hlength⟩ ⟨-, -, hnot | hlong⟩
      · rw [hall] at hnot
        cases hnot
      · exact absurd hlength (Nat.not_le_of_gt hlong)
    · intro h
      by_contra hfault
      refine h ⟨htaken.1, htaken.2, ?_⟩
      rwa [not_and_or, Bool.not_eq_true, Nat.not_le] at hfault
  · next htaken =>
    refine ⟨fun _ h => htaken ?_, fun _ => ⟨none, rfl⟩⟩
    rw [Bool.and_eq_true, Bool.not_eq_true', List.isEmpty_eq_false_iff]
    exact ⟨h.ne_nil, h.figures⟩

/-- A type of unknown base is text. -/
theorem fieldType_of_unknown {written : List Char} (h : ∀ entry ∈ known, entry.1.toList ≠ base written) :
    fieldType written = .string := by
  have hother : ∀ entry ∈ known, ¬ (entry.1.toList == base written) = true := fun entry hentry heq =>
    h entry hentry (beq_iff_eq.1 heq)
  rw [fieldType, fieldTypeOf, List.find?_eq_none.2 hother]
  rfl

end ColumnType

/-! ## Entries -/

namespace Definition

/-- The type of the column that an entry declares, if it declares one. -/
def type? (entry : List Char) : Option (List Char) :=
  if isConstraint entry then none else (ColumnDefinition.heading entry).map fun found => squeeze found.1.2

/-- An entry that can be read: its column has a type whose length can be read, or it has no column. -/
def Readable (entry : List Char) : Prop :=
  ∀ type, type? entry = some type → ¬ ColumnType.Unreadable (ColumnType.firstParameter type)

/-- **Nothing but the length of a type is in the way of an entry.** -/
theorem exists_read_iff (table : String) {entry : List Char} (hwords : words entry ≠ []) :
    (∃ noted, read table entry = .ok noted) ↔ Readable entry := by
  rw [read, List.isEmpty_eq_false_iff.2 hwords, if_neg Bool.false_ne_true, Readable, type?]
  split
  · exact ⟨fun _ _ h => (by cases h), fun _ => ⟨_, rfl⟩⟩
  simp only [Except.mapError_eq_ok]
  rw [ofColumn]
  cases hheading : ColumnDefinition.heading entry with
  | none => exact ⟨fun _ _ h => (by cases h), fun _ => ⟨_, rfl⟩⟩
  | some found =>
    obtain ⟨⟨name, type⟩, rest⟩ := found
    rw [Option.map_some]
    dsimp only
    rw [Except.exists_map_eq_ok, ColumnDefinition.column, Except.exists_map_eq_ok, ColumnType.exists_length?_iff]
    exact ⟨fun h _ htype => Option.some.inj htype ▸ h, fun h => h _ rfl⟩

end Definition

/-! ## Tables -/

namespace Statement

theorem Tight.words_ne_nil {cs : List Char} (h : Tight cs) : words cs ≠ [] := by
  intro hnil
  have hinked : inked cs = [] := by
    rw [← inked_squeeze, squeeze, hnil]
    rfl
  obtain ⟨c, rest, rfl⟩ := List.exists_cons_of_ne_nil h.ne_nil
  have hc := List.filter_eq_nil_iff.1 hinked c (List.mem_cons_self ..)
  rw [h.head c rfl] at hc
  exact hc rfl

theorem Listed.tight {before ts : List Token} {parts : List (List Char)} (h : Listed before parts ts) :
    ∀ part ∈ parts, Tight part := by
  induction h with
  | gap _ => exact fun part hpart => absurd hpart List.not_mem_nil
  | part _ _ _ _ hpart _ _ ih => exact List.forall_mem_cons.2 ⟨hpart, ih⟩

/-- No part of a body is blank. -/
theorem words_ne_nil_of_definitions {body : List Char} {parts : List (List Char)}
    (h : definitions body = .ok parts) : ∀ part ∈ parts, words part ≠ [] := by
  have hparted := definitions_parted body
  rw [h] at hparted
  cases hparted with
  | parts hlisted => exact fun part hpart => (hlisted.tight part hpart).words_ne_nil

end Statement

namespace Table

/-- A statement creates a table, and these are the entries of its column list. -/
def HasEntries (statement : List Char) (entries : List (List Char)) : Prop :=
  ∃ written fromList body, Heading.created statement = some (written, fromList) ∧
    Statement.inParentheses? fromList = .ok (some body) ∧ Statement.definitions body = .ok entries

/-- The entries of a statement are read one by one, and one that fails is enough. -/
theorem exists_definitions?_iff (statement : List Char) :
    (∃ found, definitions? statement = .ok found) ↔
      ∃ entries, HasEntries statement entries ∧ ∀ entry ∈ entries, Definition.Readable entry := by
  have hread : ∀ {name : String} {body : List Char} {entries : List (List Char)},
      Statement.definitions body = .ok entries →
      ((∃ definitions, entries.mapM (Definition.of? name) = .ok definitions) ↔
        ∀ entry ∈ entries, Definition.Readable entry) := by
    intro name body entries hentries
    rw [Except.exists_mapM_eq_ok]
    refine forall₂_congr fun entry hentry => ?_
    rw [Definition.of?, Except.exists_map_eq_ok]
    exact Definition.exists_read_iff name (Statement.words_ne_nil_of_definitions hentries entry hentry)
  constructor
  · rintro ⟨⟨name, definitions⟩, h⟩
    obtain ⟨written, fromList, body, entries, hcreated, hbody, hentries, rfl, hmap⟩ := definitions?_eq_ok h
    exact ⟨entries, ⟨written, fromList, body, hcreated, hbody, hentries⟩, (hread hentries).1 ⟨definitions, hmap⟩⟩
  · rintro ⟨entries, ⟨written, fromList, body, hcreated, hbody, hentries⟩, hreadable⟩
    obtain ⟨definitions, hmap⟩ := (@hread (String.ofList (Identifier.bareName written)) _ _ hentries).2 hreadable
    rw [definitions?, hcreated]
    dsimp only
    rw [hbody]
    dsimp only
    rw [hentries]
    dsimp only
    rw [hmap]
    exact ⟨_, rfl⟩

/-- **A type costs a table exactly if its length cannot be read.** The length of a type can be read unless the
first parameter is taken for a number and is none; a type of unknown base is text all the same; and a statement
gives a table if and only if its column list is cut into entries none of which has a type of that kind. -/
theorem read_iff_readable (written statement : List Char) :
    ((∃ length, ColumnType.length? written = .ok length) ↔
      ¬ ColumnType.Unreadable (ColumnType.firstParameter written)) ∧
    ((∀ entry ∈ ColumnType.known, entry.1.toList ≠ ColumnType.base written) →
      ColumnType.fieldType written = .string) ∧
    ((∃ t, (readCreate statement).value = .ok t) ↔
      ∃ entries, HasEntries statement entries ∧ ∀ entry ∈ entries, Definition.Readable entry) := by
  refine ⟨ColumnType.exists_length?_iff written, ColumnType.fieldType_of_unknown, ?_⟩
  rw [value_readCreate, Except.exists_map_eq_ok]
  exact exists_definitions?_iff statement

/-- A superscript two is a figure and writes no number: the type has no length, and the table is lost with the
column that could be read. -/
theorem not_read_superscript :
    ColumnType.length? "VARCHAR(²)".toList = .error (.notDecimal ['²']) ∧
      (readCreate "CREATE TABLE a (x INT, y VARCHAR(²))".toList).value = .error (.length (.notDecimal ['²'])) := by
  decide +kernel

end Table
end SchemaSketch
