import SchemaSketch.Proofs.Except
import SchemaSketch.Proofs.Register
import SchemaSketch.Proofs.Table.Reader

/-!
# Columns that are measured

Reading a column reads the length of its type, and making a field of the column reads it again. The
second reading is guarded by nothing, so it must not fail: `Column.Measured` says that it gives what
the first one gave.

Only `ColumnDefinition.column` makes columns, and it measures them. What happens to a column afterwards
changes flags and leaves type and length alone. So every table that a script registers is measured
(`Register.measured_ofStatements`).
-/

namespace SchemaSketch

/-- The type can be read once more, with the length that the column has. -/
def Column.Measured (c : Column) : Prop := ColumnType.length? c.type.toList = .ok c.length

/-- Every column is measured. -/
def Table.Measured (t : Table) : Prop := ∀ c ∈ t.columns, c.Measured

/-- Every table is measured. -/
def Register.Measured (r : Register) : Prop := ∀ entry ∈ r, entry.2.Measured

/-! ## Digits -/

namespace ColumnType

theorem decimal?_lt {c : Char} {n : Nat} (h : Text.decimal? c = some n) : n < 10 := by
  have hin : ∀ {starts : List Nat} {m : Nat}, Text.decimalIn starts m = some n → n < 10 := by
    intro starts m
    induction starts with
    | nil => intro h; cases h
    | cons start rest ih =>
      intro h
      rw [Text.decimalIn] at h
      split_ifs at h with hlt hge
      · obtain rfl := Option.some.inj h
        omega
      · exact ih h
  rw [Text.decimal?] at h
  split_ifs at h with hascii hdigit
  · obtain rfl := Option.some.inj h
    have hle : c.toNat ≤ 57 := (Char.isDigit_iff_toNat.1 hdigit).2
    omega
  · exact hin h

/-- A number has no more digits than figures write it. -/
theorem numberFrom_lt (value : Nat) (figures : List Char) :
    numberFrom value figures < (value + 1) * 10 ^ figures.length := by
  induction figures generalizing value with
  | nil => simp [numberFrom]
  | cons c rest ih =>
    have hdigit : (Text.decimal? c).getD 0 < 10 := by
      cases h : Text.decimal? c with
      | none => decide
      | some n => exact decimal?_lt h
    calc numberFrom value (c :: rest) < (10 * value + (Text.decimal? c).getD 0 + 1) * 10 ^ rest.length := ih _
      _ ≤ ((value + 1) * 10) * 10 ^ rest.length := Nat.mul_le_mul_right _ (by omega)
      _ = (value + 1) * 10 ^ (c :: rest).length := by rw [List.length_cons, Nat.pow_succ']; ring

/-- A length that is read has no more digits than a number may have. -/
theorem length_toDigits_of_length? {written : List Char} {n : Nat} (h : length? written = .ok (some n)) :
    (Nat.toDigits 10 n).length ≤ maxDigits := by
  rw [length?] at h
  split at h
  · obtain ⟨m, hread, hm⟩ := Except.map_eq_ok.1 h
    obtain rfl := Option.some.inj hm
    rw [readLength] at hread
    split_ifs at hread with hcount hall
    obtain rfl := Except.ok.inj hread
    have hdigits : (firstParameter written).length ≤ maxDigits := by
      rwa [List.takeWhile_eq_self_iff.2 (List.all_eq_true.1 hall), not_lt] at hcount
    refine (Nat.length_toDigits_le_iff (by decide) (by decide)).2 ?_
    calc numberFrom 0 (firstParameter written) < (0 + 1) * 10 ^ (firstParameter written).length := numberFrom_lt 0 _
      _ = 10 ^ (firstParameter written).length := by rw [Nat.zero_add, Nat.one_mul]
      _ ≤ 10 ^ maxDigits := Nat.pow_le_pow_right (by decide) hdigits
  · cases h

end ColumnType

theorem Column.Measured.length_toDigits_le {c : Column} (h : c.Measured) :
    ∀ n ∈ c.length, (Nat.toDigits 10 n).length ≤ ColumnType.maxDigits := fun _ hn =>
  ColumnType.length_toDigits_of_length? (h.trans (congrArg Except.ok hn))

/-! ## One column -/

theorem ColumnDefinition.measured_column {name type rest : List Char} {noted : Noted Column}
    (h : ColumnDefinition.column name type rest = .ok noted) : noted.value.Measured := by
  rw [ColumnDefinition.column] at h
  cases hlength : ColumnType.length? (Text.squeeze type) with
  | error fault =>
    rw [hlength] at h
    cases h
  | ok length =>
    rw [hlength] at h
    cases h
    rw [Column.Measured, String.toList_ofList]
    exact hlength

/-- A definition that is a column is a measured one. -/
theorem Definition.measured_of_read {table : String} {entry : List Char} {c : Column} {notes : List Note}
    (h : Definition.read table entry = .ok ⟨.column c, notes⟩) : c.Measured := by
  obtain ⟨name, type, rest, -, _, hcolumn⟩ := Definition.exists_of_read_column h
  have hmeasured := ColumnDefinition.measured_column hcolumn
  exact hmeasured

/-! ## One table -/

theorem Table.measured_readCreate {statement : List Char} {t : Table}
    (h : (Table.readCreate statement).value = .ok t) : t.Measured := by
  obtain ⟨name, definitions, hfound, rfl⟩ := Table.exists_of_readCreate h
  obtain ⟨-, -, -, entries, -, -, -, -, hread⟩ := Table.definitions?_eq_ok hfound
  refine Table.forall_columns_ofDefinitions (fun c hc => ?_) fun _ _ _ _ hc => hc
  obtain ⟨entry, -, hentry⟩ := (Except.mem_iff_of_mapM_eq_ok hread).1 hc
  obtain ⟨notes, hentry⟩ := Definition.of?_eq_ok.1 hentry
  exact Definition.measured_of_read hentry

theorem Reading.measured_of_table? {statement : List Char} {t : Table}
    (h : (Reading.ofStatement statement).table? = some t) : t.Measured :=
  Table.measured_readCreate (Reading.readCreate_of_table? h)

/-! ## Every table of a script -/

namespace Register

theorem Measured.declare {r : Register} (hr : r.Measured) {table : Table} (ht : table.Measured) :
    (r.declare table).Measured := by
  intro entry h
  rcases mem_put h with rfl | h
  · exact ht
  · exact hr entry h

theorem Measured.alter {r : Register} (hr : r.Measured) (a : Alteration) : (r.alter a).Measured := by
  intro entry h
  obtain ⟨⟨k, t⟩, hmem, rfl⟩ := List.mem_map.1 h
  have ht : t.Measured := hr (k, t) hmem
  dsimp only
  split
  · exact ht
  · exact ht

/-- **Every table that a script registers is measured.** -/
theorem measured_ofStatements (statements : List (List Char)) :
    (ofReadings (statements.map Reading.ofStatement)).Measured := by
  refine ofReadings_induction (fun _ h => absurd h List.not_mem_nil) ?_ ?_
  · intro r reading hmem hr
    obtain ⟨statement, -, rfl⟩ := List.mem_map.1 hmem
    rw [afterCreation]
    split
    · next t ht => exact hr.declare (Reading.measured_of_table? ht)
    · exact hr
  · intro r reading _ hr
    rw [afterAlteration]
    split
    · exact hr.alter _
    · exact hr

end Register
end SchemaSketch
