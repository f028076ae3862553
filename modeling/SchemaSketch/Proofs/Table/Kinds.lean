import SchemaSketch.Proofs.Sql.FirstWord
import SchemaSketch.Proofs.Table.Origin

/-!
# The kind of a statement

The kind of a statement has two witnesses, its first token and its heading. The first adds nothing to the second: what
has the heading of a creation or of an alteration opens as one (`Heading.exists_opening_of_created`,
`Heading.exists_opening_of_altered`), so its first token defines an object, and it is the right word
(`Heading.exists_kind?_eq`). So the kind is told by the heading alone.

The reader of a kind asks for the same heading. What it can refuse a statement for is listed (`Table.Refusal`,
`Alteration.Refusal`), and a statement that has the kind is never refused for not having it.
-/

namespace SchemaSketch

open Text Pattern

namespace Heading

/-! ## The heading -/

theorem exists_opening_of_created {statement : List Char} (h : (created statement).isSome = true) :
    ∃ o : Opening "create", statement = o.text := by
  obtain ⟨⟨name, rest⟩, hcreated⟩ := Option.isSome_iff_exists.1 h
  obtain ⟨_, _, hskip, -⟩ := Reader.bind_eq_some.1 hcreated
  obtain ⟨n, hn, -⟩ := Option.map_eq_some_iff.1 hskip
  have hbehind : Starts ['g', 'l', 't', 'u'] (Token.lead (oneOf ["global", "local"]) >>
      Token.lead (oneOf ["temporary", "temp", "unlogged"]) >> keyword "table" >> blanks1 >>
        Token.lead (phrase ["if", "not", "exists"])) :=
    (starts_oneOf (by decide)).lead_andThen
      ((starts_oneOf (by decide)).lead_andThen ((starts_keyword (l := 't') rfl (by decide)).andThen _))
  exact Opening.exists_of_keyword (by decide) hbehind (by decide) hn

theorem exists_opening_of_altered {statement : List Char} (h : (altered statement).isSome = true) :
    ∃ o : Opening "alter", statement = o.text := by
  obtain ⟨⟨name, rest⟩, haltered⟩ := Option.isSome_iff_exists.1 h
  obtain ⟨_, _, hskip, -⟩ := Reader.bind_eq_some.1 haltered
  obtain ⟨_, hn, -⟩ := Option.map_eq_some_iff.1 hskip
  obtain ⟨n, _, hwords, -, -⟩ := andThen_eq_some.1 hn
  have hbehind : Starts ['t'] (keyword "table") := starts_keyword (l := 't') rfl (by decide)
  exact Opening.exists_of_keyword (by decide) hbehind (by decide) hwords

/-! ## The first token -/

/-- What opens with a word that defines something is told by this word. -/
theorem exists_kind?_eq {k : String} (hk : isKeyword k = true) {o : Opening k}
    (hfirst : Token.first none o.text = (.definer, o.word.text.length)) {segments : List (List Token)}
    (h : Script.segments o.text = .ok segments) :
    ∃ segment, kind? o.text = .ok (kindOf? o.text segment) ∧ definingWord? segment = some (upper k.toList) := by
  obtain ⟨c, more, hword, -⟩ := o.exists_word_eq hk
  have htext : o.text = c :: (more ++ o.tail) := by rw [Opening.text, hword]; rfl
  obtain ⟨ts, hlex⟩ : ∃ ts, Token.lex o.text = ⟨.definer, o.word.text⟩ :: ts := by
    have hcons := Token.lexAfter_cons none c (more ++ o.tail)
    rw [← htext, hfirst, hword] at hcons
    dsimp only at hcons
    rw [List.length_cons, Nat.add_sub_cancel, List.take_left, ← hword] at hcons
    exact ⟨_, hcons⟩
  obtain ⟨tokens, others, hcut⟩ := Script.exists_cut_cons (t := ⟨.definer, o.word.text⟩) rfl ts
  rw [Script.segments, hlex, hcut] at h
  obtain ⟨-, rfl⟩ := Script.map_forM_check_eq_ok.1 h
  refine ⟨⟨.definer, o.word.text⟩ :: tokens, ?_, ?_⟩
  · rw [kind?, Script.segments, hlex, hcut, h]
    rfl
  · have hupper : upper o.word.text = upper k.toList := SameLetters.upper_eq o.word.spells
    rw [← hupper]
    rfl

/-! ## The kind -/

theorem exists_of_kind? {statement : List Char} {kind : StatementKind} (h : kind? statement = .ok (some kind)) :
    ∃ segment, kindOf? statement segment = some kind := by
  obtain ⟨segments, -, hsegments⟩ := Except.map_eq_ok.1 h
  cases segments with
  | nil => cases hsegments
  | cons segment others => exact ⟨segment, hsegments⟩

theorem kindOf?_eq_createTable {statement : List Char} {segment : List Token} :
    kindOf? statement segment = some .createTable ↔
      definingWord? segment = some "CREATE".toList ∧ (created statement).isSome = true := by
  rw [kindOf?]
  split
  · next h =>
    rw [Bool.and_eq_true, beq_iff_eq] at h
    exact iff_of_true rfl h
  · next h =>
    rw [Bool.and_eq_true, beq_iff_eq] at h
    split
    · exact iff_of_false (by rintro ⟨⟩) h
    · exact iff_of_false (by rintro ⟨⟩) h

theorem kindOf?_eq_alterTable {statement : List Char} {segment : List Token} :
    kindOf? statement segment = some .alterTable ↔ definingWord? segment = some "ALTER".toList ∧
      (altered statement).isSome = true ∧ hasWord keyList statement = true := by
  have hwords : "CREATE".toList ≠ "ALTER".toList := by decide
  rw [kindOf?]
  split
  · next h =>
    rw [Bool.and_eq_true, beq_iff_eq] at h
    refine iff_of_false (by rintro ⟨⟩) fun halter => hwords (Option.some.inj (h.1.symm.trans halter.1))
  · split
    · next h =>
      rw [Bool.and_eq_true, Bool.and_eq_true, beq_iff_eq, and_assoc] at h
      exact iff_of_true rfl h
    · next h =>
      rw [Bool.and_eq_true, Bool.and_eq_true, beq_iff_eq, and_assoc] at h
      exact iff_of_false (by rintro ⟨⟩) h

section

variable {statement : List Char} {segments : List (List Token)} (h : Script.segments statement = .ok segments)

include h

/-- **A statement creates a table** if it has the heading of a creation. -/
theorem kind?_eq_createTable : kind? statement = .ok (some .createTable) ↔ (created statement).isSome = true := by
  constructor
  · intro hkind
    obtain ⟨segment, hsegment⟩ := exists_of_kind? hkind
    exact (kindOf?_eq_createTable.1 hsegment).2
  · intro hcreated
    obtain ⟨o, rfl⟩ := exists_opening_of_created hcreated
    obtain ⟨segment, hkind, hword⟩ := exists_kind?_eq (by decide) (Token.first_create o) h
    have hcapitals : upper "create".toList = "CREATE".toList := by decide +kernel
    rw [hkind, kindOf?_eq_createTable.2 ⟨hcapitals ▸ hword, hcreated⟩]

/-- **A statement alters a table** if it has the heading of an alteration, and a foreign key is found in it. -/
theorem kind?_eq_alterTable : kind? statement = .ok (some .alterTable) ↔
    (altered statement).isSome = true ∧ hasWord keyList statement = true := by
  constructor
  · intro hkind
    obtain ⟨segment, hsegment⟩ := exists_of_kind? hkind
    exact (kindOf?_eq_alterTable.1 hsegment).2
  · rintro ⟨haltered, hkey⟩
    obtain ⟨o, rfl⟩ := exists_opening_of_altered haltered
    obtain ⟨segment, hkind, hword⟩ := exists_kind?_eq (by decide) (Token.first_alter o) h
    have hcapitals : upper "alter".toList = "ALTER".toList := by decide +kernel
    rw [hkind, kindOf?_eq_alterTable.2 ⟨hcapitals ▸ hword, haltered, hkey⟩]

end

end Heading

/-! ## What a statement is refused for -/

/-- What cannot be read of an entry of a column list. -/
theorem Definition.fault_cases {table : String} {entry : List Char} {fault : ReadFault}
    (h : Definition.of? table entry = .error fault) : fault = .blankDefinition ∨ ∃ cause, fault = .length cause := by
  have hread : Definition.read table entry = .error fault := by
    rw [Definition.of?] at h
    cases hread : Definition.read table entry with
    | ok read =>
      rw [hread] at h
      cases h
    | error cause =>
      rw [hread] at h
      cases h
      rfl
  rw [Definition.read] at hread
  split at hread
  · cases hread
    exact .inl rfl
  split at hread
  · cases hread
  · cases hcolumn : Definition.ofColumn table entry with
    | ok read =>
      rw [hcolumn] at hread
      cases hread
    | error cause =>
      rw [hcolumn] at hread
      cases hread
      exact .inr ⟨cause, rfl⟩

/-- What the creation of a table can be refused for. -/
inductive Table.Refusal (statement : List Char) : ReadFault → Prop where
  /-- it has another heading -/
  | heading (h : Heading.created statement = none) : Refusal statement (.statement .notCreateTable statement)
  /-- it is too much to be read -/
  | limit (cause : Script.LimitFault) : Refusal statement (.limit cause)
  /-- its column list is not closed -/
  | unclosed {written fromList : List Char} (h : Heading.created statement = some (written, fromList)) :
    Refusal statement (.statement (.unclosedList (String.ofList (Identifier.bareName written))) statement)
  /-- an entry of the list has no words -/
  | blank : Refusal statement .blankDefinition
  /-- the length of a column cannot be read -/
  | length (cause : ColumnType.LengthFault) : Refusal statement (.length cause)

theorem Table.refusal_of_readCreate {statement : List Char} {fault : ReadFault}
    (h : (readCreate statement).value = .error fault) : Refusal statement fault := by
  rw [value_readCreate, definitions?] at h
  split at h
  · next hcreated =>
    cases h
    exact .heading hcreated
  next written fromList hcreated =>
  dsimp only at h
  split at h
  · cases h
    exact .limit _
  · cases h
    exact .unclosed hcreated
  next body hbody =>
  split at h
  · cases h
    exact .limit _
  next entries hentries =>
  cases hread : entries.mapM (Definition.of? (String.ofList (Identifier.bareName written))) with
  | ok definitions =>
    rw [hread] at h
    cases h
  | error cause =>
    rw [hread] at h
    cases h
    obtain ⟨-, entry, -, -, -, hentry⟩ := Except.mapM_eq_error.1 hread
    rcases Definition.fault_cases hentry with rfl | ⟨cause, rfl⟩
    · exact .blank
    · exact .length cause

/-- What the alteration of a table can be refused for. -/
inductive Alteration.Refusal (statement : List Char) : ReadFault → Prop where
  /-- it has another heading -/
  | heading (h : Heading.altered statement = none) : Refusal statement (.statement .notAlterTable statement)
  /-- no foreign key is read -/
  | keyless {written rest : List Char} (h : Heading.altered statement = some (written, rest)) :
    Refusal statement (.statement (.noForeignKey (String.ofList (Identifier.bareName written))) statement)

theorem Alteration.refusal_of_read {statement : List Char} {fault : ReadFault}
    (h : (read statement).value = .error fault) : Refusal statement fault := by
  unfold read at h
  split at h
  · next haltered =>
    cases h
    exact .heading haltered
  · next written rest haltered =>
    dsimp only at h
    split at h
    · cases h
      exact .keyless haltered
    · cases h

/-- Whether a message says of a statement that it is of another kind. -/
def ReadFault.denies (fault : ReadFault) : Bool :=
  [Reason.notCreateTable, Reason.notAlterTable].any fun reason => reason.message.toList.isPrefixOf fault.message.toList

theorem Text.begins_append {front : List Char} {a : String} (h : front <+: a.toList) (b : String) :
    front <+: (a ++ b).toList := by
  rw [String.toList_append]
  exact h.trans (List.prefix_append _ _)

/-- Only the verdicts on the heading say so. -/
theorem ReadFault.exists_of_denies {fault : ReadFault} (h : fault.denies = true) :
    ∃ text, fault = .statement .notCreateTable text ∨ fault = .statement .notAlterTable text := by
  have hnot : ['N', 'o', 't'] <+: fault.message.toList := by
    obtain ⟨reason, hreason, hmessage⟩ := List.any_eq_true.1 h
    have hbegins : ∀ reason ∈ [Reason.notCreateTable, Reason.notAlterTable], ['N', 'o', 't'] <+: reason.message.toList := by
      decide
    exact (hbegins reason hreason).trans (List.isPrefixOf_iff_prefix.1 hmessage)
  -- every other message begins with other letters
  have hother : ∀ front : List Char, front <+: fault.message.toList → front.length = 3 → front = ['N', 'o', 't'] :=
    fun _ hfront hlength => (List.prefix_of_prefix_length_le hfront hnot (Nat.le_of_eq hlength)).eq_of_length hlength
  cases fault with
  | limit cause =>
    cases cause <;> cases hother ['M', 'a', 'x'] (by decide) rfl
  | length cause =>
    cases cause with
    | notDecimal figures => cases hother ['i', 'n', 'v'] (begins_append (by decide) _) rfl
    | tooLong digits =>
      have hmessage : ['E', 'x', 'c'] <+: (ColumnType.LengthFault.tooLong digits).message.toList :=
        begins_append (begins_append (begins_append (begins_append (begins_append (by decide) _) _) _) _) _
      cases hother _ hmessage rfl
  | blankDefinition => cases hother ['l', 'i', 's'] (by decide) rfl
  | statement reason text =>
    have hverdict : ∀ {front : List Char}, front <+: reason.message.toList →
        front <+: (ReadFault.statement reason text).message.toList := fun h =>
      begins_append (begins_append (begins_append h _) _) _
    cases reason with
    | notCreateTable => exact ⟨text, .inl rfl⟩
    | notAlterTable => exact ⟨text, .inr rfl⟩
    | unclosedList table => cases hother ['U', 'n', 'c'] (hverdict (begins_append (by decide) _)) rfl
    | noForeignKey table => cases hother ['N', 'o', ' '] (hverdict (begins_append (by decide) _)) rfl

/-! ## Statements of a kind -/

/-- **A statement has a kind exactly if it has the heading**, for an alteration with a foreign key in it, unless it is too
much to be cut into tokens. The reader of its kind may refuse it, but never as a statement of another kind. -/
theorem Heading.kind_iff {statement : List Char} {segments : List (List Token)}
    (h : Script.segments statement = .ok segments) :
    (kind? statement = .ok (some .createTable) ↔ (created statement).isSome = true) ∧
      (kind? statement = .ok (some .alterTable) ↔
        (altered statement).isSome = true ∧ hasWord keyList statement = true) ∧
      (∀ fault, kind? statement = .ok (some .createTable) → (Table.readCreate statement).value = .error fault →
        fault.denies = false) ∧
      ∀ fault, kind? statement = .ok (some .alterTable) → (Alteration.read statement).value = .error fault →
        fault.denies = false := by
  refine ⟨kind?_eq_createTable h, kind?_eq_alterTable h, fun fault hkind hread => ?_, fun fault hkind hread => ?_⟩
  · have hcreated := (kind?_eq_createTable h).1 hkind
    refine Bool.eq_false_iff.2 fun hdenies => ?_
    obtain ⟨text, rfl | rfl⟩ := ReadFault.exists_of_denies hdenies
    · cases Table.refusal_of_readCreate hread with
      | heading hnone =>
        rw [hnone] at hcreated
        cases hcreated
    · cases Table.refusal_of_readCreate hread
  · have haltered := ((kind?_eq_alterTable h).1 hkind).1
    refine Bool.eq_false_iff.2 fun hdenies => ?_
    obtain ⟨text, rfl | rfl⟩ := ReadFault.exists_of_denies hdenies
    · cases Alteration.refusal_of_read hread
    · cases Alteration.refusal_of_read hread with
      | heading hnone =>
        rw [hnone] at haltered
        cases haltered

/-- Two statements with the right heading that are refused all the same. -/
theorem Heading.kind_iff_refused :
    kind? "create\ttemp TABLE t (".toList = .ok (some .createTable) ∧
      kind? "Alter Table only t drop foreign key (a)".toList = .ok (some .alterTable) ∧
      ∃ fault fault', (Table.readCreate "create\ttemp TABLE t (".toList).value = .error fault ∧
        fault.message = "Unclosed column list in table t: create\ttemp TABLE t (" ∧ fault.denies = false ∧
        (Alteration.read "Alter Table only t drop foreign key (a)".toList).value = .error fault' ∧
        fault'.message = "No foreign key found for table t: Alter Table only t drop foreign key (a)" ∧
        fault'.denies = false := by
  have hcreation : Script.segments "create\ttemp TABLE t (".toList = .ok _ :=
    Script.segments_of_length_le (by decide +kernel)
  have halteration : Script.segments "Alter Table only t drop foreign key (a)".toList = .ok _ :=
    Script.segments_of_length_le (by decide +kernel)
  have hunclosed : (Table.readCreate "create\ttemp TABLE t (".toList).value =
      .error (.statement (.unclosedList "t") "create\ttemp TABLE t (".toList) := by decide +kernel
  have hkeyless : (Alteration.read "Alter Table only t drop foreign key (a)".toList).value =
      .error (.statement (.noForeignKey "t") "Alter Table only t drop foreign key (a)".toList) := by decide +kernel
  obtain ⟨hcreates, -, hcreation, -⟩ := Heading.kind_iff hcreation
  obtain ⟨-, halters, -, halteration⟩ := Heading.kind_iff halteration
  have hfirst := hcreates.2 (by decide +kernel)
  have hsecond := halters.2 ⟨by decide +kernel, by decide +kernel⟩
  exact ⟨hfirst, hsecond, _, _, hunclosed, by decide +kernel, hcreation _ hfirst hunclosed, hkeyless, by decide +kernel,
    halteration _ hsecond hkeyless⟩

end SchemaSketch
