import SchemaSketch.Proofs.Sql.Entries
import SchemaSketch.Proofs.Table.Spacing

/-!
# Table constraints with blanks in front of their columns

A table constraint has its columns in parentheses, behind its words (`TableConstraint`). Whether an entry is one is told
by its first two words, and words end at blanks. So `PRIMARY KEY(a)` begins with the same words as `PRIMARY KEY (a)`,
up to the parenthesis, and a name in front hides what follows; but `UNIQUE(a)` is one word, which begins no constraint,
and says nothing (`TableConstraint.of?_unheard`). All others say the same with blanks and without
(`TableConstraint.of?_text`), and so does a table whose list has them among other entries (`Table.gaps_inert`).
-/

namespace SchemaSketch

open Text Pattern

/-! ## Constraints as they are written -/

/-- The table constraints that have their columns in parentheses. -/
inductive ConstraintKind where
  | primaryKey | unique | foreignKey
  deriving DecidableEq

/-- The words of a constraint. -/
def ConstraintKind.words : ConstraintKind → String
  | .primaryKey => "primary key"
  | .unique => "unique"
  | .foreignKey => "foreign key"

/-- A table constraint as it is written, but for the blanks in front of its parenthesis. -/
structure TableConstraint where
  /-- the word `CONSTRAINT` and the name -/
  name : Option (Cased "constraint" × PlainName)
  /-- what it is -/
  kind : ConstraintKind
  /-- its words -/
  words : Cased kind.words
  /-- what stands behind the parenthesis -/
  rest : List Char

namespace TableConstraint

variable (c : TableConstraint)

/-- What stands in front of the blanks. -/
def front : List Char :=
  match c.name with
  | none => c.words.text
  | some (w, n) => w.text ++ ' ' :: (n.text ++ ' ' :: c.words.text)

/-- The text of the constraint with blanks in front of its parenthesis. -/
def text (gap : List Char) : List Char := c.front ++ (gap ++ '(' :: c.rest)

/-- A constraint that goes unheard: `UNIQUE` without a name, and the parenthesis at once. -/
def isUnheard (gap : List Char) : Bool := c.name.isNone && c.kind == .unique && gap.isEmpty

/-! ## Its words -/

theorem mem_words {d : Char} (hd : d ∈ c.words.text) : d = ' ' ∨ isNameChar d = true := by
  have hkind : ∀ kind : ConstraintKind, kind.words.toList.all (fun d => d == ' ' || isNameChar d) = true := by
    intro kind
    cases kind <;> rfl
  rcases SameLetters.mem_or_isNameChar c.words.spells hd with hmem | hname
  · have hletter := List.all_eq_true.1 (hkind c.kind) d hmem
    rwa [Bool.or_eq_true, beq_iff_eq] at hletter
  · exact .inr hname

theorem not_mem_words {d : Char} (hspace : d ≠ ' ') (hname : isNameChar d = false) : d ∉ c.words.text := fun hd =>
  (c.mem_words hd).elim hspace fun h => Bool.false_ne_true (hname.symm.trans h)

theorem not_mem_front {d : Char} (hspace : d ≠ ' ') (hname : isNameChar d = false) : d ∉ c.front := by
  rw [front]
  cases c.name with
  | none => exact c.not_mem_words hspace hname
  | some named =>
    obtain ⟨w, n⟩ := named
    have hw : d ∉ w.text := fun hd => Bool.false_ne_true (hname.symm.trans (w.isNameChar (by decide) d hd))
    dsimp only
    rw [List.mem_append, List.mem_cons, List.mem_append, List.mem_cons]
    rintro (h | h | h | h | h)
    · exact hw h
    · exact hspace h
    · exact n.not_mem hname h
    · exact hspace h
    · exact c.not_mem_words hspace hname h

theorem exists_words_eq_cons : ∃ first rest, c.words.text = first :: rest ∧ isNameChar first = true := by
  obtain ⟨l, ls, hkind, hl⟩ : ∃ l ls, c.kind.words.toList = l :: ls ∧ isNameChar l = true := by
    cases c.kind <;> exact ⟨_, _, rfl, rfl⟩
  have hspells : SameLetters c.words.text c.kind.words.toList := c.words.spells
  rw [hkind] at hspells
  obtain ⟨first, rest, hwords, hfirst, -⟩ := List.map_eq_cons_iff.1 hspells
  refine ⟨first, rest, hwords, ?_⟩
  rcases eq_or_isNameChar hfirst with rfl | ⟨hname, -⟩
  · exact hl
  · exact hname

/-- The words are no other keyword. -/
theorem lacks_words {k : String} (hk : k ∈ "constraint" :: ColumnDefinition.partWords) : Lacks k c.words.text := by
  simp only [ColumnDefinition.partWords, List.mem_cons, List.not_mem_nil, or_false] at hk
  rcases hk with rfl | rfl | rfl | rfl
  all_goals
    refine (lacks_congr (by decide) c.words.spells).2 ?_
    cases c.kind <;> cbv

end TableConstraint

/-! ## Its first words -/

/-- A word goes on with a parenthesis. -/
theorem Text.exists_words_parenthesis {w : List Char} (hw : ∀ d ∈ w, isBlank d = false) (b : List Char) :
    ∃ inner more, words (w ++ '(' :: b) = (w ++ '(' :: inner) :: more := by
  have hrun : ∀ d ∈ w ++ ['('], isBlank d = false := List.forall_mem_append.2 ⟨hw, List.forall_mem_singleton.2 rfl⟩
  obtain ⟨inner, more, h⟩ := exists_runsFrom (p := isBlank) (show (w ++ ['(']).reverse ≠ [] by simp) b
  refine ⟨inner, more, ?_⟩
  rw [List.append_cons, words, runs, runsFrom_append hrun, List.append_nil, h, List.reverse_reverse, List.append_assoc]
  rfl

namespace Definition

theorem isConstraint_of_words {entry first second : List Char} {more : List (List Char)}
    (hwords : words entry = first :: second :: more) (hfirst : constraintWords.contains (upper first) = true)
    (hsecond : ColumnType.isKeyword (upper (leadingWord second)) = false) : isConstraint entry = true := by
  rw [isConstraint, hwords, isConstraintOf, hfirst, hsecond]
  rfl

/-- A name is a word, or begins with a digit. -/
theorem leadingWord_name {name : List Char} (hname : ∀ d ∈ name, isNameChar d = true) :
    leadingWord name = name ∨ leadingWord name = [] := by
  cases name with
  | nil => exact .inl rfl
  | cons d rest =>
    obtain ⟨-, hrest⟩ := List.forall_mem_cons.1 hname
    rw [leadingWord, List.takeWhile_eq_self_iff.2 fun e he => isWord_of_isNameChar (hrest e he)]
    split
    · exact .inl rfl
    · exact .inr rfl

variable {gap : List Char} (hgap : Blank gap) (b : List Char) {front : List Char}

include hgap

/-- `KEY` behind another word is no type, with blanks in front of the parenthesis or without. -/
theorem isConstraint_key {first : String} (hfirst : constraintWords.contains (upper first.toList) = true)
    (hletters : first.toList.all isNameChar = true) (hne : first.toList ≠ [])
    (hfront : SameLetters front (first.toList ++ ' ' :: "key".toList)) :
    isConstraint (front ++ (gap ++ '(' :: b)) = true := by
  obtain ⟨w, k, rfl, hw, hk⟩ := hfront.exists_of_space
  have hblank : ∀ {cs : List Char}, (∀ d ∈ cs, isNameChar d = true) → ∀ d ∈ cs, isBlank d = false := fun hcs d hd =>
    isBlank_of_isNameChar (hcs d hd)
  have hkname := hk.isNameChar (by decide)
  have hwne : w ≠ [] := fun hnil => hne (List.eq_nil_of_length_eq_zero (hw.length_eq.symm.trans (by rw [hnil]; rfl)))
  have hkne : k ≠ [] := fun hnil => absurd hk.length_eq (by rw [hnil]; decide)
  -- the second word is `KEY`, or `KEY` and the parenthesis
  obtain ⟨second, more, hsecond, hleading⟩ : ∃ second more, words (k ++ (gap ++ '(' :: b)) = second :: more ∧
      leadingWord second = leadingWord k := by
    cases gap with
    | nil =>
      obtain ⟨inner, more, h⟩ := exists_words_parenthesis (hblank hkname) b
      exact ⟨_, _, h, leadingWord_append (by decide) k inner⟩
    | cons c gap =>
      exact ⟨k, _, words_append hkne (hblank hkname) (by rintro d ⟨⟩; exact hgap _ (List.mem_cons_self ..)), rfl⟩
  have hwords : words (w ++ ' ' :: (k ++ (gap ++ '(' :: b))) = w :: second :: more := by
    have hspace : Blank [' '] := List.forall_mem_singleton.2 rfl
    rw [words_append hwne (hblank (hw.isNameChar hletters)) (by rintro d ⟨⟩; rfl), ← hsecond,
      ← words_blank_append hspace (k ++ _)]
    rfl
  rw [List.append_assoc, List.cons_append]
  refine isConstraint_of_words hwords (hw.upper_eq ▸ hfirst) ?_
  rw [hleading]
  rcases leadingWord_name hkname with hself | hnil
  · rw [hself, hk.upper_eq]
    decide
  · rw [hnil]
    decide

/-- A parenthesis behind blanks is no type. -/
theorem isConstraint_unique (hne : gap ≠ []) (hfront : SameLetters front "unique".toList) :
    isConstraint (front ++ (gap ++ '(' :: b)) = true := by
  have hblank : ∀ d ∈ front, isBlank d = false := fun d hd =>
    isBlank_of_isNameChar (hfront.isNameChar (by decide) d hd)
  have hfne : front ≠ [] := fun hnil => absurd hfront.length_eq (by rw [hnil]; decide)
  have hhead : ∀ d ∈ (gap ++ '(' :: b).head?, isBlank d = true := by
    obtain ⟨c, rest, rfl⟩ := List.exists_cons_of_ne_nil hne
    rintro d ⟨⟩
    exact hgap _ (List.mem_cons_self ..)
  obtain ⟨inner, more, hsecond⟩ := exists_words_parenthesis (List.forall_mem_nil fun d => isBlank d = false) b
  have hwords : words (front ++ (gap ++ '(' :: b)) = front :: ('(' :: inner) :: more := by
    rw [words_append hfne hblank hhead, words_blank_append hgap]
    exact congrArg (front :: ·) hsecond
  refine isConstraint_of_words hwords ?_ ?_
  · rw [hfront.upper_eq]
    decide
  · rw [← List.nil_append ('(' :: inner), leadingWord_append (by decide)]
    decide

end Definition

open ColumnDefinition in
/-- What a type goes on with may be written in letters of either case. -/
theorem ColumnDefinition.blind_typeContinuation : Blind typeContinuation := by
  have hzone : Blind (blanks1 >> phrase ["time", "zone"]) := blind_blanks1.andThen (blind_phrase (by decide))
  exact blind_blanks1.andThen <| (blind_keyword (by decide)).orElse <| (blind_keyword (by decide)).orElse <|
    ((blind_keyword (by decide)).andThen hzone).orElse ((blind_keyword (by decide)).andThen hzone)

namespace TableConstraint

variable (c : TableConstraint) {gap : List Char} (hgap : Blank gap)

include hgap

/-- A constraint without a name is one, if it is heard. -/
theorem isConstraint_unnamed (hname : c.name = none) (h : c.isUnheard gap = false) :
    Definition.isConstraint (c.text gap) = true := by
  obtain ⟨name, kind, words, rest⟩ := c
  obtain rfl : name = none := hname
  cases kind with
  | primaryKey =>
    have hfirst : Definition.constraintWords.contains (upper "primary".toList) = true := by decide
    exact Definition.isConstraint_key hgap rest hfirst (by decide) (by decide) words.spells
  | foreignKey =>
    have hfirst : Definition.constraintWords.contains (upper "foreign".toList) = true := by decide
    exact Definition.isConstraint_key hgap rest hfirst (by decide) (by decide) words.spells
  | unique =>
    refine Definition.isConstraint_unique hgap rest ?_ words.spells
    rintro rfl
    cases h

omit hgap in
/-- With a name, the first two words do not reach the parenthesis. -/
theorem words_named {w : Cased "constraint"} {n : PlainName} (hname : c.name = some (w, n)) (gap : List Char) :
    ∃ more, Text.words (c.text gap) = w.text :: n.text :: more := by
  have hspace : Blank [' '] := List.forall_mem_singleton.2 rfl
  have hw : ∀ d ∈ w.text, isBlank d = false := fun d hd => isBlank_of_isNameChar (w.isNameChar (by decide) d hd)
  refine ⟨Text.words (' ' :: (c.words.text ++ (gap ++ '(' :: c.rest))), ?_⟩
  rw [text, front, hname]
  simp only [List.append_assoc, List.cons_append]
  rw [words_append (w.ne_nil (by decide)) hw (by rintro d ⟨⟩; rfl)]
  refine congrArg (w.text :: ·) ((words_blank_append hspace _).trans ?_)
  exact words_append n.ne_nil n.isBlank (by rintro d ⟨⟩; rfl)

/-! ## What it says -/

/-- The name is read in front of the blanks, or behind the parenthesis. -/
theorem map_constraintName_gap : (searchWord Reference.constraintName (c.text gap)).map (·.1) =
    (searchWord Reference.constraintName (c.front ++ '(' :: c.rest)).map (·.1) := by
  rw [text, front]
  cases c.name with
  | none =>
    have hlacks := c.lacks_words (k := "constraint") (List.mem_cons_self ..)
    have hnone :=
      searchWord_gap_of_lacks (List.forall_mem_nil _) c.rest (by decide) Reference.begins_constraintName hlacks
    rw [List.nil_append] at hnone
    dsimp only
    rw [searchWord_gap_of_lacks hgap c.rest (by decide) Reference.begins_constraintName hlacks, hnone]
  | some named =>
    obtain ⟨w, n⟩ := named
    have hread : ∀ rest, searchWord Reference.constraintName (w.text ++ ' ' :: (n.text ++ ' ' :: rest)) =
        some (n.text, ' ' :: rest) := fun rest => searchAfter_of_eq_some (Reference.constraintName_named w n rest)
    simp only [List.append_assoc, List.cons_append]
    rw [hread, hread]
    rfl

theorem of?_of_isConstraint (table : String) (h : Definition.isConstraint (c.text gap) = true) :
    Definition.of? table (c.text gap) = .ok (Definition.ofConstraint table (c.front ++ '(' :: c.rest)).value := by
  rw [Definition.of?_constraint table h]
  exact congrArg Except.ok (Definition.value_ofConstraint_gap table hgap c.rest
    (c.not_mem_front (by decide) (by decide)) (c.map_constraintName_gap hgap))

omit hgap in
/-- Where the name is that of a type, a column is read: its name is `CONSTRAINT`, and the words are behind its type. -/
theorem heading_named {w : Cased "constraint"} {n : PlainName} (hname : c.name = some (w, n)) (gap : List Char) :
    ColumnDefinition.heading (c.text gap) =
      some ((w.text, n.text), ' ' :: (c.words.text ++ (gap ++ '(' :: c.rest))) := by
  obtain ⟨first, more, hn, hfirst⟩ := n.begins
  obtain ⟨letter, letters, hwords, hletter⟩ := c.exists_words_eq_cons
  have hstart : ColumnDefinition.isTypeStart first = true := by
    rcases Bool.or_eq_true_iff.1 hfirst with halpha | hline
    · exact of_isAlphanum (motive := fun d => d.isAlpha = true → ColumnDefinition.isTypeStart d = true) (by decide)
        (by rw [Char.isAlphanum, halpha, Bool.true_or]) halpha
    · rw [beq_iff_eq.1 hline]
      rfl
  have hmore : ∀ d ∈ more, isWord d = true := fun d hd =>
    isWord_of_isNameChar (n.chars d (hn ▸ List.mem_cons_of_mem _ hd))
  have hbare : ∀ d ∈ w.text, Identifier.isBareChar d = true := fun d hd =>
    Identifier.isBareChar_of_isNameChar (w.isNameChar (by decide) d hd)
  -- nothing of a type begins with a letter of the words
  have hrest : ColumnDefinition.typeRest (' ' :: (c.words.text ++ (gap ++ '(' :: c.rest))) = some 0 := by
    refine ColumnDefinition.typeRest_eq_zero ?_ fun mark hmark => ?_
    · refine (ColumnDefinition.blind_typeContinuation (' ' :: c.words.text) (' ' :: c.kind.words.toList) _
        (SameLetters.cons ' ' c.words.spells)).trans ?_
      cases c.kind <;> rfl
    · rw [List.dropWhile_cons_of_pos (by decide), hwords, List.cons_append,
        List.dropWhile_cons_of_neg (by simp [isBlank_of_isNameChar hletter])]
      rintro ⟨⟩
      rcases List.mem_pair.1 hmark with rfl | rfl <;> cases hletter
  have htype : ColumnDefinition.columnType (n.text ++ ' ' :: (c.words.text ++ (gap ++ '(' :: c.rest))) =
      some n.text.length := by
    rw [hn]
    exact ColumnDefinition.columnType_word hstart hmore (by rintro d ⟨⟩; decide) hrest
  have hpart : Identifier.part (w.text ++ ' ' :: (n.text ++ ' ' :: (c.words.text ++ (gap ++ '(' :: c.rest)))) =
      some w.text.length := Identifier.part_append (w.ne_nil (by decide)) hbare (by rintro d ⟨⟩; decide)
  rw [text, front, hname]
  simp only [List.append_assoc, List.cons_append]
  exact ColumnDefinition.heading_append hpart (by rw [hn]; rfl) (n.isBlank first (hn ▸ List.mem_cons_self ..)) htype

/-- **A constraint that is heard says the same** with blanks and without. -/
theorem of?_text (table : String) {gap' : List Char} (hgap' : Blank gap') (h : c.isUnheard gap = false)
    (h' : c.isUnheard gap' = false) : Definition.of? table (c.text gap) = Definition.of? table (c.text gap') := by
  cases hname : c.name with
  | none =>
    rw [c.of?_of_isConstraint hgap table (c.isConstraint_unnamed hgap hname h),
      c.of?_of_isConstraint hgap' table (c.isConstraint_unnamed hgap' hname h')]
  | some named =>
    obtain ⟨w, n⟩ := named
    have hkind : ∀ gap, Definition.isConstraint (c.text gap) = Definition.isConstraintOf [w.text, n.text] := by
      intro gap
      obtain ⟨more, hwords⟩ := c.words_named hname gap
      rw [Definition.isConstraint, hwords]
      rfl
    cases hconstraint : Definition.isConstraintOf [w.text, n.text] with
    | true =>
      rw [c.of?_of_isConstraint hgap table ((hkind gap).trans hconstraint),
        c.of?_of_isConstraint hgap' table ((hkind gap').trans hconstraint)]
    | false =>
      have hcolumn : ∀ {gap : List Char}, Blank gap → Definition.of? table (c.text gap) =
          ((ColumnDefinition.column w.text n.text (' ' :: c.words.text ++ '(' :: c.rest)).map fun read =>
            Definition.column read.value).mapError .length := by
        intro gap hgap
        obtain ⟨more, hwords⟩ := c.words_named hname gap
        have hquote : '\'' ∉ ' ' :: c.words.text := List.not_mem_cons_of_ne_of_not_mem (by decide)
          (c.not_mem_words (by decide) (by decide))
        have hlacks : ∀ k ∈ ColumnDefinition.partWords, Lacks k (' ' :: c.words.text) := fun k hk =>
          (lacks_cons (by revert k; decide) (by decide) _).2 (c.lacks_words (List.mem_cons_of_mem _ hk))
        rw [Definition.of?_column table (by rw [hwords]; rfl) ((hkind gap).trans hconstraint)
          (c.heading_named hname gap), ← ColumnDefinition.column_gap w.text n.text hgap c.rest hquote hlacks]
        rfl
      rw [hcolumn hgap, hcolumn hgap']

omit hgap in
/-- **`UNIQUE` and a parenthesis at once** say nothing. -/
theorem of?_unheard (table : String) (h : c.isUnheard gap = true) :
    Definition.of? table (c.text gap) = .ok .nothing := by
  obtain ⟨name, kind, words, rest⟩ := c
  obtain ⟨⟨rfl, rfl⟩, rfl⟩ : (name = none ∧ kind = .unique) ∧ gap = [] := by
    simpa [isUnheard] using h
  have hname : ∀ d ∈ words.text, isNameChar d = true := words.isNameChar (by decide)
  have hblank : ∀ d ∈ words.text, isBlank d = false := fun d hd => isBlank_of_isNameChar (hname d hd)
  have hbare : ∀ d ∈ words.text, Identifier.isBareChar d = true := fun d hd =>
    Identifier.isBareChar_of_isNameChar (hname d hd)
  change Definition.of? table (words.text ++ '(' :: rest) = _
  obtain ⟨inner, more, hwords⟩ := exists_words_parenthesis hblank rest
  have hconstraint : Definition.isConstraint (words.text ++ '(' :: rest) = false := by
    have hfirst := Definition.contains_constraintWords (show '(' ∈ ['\'', '('] by decide) words.text inner
    rw [Definition.isConstraint, hwords]
    cases more with
    | nil => exact hfirst
    | cons second more => rw [Definition.isConstraintOf, hfirst, Bool.false_and]
  -- the name ends at the parenthesis, and no type follows it
  have hheading : ColumnDefinition.heading (words.text ++ '(' :: rest) = none := by
    have hpart : Identifier.part (words.text ++ '(' :: rest) = some words.text.length :=
      Identifier.part_append (words.ne_nil (by decide)) hbare (by rintro d ⟨⟩; decide)
    rw [ColumnDefinition.heading, Reader.take_bind, hpart, Option.bind_some, List.drop_left, Reader.skip_bind]
    rfl
  rw [Definition.of?, Definition.read, hwords, hconstraint, Definition.ofColumn, hheading]
  rfl

end TableConstraint
/-! ## Entries of a list -/

/-- An entry of a column list as it is written. -/
inductive ListEntry where
  /-- a column, or any other entry -/
  | other (text : List Char)
  /-- a constraint, and the blanks in front of its parenthesis -/
  | constraint (c : TableConstraint) (gap : List Char) (blank_gap : Blank gap)

namespace ListEntry

/-- The text of an entry. -/
def text : ListEntry → List Char
  | .other text => text
  | .constraint c gap _ => c.text gap

/-- The text of an entry with one space for the blanks, if it is heard. -/
def heard? : ListEntry → Option (List Char)
  | .other text => some text
  | .constraint c gap _ => if c.isUnheard gap then none else some (c.text [' '])

variable {e : ListEntry}

theorem of?_of_heard (table : String) {heard : List Char} (h : e.heard? = some heard) :
    Definition.of? table e.text = Definition.of? table heard := by
  cases e with
  | other text =>
    obtain rfl := Option.some.inj h
    rfl
  | constraint c gap hgap =>
    obtain ⟨hheard, htext⟩ := Option.ite_none_left_eq_some.1 h
    obtain rfl := Option.some.inj htext
    have hspace : c.isUnheard [' '] = false := Bool.and_false _
    exact c.of?_text hgap table (List.forall_mem_singleton.2 rfl) (Bool.eq_false_iff.2 hheard) hspace

theorem of?_of_unheard (table : String) (h : e.heard? = none) : Definition.of? table e.text = .ok .nothing := by
  cases e with
  | other text => cases h
  | constraint c gap hgap =>
    rw [heard?] at h
    split at h
    · next hunheard => exact c.of?_unheard table hunheard
    · cases h

end ListEntry

/-- An entry is read into a draft, and then the others. -/
theorem Draft.value_addEntries_cons (d : Draft) (entry : List Char) (rest : List (List Char)) :
    (d.addEntries (entry :: rest)).value =
      (Definition.of? d.table.name entry).bind fun definition => ((d.add definition).addEntries rest).value := by
  rw [addEntries, addEntry, Definition.of?]
  cases Definition.read d.table.name entry <;> rfl

/-- **What is read of entries** is what is heard of them. -/
theorem Draft.value_addEntries_heard (entries : List ListEntry) (d : Draft) :
    (d.addEntries (entries.map ListEntry.text)).value = (d.addEntries (entries.filterMap ListEntry.heard?)).value := by
  induction entries generalizing d with
  | nil => rfl
  | cons e rest ih =>
    rw [List.map_cons, value_addEntries_cons]
    cases hheard : e.heard? with
    | none =>
      rw [List.filterMap_cons_none hheard, ListEntry.of?_of_unheard _ hheard]
      exact ih d
    | some heard =>
      rw [List.filterMap_cons_some hheard, value_addEntries_cons, ListEntry.of?_of_heard _ hheard]
      exact congrArg _ (funext fun definition => ih (d.add definition))

/-! ## Tables -/

namespace Table

/-- A statement with a list in parentheses behind its heading. -/
def creation (heading body after : List Char) : List Char := heading ++ '(' :: (body ++ ')' :: after)

/-- A statement that is not too long and not too deep to be read. -/
def Admitted (statement : List Char) : Prop := ∀ cause, (readCreate statement).value ≠ .error (.limit cause)

variable {heading written after : List Char}
  (hheading : ∀ rest, Heading.created (heading ++ '(' :: rest) = some (written, '(' :: rest))
  (hafter : isEven false (some ')') after = true)

include hheading hafter

/-- **A table is what is read of the entries that its list has.** -/
theorem value_readCreate_listed {entries : List (List Char)} {body : List Char} (h : Statement.Lists entries body)
    (hadmitted : Admitted (creation heading body after)) : (readCreate (creation heading body after)).value =
      ((Draft.named (String.ofList (Identifier.bareName written))).addEntries entries).value.map Draft.toTable := by
  have hlist := h.inParentheses?_eq hafter
  have hentries := h.definitions_eq
  -- the list is cut into tokens twice, with the parentheses and without
  have hread : (∃ cause, (readCreate (creation heading body after)).value = .error (.limit cause)) ∨
      (readCreate (creation heading body after)).value =
        ((Draft.named (String.ofList (Identifier.bareName written))).addEntries entries).value.map Draft.toTable := by
    rw [creation, readCreate, hheading]
    dsimp only
    cases hlistTokens : Script.tokens ('(' :: (body ++ ')' :: after)) with
    | error cause =>
      rw [hlistTokens, Except.map] at hlist
      rw [hlist]
      exact .inl ⟨cause, rfl⟩
    | ok listTokens =>
      rw [hlistTokens, Except.map] at hlist
      rw [hlist]
      dsimp only
      cases hbodyTokens : Script.tokens body with
      | error cause =>
        rw [hbodyTokens, Except.map] at hentries
        rw [hentries]
        exact .inl ⟨cause, rfl⟩
      | ok bodyTokens =>
        rw [hbodyTokens, Except.map] at hentries
        rw [hentries]
        exact .inr rfl
  refine hread.resolve_left ?_
  rintro ⟨cause, hcause⟩
  exact hadmitted cause hcause

/-- **Blanks in front of the columns of constraints make no difference** to a table, as long as the same constraints are
heard: all but those that are `UNIQUE` without a name and without a blank. -/
theorem gaps_inert {entries entries' : List ListEntry} {body body' : List Char}
    (hbody : Statement.Lists (entries.map ListEntry.text) body)
    (hbody' : Statement.Lists (entries'.map ListEntry.text) body')
    (hheard : entries.filterMap ListEntry.heard? = entries'.filterMap ListEntry.heard?)
    (hadmitted : Admitted (creation heading body after)) (hadmitted' : Admitted (creation heading body' after)) :
    (readCreate (creation heading body after)).value = (readCreate (creation heading body' after)).value := by
  rw [value_readCreate_listed hheading hafter hbody hadmitted,
    value_readCreate_listed hheading hafter hbody' hadmitted', Draft.value_addEntries_heard, Draft.value_addEntries_heard, hheard]

omit hheading hafter

/-- The name `pk`. -/
def keyName : PlainName where
  text := "pk".toList
  begins := ⟨'p', ['k'], rfl, rfl⟩
  chars := List.forall_iff_forall_mem.1 (by decide)

/-- A column and a constraint of each kind, with so many spaces in front of the parentheses. -/
def everyKind (first second third : Nat) : List ListEntry :=
  have hspaces : ∀ n, Blank (List.replicate n ' ') := fun _ _ hc => List.eq_of_mem_replicate hc ▸ rfl
  [.other "a INT".toList,
    .constraint ⟨some (⟨"CONSTRAINT".toList, by decide⟩, keyName), .primaryKey, ⟨"PRIMARY KEY".toList, by decide⟩,
      "a)".toList⟩ (List.replicate first ' ') (hspaces first),
    .constraint ⟨none, .unique, ⟨"UNIQUE".toList, by decide⟩, "a)".toList⟩ (List.replicate second ' ') (hspaces second),
    .constraint ⟨none, .foreignKey, ⟨"FOREIGN KEY".toList, by decide⟩, "a) REFERENCES a".toList⟩
      (List.replicate third ' ') (hspaces third)]

/-- `UNIQUE` has one space or two, and the others have any number. -/
theorem gaps_inert_everyKind :
    (readCreate (creation "CREATE TABLE t ".toList (join [','] ((everyKind 0 1 0).map ListEntry.text)) [])).value =
      (readCreate (creation "CREATE TABLE t ".toList (join [','] ((everyKind 1 2 3).map ListEntry.text)) [])).value := by
  have hlists : ∀ entries : List ListEntry, entries ≠ [] → (∀ entry ∈ entries.map ListEntry.text, IsEntry entry) →
      Statement.Lists (entries.map ListEntry.text) (join [','] (entries.map ListEntry.text)) := fun entries hne h =>
    Statement.lists_join (mt List.map_eq_nil_iff.1 hne) h
  have hadmitted : ∀ {statement : List Char}, (readCreate statement).value.toOption.isSome = true →
      Admitted statement := fun h cause hcause => by
    rw [hcause] at h
    cases h
  have hheading : ∀ rest, Heading.created ("CREATE TABLE t ".toList ++ '(' :: rest) = some (['t'], '(' :: rest) :=
    fun _ => by cbv
  exact gaps_inert hheading rfl (hlists _ (List.cons_ne_nil _ _) (by decide +kernel))
    (hlists _ (List.cons_ne_nil _ _) (by decide +kernel)) (by decide +kernel) (hadmitted (by decide +kernel))
    (hadmitted (by decide +kernel))

/-- Without a blank, `UNIQUE` does not make its column unique. -/
theorem flags_of_uniqueness :
    ((readCreate "CREATE TABLE t (a INT, UNIQUE(a))".toList).value.toOption.map fun t => t.columns.map (·.unique)) =
        some [false] ∧
      ((readCreate "CREATE TABLE t (a INT, UNIQUE (a))".toList).value.toOption.map fun t => t.columns.map (·.unique)) =
        some [true] := by
  decide +kernel

end Table
end SchemaSketch
