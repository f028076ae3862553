import SchemaSketch.Export.Ident
import SchemaSketch.Proofs.Table.Columns

/-!
# Names, types and lines of columns

The line of a column is a name, a space, a type and clauses, and each of the three is read by itself.

* **Names.** A name is written bare or between double quotes (`Ident.quote`). Either way it stands for itself, unless
  it has a double quote in it or begins or ends with what reading takes away (`Ident.written_quote`).
* **Types.** What is asked of a type is told in `WrittenType`. The types that are written are one known word, with
  numbers behind it or not (`ColumnText.writtenType`), or two (`writtenType_doublePrecision`). The base of a type of
  one word is that word (`ColumnText.base_typeText`).
* **Lines.** With such a name and such a type, a line is the column that its clauses tell of, and never a constraint
  (`read_written`, `addEntry_written`): what is quoted is no word of a constraint, and a known type follows what is not.
-/

namespace SchemaSketch

open Text Pattern

/-! ## Names -/

/-- A name as it is written in front of a space, and the name that it stands for. -/
structure WrittenName (written name : List Char) : Prop where
  covered : ∀ rest, Identifier.part (written ++ ' ' :: rest) = some written.length
  stands : Identifier.bareName written = name
  first : (written ≠ [] ∧ ∀ c ∈ written, isBlank c = false) ∨ written.head? = some '"'

namespace Text

/-- Nothing is trimmed between characters that are kept. -/
theorem trimBy_between {p : Char → Bool} {first last : Char} (hfirst : p first = false) (hlast : p last = false)
    (inner : List Char) : trimBy p (first :: (inner ++ [last])) = first :: (inner ++ [last]) := by
  rw [trimBy, List.dropWhile_cons_of_neg (by simp [hfirst]), ← List.cons_append, dropEnd_append_of_neg hlast]

/-- Characters of a class are trimmed from around a text that neither begins nor ends with one. -/
theorem trimBy_around {p : Char → Bool} {first last : Char} (hfirst : p first = true) (hlast : p last = true)
    {cs : List Char} (hne : cs ≠ []) (hhead : ∀ c ∈ cs.head?, p c = false) (hend : ∀ c ∈ cs.getLast?, p c = false) :
    trimBy p (first :: (cs ++ [last])) = cs := by
  have hkept : (cs ++ [last]).dropWhile p = cs ++ [last] := by
    obtain ⟨c, more, rfl⟩ := List.exists_cons_of_ne_nil hne
    exact List.dropWhile_cons_of_neg (by simp [hhead c rfl])
  rw [trimBy, List.dropWhile_cons_of_pos hfirst, hkept, dropEnd_append (List.forall_mem_singleton.2 hlast)]
  obtain ⟨front, c, rfl⟩ : ∃ front c, cs = front ++ [c] := ⟨_, _, (List.dropLast_append_getLast hne).symm⟩
  exact dropEnd_append_of_neg (hend c List.getLast?_concat) front

end Text

namespace Identifier

/-- An enclosed name covers its enclosure. -/
theorem part_enclosed {name : List Char} (hne : name ≠ []) (hquote : '"' ∉ name) (rest : List Char) :
    part ('"' :: (name ++ ['"']) ++ rest) = some ('"' :: (name ++ ['"'])).length := by
  have hinner : ∀ c ∈ name, (c != '"') = true := by
    intro c hc
    refine bne_iff_ne.2 ?_
    rintro rfl
    exact hquote hc
  have hname : many1 (· != '"') (name ++ '"' :: rest) = some name.length := by
    refine many1_eq_some.2 ⟨List.length_pos_iff.2 hne, ?_⟩
    rw [takeWhile_append_cons hinner (by decide)]
  have henclosed : enclosed '"' '"' ('"' :: (name ++ ['"']) ++ rest) = some ('"' :: (name ++ ['"'])).length := by
    rw [List.cons_append, List.append_assoc, List.singleton_append, enclosed, andThen_of_eq_some (n := 1) rfl,
      List.drop_one, List.tail_cons, andThen_of_eq_some hname, List.drop_left, List.length_cons, List.length_append,
      Nat.add_comm _ 1]
    rfl
  rw [part, orElse_apply, henclosed, Option.some_or]

/-- An enclosed name stands for what is between the quotes. -/
theorem bareName_enclosed {name : List Char} (hne : name ≠ []) (hquote : '"' ∉ name) (hzero : zeroWidthSpace ∉ name)
    (hhead : ∀ c ∈ name.head?, isEnclosing c = false) (hend : ∀ c ∈ name.getLast?, isEnclosing c = false) :
    bareName ('"' :: (name ++ ['"'])) = name := by
  have hfilter : ('"' :: (name ++ ['"'])).filter (· != zeroWidthSpace) = '"' :: (name ++ ['"']) := by
    refine List.filter_eq_self.2 fun c hc => bne_iff_ne.2 ?_
    rintro rfl
    have hnot : zeroWidthSpace ≠ '"' := by decide
    simp [hnot, hzero] at hc
  have hparts : findAll part ('"' :: (name ++ ['"'])) = ['"' :: (name ++ ['"'])] := by
    have hpart := part_enclosed hne hquote []
    rw [List.append_nil] at hpart
    exact findAll_eq_singleton (List.cons_ne_nil _ _) hpart
  rw [bareName, hfilter, trim, trimBy_between (by decide) (by decide), hparts]
  exact trimBy_around rfl rfl hne hhead hend

end Identifier

namespace Ident

theorem isSimpleChar_of_isSimpleStart {c : Char} (h : isSimpleStart c = true) : isSimpleChar c = true := by
  rw [isSimpleStart, Bool.or_eq_true] at h
  rw [isSimpleChar, Bool.or_eq_true, Bool.or_eq_true]
  exact h.imp_left .inl

/-- What follows the first character is simple up to its end, or up to a line end there. -/
theorem simpleRest_iff {cs : List Char} : simpleRest cs = true ↔
    (∀ c ∈ cs, isSimpleChar c = true) ∨ ∃ front, cs = front ++ ['\n'] ∧ ∀ c ∈ front, isSimpleChar c = true := by
  induction cs with
  | nil => exact iff_of_true rfl (.inl nofun)
  | cons c rest ih =>
    rw [simpleRest, List.forall_mem_cons]
    split
    · next hc =>
      rw [ih]
      refine or_congr ⟨fun h => ⟨hc, h⟩, fun h => h.2⟩ ⟨?_, ?_⟩
      · rintro ⟨front, rfl, hfront⟩
        exact ⟨c :: front, rfl, List.forall_mem_cons.2 ⟨hc, hfront⟩⟩
      · rintro ⟨front, hsplit, hfront⟩
        cases front with
        | nil =>
          rw [(List.cons.inj hsplit).1] at hc
          cases hc
        | cons d front =>
          exact ⟨front, (List.cons.inj hsplit).2, (List.forall_mem_cons.1 hfront).2⟩
    · next hc =>
      rw [Bool.and_eq_true, beq_iff_eq, List.isEmpty_iff]
      constructor
      · rintro ⟨rfl, rfl⟩
        exact .inr ⟨[], rfl, nofun⟩
      · rintro (h | ⟨front, hsplit, hfront⟩)
        · exact absurd h.1 hc
        cases front with
        | nil => exact List.cons.inj hsplit
        | cons d front =>
          rw [(List.cons.inj hsplit).1] at hc
          exact absurd (hfront d (List.mem_cons_self ..)) hc

/-- A name without line ends that is simple is made of simple characters. -/
theorem isSimpleChar_of_simpleRest {cs : List Char} (h : simpleRest cs = true) (hline : '\n' ∉ cs) :
    ∀ c ∈ cs, isSimpleChar c = true := by
  rcases simpleRest_iff.1 h with hsimple | ⟨front, rfl, -⟩
  · exact hsimple
  · exact absurd (List.mem_append_right front (List.mem_singleton.2 rfl)) hline

/-- A name that is written bare, without line ends, is made of simple characters. -/
theorem isSimpleChar_of_isBare {name : String} (h : isBare name = true) (hline : '\n' ∉ name.toList) :
    name.toList ≠ [] ∧ ∀ c ∈ name.toList, isSimpleChar c = true := by
  rw [isBare, Bool.and_eq_true] at h
  cases hname : name.toList with
  | nil =>
    rw [hname] at h
    cases h.1
  | cons c rest =>
    rw [hname] at h hline
    rw [isSimple, Bool.and_eq_true] at h
    refine ⟨List.cons_ne_nil c rest, List.forall_mem_cons.2 ⟨isSimpleChar_of_isSimpleStart h.1.1, ?_⟩⟩
    exact isSimpleChar_of_simpleRest h.1.2 fun hmem => hline (List.mem_cons_of_mem c hmem)

/-- A name with a line end in it is no reserved word. -/
theorem not_reserved_of_line {name : String} (hline : '\n' ∈ name.toList) : reserved.contains (upperName name) = false := by
  have hreserved : ∀ word ∈ reserved, '\n' ∉ word.toList := by decide
  have hcapital : '\n' ∈ (upperName name).toList := by
    rw [upperName, String.toList_ofList]
    exact List.mem_flatMap.2 ⟨'\n', hline, List.mem_singleton.2 rfl⟩
  rw [List.contains_eq_mem, decide_eq_false_iff_not]
  exact fun hmem => hreserved _ hmem hcapital

theorem isBareChar_of_isSimpleChar {c : Char} (h : isSimpleChar c = true) : Identifier.isBareChar c = true := by
  rw [isSimpleChar, Bool.or_eq_true, Bool.or_eq_true] at h
  rw [Identifier.isBareChar]
  rcases h with (h | h) | h
  · rw [isWord_of_isAlphanum (by simp [Char.isAlphanum, Char.isAlpha, h]), Bool.true_or]
  · rw [isWord_of_isAlphanum (by simp [Char.isAlphanum, h]), Bool.true_or]
  · rw [beq_iff_eq.1 h]
    rfl

/-- What has no double quote in it stays as it is between double quotes. -/
theorem doubled_eq_self {cs : List Char} (h : '"' ∉ cs) : doubled cs = cs := by
  induction cs with
  | nil => rfl
  | cons c rest ih =>
    obtain ⟨hc, hrest⟩ := not_or.1 (mt List.mem_cons.2 h)
    rw [doubled, if_neg (by simpa using Ne.symm hc), ih hrest]

/-- **A written name stands for itself.** -/
theorem written_quote {name : String} (hne : name.toList ≠ []) (hquote : '"' ∉ name.toList) (hline : '\n' ∉ name.toList)
    (hzero : Identifier.zeroWidthSpace ∉ name.toList)
    (hhead : ∀ c ∈ name.toList.head?, Identifier.isEnclosing c = false)
    (hend : ∀ c ∈ name.toList.getLast?, Identifier.isEnclosing c = false) :
    WrittenName (quote name).toList name.toList := by
  by_cases hbare : isBare name = true
  · obtain ⟨-, hsimple⟩ := isSimpleChar_of_isBare hbare hline
    have hplain : ∀ c ∈ name.toList, Identifier.isBareChar c = true := fun c hc =>
      isBareChar_of_isSimpleChar (hsimple c hc)
    rw [quote, if_pos hbare]
    refine ⟨fun rest => ?_, Identifier.bareName_eq_self hne hplain, .inl ⟨hne, fun c hc => ?_⟩⟩
    · exact Identifier.part_append hne hplain (by rintro c ⟨⟩; decide)
    · refine Bool.eq_false_iff.2 fun hblank => ?_
      have hbarechar := hplain c hc
      rw [Identifier.isBareChar_of_isBlank hblank] at hbarechar
      cases hbarechar
  · rw [quote, if_neg hbare, String.toList_ofList, enclosed, doubled_eq_self hquote]
    exact ⟨fun rest => Identifier.part_enclosed hne hquote _, Identifier.bareName_enclosed hne hquote hzero hhead hend,
      .inr rfl⟩

end Ident

/-! ## Types -/

/-- A type as it is written, whatever may stand behind it, and its length. -/
structure WrittenType (written : List Char) (length : Option Nat) : Prop where
  first : ∃ c, written.head? = some c ∧ isBlank c = false
  covered : ∀ rest, ColumnDefinition.BehindType rest →
    ColumnDefinition.columnType (written ++ rest) = some written.length
  tidy : squeeze written = written
  length : ColumnType.length? written = .ok length
  known : ∀ rest, ColumnDefinition.BehindType rest → ∃ first more,
    Text.words (written ++ rest) = first :: more ∧ ColumnType.isKeyword (upper (Definition.leadingWord first)) = true

/-- Nothing is put in for a pattern that fits nowhere in front of a text. -/
theorem Pattern.replaceAll_append {p : Pattern} {new a : List Char} (h : ∀ c ∈ a, ∀ rest, p (c :: rest) = none)
    (b : List Char) : replaceAll p new (a ++ b) = a ++ replaceAll p new b := by
  induction a with
  | nil => rfl
  | cons c a ih =>
    obtain ⟨hc, ha⟩ := List.forall_mem_cons.1 h
    rw [List.cons_append, replaceAll, replaceAllFrom, hc]
    exact congrArg (c :: ·) (ih ha)

theorem Pattern.replaceAll_cons_of_none {p : Pattern} {new : List Char} {c : Char} {rest : List Char}
    (h : p (c :: rest) = none) : replaceAll p new (c :: rest) = c :: replaceAll p new rest := by
  rw [replaceAll, replaceAllFrom, h]
  rfl

theorem Pattern.replaceAll_eq_self {p : Pattern} {new a : List Char} (h : ∀ c ∈ a, ∀ rest, p (c :: rest) = none) :
    replaceAll p new a = a := by
  have happend := @replaceAll_append p new a h []
  rw [List.append_nil] at happend
  exact happend.trans (List.append_nil a)

theorem Pattern.replaceAll_covered {p : Pattern} {new a b : List Char} (hne : a ≠ []) (h : p (a ++ b) = some a.length) :
    replaceAll p new (a ++ b) = new ++ replaceAll p new b := by
  obtain ⟨c, a, rfl⟩ := List.exists_cons_of_ne_nil hne
  rw [List.cons_append] at h ⊢
  rw [replaceAll, replaceAllFrom, h]
  dsimp only [List.length_cons]
  rw [replaceAllFrom_eq, List.drop_left]
  rfl

namespace ColumnText

/-- A known word with numbers behind it. -/
theorem writtenType (e : ColumnText) : WrittenType e.typeText e.length? where
  first := by
    obtain ⟨c, more, hword, -⟩ := e.exists_word
    refine ⟨c, by rw [typeText, hword]; rfl, isBlank_of_isWord (e.isWord_word c (hword ▸ List.mem_cons_self ..))⟩
  covered _ := e.columnType_append
  tidy := e.tidy_typeText.squeeze_eq
  length := e.length?_typeText
  known _ := e.words_typeText

/-- A column with a known word and numbers as its type. -/
def typed (word : List Char) (ascii : ∀ c ∈ word, c.isAlphanum = true)
    (known : ColumnType.isKeyword (upper word) = true) (parameters : List Numeral)
    (fits : ∀ n ∈ parameters, n.digits.length ≤ ColumnType.maxDigits) (clauses : List Clause) : ColumnText where
  name := ['c']
  name_ne_nil := List.cons_ne_nil _ _
  plain := List.forall_mem_singleton.2 rfl
  word
  ascii
  known
  parameters
  fits
  gap := false
  wide := false
  clauses

/-- A type without its parameters is its word and blanks. -/
theorem replaceAll_typeText (e : ColumnText) :
    ∃ n, replaceAll ColumnType.parameters [' '] e.typeText = e.word ++ List.replicate n ' ' := by
  have hword : ∀ c ∈ e.word, ∀ rest, ColumnType.parameters (c :: rest) = none := by
    refine fun c hc rest => andThen_eq_none (char_cons_of_ne ?_ rest)
    rintro rfl
    exact absurd (e.isWord_word _ hc) (by decide)
  rw [typeText, parametersText, replaceAll_append hword]
  split
  · exact ⟨0, rfl⟩
  have hinner : ∀ c ∈ listed e.wide e.parameters, (c != ')') = true := fun c hc =>
    bne_iff_ne.2 fun he => absurd (mem_listed (he ▸ hc)) (by decide)
  have hlist : replaceAll ColumnType.parameters [' '] ('(' :: (listed e.wide e.parameters ++ [')'])) = [' '] := by
    have hcovered := ColumnType.parameters_append hinner []
    rw [← List.append_nil ('(' :: _), replaceAll_covered (List.cons_ne_nil _ _) hcovered]
    rfl
  cases e.gap with
  | true =>
    have hspace : ∀ c ∈ [' '], ∀ rest, ColumnType.parameters (c :: rest) = none :=
      List.forall_mem_singleton.2 fun rest => rfl
    refine ⟨2, ?_⟩
    rw [if_pos rfl, replaceAll_append hspace, hlist]
    rfl
  | false => exact ⟨1, congrArg (e.word ++ ·) hlist⟩

/-- **The base of a type** is its word in capitals. -/
theorem base_typeText (e : ColumnText) : ColumnType.base e.typeText = upper e.word := by
  obtain ⟨n, hbare⟩ := e.replaceAll_typeText
  have hspace : ∀ c ∈ List.replicate n ' ', c = ' ' := fun c => List.eq_of_mem_replicate
  have hbrackets : replaceAll (exactly ['[', ']']) [' '] (e.word ++ List.replicate n ' ') =
      e.word ++ List.replicate n ' ' := by
    have hnone : ∀ c ∈ e.word ++ List.replicate n ' ', ∀ rest, exactly ['[', ']'] (c :: rest) = none := by
      refine fun c hc rest => andThen_eq_none (char_cons_of_ne ?_ rest)
      rintro rfl
      rcases List.mem_append.1 hc with hc | hc
      · exact absurd (e.isWord_word _ hc) (by decide)
      · exact absurd (hspace _ hc) (by decide)
    exact replaceAll_eq_self hnone
  have hupper : upper (List.replicate n ' ') = List.replicate n ' ' := by
    refine (List.flatMap_congr (g := fun c => [c]) fun c hc => ?_).trans (List.flatMap_singleton' _)
    rw [hspace c hc]
    rfl
  have hblank : Blank (List.replicate n ' ') := fun c hc => by rw [hspace c hc]; rfl
  have hkeywords : ColumnType.keywords.all (fun k => !k.isEmpty && k.all (!isBlank ·)) = true := by decide +kernel
  have hkeyword := List.all_eq_true.1 hkeywords _ (List.contains_iff_mem.1 e.known)
  have htidy : Tidy (upper e.word) := by
    rw [Bool.and_eq_true, List.all_eq_true] at hkeyword
    exact .word (by simpa using hkeyword.1) fun c hc => by simpa using hkeyword.2 c hc
  have hwords : words (upper e.word ++ List.replicate n ' ') = words (upper e.word) :=
    runsFrom_append_blank hblank [] _
  rw [ColumnType.base, hbare, hbrackets, upper_append, hupper, squeeze, hwords]
  exact htidy.squeeze_eq

end ColumnText

/-- A known word by itself. -/
theorem writtenType_word {word : List Char} (ascii : word.all Char.isAlphanum = true)
    (known : ColumnType.isKeyword (upper word) = true) :
    WrittenType word none ∧ ColumnType.fieldType word = ColumnType.fieldTypeOf (upper word) := by
  let e : ColumnText := .typed word (List.all_eq_true.1 ascii) known [] (by rintro n ⟨⟩) []
  have htext : e.typeText = word := List.append_nil word
  have htype := e.writtenType
  have hbase := e.base_typeText
  rw [htext] at htype hbase
  exact ⟨htype, congrArg ColumnType.fieldTypeOf hbase⟩

/-- The one type of two words that is written. -/
theorem writtenType_doublePrecision : WrittenType "DOUBLE PRECISION".toList none where
  first := ⟨'D', rfl, by decide⟩
  covered rest h := by
    have hcontinuation : ColumnDefinition.typeContinuation (" PRECISION".toList ++ rest) = some 10 := rfl
    have hlist : (blanks >> ColumnType.parameters) rest = none := blanks_char_eq_none (h.bracket _ (by decide)) _
    have hbrackets : star (blanks >> char '[' >> blanks >> char ']') rest = some 0 :=
      star_eq_zero (blanks_char_eq_none (h.bracket _ (by decide)) _)
    have hrest : ColumnDefinition.typeRest (" PRECISION".toList ++ rest) = some 10 := by
      rw [ColumnDefinition.typeRest, andThen_of_eq_some (optional_of_eq_some hcontinuation)]
      change ((_ >> _ : Pattern) rest).map _ = _
      rw [optional_andThen hlist, hbrackets]
      rfl
    exact @ColumnDefinition.columnType_word 'D' "OUBLE".toList _ _ rfl (List.all_eq_true.1 rfl)
      (by rintro d ⟨⟩; decide) hrest
  tidy := by decide
  length := by decide
  known rest _ := by
    have hblank : ∀ c ∈ "DOUBLE".toList, isBlank c = false := List.forall_iff_forall_mem.1 (by decide)
    have hwords := words_append (a := "DOUBLE".toList) (b := " PRECISION".toList ++ rest) (List.cons_ne_nil _ _) hblank (by rintro c ⟨⟩; decide)
    exact ⟨_, _, hwords, by decide⟩

/-! ## Lines -/

/-- What begins with a double quote is no constraint. -/
theorem Definition.isConstraintOf_quoted (rest : List Char) (more : List (List Char)) :
    isConstraintOf (('"' :: rest) :: more) = false := by
  have hfirst : constraintWords.contains (upper ('"' :: rest)) = false := by
    have hnone : ∀ w ∈ constraintWords, '"' ∉ w := by decide
    rw [List.contains_eq_mem, decide_eq_false_iff_not]
    intro hmem
    exact hnone _ hmem (List.mem_cons_self ..)
  cases more with
  | nil => exact hfirst
  | cons second more => rw [isConstraintOf, hfirst, Bool.false_and]

section

variable {written name type rest : List Char} {length : Option Nat} (hname : WrittenName written name)
  (htype : WrittenType type length)

include hname htype

/-- The words of a line are those of no constraint, whatever the name is. -/
theorem exists_words_written (hrest : ColumnDefinition.BehindType rest) : ∃ first more,
    Text.words (written ++ ' ' :: (type ++ rest)) = first :: more ∧
      Definition.isConstraintOf (first :: more) = false := by
  rcases hname.first with ⟨hne, hblank⟩ | hquote
  · obtain ⟨second, more, hwords, hknown⟩ := htype.known rest hrest
    have hspace : Text.words (' ' :: (type ++ rest)) = second :: more :=
      (words_blank_append (List.forall_mem_singleton.2 rfl) _).trans hwords
    refine ⟨written, second :: more, ?_, ?_⟩
    · rw [words_append hne hblank (by rintro c ⟨⟩; rfl), hspace]
    · rw [Definition.isConstraintOf, hknown]
      exact Bool.and_false _
  · obtain ⟨inner, rfl⟩ := List.head?_eq_some_iff.1 hquote
    have hquoted : ['"'] ≠ [] := List.cons_ne_nil _ _
    obtain ⟨r, more, hwords⟩ := @exists_runsFrom isBlank ['"'] hquoted (inner ++ ' ' :: (type ++ rest))
    exact ⟨'"' :: r, more, hwords, Definition.isConstraintOf_quoted r more⟩

/-- **A line is read as it is written**: it is no constraint, but a column with the name and the type that it begins
with and what the rest says. -/
theorem read_written (hrest : ColumnDefinition.BehindType rest) (table : String) :
    Definition.isConstraint (written ++ ' ' :: (type ++ rest)) = false ∧
      Definition.read table (written ++ ' ' :: (type ++ rest)) =
        ((ColumnDefinition.column written type rest).map fun c => ⟨.column c.value, c.notes⟩).mapError .length := by
  obtain ⟨first, more, hwords, hconstraint⟩ := exists_words_written hname htype hrest
  obtain ⟨c, hfirst, hblank⟩ := htype.first
  have hheading := ColumnDefinition.heading_append (hname.covered _) hfirst hblank (htype.covered rest hrest)
  refine ⟨by rw [Definition.isConstraint, hwords, hconstraint], ?_⟩
  rw [Definition.read, Definition.isConstraint, hwords, hconstraint, Definition.ofColumn, hheading]
  rfl

/-- A line whose rest is clauses is the column that its name, its type and its clauses say. -/
theorem addEntry_written (clauses : List Clause) (d : Draft) :
    Definition.isConstraint (written ++ ' ' :: (type ++ spaced (clauses.map Clause.text))) = false ∧
      d.addEntry (written ++ ' ' :: (type ++ spaced (clauses.map Clause.text))) =
        .ok ⟨{ d with table := { d.table with
          columns := d.table.columns ++ [ColumnDefinition.ofClauses name type length clauses] } }, []⟩ := by
  obtain ⟨hconstraint, hread⟩ := read_written hname htype (ColumnDefinition.behindType_spaced clauses) d.table.name
  have hcolumn : ColumnDefinition.column written type (spaced (clauses.map Clause.text)) =
      .ok ⟨ColumnDefinition.ofClauses (Identifier.bareName written) type length clauses, []⟩ :=
    ColumnDefinition.column_spaced htype.tidy htype.length clauses
  rw [hname.stands] at hcolumn
  refine ⟨hconstraint, ?_⟩
  rw [Draft.addEntry, hread, hcolumn]
  dsimp only [Except.map, Except.mapError, Draft.add, ColumnDefinition.ofClauses]
  rw [Option.toList_none, List.append_nil]

end

end SchemaSketch
