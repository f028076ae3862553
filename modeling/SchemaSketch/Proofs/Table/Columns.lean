import SchemaSketch.Proofs.Sql.Heading
import SchemaSketch.Proofs.Table.Clauses

/-!
# Columns are read as they are written

A column is written as a plain name, a known type with whole numbers as its parameters, and clauses
(`ColumnText`). It is read back whole: the name, the type as it stands there, and of the clauses what they say,
whatever their order, however often they are repeated and whatever stands in their literals
(`ColumnText.addEntry_text`).
-/

namespace SchemaSketch

open Text Pattern

/-! ## How a column is written -/

/-- A column as it is written. -/
structure ColumnText where
  /-- its name -/
  name : List Char
  name_ne_nil : name ≠ []
  plain : ∀ c ∈ name, Identifier.isBareChar c = true
  /-- the word of its type, in letters of either case -/
  word : List Char
  ascii : ∀ c ∈ word, c.isAlphanum = true
  known : ColumnType.isKeyword (upper word) = true
  /-- the parameters of its type -/
  parameters : List Numeral
  fits : ∀ n ∈ parameters, n.digits.length ≤ ColumnType.maxDigits
  /-- whether a space stands in front of the parameters -/
  gap : Bool
  /-- whether a space stands behind each comma -/
  wide : Bool
  /-- its clauses -/
  clauses : List Clause

namespace ColumnText

/-- Numbers with commas between them. -/
def listed (wide : Bool) : List Numeral → List Char
  | [] => []
  | [n] => n.text
  | n :: m :: rest => n.text ++ ',' :: ((if wide then [' '] else []) ++ listed wide (m :: rest))

/-- The parameters in parentheses, if there are any. -/
def parametersText (e : ColumnText) : List Char :=
  if e.parameters.isEmpty then []
  else (if e.gap then [' '] else []) ++ '(' :: (listed e.wide e.parameters ++ [')'])

/-- The characters of the type. -/
def typeText (e : ColumnText) : List Char := e.word ++ e.parametersText

/-- The characters of the clauses. -/
def clausesText (e : ColumnText) : List Char := spaced (e.clauses.map Clause.text)

/-- The characters of the column. -/
def text (e : ColumnText) : List Char := e.name ++ ' ' :: (e.typeText ++ e.clausesText)

/-- The first parameter, unless it has a sign. -/
def length? (e : ColumnText) : Option Nat :=
  match e.parameters with
  | [] => none
  | n :: _ => if n.negative then none else some (ColumnType.numberFrom 0 n.digits)

/-- The column that is meant. -/
def column (e : ColumnText) : Column where
  name := String.ofList e.name
  type := String.ofList e.typeText
  nullable := !(e.clauses.contains .primaryKey || e.clauses.contains .notNull)
  unique := e.clauses.contains .primaryKey || e.clauses.contains .unique
  primaryKey := e.clauses.contains .primaryKey
  default := (e.clauses.findSome? Clause.value?).map String.ofList
  length := e.length?
  references := none

end ColumnText

/-! ## Names -/

theorem Identifier.isBareChar_of_isBlank {c : Char} (h : isBlank c = true) : isBareChar c = false := by
  have hdollar : (c == '$') = false := beq_eq_false_iff_ne.2 fun he => absurd h (by rw [he]; decide)
  rw [isBareChar, isWord_of_isBlank h, hdollar]
  rfl

/-- A bare name at the front of a text. -/
theorem Identifier.part_append {name : List Char} (hne : name ≠ []) (hname : ∀ c ∈ name, isBareChar c = true)
    {rest : List Char} (hrest : ∀ c ∈ rest.head?, isBareChar c = false) :
    part (name ++ rest) = some name.length := by
  obtain ⟨c, more, rfl⟩ := List.exists_cons_of_ne_nil hne
  have henclosed : ∀ opening closing, isBareChar opening = false →
      enclosed opening closing (c :: more ++ rest) = none := fun opening closing hopening => by
    have hfirst := hname c (List.mem_cons_self ..)
    refine andThen_eq_none (char_cons_of_ne ?_ _)
    rintro rfl
    exact Bool.false_ne_true (hopening.symm.trans hfirst)
  rw [part, orElse_apply, orElse_apply, orElse_apply, henclosed _ _ (by decide), henclosed _ _ (by decide),
    henclosed _ _ (by decide), Option.none_or, Option.none_or, Option.none_or]
  exact many1_eq_some.2 ⟨Nat.succ_pos _, by rw [takeWhile_append hname hrest]⟩

/-- A bare name stands for itself. -/
theorem Identifier.bareName_eq_self {name : List Char} (hne : name ≠ [])
    (hname : ∀ c ∈ name, isBareChar c = true) :
    bareName name = name := by
  have hapart : ∀ {p : Char → Bool}, (∀ c, p c = true → isBareChar c = false) → ∀ c ∈ name, p c = false :=
    fun hp c hc => Bool.eq_false_iff.2 fun hpc => Bool.false_ne_true ((hp c hpc).symm.trans (hname c hc))
  have hfilter : name.filter (· != zeroWidthSpace) = name := by
    refine List.filter_eq_self.2 fun c hc => bne_iff_ne.2 ?_
    rintro rfl
    exact absurd (hname _ hc) (by decide +kernel)
  have htrim : trim name = name := trimBy_eq_self (hapart fun c => isBareChar_of_isBlank)
  have hparts : findAll part name = [name] := by
    have hend : ∀ c ∈ ([] : List Char).head?, isBareChar c = false := fun c hc => by cases hc
    have hpart := part_append hne hname hend
    rw [List.append_nil] at hpart
    exact findAll_eq_singleton hne hpart
  rw [bareName, hfilter, htrim, hparts]
  refine trimBy_eq_self (hapart fun c hc => ?_)
  rw [isEnclosing] at hc
  simp only [Bool.or_eq_true, beq_iff_eq] at hc
  rcases hc with (((rfl | rfl) | rfl) | rfl) | rfl <;> decide

/-! ## Types -/

/-- A parenthesis up to the one that closes it. -/
theorem ColumnType.parameters_append {inner : List Char} (h : ∀ c ∈ inner, (c != ')') = true) (rest : List Char) :
    parameters ('(' :: (inner ++ [')']) ++ rest) = some ('(' :: (inner ++ [')'])).length := by
  have hinner : many (· != ')') (inner ++ ')' :: rest) = some inner.length :=
    congrArg (fun run : List Char => some run.length) (takeWhile_append_cons h (by decide) rest)
  rw [List.cons_append, List.append_assoc, List.singleton_append, parameters, andThen_of_eq_some (n := 1) rfl]
  rw [List.drop_one, List.tail_cons, andThen_of_eq_some hinner, List.drop_left, List.length_cons, List.length_append,
    Nat.add_comm _ 1]
  rfl

namespace ColumnDefinition

/-- What a type may have behind its first word. -/
def typeRest : Pattern :=
  optional typeContinuation >> optional (blanks >> ColumnType.parameters)
    >> star (blanks >> char '[' >> blanks >> char ']')

theorem columnType_eq : columnType = (one isTypeStart >> many isWord >> typeRest) := rfl

/-- A type may end with its first word. -/
theorem typeRest_eq_zero {cs : List Char} (hcontinuation : typeContinuation cs = none)
    (hhead : ∀ c ∈ ['(', '['], (cs.dropWhile isBlank).head? ≠ some c) : typeRest cs = some 0 := by
  have hparameters : (blanks >> ColumnType.parameters) cs = none := blanks_char_eq_none (hhead '(' (by decide)) _
  have hbrackets : (blanks >> char '[' >> blanks >> char ']') cs = none := blanks_char_eq_none (hhead '[' (by decide)) _
  rw [typeRest, optional_andThen hcontinuation, optional_andThen hparameters, star_eq_zero hbrackets]

/-- What may stand behind a type: a space, and then neither a second word of the type nor a bracket. -/
structure BehindType (rest : List Char) : Prop where
  space : ∀ c ∈ rest.head?, c = ' '
  continuation : typeContinuation rest = none
  bracket : ∀ c ∈ ['(', '['], (rest.dropWhile isBlank).head? ≠ some c

/-- Clauses may stand behind a type: none goes on with it, and none begins with a bracket. -/
theorem behindType_spaced (clauses : List Clause) : BehindType (spaced (clauses.map Clause.text)) where
  space _ hc := head?_spaced hc
  continuation := by
    cases clauses with
    | nil => rfl
    | cons clause rest => cases clause <;> rfl
  bracket c hc := by
    cases clauses with
    | nil => rintro ⟨⟩
    | cons clause rest =>
      simp only [List.mem_cons, List.not_mem_nil, or_false] at hc
      rcases hc with rfl | rfl <;> cases clause <;> intro hhead <;> cases hhead

/-- The first word of a type, and what the type has behind it. -/
theorem columnType_word {c : Char} {more tail : List Char} {n : Nat} (hstart : isTypeStart c = true)
    (hmore : ∀ d ∈ more, isWord d = true) (hends : ∀ d ∈ tail.head?, isWord d = false) (hrest : typeRest tail = some n) :
    columnType (c :: more ++ tail) = some ((c :: more).length + n) := by
  have hrun : many isWord (more ++ tail) = some more.length :=
    congrArg (fun run : List Char => some run.length) (takeWhile_append hmore hends)
  rw [List.cons_append, columnType_eq, andThen_of_eq_some (if_pos hstart), List.drop_one, List.tail_cons,
    andThen_of_eq_some hrun, List.drop_left, hrest]
  simp only [Option.map_some, List.length_cons]
  rw [Nat.add_comm 1, Nat.add_right_comm]

/-- A name, a space and a type. -/
theorem heading_append {written type rest : List Char} {first : Char}
    (hname : Identifier.part (written ++ ' ' :: (type ++ rest)) = some written.length)
    (hfirst : type.head? = some first) (hblank : isBlank first = false)
    (htype : columnType (type ++ rest) = some type.length) :
    heading (written ++ ' ' :: (type ++ rest)) = some ((written, type), rest) := by
  obtain ⟨more, rfl⟩ := List.head?_eq_some_iff.1 hfirst
  have hspace : blanks1 (' ' :: (first :: more ++ rest)) = some 1 := by
    refine many1_eq_some.2 ⟨by decide, ?_⟩
    rw [List.takeWhile_cons_of_pos (by decide), List.cons_append,
      List.takeWhile_cons_of_neg (Bool.eq_false_iff.1 hblank)]
    rfl
  rw [heading, Reader.take_bind, hname, Option.bind_some, Reader.skip_bind, List.drop_left, hspace, Option.bind_some,
    Reader.take_bind, List.drop_one, List.tail_cons, htype, Option.bind_some, List.take_left, List.take_left,
    List.drop_left]
  rfl

/-- What clauses say of a column. -/
def ofClauses (name type : List Char) (length : Option Nat) (clauses : List Clause) : Column where
  name := String.ofList name
  type := String.ofList type
  nullable := !(clauses.contains .primaryKey || clauses.contains .notNull)
  unique := clauses.contains .primaryKey || clauses.contains .unique
  primaryKey := clauses.contains .primaryKey
  default := (clauses.findSome? Clause.value?).map String.ofList
  length
  references := none

/-- Clauses are read for what they say. -/
theorem column_spaced {name type : List Char} {length : Option Nat} (htype : squeeze type = type)
    (hlength : ColumnType.length? type = .ok length) (clauses : List Clause) :
    column name type (spaced (clauses.map Clause.text)) =
      .ok ⟨ofClauses (Identifier.bareName name) type length clauses, []⟩ := by
  have hreference : reference? (String.ofList (Identifier.bareName name))
      (upper (withoutLiterals (spaced (clauses.map Clause.text)))) (spaced (clauses.map Clause.text)) = .plain none :=
    reference?_spaced _ clauses _
  rw [column, htype, hlength]
  dsimp only [Except.map]
  rw [hreference, flag_notNull.hasWord_text, flag_unique.hasWord_text, flag_primaryKey.hasWord_text, default?_spaced]
  rfl

end ColumnDefinition

namespace ColumnText

variable (e : ColumnText)

/-- The word of a type begins with a letter. -/
theorem exists_word : ∃ c more, e.word = c :: more ∧ c.isAlpha = true := by
  have hkeywords : ∀ k ∈ ColumnType.keywords, k.head?.map Char.isAlpha = some true := by decide
  obtain ⟨first, hfirst, halpha⟩ := Option.map_eq_some_iff.1 (hkeywords _ (List.contains_iff_mem.1 e.known))
  cases hword : e.word with
  | nil =>
    rw [hword] at hfirst
    cases hfirst
  | cons c more =>
    refine ⟨c, more, rfl, ?_⟩
    have hascii := e.ascii c (hword ▸ List.mem_cons_self ..)
    have hcapital : capitalForm c = [c.toUpper] ∧ (c.toUpper.isAlpha = true → c.isAlpha = true) :=
      of_isAlphanum (motive := fun c => capitalForm c = [c.toUpper] ∧ (c.toUpper.isAlpha = true → c.isAlpha = true))
        (by decide) hascii
    rw [hword, upper, List.flatMap_cons, hcapital.1] at hfirst
    cases hfirst
    exact hcapital.2 halpha

theorem isWord_word : ∀ c ∈ e.word, isWord c = true := fun c hc => isWord_of_isAlphanum (e.ascii c hc)

/-- What stands between the parentheses of a type. -/
theorem mem_listed {wide : Bool} {ns : List Numeral} {c : Char} (h : c ∈ listed wide ns) :
    c ∈ "-0123456789, ".toList := by
  have hsubset : "-0123456789".toList ⊆ "-0123456789, ".toList := by decide
  fun_induction listed wide ns with
  | case1 => cases h
  | case2 n => exact hsubset (n.mem_text h)
  | case3 n m rest ih =>
    rcases List.mem_append.1 h with h | h
    · exact hsubset (n.mem_text h)
    rcases List.mem_cons.1 h with rfl | h
    · decide
    rcases List.mem_append.1 h with h | h
    · have hspace : c = ' ' := by
        cases wide with
        | true => exact List.mem_singleton.1 h
        | false => cases h
      rw [hspace]
      decide
    · exact ih h

theorem tidy_listed (wide : Bool) (ns : List Numeral) : Tidy (listed wide ns ++ [')']) := by
  have hnumeral : ∀ n : Numeral, ∀ c ∈ n.text, isBlank c = false := fun n => n.forall_mem_text (by decide)
  have hcomma : ∀ n : Numeral, ∀ c ∈ n.text ++ [','], isBlank c = false := fun n c hc =>
    (List.mem_append.1 hc).elim (hnumeral n c) fun hc => by rw [List.mem_singleton.1 hc]; decide
  have hend : Tidy [')'] := .word (List.cons_ne_nil _ _) (List.forall_mem_singleton.2 rfl)
  fun_induction listed wide ns with
  | case1 => exact hend
  | case2 n => exact hend.prepend (hnumeral n)
  | case3 n m rest ih =>
    have hwhole : n.text ++ ',' :: ((if wide then [' '] else []) ++ listed wide (m :: rest)) ++ [')'] =
        n.text ++ [','] ++ ((if wide then [' '] else []) ++ (listed wide (m :: rest) ++ [')'])) := by
      simp only [List.append_assoc, List.cons_append, List.nil_append]
    rw [hwhole]
    cases wide with
    | true => exact .append (by simp) (hcomma n) ih
    | false => exact ih.prepend (hcomma n)

/-- A type is written without superfluous blanks. -/
theorem tidy_typeText : Tidy e.typeText := by
  obtain ⟨c, more, hword, -⟩ := e.exists_word
  have hne : e.word ≠ [] := by
    rw [hword]
    exact List.cons_ne_nil _ _
  have hblank : ∀ c ∈ e.word, isBlank c = false := fun c hc => isBlank_of_isWord (e.isWord_word c hc)
  have hlist : Tidy ('(' :: (listed e.wide e.parameters ++ [')'])) :=
    (tidy_listed e.wide e.parameters).prepend (List.forall_mem_singleton.2 rfl)
  rw [typeText, parametersText]
  split
  · rw [List.append_nil]
    exact .word hne hblank
  cases e.gap with
  | true => exact .append hne hblank hlist
  | false => exact hlist.prepend hblank

section

variable {rest : List Char} (hrest : ColumnDefinition.BehindType rest)

include hrest

/-- The parameters of a type, if nothing that follows belongs to it. -/
theorem typeRest_append : ColumnDefinition.typeRest (e.parametersText ++ rest) = some e.parametersText.length := by
  rw [parametersText]
  split
  · exact ColumnDefinition.typeRest_eq_zero hrest.continuation hrest.bracket
  · have hbrackets : star (blanks >> char '[' >> blanks >> char ']') rest = some 0 :=
      star_eq_zero (blanks_char_eq_none (hrest.bracket _ (by decide)) _)
    -- no number has a parenthesis in it, so the list ends where it should
    have hinner : ∀ c ∈ listed e.wide e.parameters, (c != ')') = true := fun c hc =>
      bne_iff_ne.2 fun he => absurd (mem_listed (he ▸ hc)) (by decide)
    have hlist := ColumnType.parameters_append hinner rest
    have hparameters : (blanks >> ColumnType.parameters)
        ((if e.gap then [' '] else []) ++ '(' :: (listed e.wide e.parameters ++ [')']) ++ rest) =
          some ((if e.gap then [' '] else []) ++ '(' :: (listed e.wide e.parameters ++ [')'])).length := by
      cases e.gap with
      | true =>
        refine (andThen_of_eq_some (n := 1) rfl _).trans ?_
        exact (congrArg (Option.map _) hlist).trans (congrArg some (Nat.add_comm ..))
      | false =>
        refine (andThen_of_eq_some (n := 0) rfl _).trans ?_
        exact (congrArg (Option.map _) hlist).trans (congrArg some (Nat.zero_add _))
    have hcontinuation : ColumnDefinition.typeContinuation
        ((if e.gap then [' '] else []) ++ '(' :: (listed e.wide e.parameters ++ [')']) ++ rest) = none := by
      cases e.gap <;> rfl
    rw [ColumnDefinition.typeRest, optional_andThen hcontinuation,
      andThen_of_eq_some (optional_of_eq_some hparameters), List.drop_left, hbrackets]
    rfl

/-- What follows the word of a type. -/
theorem head?_rest {c : Char} (h : c ∈ (e.parametersText ++ rest).head?) : c = ' ' ∨ c = '(' := by
  rw [parametersText] at h
  split at h
  · exact .inl (hrest.space c h)
  · cases hgap : e.gap with
    | true =>
      rw [hgap] at h
      exact .inl (Option.some.inj h).symm
    | false =>
      rw [hgap] at h
      exact .inr (Option.some.inj h).symm

/-- The type at the front of its text. -/
theorem columnType_append : ColumnDefinition.columnType (e.typeText ++ rest) = some e.typeText.length := by
  obtain ⟨c, more, hword, halpha⟩ := e.exists_word
  have hstart : ColumnDefinition.isTypeStart c = true :=
    of_isAlphanum (motive := fun c => c.isAlpha = true → ColumnDefinition.isTypeStart c = true) (by decide)
      (e.ascii c (hword ▸ List.mem_cons_self ..)) halpha
  have hmore : ∀ d ∈ more, isWord d = true := fun d hd => e.isWord_word d (hword ▸ List.mem_cons_of_mem c hd)
  have hends : ∀ d ∈ (e.parametersText ++ rest).head?, isWord d = false := by
    intro d hd
    rcases e.head?_rest hrest hd with rfl | rfl <;> decide
  rw [typeText, hword, List.append_assoc, ColumnDefinition.columnType_word hstart hmore hends (e.typeRest_append hrest),
    List.length_append]

end

/-- The name and the type of a column. -/
theorem heading_text : ColumnDefinition.heading e.text = some ((e.name, e.typeText), e.clausesText) := by
  obtain ⟨c, more, hword, -⟩ := e.exists_word
  have hname : Identifier.part e.text = some e.name.length :=
    Identifier.part_append e.name_ne_nil e.plain (by rintro c ⟨⟩; decide)
  have hfirst : isBlank c = false := isBlank_of_isWord (e.isWord_word c (hword ▸ List.mem_cons_self ..))
  have hhead : e.typeText.head? = some c := by
    rw [typeText, hword]
    rfl
  exact ColumnDefinition.heading_append hname hhead hfirst (e.columnType_append (ColumnDefinition.behindType_spaced _))

theorem firstParameter_typeText {n : Numeral} {rest : List Numeral} (h : e.parameters = n :: rest) :
    ColumnType.firstParameter e.typeText = n.text := by
  have hnumeral : ∀ c ∈ n.text, isBlank c = false ∧ (c != ',') = true := n.forall_mem_text (by decide)
  have hinner : ∀ c ∈ listed e.wide e.parameters, (c != ')') = true := fun c hc =>
    bne_iff_ne.2 fun he => absurd (mem_listed (he ▸ hc)) (by decide)
  have hlist : findAll ColumnType.parameters ('(' :: (listed e.wide e.parameters ++ [')'])) =
      ['(' :: (listed e.wide e.parameters ++ [')'])] := by
    refine findAll_eq_singleton (List.cons_ne_nil _ _) ?_
    have hcovered := ColumnType.parameters_append hinner []
    rwa [List.append_nil] at hcovered
  have hskip : ∀ c ∈ e.word ++ (if e.gap then [' '] else []), ∀ rest,
      ColumnType.parameters (c :: rest) = none := by
    refine fun c hc rest => andThen_eq_none (char_cons_of_ne ?_ rest)
    rintro rfl
    rcases List.mem_append.1 hc with hc | hc
    · exact absurd (e.isWord_word _ hc) (by decide)
    · cases hgap : e.gap <;> rw [hgap] at hc
      · cases hc
      · exact absurd (List.mem_singleton.1 hc) (by decide)
  have htext : e.typeText =
      e.word ++ (if e.gap then [' '] else []) ++ '(' :: (listed e.wide e.parameters ++ [')']) := by
    rw [typeText, parametersText, h, if_neg (by simp), List.append_assoc]
  rw [ColumnType.firstParameter, htext, findAll_append hskip, hlist]
  dsimp only
  rw [List.drop_one, List.tail_cons, List.dropLast_concat, h]
  have hfirst : (listed e.wide (n :: rest)).takeWhile (· != ',') = n.text := by
    cases rest with
    | nil => exact List.takeWhile_eq_self_iff.2 fun c hc => (hnumeral c hc).2
    | cons m rest => exact takeWhile_append_cons (fun c hc => (hnumeral c hc).2) (by decide) _
  rw [hfirst, trim, trimBy_eq_self fun c hc => (hnumeral c hc).1]

/-- The length of a column is its first parameter. -/
theorem length?_typeText : ColumnType.length? e.typeText = .ok e.length? := by
  cases h : e.parameters with
  | nil =>
    have hnone : findAll ColumnType.parameters e.typeText = [] := by
      have hskip : ∀ c ∈ e.word, ∀ rest, ColumnType.parameters (c :: rest) = none := by
        refine fun c hc rest => andThen_eq_none (char_cons_of_ne ?_ rest)
        rintro rfl
        exact absurd (e.isWord_word _ hc) (by decide)
      rw [typeText, parametersText, h]
      exact findAll_append hskip []
    rw [ColumnType.length?, ColumnType.firstParameter, hnone, length?, h]
    rfl
  | cons n rest =>
    rw [ColumnType.length?, e.firstParameter_typeText h, length?, h]
    dsimp only
    cases hsign : n.negative with
    | true =>
      have htext : n.text = '-' :: n.digits := if_pos hsign
      rw [htext, if_pos rfl]
      rfl
    | false =>
      have htext : n.text = n.digits := if_neg (Bool.eq_false_iff.1 hsign)
      have hdigits : ∀ c ∈ n.digits, isFigure c = true ∧ isDecimal c = true := n.forall_mem_digits (by decide)
      have hwhole : (!n.digits.isEmpty && n.digits.all isFigure) = true := by
        rw [List.isEmpty_eq_false_iff.2 n.ne_nil, List.all_eq_true.2 fun c hc => (hdigits c hc).1]
        rfl
      have hcount : ¬ (n.digits.takeWhile isDecimal).length > ColumnType.maxDigits := by
        rw [List.takeWhile_eq_self_iff.2 fun c hc => (hdigits c hc).2]
        exact Nat.not_lt.2 (e.fits n (h ▸ List.mem_cons_self ..))
      rw [htext, if_pos hwhole, ColumnType.readLength, if_neg hcount,
        if_pos (List.all_eq_true.2 fun c hc => (hdigits c hc).2), if_neg Bool.false_ne_true]
      rfl

/-- The first word of a type and of what follows it begins a known type. -/
theorem words_typeText {behind : List Char} (hbehind : ColumnDefinition.BehindType behind) : ∃ first more,
    Text.words (e.typeText ++ behind) = first :: more ∧
      ColumnType.isKeyword (upper (Definition.leadingWord first)) = true := by
  obtain ⟨c, rest, hc, halpha⟩ := e.exists_word
  have hword : ∀ c ∈ e.word, isBlank c = false := fun c hc => isBlank_of_isWord (e.isWord_word c hc)
  have hne : ∀ glued, e.word ++ glued ≠ [] := fun glued h =>
    List.cons_ne_nil c rest (hc.symm.trans (List.append_eq_nil_iff.1 h).1)
  -- what is glued to the word ends at the next blank
  obtain ⟨glued, apart, hrest, hglued, hapart⟩ : ∃ glued apart,
      e.parametersText ++ behind = glued ++ apart ∧ (∀ c ∈ glued, isBlank c = false) ∧
        ∀ c ∈ apart.head?, isBlank c = true := by
    refine ⟨_, _, (List.takeWhile_append_dropWhile (p := (! isBlank ·))).symm, fun c hc => ?_, fun c hc => ?_⟩
    · simpa using List.all_eq_true.1 List.all_takeWhile c hc
    · have hnot := List.head?_dropWhile_not (! isBlank ·) (e.parametersText ++ behind)
      rw [hc] at hnot
      simpa using hnot
  refine ⟨e.word ++ glued, Text.words apart, ?_, ?_⟩
  · rw [typeText, List.append_assoc, hrest, ← List.append_assoc,
      words_append (hne glued) (fun c hc => (List.mem_append.1 hc).elim (hword c) (hglued c)) hapart]
  · have hends : ∀ c ∈ glued.head?, isWord c = false := by
      intro c hc
      have hhead : c ∈ (e.parametersText ++ behind).head? := by
        rw [hrest, List.head?_append_of_ne_nil _ (List.ne_nil_of_mem (List.mem_of_mem_head? hc))]
        exact hc
      rcases e.head?_rest hbehind hhead with rfl | rfl <;> decide
    have htag : Comment.isTagStart c = true := by rw [Comment.isTagStart, halpha]; rfl
    have hletters : ∀ d ∈ rest, isWord d = true := fun d hd => e.isWord_word d (hc ▸ List.mem_cons_of_mem c hd)
    have hleading : Definition.leadingWord (e.word ++ glued) = e.word := by
      rw [hc, List.cons_append, Definition.leadingWord, if_pos htag, takeWhile_append hletters hends]
    rw [hleading, e.known]

/-- The first two words are the name and what begins with the word of the type. -/
theorem words_text : ∃ second more, Text.words e.text = e.name :: second :: more ∧
    ColumnType.isKeyword (upper (Definition.leadingWord second)) = true := by
  obtain ⟨second, more, htype, hknown⟩ := e.words_typeText (ColumnDefinition.behindType_spaced _)
  have hname : ∀ c ∈ e.name, isBlank c = false := fun c hc => Bool.eq_false_iff.2 fun hblank =>
    Bool.false_ne_true ((Identifier.isBareChar_of_isBlank hblank).symm.trans (e.plain c hc))
  have hspace : Text.words (' ' :: (e.typeText ++ e.clausesText)) = second :: more :=
    (words_blank_append (List.forall_mem_singleton.2 rfl) _).trans htype
  refine ⟨second, more, ?_, hknown⟩
  rw [text, words_append e.name_ne_nil hname (by rintro c ⟨⟩; rfl), hspace]

/-- A column is no constraint, whatever its name is. -/
theorem isConstraint_text : Definition.isConstraint e.text = false := by
  obtain ⟨second, more, hwords, hknown⟩ := e.words_text
  rw [Definition.isConstraint, hwords, Definition.isConstraintOf, hknown]
  exact Bool.and_false _

theorem bareName_name : Identifier.bareName e.name = e.name :=
  Identifier.bareName_eq_self e.name_ne_nil e.plain

theorem column_text : ColumnDefinition.column e.name e.typeText e.clausesText = .ok ⟨e.column, []⟩ := by
  rw [clausesText, ColumnDefinition.column_spaced e.tidy_typeText.squeeze_eq e.length?_typeText, e.bareName_name]
  rfl

/-- **A column is read as it is written.** -/
theorem addEntry_text (d : Draft) :
    Definition.ofColumn d.table.name e.text = .ok ⟨.column e.column, []⟩ ∧
      d.addEntry e.text =
        .ok ⟨{ d with table := { d.table with columns := d.table.columns ++ [e.column] } }, []⟩ := by
  have hcolumn : Definition.ofColumn d.table.name e.text = .ok ⟨.column e.column, []⟩ := by
    rw [Definition.ofColumn, e.heading_text]
    exact congrArg (Except.map _) e.column_text
  obtain ⟨glued, more, hwords, -⟩ := e.words_text
  have hread : Definition.read d.table.name e.text = .ok ⟨.column e.column, []⟩ := by
    rw [Definition.read, e.isConstraint_text, hwords, hcolumn]
    rfl
  have hadd : d.add (.column e.column) =
      { d with table := { d.table with columns := d.table.columns ++ [e.column] } } := by
    rw [Draft.add, column]
    dsimp only [Option.toList_none]
    rw [List.append_nil]
  refine ⟨hcolumn, ?_⟩
  rw [Draft.addEntry, hread, ← hadd]
  rfl

/-- A column whose first default tells of the clause that it does not have. -/
def noted : ColumnText where
  name := ['n']
  name_ne_nil := by decide
  plain := List.all_eq_true.1 (by decide)
  word := "Varchar".toList
  ascii := List.all_eq_true.1 (by decide)
  known := by decide
  parameters := [⟨false, "20".toList, by decide, List.all_eq_true.1 (by decide)⟩]
  fits := by decide
  gap := false
  wide := false
  clauses := [.defaultLiteral ⟨"it's NOT NULL".toList, by decide⟩, .unique,
    .defaultNumber ⟨true, ['7'], by decide, List.all_eq_true.1 (by decide)⟩]

example : noted.text = "n Varchar(20) DEFAULT 'it''s NOT NULL' UNIQUE DEFAULT -7".toList ∧
    noted.column = { name := "n", type := "Varchar(20)", nullable := true, unique := true, primaryKey := false,
                     default := some "'it''s NOT NULL'", length := some 20, references := none } := by decide

end ColumnText

end SchemaSketch
