import SchemaSketch.Proofs.Table.Columns

/-!
# Calls as defaults

A default may be a call: a word and its arguments in parentheses, which are words, numbers, literals and calls
again. The form of a default knows nothing of arguments. It takes a call up to the first closing parenthesis,
wherever that stands (`defaultValue_call`). So a call is read whole exactly if none of its arguments holds such a
parenthesis, and of every other call the part that is read has an open parenthesis or an open quote in it
(`Call.read_iff`).
-/

namespace SchemaSketch

open Text Pattern

/-! ## How calls are written -/

/-- A word that is no number. -/
structure PlainWord where
  /-- its characters -/
  text : List Char
  ne_nil : text ≠ []
  isWord : ∀ c ∈ text, isWord c = true
  begins : ∀ c ∈ text.head?, isDecimal c = false

/-- An argument of a call. -/
inductive Argument where
  | word (w : PlainWord)
  | number (n : Numeral)
  /-- a literal, told by what it says -/
  | literal (content : List Char)
  | call (name : PlainWord) (arguments : List Argument)

mutual

/-- The characters of an argument; `wide` says whether a space stands behind each comma. -/
def Argument.text (wide : Bool) : Argument → List Char
  | .word w => w.text
  | .number n => n.text
  | .literal content => '\'' :: Literal.doubled content
  | .call name arguments => name.text ++ '(' :: (Argument.listed wide arguments ++ [')'])

/-- Arguments with commas between them. -/
def Argument.listed (wide : Bool) : List Argument → List Char
  | [] => []
  | [a] => a.text wide
  | a :: b :: rest => a.text wide ++ ',' :: ((if wide then [' '] else []) ++ Argument.listed wide (b :: rest))

end

/-- Whether a closing parenthesis stands in an argument. -/
def Argument.holdsClosing : Argument → Bool
  | .word _ | .number _ => false
  | .literal content => content.contains ')'
  | .call _ _ => true

/-- A call. -/
structure Call where
  /-- its word -/
  name : PlainWord
  /-- its arguments -/
  arguments : List Argument

namespace Call

/-- The characters of a call. -/
def text (wide : Bool) (k : Call) : List Char :=
  k.name.text ++ '(' :: (Argument.listed wide k.arguments ++ [')'])

/-- Whether no argument is a call or a literal with a closing parenthesis in it. -/
def isFlat (k : Call) : Bool := k.arguments.all fun a => !a.holdsClosing

end Call

/-- A text up to its first closing parenthesis. -/
def upToClosing (cs : List Char) : List Char := cs.takeWhile (· != ')') ++ [')']

/-! ## Parentheses and quotes -/

/-- A scan of parentheses and quotes. -/
structure Scan where
  /-- how many parentheses are open -/
  depth : Nat
  /-- whether a quote is open -/
  quoted : Bool
  deriving DecidableEq, Repr

namespace Scan

/-- A character passed over. What stands between quotes opens and closes nothing, and no parenthesis is closed that
has not been opened. -/
def step (s : Scan) (c : Char) : Option Scan :=
  if c == '\'' then some { s with quoted := !s.quoted }
  else if s.quoted then some s
  else if c == '(' then some { s with depth := s.depth + 1 }
  else if c == ')' then if s.depth == 0 then none else some { s with depth := s.depth - 1 }
  else some s

/-- A text passed over. -/
def run (s : Scan) (cs : List Char) : Option Scan := cs.foldlM step s

@[simp] theorem run_nil (s : Scan) : s.run [] = some s := rfl

@[simp] theorem run_cons (s : Scan) (c : Char) (cs : List Char) :
    s.run (c :: cs) = (s.step c).bind fun t => t.run cs := List.foldlM_cons

theorem run_append (s : Scan) (a b : List Char) : s.run (a ++ b) = (s.run a).bind fun t => t.run b :=
  List.foldlM_append

/-- Nothing open. -/
def start : Scan := ⟨0, false⟩

/-- One more parenthesis open in front. -/
def inside (s : Scan) : Scan := { s with depth := s.depth + 1 }

theorem step_inside {s t : Scan} {c : Char} (h : s.step c = some t) : s.inside.step c = some t.inside := by
  obtain ⟨depth, quoted⟩ := s
  rw [step] at h ⊢
  -- only the closing parenthesis looks at the count, and it asks for one that is open
  by_cases hclosing : c = ')'
  · subst hclosing
    cases quoted <;> cases depth <;> cases h <;> rfl
  · grind [inside]

/-- A parenthesis that is open in front of a text stays open. -/
theorem run_inside {s t : Scan} {cs : List Char} (h : s.run cs = some t) : s.inside.run cs = some t.inside := by
  induction cs generalizing s with
  | nil =>
    cases h
    rfl
  | cons c cs ih =>
    rw [run_cons] at h ⊢
    obtain ⟨u, hu, h⟩ := Option.bind_eq_some_iff.1 h
    rw [step_inside hu]
    exact ih h

/-- Characters that are neither parentheses nor quotes make no difference. -/
theorem run_plain {a : List Char} (h : ∀ c ∈ a, c ≠ '\'' ∧ c ≠ '(' ∧ c ≠ ')') (s : Scan) : s.run a = some s := by
  induction a with
  | nil => rfl
  | cons c a ih =>
    obtain ⟨hc, ha⟩ := List.forall_mem_cons.1 h
    have hstep : s.step c = some s := by simp [step, hc]
    rw [run_cons, hstep]
    exact ih ha

/-- What a literal says is passed over up to the quote at its end. -/
theorem run_doubled (depth : Nat) (content : List Char) :
    run ⟨depth, true⟩ (Literal.doubled content) = some ⟨depth, false⟩ := by
  induction content with
  | nil => rfl
  | cons c content ih =>
    rw [Literal.doubled]
    split
    · -- a quote that stands for itself closes and opens again
      exact ih
    · next hc =>
      have hstep : step ⟨depth, true⟩ c = some ⟨depth, true⟩ := by simp [step, hc]
      rw [run_cons, hstep]
      exact ih

end Scan

/-- Whether the parentheses of a text balance and its quotes are closed. -/
def isClosed (cs : List Char) : Bool := Scan.start.run cs == some .start

/-! ## Where the first parenthesis closes -/

namespace PlainWord

/-- A word has no mark in it. -/
theorem not_mem_text (w : PlainWord) {c : Char} (hc : Text.isWord c = false) : c ∉ w.text := by
  intro hmem
  rw [w.isWord c hmem] at hc
  cases hc

theorem run_text (w : PlainWord) (s : Scan) : s.run w.text = some s := by
  refine Scan.run_plain (fun c hc => ⟨?_, ?_, ?_⟩) s <;>
  · rintro rfl
    exact w.not_mem_text (by decide) hc

end PlainWord

theorem Literal.mem_doubled {c : Char} (hc : c ≠ '\'') {content : List Char} :
    c ∈ doubled content ↔ c ∈ content := by
  induction content with
  | nil => simp [doubled, hc]
  | cons d content ih =>
    rw [doubled]
    split
    · next hd => simp [ih, hc, beq_iff_eq.1 hd]
    · simp [ih]

namespace Argument

mutual

/-- The parentheses of an argument balance, and its quotes are closed. -/
theorem run_text (wide : Bool) (depth : Nat) : ∀ a : Argument, Scan.run ⟨depth, false⟩ (a.text wide) = some ⟨depth, false⟩
  | .word w => by
    rw [text]
    exact w.run_text _
  | .number n => by
    rw [text]
    exact Scan.run_plain (n.forall_mem_text (by decide)) _
  | .literal content => by
    rw [text, Scan.run_cons]
    exact Scan.run_doubled depth content
  | .call name arguments => by
    rw [text, Scan.run_append, name.run_text, Option.bind_some, Scan.run_cons]
    change Scan.run ⟨depth + 1, false⟩ (listed wide arguments ++ [')']) = _
    rw [Scan.run_append, run_listed wide (depth + 1) arguments]
    rfl

theorem run_listed (wide : Bool) (depth : Nat) : ∀ arguments : List Argument,
    Scan.run ⟨depth, false⟩ (listed wide arguments) = some ⟨depth, false⟩
  | [] => by rw [listed]; rfl
  | [a] => by
    rw [listed]
    exact run_text wide depth a
  | a :: b :: rest => by
    rw [listed, Scan.run_append, run_text wide depth a, Option.bind_some, Scan.run_cons]
    change Scan.run ⟨depth, false⟩ (_ ++ listed wide (b :: rest)) = _
    have hspace : Scan.run ⟨depth, false⟩ (if wide then [' '] else []) = some ⟨depth, false⟩ := by
      cases wide <;> rfl
    rw [Scan.run_append, hspace, Option.bind_some]
    exact run_listed wide depth (b :: rest)

end

theorem closing_mem_text {wide : Bool} {a : Argument} : ')' ∈ a.text wide ↔ a.holdsClosing = true := by
  cases a with
  | word w =>
    rw [text, holdsClosing]
    simp [w.not_mem_text (c := ')') (by decide)]
  | number n =>
    have hnot : ')' ∉ n.text := fun h => absurd (Numeral.mem_text h) (by decide)
    rw [text, holdsClosing]
    simp [hnot]
  | literal content =>
    rw [text, holdsClosing]
    simp [Literal.mem_doubled (c := ')') (by decide)]
  | call name arguments =>
    rw [text, holdsClosing]
    simp

theorem closing_mem_listed {wide : Bool} {arguments : List Argument} :
    ')' ∈ listed wide arguments ↔ ∃ a ∈ arguments, a.holdsClosing = true := by
  induction arguments with
  | nil => simp [listed]
  | cons a rest ih =>
    cases rest with
    | nil =>
      rw [listed, closing_mem_text]
      simp
    | cons b rest =>
      have hspace : ')' ∉ (if wide then [' '] else []) := by cases wide <;> decide
      rw [listed, List.mem_append, closing_mem_text, List.mem_cons, List.mem_append, ih]
      simp [hspace]

end Argument

/-- A text goes on behind its first closing parenthesis. -/
theorem exists_of_closing_mem {cs : List Char} (h : ')' ∈ cs) :
    ∃ after, cs = cs.takeWhile (· != ')') ++ ')' :: after := by
  obtain ⟨before, after, rfl, hbefore⟩ := List.eq_append_cons_of_mem h
  refine ⟨after, ?_⟩
  rw [takeWhile_append_cons (fun c hc => bne_iff_ne.2 ?_) (by decide) after]
  rintro rfl
  exact hbefore hc

namespace Call

variable (wide : Bool) (k : Call)

theorem isFlat_iff : k.isFlat = true ↔ ')' ∉ Argument.listed wide k.arguments := by
  rw [Argument.closing_mem_listed, isFlat, List.all_eq_true]
  simp

/-- The first closing parenthesis of a call comes in its arguments or right behind them. -/
theorem upToClosing_text :
    upToClosing (k.text wide) =
      k.name.text ++ '(' :: ((Argument.listed wide k.arguments).takeWhile (· != ')') ++ [')']) := by
  have hname : ∀ c ∈ k.name.text, (c != ')') = true := by
    intro c hc
    refine bne_iff_ne.2 ?_
    rintro rfl
    exact k.name.not_mem_text (by decide) hc
  rw [upToClosing, text, List.takeWhile_append_of_pos hname, List.takeWhile_cons_of_pos (by decide),
    List.takeWhile_append]
  split
  · next hlength =>
    have hwhole := List.IsPrefix.eq_of_length (List.takeWhile_prefix _) hlength
    simp [hwhole]
  · simp

/-- A call is read up to its end exactly if it is flat. -/
theorem upToClosing_eq_text_iff : upToClosing (k.text wide) = k.text wide ↔ k.isFlat = true := by
  rw [upToClosing_text, text, isFlat_iff wide]
  simp only [List.append_cancel_left_eq, List.cons.injEq, true_and, List.append_cancel_right_eq,
    List.takeWhile_eq_self_iff, bne_iff_ne]
  constructor
  · intro h hmem
    exact h _ hmem rfl
  · rintro h c hc rfl
    exact h hc

/-- **What is read of a call is closed** exactly if it is the whole call. -/
theorem isClosed_upToClosing_iff : isClosed (upToClosing (k.text wide)) = true ↔ k.isFlat = true := by
  have hopen : ∀ inner, Scan.start.run (k.name.text ++ '(' :: inner) = Scan.start.inside.run inner := by
    intro inner
    rw [Scan.run_append, k.name.run_text, Option.bind_some, Scan.run_cons]
    rfl
  have hlisted : Scan.start.run (Argument.listed wide k.arguments) = some .start := Argument.run_listed wide 0 _
  constructor
  · intro hclosed
    by_contra hflat
    rw [isFlat_iff wide, not_not] at hflat
    -- the parenthesis at which the reading ends stands in the arguments, and they do not end there
    obtain ⟨after, hsplit⟩ := exists_of_closing_mem hflat
    rw [isClosed, beq_iff_eq, upToClosing_text, hopen, Scan.run_append] at hclosed
    rw [hsplit, Scan.run_append] at hlisted
    obtain ⟨⟨depth, quoted⟩, hs, hrest⟩ := Option.bind_eq_some_iff.1 hlisted
    rw [Scan.run_inside hs] at hclosed
    cases quoted with
    | true => simp [Scan.inside, Scan.step, Scan.start] at hclosed
    | false =>
      cases depth with
      | zero => simp [Scan.step] at hrest
      | succ depth => simp [Scan.inside, Scan.step, Scan.start] at hclosed
  · intro hflat
    rw [(upToClosing_eq_text_iff wide k).2 hflat, isClosed, beq_iff_eq, text, hopen, Scan.run_append,
      Scan.run_inside hlisted]
    rfl

end Call

/-! ## Calls are read as defaults -/

namespace ColumnDefinition

/-- A word does not begin a literal, though it may begin with the letter that stands in front of one. -/
theorem literalForm_word (w : PlainWord) (rest : List Char) :
    (optional (keyword "e") >> Token.literal) (w.text ++ '(' :: rest) = none := by
  obtain ⟨c, more, htext⟩ := List.exists_cons_of_ne_nil w.ne_nil
  have hquote : ∀ d ∈ w.text, d ≠ '\'' := by
    rintro d hd rfl
    exact w.not_mem_text (by decide) hd
  rw [htext] at hquote ⊢
  obtain ⟨hc, hmore⟩ := List.forall_mem_cons.1 hquote
  have hbehind : Token.literal (more ++ '(' :: rest) = none := by
    cases more with
    | nil => exact Token.literal_cons (by decide) rest
    | cons d more => exact Token.literal_cons (hmore d (List.mem_cons_self ..)) _
  cases hletter : keyword "e" (c :: (more ++ '(' :: rest)) with
  | none =>
    rw [List.cons_append, optional_andThen hletter]
    exact Token.literal_cons hc _
  | some n =>
    obtain rfl : n = 1 := length_of_letters hletter
    rw [List.cons_append, andThen_of_eq_some (optional_of_eq_some hletter), List.drop_one, List.tail_cons, hbehind]
    rfl

/-- A word does not begin a number. -/
theorem numberForm_word (w : PlainWord) (rest : List Char) :
    (optional (char '-') >> Token.digits1 >> optional (char '.' >> Token.digits1)) (w.text ++ rest) = none := by
  obtain ⟨c, more, htext⟩ := List.exists_cons_of_ne_nil w.ne_nil
  have hsign : c ≠ '-' := by
    rintro rfl
    exact w.not_mem_text (c := '-') (by decide) (htext ▸ List.mem_cons_self ..)
  have hdecimal : isDecimal c = false := w.begins c (by rw [htext]; rfl)
  rw [htext, List.cons_append, optional_andThen (char_cons_of_ne hsign _)]
  refine andThen_eq_none (andThen_eq_none ?_)
  exact if_neg (Bool.eq_false_iff.1 hdecimal)

/-- The name and the default of a column. -/
theorem exists_column_default {type : List Char} {length : Option Nat}
    (hlength : ColumnType.length? (squeeze type) = .ok length) (name rest : List Char) :
    ∃ c notes, column name type rest = .ok ⟨c, notes⟩ ∧ c.name = String.ofList (Identifier.bareName name) ∧
      c.default = default? rest := by
  rw [column, hlength]
  exact ⟨_, _, rfl, rfl, rfl⟩

/-- **A call is taken up to its first closing parenthesis.** -/
theorem defaultValue_call (w : PlainWord) {inner : List Char} (hinner : ∀ c ∈ inner, (c != ')') = true)
    (rest : List Char) :
    defaultValue (w.text ++ '(' :: (inner ++ [')']) ++ rest) = some (w.text ++ '(' :: (inner ++ [')'])).length := by
  have hword : many1 isWord (w.text ++ ('(' :: (inner ++ [')']) ++ rest)) = some w.text.length :=
    many1_eq_some.2 ⟨List.length_pos_iff.2 w.ne_nil, by
      rw [takeWhile_append w.isWord (by rintro c ⟨⟩; decide)]⟩
  have harguments : (blanks >> ColumnType.parameters) ('(' :: (inner ++ [')']) ++ rest) =
      some ('(' :: (inner ++ [')'])).length := by
    refine (andThen_of_eq_some (n := 0) rfl _).trans ?_
    exact (congrArg (Option.map _) (ColumnType.parameters_append hinner rest)).trans (congrArg some (Nat.zero_add _))
  have hcall : (many1 isWord >> optional (blanks >> ColumnType.parameters))
      (w.text ++ ('(' :: (inner ++ [')']) ++ rest)) = some (w.text ++ '(' :: (inner ++ [')'])).length := by
    rw [andThen_of_eq_some hword, List.drop_left, optional_of_eq_some harguments, Option.map_some, List.length_append]
  rw [defaultValue, orElse_apply, orElse_apply, List.append_assoc, numberForm_word, Option.none_or]
  rw [List.cons_append, literalForm_word, Option.none_or]
  exact hcall

end ColumnDefinition

namespace Call

variable (wide : Bool) (k : Call)

/-- A column with a call as its default. -/
def columnText : List Char := "c TEXT DEFAULT ".toList ++ k.text wide

/-- The name and the type of the column. -/
theorem heading_columnText : ColumnDefinition.heading (k.columnText wide) =
    some (("c".toList, "TEXT".toList), " DEFAULT ".toList ++ k.text wide) := by
  have htype : ∀ rest, ColumnDefinition.columnType ("TEXT".toList ++ (" DEFAULT ".toList ++ rest)) = some 4 := by
    intro rest
    have hcontinuation : ColumnDefinition.typeContinuation (" DEFAULT ".toList ++ rest) = none := rfl
    have hrest : ColumnDefinition.typeRest (" DEFAULT ".toList ++ rest) = some 0 :=
      ColumnDefinition.typeRest_eq_zero hcontinuation (by rintro c hc ⟨⟩; revert hc; decide)
    exact @ColumnDefinition.columnType_word 'T' "EXT".toList _ _ rfl (List.all_eq_true.1 rfl)
      (by rintro d ⟨⟩; decide) hrest
  have hfirst : "TEXT".toList.head? = some 'T' := rfl
  exact @ColumnDefinition.heading_append "c".toList _ _ _ rfl hfirst (by decide) (htype _)

/-- What is read of a call. -/
theorem default?_text : ColumnDefinition.default? (" DEFAULT ".toList ++ k.text wide) =
    some (String.ofList (upToClosing (k.text wide))) := by
  have hclosing : ')' ∈ k.text wide := by simp [text]
  obtain ⟨rest, hsplit⟩ := exists_of_closing_mem hclosing
  have hrest : k.text wide = upToClosing (k.text wide) ++ rest := by
    rw [upToClosing, List.append_assoc, List.singleton_append]
    exact hsplit
  have hvalue : ColumnDefinition.defaultValue (upToClosing (k.text wide) ++ rest) =
      some (upToClosing (k.text wide)).length := by
    rw [upToClosing_text]
    exact ColumnDefinition.defaultValue_call _ (List.all_eq_true.1 List.all_takeWhile) rest
  have hblank : ∀ c ∈ (upToClosing (k.text wide)).head?, isBlank c = false := by
    intro c hc
    rw [upToClosing_text, List.head?_append_of_ne_nil _ k.name.ne_nil] at hc
    exact isBlank_of_isWord (k.name.isWord c (List.mem_of_mem_head? hc))
  have hread := ColumnDefinition.defaultAfter_append hblank (by simp [upToClosing]) hvalue
  rw [List.append_assoc, ← hrest] at hread
  have hspace : " DEFAULT ".toList ++ k.text wide = ' ' :: ("DEFAULT ".toList ++ k.text wide) := rfl
  rw [ColumnDefinition.default?_eq, searchWord, search, hspace, searchAfter_cons,
    ColumnDefinition.defaultAfter_cons (by decide), ite_self, Option.none_or,
    searchAfter_of_eq_some ((if_pos rfl).trans hread)]
  rfl

/-- **A call is read as the default up to its first closing parenthesis**: the whole of it exactly if no argument is a
call or holds such a parenthesis, and otherwise a text with an open parenthesis or an open quote. -/
theorem read_iff (table : String) : ∃ c notes,
    Definition.read table (k.columnText wide) = .ok ⟨.column c, notes⟩ ∧ c.name = "c" ∧
      c.default = some (String.ofList (upToClosing (k.text wide))) ∧
      (c.default = some (String.ofList (k.text wide)) ↔ k.isFlat = true) ∧
      (isClosed (upToClosing (k.text wide)) = true ↔ k.isFlat = true) := by
  have hwords : Text.words (k.columnText wide) = ['c'] :: Text.words (" TEXT DEFAULT ".toList ++ k.text wide) :=
    words_append (List.cons_ne_nil 'c' []) (List.forall_mem_singleton.2 rfl) (by rintro c ⟨⟩; decide)
  have hconstraint : Definition.isConstraint (k.columnText wide) = false := by
    have hname : Definition.constraintWords.contains (upper ['c']) = false := by decide
    rw [Definition.isConstraint, hwords]
    cases Text.words (" TEXT DEFAULT ".toList ++ k.text wide) with
    | nil => exact hname
    | cons second more => rw [Definition.isConstraintOf, hname, Bool.false_and]
  have hlength : ColumnType.length? (squeeze "TEXT".toList) = .ok none := by decide +kernel
  have hbare : Identifier.bareName "c".toList = "c".toList := by decide +kernel
  obtain ⟨c, notes, hcolumn, hname, hdefault⟩ :=
    ColumnDefinition.exists_column_default hlength "c".toList (" DEFAULT ".toList ++ k.text wide)
  rw [hbare] at hname
  rw [k.default?_text] at hdefault
  refine ⟨c, notes, ?_, hname, hdefault, ?_, k.isClosed_upToClosing_iff wide⟩
  · rw [Definition.read, hwords, hconstraint, Definition.ofColumn, heading_columnText]
    dsimp only
    rw [hcolumn]
    rfl
  · rw [hdefault, ← k.upToClosing_eq_text_iff wide, Option.some.injEq, String.ofList_inj]

/-- A call whose argument is a call. -/
def nested : Call where
  name := ⟨['f'], List.cons_ne_nil _ _, List.forall_mem_singleton.2 rfl, by rintro c ⟨⟩; decide⟩
  arguments := [.call ⟨['g'], List.cons_ne_nil _ _, List.forall_mem_singleton.2 rfl, by rintro c ⟨⟩; decide⟩ []]

/-- A call within a call is cut off at the parenthesis that closes the inner one. -/
theorem read_nested : nested.text false = "f(g())".toList ∧ isClosed (nested.text false) = true ∧
    (Definition.read "t" (nested.columnText false)).toOption.map (·.value) = some (.column {
      name := "c", type := "TEXT", nullable := true, unique := false, primaryKey := false,
      default := some "f(g()", length := none, references := none }) ∧
    isClosed "f(g()".toList = false := by decide +kernel

end Call

end SchemaSketch
