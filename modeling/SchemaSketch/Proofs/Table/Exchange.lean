import SchemaSketch.Proofs.Table.Literals
import SchemaSketch.Proofs.Table.Origin

/-!
# A literal in the place of another

What a statement says of foreign keys is compared for two literals at one place. The literal is a token that cuts
nothing: of the entries of a column list it stands in one, and the others are as they were
(`Statement.exists_entriesOf`); of the clauses of an alteration likewise (`Alteration.exists_clauses`). So it is
enough to look at the text around it. There it makes no difference as long as it is spared: always in what is no
foreign key, and elsewhere if none of the phrases that foreign keys are read by begins in it or reaches over it
(`literals_inert`). The phrases are looked for in the text as it is written, so it can make one
(`Table.keys_of_defaults`).
-/

namespace SchemaSketch

open Text Pattern

/-! ## The entry that a literal stands in -/

/-- A literal as a token. -/
def Token.quoted (content : List Char) : Token := ⟨.other, '\'' :: (content ++ ['\''])⟩

namespace Statement

/-- How many parentheses are open behind tokens, and the run that is being read there, in reverse. -/
def runAfter (depth : Nat) (current : List Token) : List Token → Nat × List Token
  | [] => (depth, current)
  | t :: rest =>
    if t.isMark ',' && depth == 0 then runAfter 0 [] rest
    else if t.isMark '(' then runAfter (depth + 1) (t :: current) rest
    else if t.isMark ')' then runAfter (depth - 1) (t :: current) rest
    else runAfter depth (t :: current) rest

/-- The first run of tokens. -/
def firstRun (depth : Nat) (ts : List Token) : List Token := (commaRuns depth [] ts).headD []

/-- The run that has been begun goes into the first one. -/
theorem commaRuns_eq (depth : Nat) (current ts : List Token) :
    commaRuns depth current ts = (current.reverse ++ firstRun depth ts) :: (commaRuns depth [] ts).tail := by
  induction ts generalizing depth current with
  | nil => rw [firstRun, commaRuns, commaRuns]; exact congrArg (· :: _) (List.append_nil _).symm
  | cons t rest ih =>
    rw [firstRun, commaRuns, commaRuns]
    split
    · exact congrArg (· :: _) (List.append_nil _).symm
    · split
      · rw [ih, ih _ [t], List.reverse_cons, List.append_assoc]; rfl
      · split <;> rw [ih, ih _ [t], List.reverse_cons, List.append_assoc] <;> rfl

/-- A literal cuts nothing: it stands in a run. -/
theorem exists_commaRuns (us ts : List Token) (depth : Nat) (current : List Token) :
    ∃ before after, ∀ content, commaRuns depth current (ts ++ Token.quoted content :: us) =
      before ++ ((runAfter depth current ts).2.reverse ++
        Token.quoted content :: firstRun (runAfter depth current ts).1 us) :: after := by
  induction ts generalizing depth current with
  | nil =>
    refine ⟨[], (commaRuns depth [] us).tail, fun content => ?_⟩
    have hquoted : commaRuns depth current (Token.quoted content :: us) =
        commaRuns depth (Token.quoted content :: current) us := rfl
    rw [List.nil_append, hquoted, commaRuns_eq, List.reverse_cons, List.append_assoc]
    rfl
  | cons t rest ih =>
    simp only [List.cons_append, commaRuns, runAfter]
    split
    · obtain ⟨before, after, h⟩ := ih 0 []
      exact ⟨current.reverse :: before, after, fun content => by rw [h]; rfl⟩
    · split
      · exact ih _ _
      · split <;> exact ih _ _

/-- The entries of a list that has been cut into tokens. -/
def entriesOf (ts : List Token) : List (List Char) :=
  ((commaRuns 0 [] ts).map fun run => trim (textOf run)).filter (! ·.isEmpty)

/-- What stands in front of a literal in its entry; `ts` are the tokens in front of it. -/
def frontOf (ts : List Token) : List Char := (textOf (runAfter 0 [] ts).2.reverse).dropWhile isBlank

/-- What stands behind a literal in its entry; `us` are the tokens behind it. -/
def backOf (ts us : List Token) : List Char := dropEnd isBlank (textOf (firstRun (runAfter 0 [] ts).1 us))

theorem trim_around (front content back : List Char) :
    trim (around front content back) = around (front.dropWhile isBlank) content (dropEnd isBlank back) := by
  have hdrop : ∀ a b : List Char, (a ++ '\'' :: b).dropWhile isBlank = a.dropWhile isBlank ++ '\'' :: b := by
    intro a b
    rw [List.dropWhile_append]
    split
    · next hnil => rw [List.isEmpty_iff.1 hnil]; rfl
    · rfl
  have hend : ∀ a b : List Char, dropEnd isBlank (a ++ '\'' :: b) = a ++ '\'' :: dropEnd isBlank b := by
    intro a b
    rw [dropEnd, dropEnd, List.reverse_append, List.reverse_cons, List.append_assoc, List.singleton_append, hdrop,
      List.reverse_append, List.reverse_cons, List.reverse_reverse, List.append_assoc, List.singleton_append]
  rw [trim, trimBy, around, hdrop, ← List.cons_append, ← List.append_assoc, hend, List.append_assoc]
  rfl

/-- **A literal stands in one entry**, and does not change the others. -/
theorem exists_entriesOf (ts us : List Token) :
    ∃ before after, ∀ content, entriesOf (ts ++ Token.quoted content :: us) =
      before ++ around (frontOf ts) content (backOf ts us) :: after := by
  obtain ⟨before, after, h⟩ := exists_commaRuns us ts 0 []
  refine ⟨(before.map fun run => trim (textOf run)).filter (! ·.isEmpty),
    (after.map fun run => trim (textOf run)).filter (! ·.isEmpty), fun content => ?_⟩
  have htext : trim (textOf ((runAfter 0 [] ts).2.reverse ++
      Token.quoted content :: firstRun (runAfter 0 [] ts).1 us)) = around (frontOf ts) content (backOf ts us) := by
    rw [frontOf, backOf, ← trim_around, textOf, List.flatMap_append, List.flatMap_cons, around, textOf, textOf]
    simp only [Token.quoted, List.cons_append, List.append_assoc, List.nil_append]
  have hne : (around (frontOf ts) content (backOf ts us)).isEmpty = false := by
    rw [around]
    exact List.isEmpty_eq_false_iff.2 (List.append_ne_nil_of_right_ne_nil _ (List.cons_ne_nil _ _))
  rw [entriesOf, h, List.map_append, List.map_cons, List.filter_append, htext,
    List.filter_cons_of_pos (by rw [hne]; rfl)]

/-- A list that is closed is closed whatever follows. -/
theorem untilClosed_append {depth : Int} {inner ts : List Token} {body : List Char}
    (h : untilClosed depth inner ts = some body) (us : List Token) :
    untilClosed depth inner (ts ++ us) = some body := by
  induction ts generalizing depth inner with
  | nil => cases h
  | cons t rest ih =>
    rw [List.cons_append]
    simp only [untilClosed] at h ⊢
    split_ifs at h ⊢
    all_goals first | exact h | exact ih h

end Statement

/-! ## Entries -/

namespace Definition

/-- The word that a literal stands in is the same in front of it. -/
theorem exists_words_around (front back : List Char) :
    ∃ ws q, ∀ content, ∃ r more, words (around front content back) = ws ++ (q ++ '\'' :: r) :: more := by
  have hruns : ∀ current : List Char, ∃ ws q, ∀ z, ∃ r more,
      runsFrom isBlank current (front ++ '\'' :: z) = ws ++ (q ++ '\'' :: r) :: more := by
    induction front with
    | nil =>
      intro current
      refine ⟨[], current.reverse, fun z => ?_⟩
      obtain ⟨r, more, h⟩ := exists_runsFrom (p := isBlank) (List.cons_ne_nil '\'' current) z
      refine ⟨r, more, ?_⟩
      change runsFrom isBlank ('\'' :: current) z = _
      rw [h, List.reverse_cons, List.append_assoc]
      rfl
    | cons c front ih =>
      intro current
      simp only [List.cons_append, runsFrom]
      split
      · obtain ⟨ws, q, h⟩ := ih []
        split
        · exact ⟨ws, q, h⟩
        · refine ⟨current.reverse :: ws, q, fun z => ?_⟩
          obtain ⟨r, more, h⟩ := h z
          exact ⟨r, more, by rw [h]; rfl⟩
      · exact ih _
  obtain ⟨ws, q, h⟩ := hruns []
  exact ⟨ws, q, fun content => h _⟩

/-- A word ends at a mark that no word has in it. -/
theorem leadingWord_append {mark : Char} (hmark : mark ∈ ['\'', '(']) (q r : List Char) :
    leadingWord (q ++ mark :: r) = leadingWord q := by
  obtain ⟨hword, hstart⟩ : isWord mark = false ∧ Comment.isTagStart mark = false := by
    rcases List.mem_pair.1 hmark with rfl | rfl <;> decide
  cases q with
  | nil => rw [List.nil_append, leadingWord, hstart, if_neg Bool.false_ne_true, leadingWord]
  | cons c q =>
    have hrun : (q ++ mark :: r).takeWhile isWord = q.takeWhile isWord := by
      rw [List.takeWhile_append]
      split
      · next hall =>
        rw [List.takeWhile_cons_of_neg (by simp [hword]), List.append_nil,
          (List.takeWhile_prefix isWord).eq_of_length hall]
      · rfl
    rw [List.cons_append, leadingWord, leadingWord, hrun]

/-- No word that begins a constraint has such a mark in it. -/
theorem contains_constraintWords {mark : Char} (hmark : mark ∈ ['\'', '(']) (q r : List Char) :
    constraintWords.contains (upper (q ++ mark :: r)) = false := by
  have hwords : ∀ w ∈ constraintWords, mark ∉ w := by
    rcases List.mem_pair.1 hmark with rfl | rfl <;> decide
  have hform : mark ∈ capitalForm mark := by
    rcases List.mem_pair.1 hmark with rfl | rfl <;> decide
  rw [List.contains_eq_mem, decide_eq_false_iff_not]
  intro hmem
  refine hwords _ hmem ?_
  rw [upper_append, upper, upper, List.flatMap_cons]
  exact List.mem_append_right _ (List.mem_append_left _ hform)

/-- Whether an entry is a constraint is not said by a literal. -/
theorem isConstraint_around (front back content other : List Char) :
    isConstraint (around front content back) = isConstraint (around front other back) := by
  obtain ⟨ws, q, h⟩ := exists_words_around front back
  have hfirst : ∀ r more, isConstraintOf ((q ++ '\'' :: r) :: more) = false := by
    intro r more
    cases more with
    | nil => exact contains_constraintWords (by decide) q r
    | cons second more => rw [isConstraintOf, contains_constraintWords (by decide), Bool.false_and]
  obtain ⟨r, more, hr⟩ := h content
  obtain ⟨r', more', hr'⟩ := h other
  rw [isConstraint, isConstraint, hr, hr']
  rcases ws with _ | ⟨w, _ | ⟨v, ws⟩⟩
  · exact (hfirst r more).trans (hfirst r' more').symm
  · simp only [List.singleton_append, isConstraintOf, leadingWord_append (show '\'' ∈ ['\'', '('] by decide)]
  · rfl

theorem words_around_isEmpty (front content back : List Char) :
    (words (around front content back)).isEmpty = false := by
  obtain ⟨ws, q, h⟩ := exists_words_around front back
  obtain ⟨r, more, h⟩ := h content
  rw [h, List.isEmpty_eq_false_iff]
  exact List.append_ne_nil_of_right_ne_nil _ (List.cons_ne_nil _ _)

/-- The keys of an entry, if it can be read. -/
def keys? (table : String) (entry : List Char) : Option (List ForeignKey) := (of? table entry).toOption.map keys

theorem keys?_constraint (table : String) {entry : List Char} (h : isConstraint entry = true) :
    keys? table entry = some (Reference.foreignKey? entry).value.toList := by
  rw [keys?, of?_constraint table h, ← keys_ofConstraint table]
  rfl

theorem keys?_column (table : String) {entry : List Char} (hwords : (words entry).isEmpty = false)
    (h : isConstraint entry = false) {name type rest : List Char}
    (hheading : ColumnDefinition.heading entry = some ((name, type), rest)) :
    keys? table entry = (ColumnType.length? (squeeze type)).toOption.map fun _ =>
      (ColumnDefinition.reference? (String.ofList (Identifier.bareName name))
        (upper (ColumnDefinition.withoutLiterals rest)) rest).value.toList := by
  rw [keys?, of?_column table hwords h hheading, ColumnDefinition.column]
  cases ColumnType.length? (squeeze type) <;> rfl

/-- Two literals of which it makes no difference to the keys of an entry which one stands in it. -/
inductive Inert (front back content other : List Char) : Prop where
  /-- in a constraint that is no foreign key with either of them -/
  | noList (h : isConstraint (around front content back) = true)
      (hcontent : hasWord Heading.keyList (around front content back) = false)
      (hother : hasWord Heading.keyList (around front other back) = false) : Inert front back content other
  /-- in a constraint, where no part of a foreign key has to do with them -/
  | key (h : isConstraint (around front content back) = true) (hcontent : Reference.KeySpared front content back)
      (hother : Reference.KeySpared front other back) : Inert front back content other
  /-- in an entry that is nothing -/
  | nothing (h : isConstraint (around front content back) = false)
      (hcontent : ColumnDefinition.heading (around front content back) = none)
      (hother : ColumnDefinition.heading (around front other back) = none) : Inert front back content other
  /-- in the type of a column, which ends at the same place -/
  | type (h : isConstraint (around front content back) = false) {name type type' rest : List Char}
      (hcontent : ColumnDefinition.heading (around front content back) = some ((name, type), rest))
      (hother : ColumnDefinition.heading (around front other back) = some ((name, type'), rest))
      (hlength : (ColumnType.length? (squeeze type)).isOk = (ColumnType.length? (squeeze type')).isOk) :
      Inert front back content other
  /-- behind the type of a column: without literals the rest is the same, and if it refers to a table then the
  reference has nothing to do with them -/
  | rest (h : isConstraint (around front content back) = false) {name type rest : List Char}
      (hcontent : ColumnDefinition.heading (around front content back) = some ((name, type), around rest content back))
      (hother : ColumnDefinition.heading (around front other back) = some ((name, type), around rest other back))
      (hliterals : ColumnDefinition.withoutLiterals (around rest content back) =
        ColumnDefinition.withoutLiterals (around rest other back))
      (hspared :
        hasPart "REFERENCES".toList (upper (ColumnDefinition.withoutLiterals (around rest content back))) = true →
          Reference.Spared rest content back ∧ Reference.Spared rest other back) : Inert front back content other

/-- **The keys of an entry** are the same with literals that make no difference to them. -/
theorem keys?_around {front back content other : List Char} (h : Inert front back content other) (table : String) :
    keys? table (around front content back) = keys? table (around front other back) := by
  -- both entries are read the same way, since their first words are the same
  have hwords := words_around_isEmpty front
  have hkind := isConstraint_around front back content other
  have hwhole : Alike front back content other (around front content back) (around front other back) :=
    .around (List.suffix_refl front) (List.prefix_refl back)
  cases h with
  | noList h hcontent hother =>
    rw [keys?_constraint table h, keys?_constraint table (hkind ▸ h),
      Reference.foreignKey?_eq_none hcontent, Reference.foreignKey?_eq_none hother]
  | key h hcontent hother =>
    rw [keys?_constraint table h, keys?_constraint table (hkind ▸ h),
      Reference.foreignKey?_alike hcontent hother hwhole]
  | nothing h hcontent hother =>
    rw [keys?, keys?, of?, of?, read, read, hwords, hwords, ← hkind, h, if_neg Bool.false_ne_true,
      if_neg Bool.false_ne_true, if_neg Bool.false_ne_true, if_neg Bool.false_ne_true, ofColumn, ofColumn, hcontent,
      hother]
    rfl
  | type h hcontent hother hlength =>
    rw [keys?_column table (hwords ..) h hcontent, keys?_column table (hwords ..) (hkind ▸ h) hother]
    revert hlength
    generalize ColumnType.length? _ = length, ColumnType.length? _ = length'
    intro hlength
    cases length <;> cases length' <;> first | rfl | cases hlength
  | rest h hcontent hother hliterals hspared =>
    rw [keys?_column table (hwords ..) h hcontent, keys?_column table (hwords ..) (hkind ▸ h) hother, ← hliterals,
      Reference.reference?_alike _ hspared (.around (List.suffix_refl _) (List.prefix_refl back))]

end Definition

/-! ## Statements that create a table -/

namespace Table

/-- The foreign keys of the table that a statement creates, if it can be read. -/
def keys? (statement : List Char) : Option (List ForeignKey) :=
  (readCreate statement).value.toOption.map (·.foreignKeys)

/-- The name of the table that a statement creates, and the list in parentheses behind it. -/
def list? (statement : List Char) : Option (List Char × List Char) := do
  let (written, fromList) ← Heading.created statement
  let body ← (Statement.inParentheses? fromList).toOption.join
  pure (written, body)

/-- The keys of a table are those of the entries of its list. -/
theorem keys?_eq (statement : List Char) :
    keys? statement = (list? statement).bind fun found => (Statement.definitions found.2).toOption.bind fun entries =>
      (entries.mapM (Definition.of? (String.ofList (Identifier.bareName found.1)))).toOption.map
        (·.flatMap Definition.keys) := by
  rw [keys?, value_readCreate, definitions?, list?]
  cases Heading.created statement with
  | none => rfl
  | some found =>
    obtain ⟨written, fromList⟩ := found
    dsimp only [bind, Option.bind]
    cases Statement.inParentheses? fromList with
    | error cause => rfl
    | ok inner =>
      cases inner with
      | none => rfl
      | some body =>
        dsimp only
        change _ = (Statement.definitions body).toOption.bind fun entries =>
          (entries.mapM (Definition.of? (String.ofList (Identifier.bareName written)))).toOption.map
            (·.flatMap Definition.keys)
        cases Statement.definitions body with
        | error cause => rfl
        | ok entries =>
          dsimp only [Except.toOption, Option.bind]
          cases entries.mapM (Definition.of? (String.ofList (Identifier.bareName written))) with
          | error fault => rfl
          | ok definitions => exact congrArg some (foreignKeys_ofDefinitions ..)

/-- Two statements with different literals at a place where it makes no difference to the keys. -/
inductive Exchanged (content other statement statement' : List Char) : Prop where
  /-- in an entry of the list -/
  | inList {written body body' : List Char} {ts us : List Token}
      (hlist : list? statement = some (written, body)) (hlist' : list? statement' = some (written, body'))
      (hbody : Script.tokens body = .ok (ts ++ Token.quoted content :: us))
      (hbody' : Script.tokens body' = .ok (ts ++ Token.quoted other :: us))
      (h : Definition.Inert (Statement.frontOf ts) (Statement.backOf ts us) content other) :
      Exchanged content other statement statement'
  /-- behind the list -/
  | behindList {written fromList fromList' : List Char} {ts us us' : List Token}
      (hcreated : Heading.created statement = some (written, fromList))
      (hcreated' : Heading.created statement' = some (written, fromList'))
      (hlist : Script.tokens fromList = .ok (ts ++ Token.quoted content :: us))
      (hlist' : Script.tokens fromList' = .ok (ts ++ Token.quoted other :: us'))
      (hclosed : (Statement.untilClosed 0 [] ts).isSome = true) : Exchanged content other statement statement'

theorem definitions_eq {body : List Char} {ts us : List Token} {content : List Char}
    (h : Script.tokens body = .ok (ts ++ Token.quoted content :: us)) :
    Statement.definitions body = .ok (Statement.entriesOf (ts ++ Token.quoted content :: us)) := by
  have hquote : '\'' ∈ body := by
    refine Statement.textOf_tokens_subset h (List.mem_flatMap.2 ⟨Token.quoted content, ?_, List.mem_cons_self ..⟩)
    exact List.mem_append_right ts (List.mem_cons_self ..)
  have hblank : ¬ body.all isBlank = true := fun hall => absurd (List.all_eq_true.1 hall _ hquote) (by decide)
  rw [Statement.definitions, if_neg hblank, h]
  rfl

/-- **A literal makes no difference to the keys of a table** at such a place. -/
theorem keys?_of_exchanged {content other statement statement' : List Char}
    (h : Exchanged content other statement statement') : keys? statement = keys? statement' := by
  rw [keys?_eq, keys?_eq]
  cases h with
  | @inList written body body' ts us hlist hlist' hbody hbody' h =>
    obtain ⟨before, after, hentries⟩ := Statement.exists_entriesOf ts us
    rw [hlist, hlist', Option.bind_some, Option.bind_some, definitions_eq hbody, definitions_eq hbody', hentries,
      hentries]
    exact Except.flatMap_mapM_congr Definition.keys (Definition.keys?_around h _) before after
  | @behindList written fromList fromList' ts us us' hcreated hcreated' hlist hlist' hclosed =>
    obtain ⟨body, hbody⟩ := Option.isSome_iff_exists.1 hclosed
    have hsame : list? statement = list? statement' := by
      rw [list?, list?, hcreated, hcreated']
      dsimp only [bind, Option.bind]
      rw [Statement.inParentheses?, Statement.inParentheses?, hlist, hlist']
      dsimp only [Except.map]
      rw [Statement.untilClosed_append hbody, Statement.untilClosed_append hbody]
    rw [hsame]

end Table

/-! ## Statements that alter a table -/

namespace Alteration

/-- The foreign keys that a statement adds to a table, if there are any. -/
def keys? (statement : List Char) : Option (List ForeignKey) := (read statement).value.toOption.map (·.foreignKeys)

/-- The word `ADD` as a reader. -/
def add : Reader Unit := Reader.skip addWord

theorem halts_addWord : addWord.Halts := (halts_letters (by decide)).wordEnds

theorem clausesFrom_eq (passing : Nat) (before : Option Char) (current : Option (List Char)) (cs : List Char) :
    clausesFrom passing before current cs =
      clausesFrom 0 ((cs.take passing).getLast?.or before) current (cs.drop passing) := by
  induction cs generalizing passing before with
  | nil => rw [List.drop_nil, clausesFrom, clausesFrom]
  | cons c rest ih =>
    cases passing with
    | zero => rfl
    | succ left =>
      rw [clausesFrom, ih, List.take_succ_cons, List.drop_succ_cons, List.getLast?_cons]
      cases (rest.take left).getLast? <;> rfl

/-- The word has three letters. -/
theorem length_of_addWord {cs : List Char} (h : addWord.fits cs = true) : 3 ≤ cs.length := by
  obtain ⟨n, hn⟩ := Option.isSome_iff_exists.1 h
  have hletters := length_of_letters (followedBy_eq_some.1 hn).1
  have hbound := halts_addWord.bounded cs n hn
  rw [hletters] at hbound
  exact hbound

/-- The clauses in front of a literal, and the one that is being read there. -/
theorem exists_clausesFrom (before : Option Char) (current : Option (List Char)) (a : List Char) :
    ∃ found before' current', (∀ k ∈ current', k.reverse <:+ (current.getD []).reverse ++ a) ∧
      ∀ z, clausesFrom 0 before current (a ++ '\'' :: z) = found ++ clausesFrom 0 before' current' ('\'' :: z) := by
  match a with
  | [] =>
    refine ⟨[], before, current, fun k hk => ?_, fun z => rfl⟩
    rw [hk, Option.getD_some, List.append_nil]
  | c :: a =>
    have hfits : ∀ z, addWord.fits (c :: (a ++ '\'' :: z)) = addWord.fits (c :: a) := fun z =>
      congrArg Option.isSome (halts_addWord.eq (c :: a) z)
    by_cases hadd : (wordMayBegin before && addWord.fits (c :: a)) = true
    · -- a clause begins behind the word
      have hlength : 2 ≤ a.length := Nat.le_of_succ_le_succ (length_of_addWord (Bool.and_eq_true_iff.1 hadd).2)
      obtain ⟨found, before', current', hcurrent, h⟩ :=
        exists_clausesFrom ((a.take 2).getLast?.or (some c)) (some []) (a.drop 2)
      refine ⟨(current.map List.reverse).toList ++ found, before', current', fun k hk => ?_, fun z => ?_⟩
      · exact (hcurrent k hk).trans ((List.drop_suffix 2 a).trans
          ((List.suffix_cons c a).trans (List.suffix_append _ (c :: a))))
      · rw [List.cons_append, clausesFrom, hfits, if_pos hadd, clausesFrom_eq,
          List.take_append_of_le_length hlength, List.drop_append_of_le_length hlength, h, List.append_assoc]
    · obtain ⟨found, before', current', hcurrent, h⟩ := exists_clausesFrom (some c) (current.map (c :: ·)) a
      refine ⟨found, before', current', fun k hk => (hcurrent k hk).trans ?_, fun z => ?_⟩
      · cases current with
        | none => exact List.suffix_cons c a
        | some k =>
          rw [Option.map_some, Option.getD_some, Option.getD_some, List.reverse_cons, List.append_assoc]
          exact List.suffix_refl _
      · rw [List.cons_append, clausesFrom, hfits, if_neg hadd, h]
termination_by a.length

/-- No clause begins in a literal that is spared. -/
theorem clausesFrom_literal {front content back : List Char} (h : add.Spares front content back)
    (before : Option Char) (current : Option (List Char)) :
    clausesFrom 0 before current ('\'' :: (content ++ '\'' :: back)) =
      clausesFrom 0 (some '\'') (current.map fun k => '\'' :: (content.reverse ++ '\'' :: k)) back := by
  have hquote : ∀ z, addWord.fits ('\'' :: z) = false := fun z => congrArg Option.isSome (halts_addWord.eq [] z)
  -- `u` is the part of the literal that has been passed, `v` the part ahead
  have hinside : ∀ u v, content = u ++ v →
      clausesFrom 0 (u.getLast?.or (some '\'')) (current.map fun k => u.reverse ++ '\'' :: k) (v ++ '\'' :: back) =
        clausesFrom 0 (some '\'') (current.map fun k => '\'' :: (content.reverse ++ '\'' :: k)) back := by
    intro u v
    induction v generalizing u with
    | nil =>
      intro hcontent
      rw [List.nil_append, clausesFrom, hquote, Bool.and_false, if_neg Bool.false_ne_true, Option.map_map, hcontent,
        List.append_nil]
      rfl
    | cons c v ih =>
      intro hcontent
      have hnone : (wordMayBegin (u.getLast?.or (some '\'')) && addWord.fits (c :: (v ++ '\'' :: back))) = false := by
        rw [Bool.and_eq_false_imp]
        intro hword
        have hadd := Option.map_eq_none_iff.1 (h.eq_none hcontent hword (List.prefix_refl back))
        exact congrArg Option.isSome hadd
      have hnext := ih (u ++ [c]) (by rw [hcontent, List.append_assoc]; rfl)
      rw [List.getLast?_concat, List.reverse_append] at hnext
      rw [List.cons_append, clausesFrom, hnone, if_neg Bool.false_ne_true, Option.map_map]
      exact hnext
  rw [clausesFrom, hquote, Bool.and_false, if_neg Bool.false_ne_true]
  exact hinside [] content rfl

/-- The clause that is being read ends in front of the next. -/
theorem exists_clausesFrom_some (before : Option Char) (cs : List Char) :
    ∃ b rest, b <+: cs ∧ ∀ k, clausesFrom 0 before (some k) cs = (k.reverse ++ b) :: rest := by
  induction cs generalizing before with
  | nil => exact ⟨[], [], List.prefix_refl [], fun k => by rw [clausesFrom, List.append_nil]; rfl⟩
  | cons c cs ih =>
    simp only [clausesFrom]
    split
    · exact ⟨[], _, List.nil_prefix, fun k => by rw [List.append_nil]; rfl⟩
    · obtain ⟨b, rest, hb, h⟩ := ih (some c)
      refine ⟨c :: b, rest, List.cons_prefix_cons.2 ⟨rfl, hb⟩, fun k => ?_⟩
      rw [Option.map_some, h, List.reverse_cons, List.append_assoc]
      rfl

/-- **A literal stands in front of all clauses or in one of them**, and does not change the others. -/
theorem exists_clauses (front back : List Char) :
    (∃ found, ∀ content, add.Spares front content back → clauses (around front content back) = found) ∨
      ∃ before a b after, a <:+ front ∧ b <+: back ∧ ∀ content, add.Spares front content back →
        clauses (around front content back) = before ++ around a content b :: after := by
  obtain ⟨found, before, current, hcurrent, h⟩ := exists_clausesFrom none none front
  have hclauses : ∀ content, add.Spares front content back → clauses (around front content back) =
      found ++ clausesFrom 0 (some '\'') (current.map fun k => '\'' :: (content.reverse ++ '\'' :: k)) back := by
    intro content hspared
    rw [clauses, around, h, clausesFrom_literal hspared]
  cases current with
  | none => exact .inl ⟨found ++ clausesFrom 0 (some '\'') none back, hclauses⟩
  | some k =>
    obtain ⟨b, rest, hb, hback⟩ := exists_clausesFrom_some (some '\'') back
    refine .inr ⟨found, k.reverse, b, rest, hcurrent k rfl, hb, fun content hspared => ?_⟩
    rw [hclauses content hspared, Option.map_some, hback]
    simp only [around, List.reverse_cons, List.reverse_append, List.reverse_reverse, List.append_assoc,
      List.cons_append, List.nil_append]

/-- The keys in the clauses of a text. -/
def keysOf (cs : List Char) : List ForeignKey :=
  (clauses cs).filterMap fun clause => (Reference.foreignKey? clause).value

/-- The keys that a statement adds are those in its clauses; none are none. -/
theorem keys?_eq {statement written rest : List Char} (h : Heading.altered statement = some (written, rest)) :
    keys? statement = if (keysOf rest).isEmpty then none else some (keysOf rest) := by
  have hkeys : ((clauses rest).map Reference.foreignKey?).filterMap (·.value) = keysOf rest := List.filterMap_map ..
  rw [keys?, read, h]
  dsimp only
  rw [hkeys]
  split <;> rfl

/-- Two statements with different literals with which no word `ADD` and no part of a foreign key has to do. -/
inductive Exchanged (content other statement statement' : List Char) : Prop where
  /-- behind the heading -/
  | mk {written front back : List Char}
      (haltered : Heading.altered statement = some (written, around front content back))
      (haltered' : Heading.altered statement' = some (written, around front other back))
      (hadd : add.Spares front content back) (hadd' : add.Spares front other back)
      (hkey : Reference.KeySpared front content back) (hkey' : Reference.KeySpared front other back) :
      Exchanged content other statement statement'

/-- **A literal makes no difference to the keys that are added.** -/
theorem keys?_of_exchanged {content other statement statement' : List Char}
    (h : Exchanged content other statement statement') : keys? statement = keys? statement' := by
  obtain @⟨written, front, back, haltered, haltered', hadd, hadd', hkey, hkey'⟩ := h
  have hkeys : keysOf (around front content back) = keysOf (around front other back) := by
    rw [keysOf, keysOf]
    rcases exists_clauses front back with ⟨found, h⟩ | ⟨before, a, b, after, ha, hb, h⟩
    · rw [h content hadd, h other hadd']
    · rw [h content hadd, h other hadd', List.filterMap_append, List.filterMap_append, List.filterMap_cons,
        List.filterMap_cons, Reference.foreignKey?_alike hkey hkey' (.around ha hb)]
  rw [keys?_eq haltered, keys?_eq haltered', hkeys]

end Alteration

/-- **Literals have no part in foreign keys** where none of the phrases that these are read by begins in the literal
or reaches over it. -/
theorem literals_inert (content other statement statement' : List Char) :
    (Table.Exchanged content other statement statement' → Table.keys? statement = Table.keys? statement') ∧
      (Alteration.Exchanged content other statement statement' →
        Alteration.keys? statement = Alteration.keys? statement') :=
  ⟨Table.keys?_of_exchanged, Alteration.keys?_of_exchanged⟩

/-- A column with a reference behind its default value. -/
def Table.defaulted (content : List Char) : List Char :=
  "create table a(x int default'".toList ++ (content ++ "'references b)".toList)

/-- A foreign key and a check. -/
def Alteration.checked (content : List Char) : List Char :=
  "alter table a add foreign key(x)references b,add check(y<>'".toList ++ (content ++ "')".toList)

theorem literals_inert_flagWords :
    Table.keys? (Table.defaulted "q".toList) = Table.keys? (Table.defaulted "NOT NULL".toList) ∧
      Alteration.keys? (Alteration.checked "q".toList) = Alteration.keys? (Alteration.checked "drop".toList) := by
  constructor
  · refine (literals_inert "q".toList "NOT NULL".toList _ _).1 ?_
    have hlist : Table.list? (Table.defaulted "q".toList) = some (['a'], "x int default'q'references b".toList) := by
      decide +kernel
    have hlist' : Table.list? (Table.defaulted "NOT NULL".toList) =
        some (['a'], "x int default'NOT NULL'references b".toList) := by decide +kernel
    have htokens : Script.tokens "x int default'q'references b".toList =
        .ok (Token.lex "x int default".toList ++ Token.quoted "q".toList :: Token.lex "references b".toList) := by
      decide +kernel
    have htokens' : Script.tokens "x int default'NOT NULL'references b".toList = .ok
        (Token.lex "x int default".toList ++ Token.quoted "NOT NULL".toList :: Token.lex "references b".toList) := by
      decide +kernel
    have hfront : Statement.frontOf (Token.lex "x int default".toList) = "x int default".toList := by decide +kernel
    have hback : Statement.backOf (Token.lex "x int default".toList) (Token.lex "references b".toList) =
        "references b".toList := by decide +kernel
    refine .inList hlist hlist' htokens htokens' ?_
    rw [hfront, hback]
    have hheading : ColumnDefinition.heading (around "x int default".toList "q".toList "references b".toList) =
        some ((['x'], "int".toList), around " default".toList "q".toList "references b".toList) := by decide +kernel
    have hheading' : ColumnDefinition.heading
        (around "x int default".toList "NOT NULL".toList "references b".toList) =
        some ((['x'], "int".toList), around " default".toList "NOT NULL".toList "references b".toList) := by
      decide +kernel
    refine .rest (by decide +kernel) hheading hheading' (by decide +kernel) fun _ => ⟨?_, ?_⟩
    all_goals
      constructor
      all_goals
        constructor
        all_goals decide +kernel
  · refine (literals_inert "q".toList "drop".toList _ _).2 ?_
    have haltered : ∀ content ∈ ["q".toList, "drop".toList], Heading.altered (Alteration.checked content) =
        some (['a'], around " add foreign key(x)references b,add check(y<>".toList content ")".toList) := by
      decide +kernel
    obtain ⟨hcontent, hother⟩ := List.forall_mem_cons.1 haltered
    refine .mk hcontent (hother _ (List.mem_cons_self ..)) ?_ ?_ ?_ ?_
    · constructor <;> decide +kernel
    · constructor <;> decide +kernel
    all_goals
      refine ⟨⟨?_, ?_, ?_⟩, ?_, ?_⟩
      all_goals
        constructor
        all_goals decide +kernel

/-- A table that is named in a default value is taken for the one that is referred to. -/
theorem Table.keys_of_defaults :
    (keys? (defaulted "q".toList)).map (·.map (·.refTable)) = some ["b"] ∧
      (keys? (defaulted "references c".toList)).map (·.map (·.refTable)) = some ["c"] := by
  decide +kernel

end SchemaSketch
