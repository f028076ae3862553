import SchemaSketch.Proofs.Table.NameLists

/-!
# The clause of a foreign key, as it may be written

A clause names the constraint or does not, lists plain names, refers to a table with or without its columns, and says
what happens on a deletion and on a change, both or one or neither, and in either order. Its keywords are in letters of
either case (`KeyClause`).

The parts are found by five searches that know nothing of each other. Each passes over what is in front of its part,
where names may be keywords too, so the key that is read is the one that is meant (`KeyClause.decoded`).
-/

namespace SchemaSketch

open Text Pattern

namespace Reference

/-! ## Actions -/

/-- An action as clauses name it. There is one that documents do not know. -/
inductive WrittenAction where
  | known (action : Action)
  | setDefault

/-- The action that documents keep. -/
def WrittenAction.action? : WrittenAction → Option Action
  | .known action => some action
  | .setDefault => none

/-- The words of an action. -/
def WrittenAction.words : WrittenAction → String
  | .known .cascade => "cascade"
  | .known .setNull => "set null"
  | .known .restrict => "restrict"
  | .known .noAction => "no action"
  | .setDefault => "set default"

/-- What an action answers to. -/
inductive Occasion where
  | deletion
  | change
  deriving DecidableEq

/-- The word of an occasion. -/
def Occasion.word : Occasion → String
  | .deletion => "delete"
  | .change => "update"

/-- `ON`, an occasion and an action. -/
structure OnClause (occasion : Occasion) where
  /-- the action -/
  written : WrittenAction
  /-- the word `ON` -/
  on : Cased "on"
  /-- the word of the occasion -/
  word : Cased occasion.word
  /-- the words of the action -/
  words : Cased written.words

/-- The name of an action is its words in capitals, with low lines for the spaces. -/
theorem name_eq_join (action : Action) :
    action.name.toList = join ['_'] (Text.words (upper (WrittenAction.known action).words.toList)) := by
  cases action <;> cbv

namespace OnClause

variable {occasion : Occasion} (c : OnClause occasion)

/-- What is in front of the action. -/
def front : List Char := c.on.text ++ ' ' :: (c.word.text ++ [' '])

/-- The text of the clause. -/
def text : List Char := c.front ++ c.words.text

/-- The same in small letters. -/
def small : List Char := "on".toList ++ ' ' :: (occasion.word.toList ++ [' ']) ++ c.written.words.toList

theorem sameLetters : SameLetters c.text c.small := by
  have hword : SameLetters (c.word.text ++ [' ']) (occasion.word.toList ++ [' ']) := SameLetters.append c.word.spells rfl
  exact ((SameLetters.append c.on.spells (hword.cons ' '))).append c.words.spells

theorem text_append (rest : List Char) : c.text ++ rest =
    c.on.text ++ ' ' :: ((c.word.text ++ ' ' :: c.words.text) ++ rest) := by
  simp [text, front]

theorem exists_text_eq_cons : ∃ first rest, isNameChar first = true ∧ c.text = first :: rest := by
  obtain ⟨first, rest, hon⟩ := List.exists_cons_of_ne_nil (c.on.ne_nil (by decide))
  refine ⟨first, rest ++ ' ' :: (c.word.text ++ [' ']) ++ c.words.text, ?_, by rw [text, front, hon]; rfl⟩
  exact c.on.isNameChar (by decide) _ (hon ▸ List.mem_cons_self ..)

/-! ## The action is read where it stands -/

theorem blind_actionWords : Blind actionWords := by
  have hphrase : ∀ {ks : List String}, ks.all isKeyword = true → Blind (phrase ks) := fun h => blind_phrase h
  exact (blind_keyword (by decide)).orElse ((hphrase (by decide)).orElse ((hphrase (by decide)).orElse
    ((blind_keyword (by decide)).orElse (hphrase (by decide)))))

theorem actionAfter_append (rest : List Char) :
    actionAfter occasion.word (c.text ++ rest) = some (c.words.text, rest) := by
  have hfront : (phrase ["on", occasion.word] >> blanks1) (c.text ++ rest) = some c.front.length := by
    have hblind : Blind (phrase ["on", occasion.word] >> blanks1) :=
      (blind_phrase (by cases occasion <;> decide)).andThen blind_blanks1
    have hlength : c.front.length = 4 + occasion.word.toList.length := by
      have hon := SameLetters.length_eq c.on.spells
      have hword := SameLetters.length_eq c.word.spells
      rw [front, List.length_append, List.length_cons, List.length_append, hon, hword, List.length_singleton]
      change 2 + (_ + 1 + 1) = _
      omega
    rw [hblind _ _ rest c.sameLetters, hlength, small]
    cases occasion <;> rcases c.written with (_ | _ | _ | _) | _ <;> rfl
  have hwords : actionWords (c.words.text ++ rest) = some c.words.text.length := by
    rw [blind_actionWords _ _ rest c.words.spells, SameLetters.length_eq c.words.spells]
    rcases c.written with (_ | _ | _ | _) | _ <;> rfl
  rw [actionAfter, Reader.skip_bind, hfront, Option.bind_some, text, List.append_assoc, List.drop_left, Reader.take,
    hwords, Option.map_some, List.take_left, List.drop_left]

theorem value_readAction : (readAction c.words.text).value = c.written.action? := by
  have haction : actionOf? c.words.text = c.written.action? := by
    rw [actionOf?, SameLetters.upper_eq c.words.spells]
    cases c.written with
    | known action =>
      rw [← name_eq_join]
      cases action <;> rfl
    | setDefault => cbv
  have hne : c.words.text.isEmpty = false := by
    refine List.isEmpty_eq_false_iff.2 (c.words.ne_nil ?_)
    rcases c.written with (_ | _ | _ | _) | _ <;> decide
  rw [readAction, hne, haction, if_neg Bool.false_ne_true]
  cases c.written.action? <;> rfl

/-! ## A clause for the other occasion is passed over -/

theorem begins_actionAfter (occasion : Occasion) : (actionAfter occasion.word).Begins "on" :=
  Reader.begins_skip_bind (fun _ h => andThen_eq_none (phrase_eq_none h _ [])) _

/-- The word `ON` does not stand a second time. -/
theorem lacks_on : Lacks "on" (c.word.text ++ ' ' :: c.words.text) := by
  have hsmall : SameLetters (c.word.text ++ ' ' :: c.words.text)
      (occasion.word.toList ++ ' ' :: c.written.words.toList) :=
    SameLetters.append c.word.spells (SameLetters.cons ' ' c.words.spells)
  rw [lacks_congr (by decide) hsmall]
  cases occasion <;> rcases c.written with (_ | _ | _ | _) | _ <;> cbv

variable {other : Occasion} (hother : other ≠ occasion)

include hother

theorem actionAfter_other (rest : List Char) : actionAfter other.word (c.text ++ rest) = none := by
  have hphrase : phrase ["on", other.word] (c.text ++ rest) = none := by
    rw [blind_phrase (by cases other <;> decide) _ _ rest c.sameLetters, small]
    cases other <;> cases occasion
    · exact absurd rfl hother
    · rfl
    · rfl
    · exact absurd rfl hother
  rw [actionAfter, Reader.skip_bind, andThen_eq_none hphrase]
  rfl

/-- Up to the action nothing is found. -/
theorem searchWord_other (rest : List Char) : searchWord (actionAfter other.word) (c.text ++ rest) =
    searchWord (actionAfter other.word) ((c.word.text ++ ' ' :: c.words.text) ++ rest) := by
  have hread := c.actionAfter_other hother rest
  rw [c.text_append rest] at hread ⊢
  exact searchWord_append_of_eq_none (c.on.ne_nil (by decide)) (c.on.isNameChar (by decide)) (by decide) hread

end OnClause

/-! ## Both clauses -/

/-- A clause behind a space, if there is one. -/
def clauseText {occasion : Occasion} : Option (OnClause occasion) → List Char
  | none => []
  | some c => ' ' :: c.text

section

variable {occasion other : Occasion}

/-- The action of a clause. -/
def actionIn? (clause : Option (OnClause occasion)) : Option Action := clause.bind fun c => c.written.action?

theorem value_actionOn (clause : Option (OnClause occasion)) {rest : List Char}
    (hrest : searchWord (actionAfter occasion.word) rest = none) :
    (actionOn occasion.word (clauseText clause ++ rest)).value = actionIn? clause := by
  cases clause with
  | none =>
    rw [clauseText, List.nil_append, actionOn, hrest]
    rfl
  | some c =>
    have hfound : searchWord (actionAfter occasion.word) (' ' :: (c.text ++ rest)) = some (c.words.text, rest) := by
      rw [searchWord_space (OnClause.begins_actionAfter occasion) (by decide)]
      exact searchAfter_of_eq_some (c.actionAfter_append rest)
    rw [clauseText, List.cons_append, actionOn, hfound]
    exact c.value_readAction

variable (hother : other ≠ occasion)

include hother

/-- Nothing is found in a clause for another occasion. -/
theorem searchWord_clauseText_eq_none (clause : Option (OnClause occasion)) :
    searchWord (actionAfter other.word) (clauseText clause) = none := by
  cases clause with
  | none => cases other <;> rfl
  | some c =>
    have hpassed := c.searchWord_other hother []
    rw [List.append_nil, List.append_nil] at hpassed
    rw [clauseText, searchWord_space (OnClause.begins_actionAfter other) (by decide), hpassed]
    exact searchWord_eq_none_of_lacks (OnClause.begins_actionAfter other) c.lacks_on

/-- Nor does it matter in front of one for this occasion. -/
theorem searchWord_clauseText_append (clause : Option (OnClause occasion)) (behind : Option (OnClause other)) :
    searchWord (actionAfter other.word) (clauseText clause ++ clauseText behind) =
      searchWord (actionAfter other.word) (clauseText behind) := by
  cases clause with
  | none => rfl
  | some c =>
    cases behind with
    | none => rw [clauseText.eq_1, List.append_nil, searchWord_clauseText_eq_none hother]; cases other <;> rfl
    | some d =>
      have hbegins := OnClause.begins_actionAfter other
      rw [clauseText, clauseText, List.cons_append, searchWord_space hbegins (by decide), c.searchWord_other hother,
        searchWord_append_of_lacks (by decide) hbegins c.lacks_on (by decide), searchWord_space hbegins (by decide)]

/-- **Each action is read, whichever stands first.** -/
theorem value_actionOn_both (clause : Option (OnClause occasion)) (behind : Option (OnClause other)) :
    (actionOn occasion.word (clauseText clause ++ clauseText behind)).value = actionIn? clause ∧
      (actionOn other.word (clauseText clause ++ clauseText behind)).value = actionIn? behind := by
  refine ⟨value_actionOn clause (searchWord_clauseText_eq_none (Ne.symm hother) behind), ?_⟩
  have halone : (actionOn other.word (clauseText behind ++ [])).value = actionIn? behind :=
    value_actionOn behind (by cases other <;> rfl)
  rw [List.append_nil] at halone
  rw [actionOn, searchWord_clauseText_append hother]
  exact halone

end

/-! ## Names of constraints -/

/-- The name of a constraint is read behind its word. -/
theorem constraintName_named (w : Cased "constraint") (n : PlainName) (rest : List Char) :
    constraintName (w.text ++ ' ' :: (n.text ++ ' ' :: rest)) = some (n.text, ' ' :: rest) := by
  have hwords : (keyword "constraint" >> blanks1) (w.text ++ ' ' :: (n.text ++ ' ' :: rest)) =
      some (w.text ++ [' ']).length := by
    have hkeyword : keyword "constraint" (w.text ++ ' ' :: (n.text ++ ' ' :: rest)) = some w.text.length := by
      rw [blind_keyword (by decide) _ _ _ w.spells, SameLetters.length_eq w.spells]
      rfl
    rw [andThen_space _ hkeyword (n.isBlank_head? _), List.length_append]
    rfl
  have hpart : Identifier.part (n.text ++ ' ' :: rest) = some n.text.length :=
    Identifier.part_append n.ne_nil n.isBareChar (by rintro d ⟨⟩; decide)
  rw [constraintName, Reader.skip_bind, hwords, Option.bind_some, List.append_cons _ ' ' (n.text ++ _), List.drop_left,
    Reader.take, hpart, Option.map_some, List.take_left, List.drop_left]

end Reference

/-! ## The clause -/

open Reference

/-- A foreign key as it is written. -/
structure KeyClause where
  /-- the name of the constraint -/
  name : Option PlainName
  /-- the columns that refer -/
  columns : List PlainName
  columns_ne_nil : columns ≠ []
  /-- the table referred to -/
  target : PlainName
  /-- the columns referred to; there may be none -/
  refColumns : List PlainName
  /-- what happens on a deletion -/
  onDelete : Option (OnClause .deletion)
  /-- what happens on a change -/
  onUpdate : Option (OnClause .change)
  /-- whether the deletion comes first -/
  deletionFirst : Bool
  /-- the word `CONSTRAINT` -/
  constraint : Cased "constraint"
  /-- the words `FOREIGN KEY` -/
  foreignKey : Cased "foreign key"
  /-- the word `REFERENCES` -/
  references : Cased "references"
  /-- what stands behind `KEY` -/
  gap : List Char
  blank_gap : Blank gap
  /-- what stands behind a comma -/
  listGap : List Char
  blank_listGap : Blank listGap
  unreserved : ∀ n ∈ name.toList ++ columns ++ target :: refColumns, ¬ Spells n.text "constraint"

namespace KeyClause

variable (c : KeyClause)

/-- The key that is meant. -/
def key : ForeignKey where
  name := c.name.map fun n => String.ofList n.text
  columns := c.columns.map fun n => String.ofList n.text
  refTable := String.ofList c.target.text
  refColumns := c.refColumns.map fun n => String.ofList n.text
  onDelete := actionIn? c.onDelete
  onUpdate := actionIn? c.onUpdate

/-- The clauses of the actions. -/
def acting : List Char :=
  if c.deletionFirst then clauseText c.onDelete ++ clauseText c.onUpdate else clauseText c.onUpdate ++ clauseText c.onDelete

/-- The columns referred to, in parentheses. -/
def referred : List Char :=
  if c.refColumns = [] then [] else '(' :: (PlainName.listed c.listGap c.refColumns ++ [')'])

/-- The table referred to, and what follows it. -/
def reference : List Char := c.references.text ++ ' ' :: (c.target.text ++ (c.referred ++ c.acting))

/-- The columns that refer, and what follows them. -/
def body : List Char :=
  c.foreignKey.text ++ (c.gap ++ '(' :: (PlainName.listed c.listGap c.columns ++ ')' :: ' ' :: c.reference))

/-- The text of the clause. -/
def text : List Char :=
  match c.name with
  | none => c.body
  | some n => c.constraint.text ++ ' ' :: (n.text ++ ' ' :: c.body)

/-! ## The columns that refer -/

theorem ne_parenthesis {gap : List Char} (hgap : Blank gap) (ns : List PlainName) :
    ∀ d ∈ PlainName.listed gap ns, (d != ')') = true := by
  intro d hd
  refine bne_iff_ne.2 ?_
  rintro rfl
  exact PlainName.not_mem_listed (by decide) (by decide) (fun h => absurd (hgap _ h) (by decide)) ns hd

theorem keyColumns_body :
    keyColumns c.body = some (PlainName.listed c.listGap c.columns, ' ' :: c.reference) := by
  have hwords : ∀ rest, phrase ["foreign", "key"] (c.foreignKey.text ++ rest) = some c.foreignKey.text.length := by
    intro rest
    rw [blind_phrase (by decide) _ _ rest c.foreignKey.spells, SameLetters.length_eq c.foreignKey.spells]
    rfl
  have hgap : ∀ rest, blanks (c.gap ++ '(' :: rest) = some c.gap.length := fun rest =>
    congrArg some (congrArg List.length (takeWhile_append_cons c.blank_gap (by decide) rest))
  rw [keyColumns, listAfter, Reader.skip_bind, body, andThen_of_eq_some (hwords _), List.drop_left, hgap,
    Option.map_some, Option.bind_some, ← List.append_assoc, ← List.length_append, List.drop_left]
  exact listInParentheses_append (PlainName.listed_ne_nil c.columns_ne_nil) (ne_parenthesis c.blank_listGap _) _

/-- The word `FOREIGN` in front of another one is no beginning of a key, even as the name of the constraint. -/
theorem keyColumns_name (n : PlainName) : keyColumns (n.text ++ ' ' :: c.body) = none := by
  by_cases hforeign : Spells n.text "foreign"
  · have hphrase : phrase ["foreign", "key"] (n.text ++ ' ' :: c.body) = none := by
      have hwords : SameLetters (n.text ++ ' ' :: c.foreignKey.text) "foreign foreign key".toList :=
        SameLetters.append hforeign (SameLetters.cons ' ' c.foreignKey.spells)
      rw [body, ← List.cons_append, ← List.append_assoc, blind_phrase (by decide) _ _ _ hwords]
      rfl
    rw [keyColumns, listAfter, Reader.skip_bind, andThen_eq_none hphrase]
    rfl
  · refine begins_keyColumns _ ((wholeWord_append (by decide) _ (by decide) _).trans ?_)
    exact wholeWord_eq_none_of_name (by decide) n.chars hforeign

theorem searchWord_keyColumns :
    searchWord keyColumns c.text = some (PlainName.listed c.listGap c.columns, ' ' :: c.reference) := by
  have hbody : searchWord keyColumns c.body = some (PlainName.listed c.listGap c.columns, ' ' :: c.reference) :=
    searchAfter_of_eq_some c.keyColumns_body
  rw [text]
  cases c.name with
  | none => exact hbody
  | some n =>
    have hlacks : Lacks "foreign" c.constraint.text :=
      (lacks_congr (by decide) c.constraint.spells).2 (by cbv)
    dsimp only
    rw [searchWord_append_of_lacks (by decide) begins_keyColumns hlacks (by decide),
      searchWord_append_of_eq_none n.ne_nil n.chars (by decide) (c.keyColumns_name n), hbody]

/-! ## The table referred to -/

/-- Behind the table and its columns there is nothing, or a space and a word. -/
theorem acting_cases : c.acting = [] ∨ ∃ first rest, isNameChar first = true ∧ c.acting = ' ' :: first :: rest := by
  have hboth : ∀ {a b : Occasion} (first : Option (OnClause a)) (second : Option (OnClause b)),
      clauseText first ++ clauseText second = [] ∨ ∃ letter rest, isNameChar letter = true ∧
        clauseText first ++ clauseText second = ' ' :: letter :: rest := by
    intro a b first second
    cases first with
    | some on =>
      obtain ⟨letter, rest, hletter, htext⟩ := on.exists_text_eq_cons
      exact .inr ⟨letter, rest ++ clauseText second, hletter, by rw [clauseText, htext]; rfl⟩
    | none =>
      cases second with
      | some on =>
        obtain ⟨letter, rest, hletter, htext⟩ := on.exists_text_eq_cons
        exact .inr ⟨letter, rest, hletter, by rw [clauseText, clauseText, htext]; rfl⟩
      | none => exact .inl rfl
  rw [acting]
  split
  · exact hboth _ _
  · exact hboth _ _

/-- What is behind the name of the table does not belong to it. -/
theorem ends_target : (∀ d ∈ (c.referred ++ c.acting).head?, Identifier.isBareChar d = false) ∧
    (blanks >> char '.' >> blanks >> Identifier.part) (c.referred ++ c.acting) = none := by
  by_cases hrefs : c.refColumns = []
  · rw [referred, if_pos hrefs, List.nil_append]
    rcases c.acting_cases with hacting | ⟨first, rest, hfirst, hacting⟩
    · rw [hacting]
      exact ⟨fun d hd => absurd hd (Option.not_mem_none d), rfl⟩
    · rw [hacting]
      refine ⟨by rintro d ⟨⟩; decide, blanks_char_eq_none ?_ _⟩
      rw [List.dropWhile_cons_of_pos (by decide), List.dropWhile_cons_of_neg (by simp [isBlank_of_isNameChar hfirst])]
      rintro ⟨⟩
      cases hfirst
  · rw [referred, if_neg hrefs]
    exact ⟨by rintro d ⟨⟩; decide, rfl⟩

/-- The columns referred to are read where they stand, and so is that there are none. -/
theorem exists_listOrNone : ∃ tail,
    (Reader.skip blanks >>= fun _ => listOrNone) (c.referred ++ c.acting) =
      some (PlainName.listed c.listGap c.refColumns, tail) ∧ (tail = c.acting ∨ ' ' :: tail = c.acting) := by
  by_cases hrefs : c.refColumns = []
  · rw [referred, if_pos hrefs, hrefs, List.nil_append]
    rcases c.acting_cases with hacting | ⟨first, rest, hfirst, hacting⟩
    · exact ⟨[], by rw [hacting]; rfl, .inl hacting.symm⟩
    · have hblanks : blanks (' ' :: first :: rest) = some 1 := by
        rw [blanks, many, List.takeWhile_cons_of_pos (by decide),
          List.takeWhile_cons_of_neg (by simp [isBlank_of_isNameChar hfirst])]
        rfl
      have hnone : listInParentheses (first :: rest) = none :=
        listInParentheses_cons (by rintro rfl; cases hfirst) rest
      refine ⟨first :: rest, ?_, .inr hacting.symm⟩
      rw [hacting, Reader.skip_bind, hblanks, Option.bind_some, List.drop_one, List.tail_cons, listOrNone, hnone]
      rfl
  · have hbehind : c.referred ++ c.acting = '(' :: (PlainName.listed c.listGap c.refColumns ++ ')' :: c.acting) := by
      rw [referred, if_neg hrefs, List.cons_append, List.append_assoc, List.singleton_append]
    have hblanks : blanks (c.referred ++ c.acting) = some 0 := by rw [hbehind]; rfl
    have hlist := listInParentheses_append (PlainName.listed_ne_nil hrefs) (ne_parenthesis c.blank_listGap _) c.acting
    refine ⟨c.acting, ?_, .inl rfl⟩
    rw [Reader.skip_bind, hblanks, Option.bind_some, List.drop_zero, hbehind, listOrNone, hlist]

theorem exists_target : ∃ tail,
    searchWord Reference.target (' ' :: c.reference) =
      some ((c.target.text, PlainName.listed c.listGap c.refColumns), tail) ∧
    (tail = c.acting ∨ ' ' :: tail = c.acting) := by
  obtain ⟨tail, hlist, htail⟩ := c.exists_listOrNone
  obtain ⟨hend, hpoint⟩ := c.ends_target
  have hwords : (keyword "references" >> blanks1) c.reference = some (c.references.text ++ [' ']).length := by
    have hkeyword : keyword "references" (c.references.text ++ ' ' :: (c.target.text ++ (c.referred ++ c.acting))) =
        some c.references.text.length := by
      rw [blind_keyword (by decide) _ _ _ c.references.spells, SameLetters.length_eq c.references.spells]
      rfl
    rw [reference, andThen_space _ hkeyword (c.target.isBlank_head? _), List.length_append]
    rfl
  have htarget : Identifier.qualified (c.target.text ++ (c.referred ++ c.acting)) = some c.target.text.length :=
    Identifier.qualified_append c.target.ne_nil c.target.isBareChar hend hpoint
  have hread : Reference.target c.reference = some ((c.target.text, PlainName.listed c.listGap c.refColumns), tail) := by
    have hrest : c.reference.drop (c.references.text ++ [' ']).length = c.target.text ++ (c.referred ++ c.acting) := by
      rw [reference, List.append_cons _ ' ' (c.target.text ++ _), List.drop_left]
    rw [Reference.target, Reader.skip_bind, hwords, Option.bind_some, hrest, Reader.take_bind, htarget, Option.bind_some,
      List.take_left, List.drop_left, ← bind_assoc]
    change ((Reader.skip blanks >>= fun _ => listOrNone) (c.referred ++ c.acting)).bind _ = _
    rw [hlist]
    rfl
  refine ⟨tail, ?_, htail⟩
  rw [searchWord_space begins_target (by decide)]
  exact searchAfter_of_eq_some hread

/-! ## The actions -/

theorem value_actions {tail : List Char} (htail : tail = c.acting ∨ ' ' :: tail = c.acting) :
    (actions tail).value = ⟨actionIn? c.onDelete, actionIn? c.onUpdate⟩ := by
  have hacting : (actionOn "delete" c.acting).value = actionIn? c.onDelete ∧
      (actionOn "update" c.acting).value = actionIn? c.onUpdate := by
    rw [acting]
    split
    · exact value_actionOn_both (by decide) c.onDelete c.onUpdate
    · exact (value_actionOn_both (by decide) c.onUpdate c.onDelete).symm
  have hspace : ∀ occasion : Occasion, actionOn occasion.word tail = actionOn occasion.word c.acting := by
    intro occasion
    rcases htail with rfl | htail
    · rfl
    · rw [actionOn, actionOn, ← htail, searchWord_space (OnClause.begins_actionAfter occasion) (by decide)]
  have hdelete : actionOn "delete" tail = actionOn "delete" c.acting := hspace .deletion
  have hupdate : actionOn "update" tail = actionOn "update" c.acting := hspace .change
  rw [actions, hdelete, hupdate]
  exact congrArg₂ Actions.mk hacting.1 hacting.2

/-! ## The name of the constraint -/

theorem lacks_clauseText {occasion : Occasion} (clause : Option (OnClause occasion)) {a : List Char}
    (ha : Lacks "constraint" a) : Lacks "constraint" (a ++ clauseText clause) := by
  cases clause with
  | none => rwa [clauseText, List.append_nil]
  | some on =>
    have hon : Lacks "constraint" on.text := by
      rw [lacks_congr (by decide) on.sameLetters, OnClause.small]
      cases occasion <;> rcases on.written with (_ | _ | _ | _) | _ <;> cbv
    exact (lacks_append (by decide) (by decide) a on.text).2 ⟨ha, hon⟩

/-- Nothing but the front of a clause can be its constraint's name. -/
theorem lacks_body : Lacks "constraint" c.body := by
  have hlist : ∀ ns : List PlainName, ns ⊆ c.name.toList ++ c.columns ++ c.target :: c.refColumns →
      Lacks "constraint" (PlainName.listed c.listGap ns) := fun ns hns =>
    PlainName.lacks_listed c.blank_listGap (by decide) fun n hn => c.unreserved n (hns hn)
  have hacting : ∀ {a : List Char}, Lacks "constraint" a → Lacks "constraint" (a ++ c.acting) := by
    intro a ha
    rw [acting]
    split
    · rw [← List.append_assoc]
      exact lacks_clauseText c.onUpdate (lacks_clauseText c.onDelete ha)
    · rw [← List.append_assoc]
      exact lacks_clauseText c.onDelete (lacks_clauseText c.onUpdate ha)
  have htarget : Lacks "constraint" (c.target.text ++ c.referred) := by
    have hname : Lacks "constraint" c.target.text :=
      lacks_name (by decide) c.target.chars (c.unreserved c.target (by simp))
    rw [referred]
    split
    · rwa [List.append_nil]
    · rw [lacks_append (by decide) (by decide), lacks_append (by decide) (by decide)]
      exact ⟨hname, hlist _ fun n hn => by simp [hn], lacks_nil (by decide)⟩
  have hforeignKey : Lacks "constraint" c.foreignKey.text :=
    (lacks_congr (by decide) c.foreignKey.spells).2 (by cbv)
  have hreferences : Lacks "constraint" c.references.text :=
    (lacks_congr (by decide) c.references.spells).2 (by cbv)
  rw [body, lacks_append_blank (by decide) c.blank_gap (by decide), lacks_append (by decide) (by decide),
    lacks_cons (by decide) (by decide), reference, lacks_append (by decide) (by decide), ← List.append_assoc]
  exact ⟨hforeignKey, hlist _ fun n hn => by simp [hn], hreferences, hacting htarget⟩

theorem map_searchWord_constraintName :
    (searchWord constraintName c.text).map (fun found => String.ofList (Identifier.bareName found.1)) =
      c.key.name := by
  rw [text, key]
  cases c.name with
  | none => rw [searchWord_eq_none_of_lacks begins_constraintName c.lacks_body]; rfl
  | some n =>
    have hfound : searchWord constraintName (c.constraint.text ++ ' ' :: (n.text ++ ' ' :: c.body)) =
        some (n.text, ' ' :: c.body) := searchAfter_of_eq_some (constraintName_named c.constraint n c.body)
    dsimp only
    rw [hfound, Option.map_some, n.bareName_eq_self]
    rfl

/-! ## The key -/

/-- **The key that is read is the one that is meant.** -/
theorem decoded : (foreignKey? c.text).value = some c.key := by
  obtain ⟨tail, htarget, htail⟩ := c.exists_target
  rw [foreignKey?, c.searchWord_keyColumns]
  dsimp only
  rw [htarget]
  dsimp only
  rw [c.value_actions htail, c.map_searchWord_constraintName, PlainName.names_listed c.blank_listGap,
    PlainName.names_listed c.blank_listGap, c.target.bareName_eq_self]
  rfl

-- the names are keywords here, and one of the actions is not kept
example : (foreignKey? ("Constraint foreign Foreign Key (key, references) References on " ++
    "On Update Set Default On Delete Set Null").toList).value =
      some ⟨some "foreign", ["key", "references"], "on", [], some .setNull, none⟩ := by cbv

end KeyClause
end SchemaSketch
