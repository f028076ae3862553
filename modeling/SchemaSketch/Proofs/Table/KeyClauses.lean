import SchemaSketch.Proofs.Table.Alterations

/-!
# The clause of a foreign key

The statement that adds a foreign key is words and marks with three names and two actions in it (`KeyStatement`). Here
its clause is read: the name of the constraint is passed over in the search for the column, and the key that is read is
the one that is meant (`KeyStatement.keyOf_body`). Up to the column, and up to the table that is referred to, the clause
holds no key, which matters where a name cuts it.
-/

namespace SchemaSketch

open Text Pattern

/-! ## Pieces that are passed over -/

/-- A piece with a word that is neither `ADD` nor `FOREIGN`. -/
structure Piece.Calm (p : Piece) : Prop where
  plain : p.Plain
  add : Alteration.isAdd p = false
  foreign : wholeWord "foreign" p.word = none

/-- Whether a piece is plain, computed. -/
def Piece.isPlain (p : Piece) : Bool :=
  p.word.all isWord && p.word.head?.all (! isDecimal ·) && [' ', '(', ')', ';'].contains p.mark

/-- Whether a piece is calm, computed. -/
def Piece.isCalm (p : Piece) : Bool := p.isPlain && !Alteration.isAdd p && !(wholeWord "foreign").fits p.word

theorem Piece.plain_of_isPlain {p : Piece} (h : p.isPlain = true) : p.Plain := by
  simp only [isPlain, Bool.and_eq_true, List.contains_iff_mem] at h
  obtain ⟨⟨hword, hbegins⟩, hmark⟩ := h
  refine ⟨List.all_eq_true.1 hword, fun c hc => ?_, hmark⟩
  rw [Option.mem_def.1 hc] at hbegins
  simpa using hbegins

theorem Piece.calm_of_isCalm {p : Piece} (h : p.isCalm = true) : p.Calm := by
  simp only [isCalm, Bool.and_eq_true, Bool.not_eq_true'] at h
  obtain ⟨⟨hplain, hadd⟩, hforeign⟩ := h
  exact ⟨plain_of_isPlain hplain, hadd, Option.isNone_iff_eq_none.1 (Option.isSome_eq_false_iff.1 hforeign)⟩

theorem Piece.calm_of_all {ps : List Piece} (h : ps.all Piece.isCalm = true) : ∀ p ∈ ps, p.Calm := fun p hp =>
  calm_of_isCalm (List.all_eq_true.1 h p hp)

/-- A name in front of a mark, unless it is one of the two words. -/
theorem Piece.calm_of_plain {name : List Char} (h : Ident.Plain name) (hadd : name ≠ "add".toList)
    (hforeign : name ≠ "foreign".toList) {mark : Char} (hmark : mark ∈ [' ', '(', ')', ';']) : Calm ⟨name, mark⟩ :=
  ⟨h.piece hmark, congrArg Option.isSome (h.wholeWord_eq_none hadd), h.wholeWord_eq_none hforeign⟩

/-! ## The statement -/

/-- The words of an action, and the mark behind them. -/
def Action.pieces (mark : Char) : Action → List Piece
  | .cascade => [⟨"CASCADE".toList, mark⟩]
  | .setNull => [.spaced "SET", ⟨"NULL".toList, mark⟩]
  | .restrict => [⟨"RESTRICT".toList, mark⟩]
  | .noAction => [.spaced "NO", ⟨"ACTION".toList, mark⟩]

/-- The names and the actions in the statement of a foreign key. -/
structure KeyStatement where
  /-- the table -/
  table : String
  /-- its column -/
  column : String
  /-- the table referred to -/
  target : String
  /-- what a deletion brings about -/
  onDelete : Action
  /-- what a change brings about -/
  onUpdate : Action

namespace KeyStatement

/-- The name of the constraint. -/
def constraint (s : KeyStatement) : String := "fk_" ++ s.table ++ "_" ++ s.column

/-- The key that is meant. -/
def key (s : KeyStatement) : ForeignKey where
  name := some s.constraint
  columns := [s.column]
  refTable := s.target
  refColumns := ["id"]
  onDelete := some s.onDelete
  onUpdate := some s.onUpdate

/-- The name of the constraint, behind its keyword. -/
def naming (s : KeyStatement) : List Piece := [.spaced "CONSTRAINT", ⟨s.constraint.toList, ' '⟩]

/-- The words in front of the column. -/
def listing : List Piece := [.spaced "FOREIGN", .spaced "KEY", .lone '(']

/-- The words in front of the table referred to. -/
def referring : List Piece := [.lone ' ', .spaced "REFERENCES"]

/-- The actions. -/
def acting (s : KeyStatement) : List Piece :=
  [.lone ' ', .spaced "ON", .spaced "DELETE"] ++ s.onDelete.pieces ' '
    ++ ([.spaced "ON", .spaced "UPDATE"] ++ s.onUpdate.pieces ';')

/-- What follows the column. -/
def reference (s : KeyStatement) : List Piece :=
  referring ++ ⟨s.target.toList, '('⟩ :: ⟨"id".toList, ')'⟩ :: s.acting

/-- What follows the word `ADD`. -/
def body (s : KeyStatement) : List Piece := (s.naming ++ listing) ++ ⟨s.column.toList, ')'⟩ :: s.reference

/-- The statement on one line, behind the name of the table. -/
def rest (s : KeyStatement) : List Char := spell (.lone ' ' :: .spaced "ADD" :: s.body)

/-- The words and marks of the statement. -/
def pieces (s : KeyStatement) : List Piece :=
  .spaced "ALTER" :: .spaced "TABLE" :: ⟨s.table.toList, ' '⟩ :: .spaced "ADD" :: s.body

/-- The statement on one line. -/
def text (s : KeyStatement) : List Char := spell s.pieces

/-- The names that are chosen freely. -/
def names (s : KeyStatement) : List String := [s.table, s.column, s.target]

/-- The names are simple, and none of them is one of two reserved words that the reader looks for. -/
structure Bare (s : KeyStatement) : Prop where
  table : Ident.Plain s.table.toList
  column : Ident.Plain s.column.toList
  target : Ident.Plain s.target.toList
  unreserved : ∀ name ∈ s.names, name.toList ≠ "if".toList ∧ name.toList ≠ "foreign".toList

/-- Names that are written bare, and have no line ends. -/
theorem bare_of_isBare {s : KeyStatement} (h : ∀ name ∈ s.names, Ident.isBare name = true)
    (hline : ∀ name ∈ s.names, '\n' ∉ name.toList) : s.Bare := by
  have hplain : ∀ name ∈ s.names, Ident.Plain name.toList := fun name hname =>
    Ident.plain_of_isBare (h name hname) (hline name hname)
  have hreserved : ∀ {k : String}, Ident.isBare k = false → ∀ name ∈ s.names, name.toList ≠ k.toList := by
    intro k hk name hname heq
    have hbare := h name hname
    rw [String.toList_inj.1 heq, hk] at hbare
    cases hbare
  have hif : Ident.isBare "if" = false := by cbv
  have hforeign : Ident.isBare "foreign" = false := by cbv
  obtain ⟨htable, hcolumn, htarget, -⟩ : Ident.Plain s.table.toList ∧ Ident.Plain s.column.toList ∧
      Ident.Plain s.target.toList ∧ True := by simpa [names] using hplain
  exact ⟨htable, hcolumn, htarget, fun name hname => ⟨hreserved hif name hname, hreserved hforeign name hname⟩⟩

/-! ## Its pieces -/

theorem calm_acting (s : KeyStatement) : ∀ p ∈ s.acting, p.Calm := by
  refine Piece.calm_of_all ?_
  rw [acting]
  cases s.onDelete <;> cases s.onUpdate <;> cbv

section

variable {s : KeyStatement} (h : s.Bare)

include h

/-- The name of the constraint is simple too. -/
theorem plain_constraint : Ident.Plain s.constraint.toList := by
  have hletters : ∀ c ∈ "fk_".toList, Ident.isSimpleChar c = true := List.all_eq_true.1 (by decide)
  have htext : s.constraint.toList = "fk_".toList ++ (s.table.toList ++ ('_' :: s.column.toList)) := by
    simp [constraint]
  rw [htext]
  refine ⟨⟨'f', _, rfl, rfl⟩, fun c hc => ?_⟩
  rcases List.mem_append.1 hc with hc | hc
  · exact hletters c hc
  rcases List.mem_append.1 hc with hc | hc
  · exact h.table.simple c hc
  rcases List.mem_cons.1 hc with rfl | hc
  · rfl
  · exact h.column.simple c hc

theorem calm_naming : ∀ p ∈ .lone ' ' :: s.naming, p.Calm := by
  have hconstraint : ∀ k : List Char, k.head? ≠ some 'f' ∨ k[1]? ≠ some 'k' → s.constraint.toList ≠ k := by
    rintro k hk rfl
    simp [constraint] at hk
  have hcalm : Piece.Calm ⟨s.constraint.toList, ' '⟩ :=
    Piece.calm_of_plain (plain_constraint h) (hconstraint _ (by decide)) (hconstraint _ (by decide)) (by decide)
  refine List.forall_mem_cons.2 ⟨Piece.calm_of_isCalm (by cbv), ?_⟩
  exact List.forall_mem_cons.2 ⟨Piece.calm_of_isCalm (by cbv), List.forall_mem_singleton.2 hcalm⟩

omit h in
theorem plain_listing : ∀ p ∈ listing, p.Plain ∧ Alteration.isAdd p = false := by
  have hlisting : (listing.all fun p => p.isPlain && !Alteration.isAdd p) = true := by cbv
  intro p hp
  have h := List.all_eq_true.1 hlisting p hp
  rw [Bool.and_eq_true, Bool.not_eq_true'] at h
  exact ⟨Piece.plain_of_isPlain h.1, h.2⟩

omit h in
theorem calm_referring : ∀ p ∈ referring, p.Calm := Piece.calm_of_all (by cbv)

omit h in
/-- What follows the name of the table referred to. -/
theorem calm_behind (s : KeyStatement) : ∀ p ∈ ⟨"id".toList, ')'⟩ :: s.acting, p.Calm :=
  List.forall_mem_cons.2 ⟨Piece.calm_of_isCalm (by cbv), s.calm_acting⟩

/-- Behind the column there is no word `FOREIGN`. -/
theorem quiet_reference : ∀ p ∈ s.reference, p.Plain ∧ wholeWord "foreign" p.word = none := by
  have htarget : s.target.toList ≠ "foreign".toList := (h.unreserved s.target (by simp [names])).2
  intro p hp
  rcases List.mem_append.1 hp with hp | hp
  · exact ⟨(calm_referring p hp).plain, (calm_referring p hp).foreign⟩
  rcases List.mem_cons.1 hp with rfl | hp
  · exact ⟨h.target.piece (by decide), h.target.wholeWord_eq_none htarget⟩
  · exact ⟨(calm_behind s p hp).plain, (calm_behind s p hp).foreign⟩

/-- Nor is there a word `ADD` if the table referred to is not called so. -/
theorem isAdd_reference (htarget : s.target ≠ "add") : ∀ p ∈ s.reference, Alteration.isAdd p = false := by
  have hname : s.target.toList ≠ "add".toList := fun heq => htarget (String.toList_inj.1 heq)
  intro p hp
  rcases List.mem_append.1 hp with hp | hp
  · exact (calm_referring p hp).add
  rcases List.mem_cons.1 hp with rfl | hp
  · exact congrArg Option.isSome (h.target.wholeWord_eq_none hname)
  · exact (calm_behind s p hp).add

/-- Nor in front of the column. -/
theorem isAdd_front : ∀ p ∈ s.naming ++ listing, Alteration.isAdd p = false := by
  intro p hp
  rcases List.mem_append.1 hp with hp | hp
  · exact (calm_naming h p (List.mem_cons_of_mem _ hp)).add
  · exact (plain_listing p hp).2

theorem plain_body : ∀ p ∈ s.body, p.Plain := by
  intro p hp
  rcases List.mem_append.1 hp with hp | hp
  · rcases List.mem_append.1 hp with hp | hp
    · exact (calm_naming h p (List.mem_cons_of_mem _ hp)).plain
    · exact (plain_listing p hp).1
  rcases List.mem_cons.1 hp with rfl | hp
  · exact h.column.piece (by decide)
  · exact (quiet_reference h p hp).1

/-! ## The key in its clause -/

/-- The search for the columns passes over the name of the constraint. -/
theorem searchWord_keyColumns (tail : List Char) :
    searchWord Reference.keyColumns (spell (.lone ' ' :: s.naming) ++ tail) = searchWord Reference.keyColumns tail := by
  have hcalm := calm_naming h
  exact searchWord_spell_append (fun p hp => (hcalm p hp).plain)
    (fun p hp => Piece.avoids Reference.begins_keyColumns (by decide) (hcalm p hp).plain (hcalm p hp).foreign) tail

/-- No parenthesis is in the name of the column. -/
theorem free_column : ∀ c ∈ s.column.toList, (c != ')') = true := by
  intro c hc
  refine bne_iff_ne.2 ?_
  rintro rfl
  exact absurd (h.column.isWord _ hc) (by decide)

/-- The column is read behind the words of the list. -/
theorem keyColumns_listing (ps : List Piece) :
    Reference.keyColumns (spell (listing ++ ⟨s.column.toList, ')'⟩ :: ps)) = some (s.column.toList, spell ps) := by
  have htext : spell (listing ++ ⟨s.column.toList, ')'⟩ :: ps) =
      "FOREIGN KEY (".toList ++ (s.column.toList ++ ')' :: spell ps) := by
    have hlisting : spell listing = "FOREIGN KEY (".toList := by cbv
    have hcolumn := spell_cons ⟨s.column.toList, ')'⟩ ps
    rw [spell_append, hlisting, hcolumn]
  rw [htext]
  exact Reference.keyColumns_append h.column.ne_nil (free_column h) (spell ps)

/-- The column is found where it stands. -/
theorem searchWord_column (ps : List Piece) :
    searchWord Reference.keyColumns (spell (.lone ' ' :: (s.naming ++ listing ++ ⟨s.column.toList, ')'⟩ :: ps))) =
      some (s.column.toList, spell ps) := by
  rw [List.append_assoc, ← List.cons_append, spell_append, searchWord_keyColumns h]
  exact searchAfter_of_eq_some (keyColumns_listing h ps)

/-- A clause that ends in front of the column holds no key. -/
theorem keyOf_unlisted : Alteration.keyOf (.lone ' ' :: (s.naming ++ listing)) = none := by
  have hlisting : searchWord Reference.keyColumns (spell listing) = none := by cbv
  have hnone : searchWord Reference.keyColumns (spell (.lone ' ' :: (s.naming ++ listing))) = none := by
    rw [← List.cons_append, spell_append, searchWord_keyColumns h, hlisting]
  rw [Alteration.keyOf, Reference.foreignKey?, hnone]
  rfl

/-- A clause that ends in front of the table referred to holds no key. -/
theorem keyOf_unreferred :
    Alteration.keyOf (.lone ' ' :: (s.naming ++ listing ++ ⟨s.column.toList, ')'⟩ :: referring)) = none := by
  have hreferring : searchWord Reference.target (spell referring) = none := by cbv
  rw [Alteration.keyOf, Reference.foreignKey?, searchWord_column h]
  dsimp only
  rw [hreferring]

omit h in
theorem actions_acting (s : KeyStatement) :
    (Reference.actions (spell s.acting)).value = ⟨some s.onDelete, some s.onUpdate⟩ := by
  rw [acting]
  cases s.onDelete <;> cases s.onUpdate <;> cbv

/-- The table referred to is found where it stands. -/
theorem searchWord_target :
    searchWord Reference.target (spell s.reference) = some ((s.target.toList, "id".toList), spell s.acting) := by
  have htext : spell s.reference = ' ' :: ("REFERENCES ".toList ++
      (s.target.toList ++ '(' :: ("id".toList ++ ')' :: spell s.acting))) := by
    have hreferring : spell referring = ' ' :: "REFERENCES ".toList := by cbv
    have htarget := spell_cons ⟨s.target.toList, '('⟩ (⟨"id".toList, ')'⟩ :: s.acting)
    have hid := spell_cons ⟨"id".toList, ')'⟩ s.acting
    rw [reference, spell_append, hreferring, htarget, hid, List.cons_append]
  have hid : ∀ c ∈ "id".toList, (c != ')') = true := List.all_eq_true.1 (by decide)
  have hread := Reference.target_append h.target (by decide) hid (spell s.acting)
  rw [htext, searchWord_space Reference.begins_target (by decide)]
  exact searchAfter_of_eq_some hread

/-- The name of the constraint is found where it stands. -/
theorem searchWord_constraint :
    ∃ tail, searchWord Reference.constraintName (spell (.lone ' ' :: s.body)) = some (s.constraint.toList, tail) := by
  have htext : spell (.lone ' ' :: s.body) = ' ' :: ("CONSTRAINT ".toList ++
      (s.constraint.toList ++ ' ' :: spell (listing ++ ⟨s.column.toList, ')'⟩ :: s.reference))) := by
    have hspace := spell_cons (.lone ' ') s.body
    have hword := spell_cons (.spaced "CONSTRAINT")
      (⟨s.constraint.toList, ' '⟩ :: (listing ++ ⟨s.column.toList, ')'⟩ :: s.reference))
    have hname := spell_cons ⟨s.constraint.toList, ' '⟩ (listing ++ ⟨s.column.toList, ')'⟩ :: s.reference)
    rw [hname] at hword
    exact hspace.trans (congrArg (' ' :: ·) hword)
  have hread := Reference.constraintName_append (plain_constraint h)
    (spell (listing ++ ⟨s.column.toList, ')'⟩ :: s.reference))
  rw [htext, searchWord_space Reference.begins_constraintName (by decide)]
  exact ⟨_, searchAfter_of_eq_some hread⟩

/-- **The whole clause holds the key.** -/
theorem keyOf_body : Alteration.keyOf (.lone ' ' :: s.body) = some s.key := by
  have hcolumn := searchWord_column h s.reference
  have hid : Identifier.names "id".toList = ["id"] := by cbv
  obtain ⟨tail, hconstraint⟩ := searchWord_constraint h
  rw [Alteration.keyOf, Reference.foreignKey?, hconstraint, body, hcolumn]
  dsimp only
  rw [searchWord_target h]
  dsimp only
  rw [s.actions_acting, Option.map_some, (plain_constraint h).bareName_eq_self, h.target.bareName_eq_self,
    Reference.names_eq_singleton h.column, hid, String.ofList_toList, String.ofList_toList, String.ofList_toList, key]

end
end KeyStatement
end SchemaSketch
