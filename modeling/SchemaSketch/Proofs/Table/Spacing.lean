import SchemaSketch.Proofs.Table.Checks
import SchemaSketch.Proofs.Table.Clauses
import SchemaSketch.Proofs.Table.Exchange
import SchemaSketch.Proofs.Table.References
import SchemaSketch.Proofs.Text.Capitals
import SchemaSketch.Proofs.Text.Gaps

/-!
# What an entry says with blanks in front of its parenthesis

An entry is looked through for its lists in parentheses, for the words of the flags, for a default and for a
reference. None of these searches can tell whether blanks stand in front of the first parenthesis: those for lists pass
over blanks (`Reference.searchWord_opened`), and the others begin with a word. So a constraint says the same
(`Definition.value_ofConstraint_gap`), and so does the rest of a column (`ColumnDefinition.column_gap`).
-/

namespace SchemaSketch

open Text Pattern

namespace Reference

/-! ## Lists behind a gap -/

/-- A pattern, characters of a class, and then names in parentheses. -/
def opened (p : Pattern) (f : Char → Bool) : Reader (List Char) := do
  Reader.skip (p >> many f)
  listInParentheses

section

variable {gap : List Char} (hgap : Blank gap) (b : List Char) {p : Pattern} {f : Char → Bool} (hp : p.Severed)
  (hbounded : p.Bounded) (hblank : ∀ c, isBlank c = true → f c = true) (hparen : f '(' = false)

include hgap hp hbounded hblank hparen

/-- What is read in front of a gap does not depend on the gap. -/
theorem opened_gap {v : List Char} (hv : '(' ∉ v) : opened p f (v ++ (gap ++ '(' :: b)) =
    (p v).bind fun n => if (v.drop n).all f then listInParentheses ('(' :: b) else none := by
  rw [opened, Reader.skip_bind, andThen_apply, hp gap b hgap]
  cases hn : p v with
  | none => rfl
  | some n =>
    rw [Option.bind_some, Option.bind_some, many, Option.map_some, Option.bind_some, ← List.drop_drop,
      List.drop_append_of_le_length (hbounded v n hn)]
    by_cases hall : (v.drop n).all f = true
    · have hfront : ∀ c ∈ v.drop n ++ gap, f c = true :=
        List.forall_mem_append.2 ⟨List.all_eq_true.1 hall, fun c hc => hblank c (hgap c hc)⟩
      rw [if_pos hall, ← List.append_assoc, takeWhile_append_cons hfront hparen, List.drop_left]
    · -- a character that is no parenthesis is left in front of the gap
      have hany : (v.drop n).any (fun c => !f c) = true := by
        rw [← List.not_all_eq_any_not, Bool.not_eq_true']
        exact Bool.eq_false_iff.2 hall
      obtain ⟨d, rest, hrest⟩ := List.exists_cons_of_ne_nil
        fun hnil : (v.drop n).dropWhile f = [] => hall (List.all_eq_true.2 (List.dropWhile_eq_nil_iff.1 hnil))
      have hd : d ∈ v := List.mem_of_mem_drop <| (List.dropWhile_sublist f).subset <| hrest ▸ List.mem_cons_self ..
      rw [if_neg hall, takeWhile_append_of_any hany, List.drop_append_of_le_length (List.takeWhile_prefix f).length_le,
        drop_length_takeWhile, hrest]
      exact listInParentheses_cons (fun heq => hv (heq ▸ hd)) _

/-- **The list is found with a gap where it is found without.** -/
theorem searchWord_opened {a : List Char} (ha : '(' ∉ a) (hnil : p [] = none) :
    searchWord (opened p f) (a ++ (gap ++ '(' :: b)) = searchWord (opened p f) (a ++ '(' :: b) := by
  refine searchWord_gap hgap b (fun v hv => ?_) fun gap hgap => ?_
  · have hfree : '(' ∉ v := fun hmem => ha (hv.subset hmem)
    rw [opened_gap hgap b hp hbounded hblank hparen hfree]
    exact (opened_gap (List.forall_mem_nil _) b hp hbounded hblank hparen hfree).symm
  · rw [← List.nil_append (gap ++ '(' :: b), opened_gap hgap b hp hbounded hblank hparen List.not_mem_nil, hnil]
    rfl

end

variable {gap : List Char} (hgap : Blank gap) (b : List Char) {a : List Char} (ha : '(' ∉ a)

include hgap ha

theorem searchWord_listAfter_gap {k : String} {ks : List String} (hks : (k :: ks).all isKeyword = true)
    (hquote : (k :: ks).all (·.toList.all fun c => !sameLetter c '\'') = true) :
    searchWord (listAfter (k :: ks)) (a ++ (gap ++ '(' :: b)) = searchWord (listAfter (k :: ks)) (a ++ '(' :: b) :=
  searchWord_opened hgap b (severed_phrase hks) (halts_phrase hquote).bounded (fun _ => id) (by decide) ha
    (phrase_eq_none_of_mark (Bool.and_eq_true_iff.1 hks).1 (show isWord '(' = false by decide) []).1

theorem searchWord_uniqueColumns_gap : searchWord Definition.uniqueColumns (a ++ (gap ++ '(' :: b)) =
    searchWord Definition.uniqueColumns (a ++ '(' :: b) :=
  searchWord_opened hgap b (severed_wholeWord (by decide)) (halts_letters (by decide)).wordEnds.bounded
    (fun c hc => bne_iff_ne.2 fun h => absurd (h ▸ hc) (by decide)) (by decide) ha (wholeWord_nil (by decide))

theorem value_foreignKey?_gap
    (hname : (searchWord constraintName (a ++ (gap ++ '(' :: b))).map (·.1) =
      (searchWord constraintName (a ++ '(' :: b)).map (·.1)) :
    (foreignKey? (a ++ (gap ++ '(' :: b))).value = (foreignKey? (a ++ '(' :: b)).value := by
  have hcolumns : searchWord keyColumns (a ++ (gap ++ '(' :: b)) = searchWord keyColumns (a ++ '(' :: b) :=
    searchWord_listAfter_gap hgap b ha (by decide) (by decide)
  have hnames := congrArg (Option.map fun written => String.ofList (Identifier.bareName written)) hname
  rw [Option.map_map, Option.map_map] at hnames
  rw [foreignKey?, foreignKey?, hcolumns]
  cases searchWord keyColumns (a ++ '(' :: b) with
  | none => rfl
  | some columns =>
    dsimp only
    cases searchWord target columns.2 with
    | none => rfl
    | some table => exact congrArg (fun name => some ({ name, .. } : ForeignKey)) hnames

end Reference

/-- **A constraint says the same** with blanks in front of its first parenthesis, if its name is the same. -/
theorem Definition.value_ofConstraint_gap (table : String) {gap : List Char} (hgap : Blank gap) (b : List Char)
    {a : List Char} (ha : '(' ∉ a)
    (hname : (searchWord Reference.constraintName (a ++ (gap ++ '(' :: b))).map (·.1) =
      (searchWord Reference.constraintName (a ++ '(' :: b)).map (·.1)) :
    (ofConstraint table (a ++ (gap ++ '(' :: b))).value = (ofConstraint table (a ++ '(' :: b)).value := by
  have hkey : searchWord Reference.keyColumns (a ++ (gap ++ '(' :: b)) =
      searchWord Reference.keyColumns (a ++ '(' :: b) :=
    Reference.searchWord_listAfter_gap hgap b ha (by decide) (by decide)
  have hprimary : searchWord primaryKeyColumns (a ++ (gap ++ '(' :: b)) =
      searchWord primaryKeyColumns (a ++ '(' :: b) :=
    Reference.searchWord_listAfter_gap hgap b ha (by decide) (by decide)
  rw [ofConstraint, ofConstraint, Reference.hasWord_keyList, Reference.hasWord_keyList, hkey, hprimary,
    Reference.searchWord_uniqueColumns_gap hgap b ha]
  split
  · dsimp only
    rw [Reference.value_foreignKey?_gap hgap b ha hname]
  · cases searchWord primaryKeyColumns (a ++ '(' :: b) with
    | some columns => rfl
    | none => cases searchWord uniqueColumns (a ++ '(' :: b) <;> rfl

namespace ColumnDefinition

/-! ## The rest of a column -/

section

variable {gap : List Char} (hgap : Blank gap) (b : List Char) {a : List Char} (ha : '\'' ∉ a)

include hgap ha

/-- What is looked through for flags. -/
theorem scan_gap : upper (withoutLiterals (a ++ (gap ++ '(' :: b))) =
    upper a ++ (upper gap ++ '(' :: upper (withoutLiterals b)) := by
  have hquote : '\'' ∉ gap := fun hmem => absurd (hgap _ hmem) (by decide)
  rw [withoutLiterals_append ha, withoutLiterals_append hquote, withoutLiterals_cons (by decide), upper_append,
    upper_append]
  rfl

omit ha in
theorem blank_upper : Blank (upper gap) := by
  intro d hd
  obtain ⟨c, hc, hd⟩ := List.mem_flatMap.1 hd
  rw [isBlank_of_mem_capitalForm hd, hgap c hc]

theorem mentions_gap {ws : List String} (hws : ws ∈ flagPhrases) :
    mentions ws (a ++ (gap ++ '(' :: b)) = (mentions ws a || mentions ws b) := by
  have hwords : ∀ ws ∈ flagPhrases, ∀ w ∈ ws, w.toList ≠ [] ∧ w.toList.all isWord = true := by decide
  have hnil : ∀ ws ∈ flagPhrases, capitals ws [] = none := by decide
  rw [mentions, scan_gap hgap b ha, hasWord_gap (blank_upper hgap) _ (severed_capitals (hwords ws hws)) (hnil ws hws),
    mentions, mentions, withoutLiterals_of_not_mem ha]

theorem hasPart_scan_gap : hasPart "REFERENCES".toList (upper (withoutLiterals (a ++ (gap ++ '(' :: b)))) =
    (hasPart "REFERENCES".toList (upper a) || hasPart "REFERENCES".toList (upper (withoutLiterals b))) := by
  rw [scan_gap hgap b ha]
  exact hasPart_gap (blank_upper hgap) _ (by decide) (List.all_eq_true.1 (by decide)) _

end

/-- The keywords of what is not a flag. -/
def partWords : List String := ["default", "references", "on"]

/-- **The rest of a column says the same** with blanks in front of its first parenthesis, if only flags stand there. -/
theorem column_gap (name type : List Char) {gap : List Char} (hgap : Blank gap) (b : List Char) {a : List Char}
    (ha : '\'' ∉ a) (hlacks : ∀ k ∈ partWords, Lacks k a) :
    column name type (a ++ (gap ++ '(' :: b)) = column name type (a ++ '(' :: b) := by
  have hnil : Blank ([] : List Char) := List.forall_mem_nil _
  -- what a reader finds stands behind the parenthesis
  have hsearch : ∀ {α : Type} {r : Reader α} {k : String}, isKeyword k = true → r.Begins k → k ∈ partWords →
      searchWord r (a ++ (gap ++ '(' :: b)) = searchWord r (a ++ '(' :: b) := fun hk hr hmem =>
    (searchWord_gap_of_lacks hgap b hk hr (hlacks _ hmem)).trans
      (searchWord_gap_of_lacks hnil b hk hr (hlacks _ hmem)).symm
  have hdefault : default? (a ++ (gap ++ '(' :: b)) = default? (a ++ '(' :: b) :=
    congrArg (Option.map _) (hsearch (k := "default") (by decide)
      (Reader.begins_skip_bind (fun _ h => keyword_blanks1_eq_none h) _) (by decide))
  have htarget := hsearch (by decide) Reference.begins_target (by decide)
  have hactions : Reference.actions (a ++ (gap ++ '(' :: b)) = Reference.actions (a ++ '(' :: b) := by
    have hdelete := hsearch (r := Reference.actionAfter "delete") (by decide)
      (Reference.OnClause.begins_actionAfter .deletion) (by decide)
    have hupdate := hsearch (r := Reference.actionAfter "update") (by decide)
      (Reference.OnClause.begins_actionAfter .change) (by decide)
    rw [Reference.actions, Reference.actions, Reference.actionOn, Reference.actionOn, Reference.actionOn,
      Reference.actionOn, hdelete, hupdate]
  have hreference : ∀ name : String, reference? name (upper (withoutLiterals (a ++ (gap ++ '(' :: b))))
      (a ++ (gap ++ '(' :: b)) = reference? name (upper (withoutLiterals (a ++ '(' :: b))) (a ++ '(' :: b) := by
    intro name
    rw [reference?, reference?, (hasPart_scan_gap hgap b ha).trans (hasPart_scan_gap hnil b ha).symm, htarget, hactions]
    rfl
  have hmentions : ∀ ws ∈ flagPhrases, hasWord (capitals ws) (upper (withoutLiterals (a ++ (gap ++ '(' :: b)))) =
      hasWord (capitals ws) (upper (withoutLiterals (a ++ '(' :: b))) :=
    fun ws hws => (mentions_gap hgap b ha hws).trans (mentions_gap hnil b ha hws).symm
  rw [column, column]
  refine congrArg (fun read : Option Nat → Noted Column => (ColumnType.length? (squeeze type)).map read) ?_
  funext length
  dsimp only
  rw [hmentions _ (by decide), hmentions ["NOT", "NULL"] (by decide), hmentions ["UNIQUE"] (by decide), hdefault,
    hreference]

end ColumnDefinition
end SchemaSketch
