import Mathlib.Data.List.Infix
import SchemaSketch.Proofs.Table.Masks
import SchemaSketch.Proofs.Table.Reader
import SchemaSketch.Proofs.Text.Quotes

/-!
# Literals and foreign keys

The parts of a foreign key are looked for in the text as it is written, literals included. A reader *spares* a
literal (`Reader.Spares`) if nothing that it reads in front of the literal reaches over it and nothing that it reads
begins inside. Then it reads the same whatever the literal is: what is found in two texts with such literals
(`Alike`) are equal values, and the texts left over are alike again (`searchWord_alike`). So the parts of a foreign
key can be taken one after the other.
-/

namespace SchemaSketch

open Text Pattern

/-! ## The readers of a foreign key -/

namespace Reference

/-- Names in parentheses are what a pattern covers, without its ends. -/
theorem listInParentheses_eq (cs : List Char) :
    listInParentheses cs = ((char '(' >> (many1 (· != ')') >> char ')')) cs).map
      fun n => (((cs.take n).drop 1).dropLast, cs.drop n) := by
  rw [listInParentheses, Reader.skip_bind, andThen_apply]
  cases hopen : char '(' cs with
  | none => rfl
  | some n =>
    obtain ⟨-, rfl⟩ := char_eq_some.1 hopen
    rw [Option.bind_some, Option.bind_some, Reader.take_bind, andThen_apply]
    cases many1 (· != ')') (cs.drop 1) with
    | none => rfl
    | some m =>
      rw [Option.bind_some, Option.bind_some, Reader.skip_bind]
      cases hclose : char ')' ((cs.drop 1).drop m) with
      | none => rfl
      | some k =>
        obtain ⟨hhead, rfl⟩ := char_eq_some.1 hclose
        obtain ⟨rest, hrest⟩ := List.head?_eq_some_iff.1 hhead
        have hinner : ((cs.take (1 + (m + 1))).drop 1).dropLast = (cs.drop 1).take m := by
          rw [List.drop_take, Nat.add_sub_cancel_left, List.take_add, hrest]
          exact List.dropLast_concat
        rw [Option.bind_some, Option.map_some, Option.map_some, Option.map_some, hinner, ← List.drop_drop,
          ← List.drop_drop]
        rfl

theorem settles_listInParentheses : Reader.Settles listInParentheses :=
  Reader.settles_of_pattern ((halts_char (by decide)).andThen_settles (settles_run (by decide)))
    (fun covered => (covered.drop 1).dropLast) listInParentheses_eq

/-- Names in parentheses, or none. -/
def listOrNone : Reader (List Char) := fun cs =>
  match listInParentheses cs with
  | some found => some found
  | none => some ([], cs)

theorem settles_listOrNone : Reader.Settles listOrNone := by
  intro a
  obtain ⟨outcome, hsuffix, houtcome⟩ := settles_listInParentheses a
  refine ⟨outcome.or (some ([], a)), fun x hx => ?_, fun z => ?_⟩
  · cases outcome with
    | none => exact Option.some.inj hx ▸ List.suffix_refl a
    | some found => exact hsuffix x hx
  · rcases houtcome z with h | ⟨x, hx, hover⟩
    · refine .inl ?_
      rw [listOrNone, h]
      cases outcome <;> rfl
    · refine .inr ⟨x, ?_, hover⟩
      rw [listOrNone, hx]

theorem exists_listOrNone (cs : List Char) : ∃ x, listOrNone cs = some x ∧ x.2.length ≤ cs.length := by
  rw [listOrNone]
  cases h : listInParentheses cs with
  | none => exact ⟨_, rfl, Nat.le_refl _⟩
  | some found =>
    refine ⟨found, rfl, ?_⟩
    rw [listInParentheses_eq] at h
    obtain ⟨n, -, rfl⟩ := Option.map_eq_some_iff.1 h
    exact (List.drop_sublist n cs).length_le

/-- The columns of a key are read where its list stands. -/
theorem isSome_keyColumns (cs : List Char) : (keyColumns cs).isSome = Heading.keyList.fits cs := by
  have hlist : Heading.keyList =
      ((phrase ["foreign", "key"] >> blanks) >> (char '(' >> (many1 (· != ')') >> char ')'))) := (andThen_assoc ..).symm
  rw [keyColumns, listAfter, Reader.skip_bind, fits, hlist]
  cases hwords : (phrase ["foreign", "key"] >> blanks) cs with
  | none => rw [andThen_eq_none hwords]; rfl
  | some n =>
    rw [andThen_of_eq_some hwords, Option.bind_some, listInParentheses_eq, Option.isSome_map, Option.isSome_map]

/-- The list of a key stands where its columns are found. -/
theorem hasWord_keyList (cs : List Char) : hasWord Heading.keyList cs = (searchWord keyColumns cs).isSome := by
  rw [hasWord_eq, isSome_searchWord isSome_keyColumns]

theorem settled_keyColumns : keyColumns.Settled :=
  Reader.settled_skip_bind ((halts_phrase (by decide)).andThen halts_blanks) rfl settles_listInParentheses

theorem settled_target : target.Settled := by
  have hcolumns : ∀ table : List Char, Reader.Settles (listOrNone >>= fun columns => pure (table, columns)) :=
    fun table => settles_listOrNone.bind (fun _ => Reader.settles_pure _) fun _ cs => ⟨_, rfl, Nat.le_refl _⟩
  refine Reader.settled_skip_bind ((halts_letters (by decide)).andThen halts_blanks1) rfl ?_
  refine (Reader.settles_take settles_qualified).bind (fun table => ?_) fun table cs => ?_
  · exact Reader.settles_skip_bind halts_blanks (hcolumns table)
  · obtain ⟨x, hx, hlength⟩ := exists_listOrNone (cs.drop (cs.takeWhile isBlank).length)
    refine ⟨((table, x.1), x.2), ?_, Nat.le_trans hlength (List.drop_sublist _ cs).length_le⟩
    change (listOrNone (cs.drop (cs.takeWhile isBlank).length)).bind _ = _
    rw [hx]
    rfl

theorem settled_constraintName : constraintName.Settled :=
  Reader.settled_skip_bind ((halts_letters (by decide)).andThen halts_blanks1) rfl (Reader.settles_take settles_part)

theorem settled_actionAfter {event : String}
    (h : (["on", event].all fun w => w.toList.all fun k => !sameLetter k '\'') = true) :
    (actionAfter event).Settled := by
  have hwords : actionWords.Halts :=
    (halts_letters (by decide)).orElse <| (halts_phrase (by decide)).orElse <| (halts_phrase (by decide)).orElse <|
      (halts_letters (by decide)).orElse (halts_phrase (by decide))
  exact Reader.settled_skip_bind ((halts_phrase h).andThen halts_blanks1) rfl (Reader.settles_take hwords.settles)

end Reference

/-! ## Texts around a literal -/

/-- A text with a literal in it. -/
def around (front content back : List Char) : List Char := front ++ '\'' :: (content ++ '\'' :: back)

/-- A reader that reads nothing of a literal, in no piece of the text around it: what it reads in front ends there,
and nothing that it reads begins in it. -/
structure Reader.Spares {α : Type} (r : Reader α) (front content back : List Char) : Prop where
  front : ∀ a ∈ front.tails, ∀ b ∈ back.inits,
    (r (around a content b)).all (fun x => b.length + content.length + 2 ≤ x.2.length) = true
  inside : ∀ i ≤ content.length, wordMayBegin ((content.take i).getLast?.or (some '\'')) = true →
    ∀ b ∈ back.inits, (r (content.drop i ++ '\'' :: b)).isNone = true

/-- Two texts that are equal, or pieces around a literal and around another one in its place. -/
inductive Alike (front back content other : List Char) : List Char → List Char → Prop where
  | same (cs : List Char) : Alike front back content other cs cs
  | around {a b : List Char} (ha : a <:+ front) (hb : b <+: back) :
    Alike front back content other (around a content b) (SchemaSketch.around a other b)

section
variable {α : Type} {r : Reader α} {front back content other : List Char}

/-- Nothing is read that begins in a literal that is spared. -/
theorem Reader.Spares.eq_none (h : r.Spares front content back) {u v b : List Char} (hcontent : content = u ++ v)
    (hword : wordMayBegin (u.getLast?.or (some '\'')) = true) (hb : b <+: back) : r (v ++ '\'' :: b) = none := by
  have hlength : u.length ≤ content.length := by rw [hcontent, List.length_append]; omega
  have hinside := h.inside u.length hlength
  rw [hcontent, List.take_left, List.drop_left] at hinside
  exact Option.isNone_iff_eq_none.1 (hinside hword b ((List.mem_inits _ _).2 hb))

/-- A search goes on behind a literal that is spared. -/
theorem searchAfter_literal (hr : r.Settled) (hspared : r.Spares front content back) {b : List Char}
    (hb : b <+: back) (before : Option Char) :
    searchAfter (fun before here => if wordMayBegin before then r here else none) before
        ('\'' :: (content ++ '\'' :: b)) =
      searchAfter (fun before here => if wordMayBegin before then r here else none) (some '\'') b := by
  -- `u` is the part of the literal that the search has passed, `v` the part ahead of it
  have hinside : ∀ u v, content = u ++ v →
      searchAfter (fun before here => if wordMayBegin before then r here else none) (u.getLast?.or (some '\''))
        (v ++ '\'' :: b) =
      searchAfter (fun before here => if wordMayBegin before then r here else none) (some '\'') b := by
    intro u v
    induction v generalizing u with
    | nil =>
      intro _
      rw [List.nil_append, searchAfter_cons, hr.quote, ite_self, Option.none_or]
    | cons c v ih =>
      intro hcontent
      have hnone : (if wordMayBegin (u.getLast?.or (some '\'')) then r (c :: (v ++ '\'' :: b)) else none) = none := by
        split
        · next hword => exact hspared.eq_none hcontent hword hb
        · rfl
      have hnext := ih (u ++ [c]) (by rw [hcontent, List.append_assoc]; rfl)
      rw [List.getLast?_concat] at hnext
      rw [List.cons_append, searchAfter_cons, hnone, Option.none_or]
      exact hnext
  rw [searchAfter_cons, hr.quote, ite_self, Option.none_or]
  exact hinside [] content rfl

/-- What is read in front of a literal that is spared does not depend on the literal. -/
theorem read_around (hr : r.Settled) {a b : List Char} (ha : a <:+ front) (hb : b <+: back) :
    ∃ outcome : Option (α × List Char), (∀ x ∈ outcome, x.2 <:+ a) ∧
      ∀ content, r.Spares front content back →
        r (around a content b) = outcome.map fun x => (x.1, around x.2 content b) := by
  obtain ⟨outcome, hsuffix, houtcome⟩ := hr.settles a
  refine ⟨outcome, hsuffix, fun content hspared => ?_⟩
  rcases houtcome (content ++ '\'' :: b) with h | ⟨x, hx, hover⟩
  · exact h
  · -- what reads over the quote reads over the literal
    have hends := hspared.front a ((List.mem_tails _ _).2 ha) b ((List.mem_inits _ _).2 hb)
    rw [around, hx, Option.all_some, decide_eq_true_eq] at hends
    rw [List.length_append, List.length_cons] at hover
    omega

/-- Two findings: none, or one value with rests that are alike. -/
inductive FoundAlike (front back content other : List Char) :
    Option (α × List Char) → Option (α × List Char) → Prop where
  | none : FoundAlike front back content other none none
  | some (value : α) {cs ds : List Char} (h : Alike front back content other cs ds) :
    FoundAlike front back content other (some (value, cs)) (some (value, ds))

theorem FoundAlike.refl (found : Option (α × List Char)) : FoundAlike front back content other found found := by
  cases found with
  | none => exact .none
  | some x => exact .some x.1 (.same x.2)

/-- **A search finds alike** in texts around literals that are spared. -/
theorem searchWord_around (hr : r.Settled) (hcontent : r.Spares front content back)
    (hother : r.Spares front other back) {a b : List Char} (ha : a <:+ front) (hb : b <+: back) :
    FoundAlike front back content other (searchWord r (around a content b)) (searchWord r (around a other b)) := by
  have hsearch : ∀ before, FoundAlike front back content other
      (searchAfter (fun before here => if wordMayBegin before then r here else none) before (around a content b))
      (searchAfter (fun before here => if wordMayBegin before then r here else none) before (around a other b)) := by
    induction a with
    | nil =>
      -- behind the literals the texts are equal
      intro before
      rw [around, around, List.nil_append, List.nil_append, searchAfter_literal hr hcontent hb,
        searchAfter_literal hr hother hb]
      exact .refl _
    | cons c a ih =>
      intro before
      have hrest : a <:+ front := (List.suffix_cons c a).trans ha
      obtain ⟨outcome, hsuffix, hread⟩ := read_around hr ha hb
      have hhere : ∀ content, around (c :: a) content b = c :: around a content b := fun _ => rfl
      rw [hhere, hhere, searchAfter_cons, searchAfter_cons, ← hhere, ← hhere, hread content hcontent,
        hread other hother]
      cases wordMayBegin before with
      | false => exact ih hrest _
      | true =>
        cases outcome with
        | none => exact ih hrest _
        | some x => exact .some x.1 (.around ((hsuffix x rfl).trans ha) hb)
  exact hsearch none

/-- A search finds alike in texts that are alike. -/
theorem searchWord_alike (hr : r.Settled) (hcontent : r.Spares front content back)
    (hother : r.Spares front other back) {cs ds : List Char} (h : Alike front back content other cs ds) :
    FoundAlike front back content other (searchWord r cs) (searchWord r ds) := by
  cases h with
  | around ha hb => exact searchWord_around hr hcontent hother ha hb
  | same => exact .refl _

end

/-! ## Foreign keys -/

namespace Reference

/-- A literal that neither the target of a reference nor its actions have to do with. -/
structure Spared (front content back : List Char) : Prop where
  target : target.Spares front content back
  onDelete : (actionAfter "delete").Spares front content back
  onUpdate : (actionAfter "update").Spares front content back

/-- A literal that no part of a foreign key has to do with. -/
structure KeySpared (front content back : List Char) : Prop extends Spared front content back where
  columns : keyColumns.Spares front content back
  name : constraintName.Spares front content back

variable {front back content other cs ds : List Char}

theorem actionOn_alike {event : String}
    (hevent : (["on", event].all fun w => w.toList.all fun k => !sameLetter k '\'') = true)
    (hcontent : (actionAfter event).Spares front content back) (hother : (actionAfter event).Spares front other back)
    (h : Alike front back content other cs ds) : actionOn event cs = actionOn event ds := by
  have hfound := searchWord_alike (settled_actionAfter hevent) hcontent hother h
  rw [actionOn, actionOn]
  generalize searchWord (actionAfter event) cs = found, searchWord (actionAfter event) ds = found' at hfound ⊢
  cases hfound with
  | none => rfl
  | some value h => rfl

theorem actions_alike (hcontent : Spared front content back) (hother : Spared front other back)
    (h : Alike front back content other cs ds) : actions cs = actions ds := by
  rw [actions, actions, actionOn_alike (by decide) hcontent.onDelete hother.onDelete h,
    actionOn_alike (by decide) hcontent.onUpdate hother.onUpdate h]

/-- The key of a clause has nothing to do with a literal that is spared. -/
theorem foreignKey?_alike (hcontent : KeySpared front content back) (hother : KeySpared front other back)
    (h : Alike front back content other cs ds) : (foreignKey? cs).value = (foreignKey? ds).value := by
  have hcolumns := searchWord_alike settled_keyColumns hcontent.columns hother.columns h
  have hname := searchWord_alike settled_constraintName hcontent.name hother.name h
  rw [foreignKey?, foreignKey?]
  generalize searchWord keyColumns cs = columns, searchWord keyColumns ds = columns' at hcolumns ⊢
  generalize searchWord constraintName cs = name, searchWord constraintName ds = name' at hname ⊢
  cases hcolumns with
  | none => rfl
  | @some columns afterColumns afterColumns' h =>
    have htarget := searchWord_alike settled_target hcontent.target hother.target h
    dsimp only
    generalize searchWord target afterColumns = found, searchWord target afterColumns' = found' at htarget ⊢
    cases htarget with
    | none => rfl
    | some value h =>
      dsimp only
      rw [actions_alike hcontent.toSpared hother.toSpared h]
      cases hname <;> rfl

/-- The reference of a column has nothing to do with a literal that is spared, nor with any literal if the rest
refers to no table. -/
theorem reference?_alike (name : String) {scan : List Char}
    (hspared : hasPart "REFERENCES".toList scan = true → Spared front content back ∧ Spared front other back)
    (h : Alike front back content other cs ds) :
    ColumnDefinition.reference? name scan cs = ColumnDefinition.reference? name scan ds := by
  rw [ColumnDefinition.reference?, ColumnDefinition.reference?]
  split
  · next hscan =>
    obtain ⟨hcontent, hother⟩ := hspared hscan
    have htarget := searchWord_alike settled_target hcontent.target hother.target h
    rw [actions_alike hcontent hother h]
    generalize searchWord target cs = found, searchWord target ds = found' at htarget ⊢
    cases htarget with
    | none => rfl
    | some value h => rfl
  · rfl

end Reference

/-- A clause without a list of referring columns gives no key. -/
theorem Reference.foreignKey?_eq_none {clause : List Char} (h : hasWord Heading.keyList clause = false) :
    (foreignKey? clause).value = none := by
  rw [hasWord_keyList, Option.isSome_eq_false_iff, Option.isNone_iff_eq_none] at h
  rw [foreignKey?, h]
  rfl

/-- A constraint gives the key of its clause. -/
theorem Definition.keys_ofConstraint (table : String) (entry : List Char) :
    (ofConstraint table entry).value.keys = (Reference.foreignKey? entry).value.toList := by
  rw [ofConstraint]
  split
  · dsimp only
    cases (Reference.foreignKey? entry).value <;> rfl
  · next hlist =>
    rw [Reference.foreignKey?_eq_none (Bool.eq_false_iff.2 hlist)]
    split
    · rfl
    split <;> rfl

end SchemaSketch
