import Mathlib
import SchemaSketch.Proofs.Design.Relations

/-!
# The order of statements

A script may declare and alter its tables in any order. `Rearranged` says what may change: statements may
be exchanged as long as the declarations of each table stay in their order and its alterations in theirs.
A foreign key may come before or after the table it refers to, and before the table it belongs to.

Such a change permutes the register and nothing else, for the register holds under each key what
`Register.lookup_ofReadings` says. So the design has the same tables with the same fields, and the same
relations between tables (`perm_of_rearranged`). Identifiers, places and the numbers at the end of
entity names may differ.
-/

namespace SchemaSketch

/-- The statements of one script are those of another in an order that keeps, for every table, its
declarations in their order and its alterations in theirs. Statements that cannot be read count for
nothing: where they stand does not matter. -/
structure Rearranged (a b : List (List Char)) : Prop where
  /-- the statements are the same -/
  perm : a.Perm b
  /-- the declarations of a table are in the same order -/
  declarations : ∀ key, a.filter (fun statement => (Reading.ofStatement statement).declares key)
    = b.filter fun statement => (Reading.ofStatement statement).declares key
  /-- the alterations of a table are in the same order -/
  alterations : ∀ key, a.filter (fun statement => (Reading.ofStatement statement).alters key)
    = b.filter fun statement => (Reading.ofStatement statement).alters key

/-- Two statements next to each other may be exchanged unless they declare the same table or alter the
same table. -/
theorem Rearranged.swap {x y : List Char} (before after : List (List Char))
    (hdeclares : ∀ key, (Reading.ofStatement x).declares key = true →
      (Reading.ofStatement y).declares key = false)
    (halters : ∀ key, (Reading.ofStatement x).alters key = true →
      (Reading.ofStatement y).alters key = false) :
    Rearranged (before ++ x :: y :: after) (before ++ y :: x :: after) := by
  have hfilter : ∀ p : List Char → Bool, (p x = true → p y = false) →
      (before ++ x :: y :: after).filter p = (before ++ y :: x :: after).filter p := by
    intro p hp
    rw [List.filter_append, List.filter_append]
    -- at most one of the two is kept
    cases hx : p x with
    | false => simp [List.filter_cons, hx]
    | true => simp [hx, hp hx]
  exact ⟨(List.Perm.swap y x after).append_left before,
    fun key => hfilter _ (hdeclares key), fun key => hfilter _ (halters key)⟩

namespace Register

theorem tablesOf_eq_of_rearranged {a b : List (List Char)} (h : Rearranged a b) (key : String) :
    tablesOf key (a.map Reading.ofStatement) = tablesOf key (b.map Reading.ofStatement) := by
  rw [tablesOf, tablesOf, List.filter_map, List.filter_map]
  exact congrArg (fun l => (l.map Reading.ofStatement).filterMap (·.table?)) (h.declarations key)

theorem addedKeys_eq_of_rearranged {a b : List (List Char)} (h : Rearranged a b) (key : String) :
    addedKeys key (a.map Reading.ofStatement) = addedKeys key (b.map Reading.ofStatement) := by
  rw [addedKeys, addedKeys, List.filter_map, List.filter_map]
  exact congrArg (fun l => (l.map Reading.ofStatement).flatMap fun reading =>
    (reading.alteration?.map (·.foreignKeys)).getD []) (h.alterations key)

theorem lookup_eq_of_rearranged {a b : List (List Char)} (h : Rearranged a b) (key : String) :
    (ofReadings (a.map Reading.ofStatement)).lookup key
      = (ofReadings (b.map Reading.ofStatement)).lookup key := by
  rw [lookup_ofReadings, lookup_ofReadings, tablesOf_eq_of_rearranged h,
    addedKeys_eq_of_rearranged h]

/-- The relations of a table depend on nothing but what stands under each key. -/
theorem tableRelationsOf_congr {r s : Register} (h : ∀ key, r.lookup key = s.lookup key)
    (table : Table) : r.tableRelationsOf table = s.tableRelationsOf table := by
  have hrelation : r.tableRelation? table = s.tableRelation? table := by
    funext key
    simp only [tableRelation?, Design.table?_eq_lookup, h]
  rw [tableRelationsOf, tableRelationsOf, hrelation]

theorem tableRelations_perm {r s : Register} (hperm : r.Perm s)
    (h : ∀ key, r.lookup key = s.lookup key) : r.tableRelations.Perm s.tableRelations := by
  have hsame : r.tableRelations = r.flatMap fun entry => s.tableRelationsOf entry.2 := by
    simp only [tableRelations, tableRelationsOf_congr h]
  rw [hsame]
  exact hperm.flatMap_right _

end Register

namespace Design

/-- **The order of statements does not matter** to the tables, their fields and their relations. -/
theorem perm_of_rearranged (base : BaseColumns) {script script' : List Char}
    {statements statements' : List (List Char)} (h : Statement.prepare script = .ok statements)
    (h' : Statement.prepare script' = .ok statements') (hre : Rearranged statements statements') :
    ∃ d d', ofScript base script = .ok d ∧ ofScript base script' = .ok d' ∧
      (d.entities.map fun e => (e.tableName, e.fields)).Perm
        (d'.entities.map fun e => (e.tableName, e.fields)) ∧
      d.tableRelations.Perm d'.tableRelations := by
  let r := Register.ofReadings (statements.map Reading.ofStatement)
  let s := Register.ofReadings (statements'.map Reading.ofStatement)
  have hr : r.Keyed := Register.keyed_ofReadings _
  have hs : s.Keyed := Register.keyed_ofReadings _
  have hlookup : ∀ key, r.lookup key = s.lookup key := Register.lookup_eq_of_rearranged hre
  have hperm : r.Perm s := Register.perm_of_lookup_eq hr.nodup hs.nodup hlookup
  refine ⟨ofRegister base r, ofRegister base s, ?_, ?_, ?_, ?_⟩
  · rw [ofScript, h]
    rfl
  · rw [ofScript, h']
    rfl
  · change ((entitiesOf base r).map _).Perm ((entitiesOf base s).map _)
    rw [contents_entitiesOf, contents_entitiesOf]
    exact hperm.map _
  · rw [tableRelations_ofRegister base hr, tableRelations_ofRegister base hs]
    exact Register.tableRelations_perm hperm hlookup

/-- A foreign key before its table and after it. -/
theorem perm_of_alteration_first :
    ∃ d d', ofScript BaseColumns.standard
        "alter table a add foreign key(b)references a;create table a(b int)".toList = .ok d ∧
      ofScript BaseColumns.standard
        "create table a(b int);alter table a add foreign key(b)references a".toList = .ok d' ∧
      (d.entities.map fun e => (e.tableName, e.fields)).Perm
        (d'.entities.map fun e => (e.tableName, e.fields)) ∧
      d.tableRelations.Perm d'.tableRelations := by
  let alteration := "alter table a add foreign key(b)references a".toList
  let creation := "create table a(b int)".toList
  have hcreation : (Reading.ofStatement creation).alteration? = none := by decide +kernel
  have halteration : (Reading.ofStatement alteration).table? = none := by decide +kernel
  have hre : Rearranged [alteration, creation] [creation, alteration] := by
    refine .swap [] [] (fun key h => ?_) fun key _ => ?_
    · rw [Reading.declares, halteration] at h
      cases h
    · rw [Reading.alters, hcreation]
      rfl
  exact perm_of_rearranged _ (by decide +kernel) (by decide +kernel) hre

end Design
end SchemaSketch
