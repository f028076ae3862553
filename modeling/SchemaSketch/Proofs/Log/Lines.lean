import SchemaSketch.Log.Record
import SchemaSketch.Proofs.Text.Lines

/-!
# A record is one line

A JSON text on one line escapes the line ends in its strings, so a record that is written as JSON is one line
whatever it says. A record that is written as text shows its message and the values of its context as they are,
and is one line if they are (`Log.Record.OnLine.newline_not_mem_line`).
-/

namespace SchemaSketch

open Text

/-! ## Strings -/

theorem newline_not_mem_append {a b : String} (ha : '\n' ∉ a.toList) (hb : '\n' ∉ b.toList) :
    '\n' ∉ (a ++ b).toList := by
  rw [String.toList_append, List.mem_append]
  exact not_or.2 ⟨ha, hb⟩

theorem newline_not_mem_intercalate {separator : String} (hseparator : '\n' ∉ separator.toList) {parts : List String}
    (h : ∀ part ∈ parts, '\n' ∉ part.toList) : '\n' ∉ (separator.intercalate parts).toList := by
  induction parts with
  | nil =>
    rw [String.intercalate_nil]
    decide
  | cons part rest ih =>
    obtain ⟨hpart, hrest⟩ := List.forall_mem_cons.1 h
    cases rest with
    | nil => rwa [String.intercalate_singleton]
    | cons next rest =>
      rw [String.intercalate_cons_cons]
      exact newline_not_mem_append (newline_not_mem_append hpart hseparator) (ih hrest)

/-! ## JSON on one line -/

namespace Json

theorem newline_not_mem_escapeUnit (n : Nat) : '\n' ∉ escapeUnit n := by
  rw [escapeUnit, List.mem_cons, List.mem_cons]
  exact not_or.2 ⟨by decide, not_or.2 ⟨by decide, newline_not_mem_hexDigits 4 n⟩⟩

theorem newline_not_mem_escapeChar (c : Char) : '\n' ∉ escapeChar c := by
  unfold escapeChar
  split_ifs with hquote hbackslash hline hreturn htab hfeed hback hplain hunit
  iterate 7 · decide
  · rw [List.mem_singleton]
    exact fun hc => hline (beq_iff_eq.2 hc.symm)
  · exact newline_not_mem_escapeUnit c.toNat
  · rw [List.mem_append]
    exact not_or.2 ⟨newline_not_mem_escapeUnit _, newline_not_mem_escapeUnit _⟩

/-- A string between its quotes stands on one line, whatever is in it. -/
theorem newline_not_mem_stringText (s : String) : '\n' ∉ (stringText s).toList := by
  rw [stringText, String.toList_ofList, List.mem_cons, List.mem_append, List.mem_flatMap]
  rintro (hmem | ⟨c, -, hmem⟩ | hmem)
  · exact absurd hmem (by decide)
  · exact newline_not_mem_escapeChar c hmem
  · exact absurd hmem (by decide)

/-- A value whose text has no line end. -/
def OnLine (v : Json) : Prop := '\n' ∉ v.oneLine.toList

theorem onLine_string (s : String) : OnLine (.string s) := newline_not_mem_stringText s

theorem onLine_nat (n : Nat) : OnLine (.int n) := newline_not_mem_toString n

theorem onLine_object {members : List (String × Json)} (h : ∀ m ∈ members, m.2.OnLine) : OnLine (.object members) := by
  have hmembers : '\n' ∉ (membersOneLine members).toList := by
    induction members with
    | nil => decide
    | cons m rest ih =>
      obtain ⟨name, value⟩ := m
      obtain ⟨hvalue, hrest⟩ := List.forall_mem_cons.1 h
      have hmember := newline_not_mem_append
        (newline_not_mem_append (newline_not_mem_stringText name) (by decide : '\n' ∉ ": ".toList)) hvalue
      cases rest with
      | nil =>
        rw [membersOneLine]
        exact hmember
      | cons next rest =>
        rw [membersOneLine]
        exact newline_not_mem_append (newline_not_mem_append hmember (by decide)) (ih hrest)
  exact newline_not_mem_append (newline_not_mem_append (by decide) hmembers) (by decide)

end Json

/-! ## Records -/

namespace Log

/-- What a record shows has no line end, in either format. -/
structure Record.OnLine (r : Record) : Prop where
  /-- its message has none -/
  message : '\n' ∉ r.message.toList
  /-- the values of its context have none as text -/
  text : ∀ m ∈ r.context, '\n' ∉ m.2.display.toList
  /-- and none as JSON -/
  json : ∀ m ∈ r.context, m.2.OnLine

theorem mem_of_lookup?_eq_some {name : String} {context : Context} {value : Json}
    (h : Json.lookup? name context = some value) : (name, value) ∈ context := by
  induction context with
  | nil => cases h
  | cons m rest ih =>
    obtain ⟨other, v⟩ := m
    rw [Json.lookup?] at h
    split at h
    · next hsame =>
      obtain rfl := beq_iff_eq.1 hsame
      obtain rfl := Option.some.inj h
      exact List.mem_cons_self ..
    · exact List.mem_cons_of_mem _ (ih h)

/-- What is shown of a context are values under known names. -/
theorem mem_of_mem_shown {context : Context} {x : String × String × Json} (h : x ∈ shown context) :
    (x.1, x.2.1) ∈ knownNames ∧ (x.1, x.2.2) ∈ context := by
  obtain ⟨⟨name, short⟩, hknown, hx⟩ := List.mem_filterMap.1 h
  dsimp only at hx
  split at hx
  · cases hx
  · cases hx
  · next value _ hlookup =>
    cases hx
    exact ⟨hknown, mem_of_lookup?_eq_some hlookup⟩

theorem newline_not_mem_contextText {r : Record} (h : r.OnLine) : '\n' ∉ (contextText r.context).toList := by
  have hnames : ∀ x ∈ knownNames, '\n' ∉ x.2.toList := by decide
  rw [contextText]
  split
  · decide
  · refine newline_not_mem_append (newline_not_mem_append (by decide) ?_) (by decide)
    refine newline_not_mem_intercalate (by decide) fun part hpart => ?_
    obtain ⟨⟨name, short, value⟩, hx, rfl⟩ := List.mem_map.1 hpart
    obtain ⟨hknown, hvalue⟩ := mem_of_mem_shown hx
    exact newline_not_mem_append (newline_not_mem_append (hnames _ hknown) (by decide)) (h.text _ hvalue)

theorem newline_not_mem_text {r : Record} (h : r.OnLine) (color : Bool) : '\n' ∉ (r.text color).toList := by
  have hmark : ∀ level : Level, '\n' ∉ (colorCode level.color ++ "[" ++ level.name ++ "]" ++ colorCode 0).toList ∧
      '\n' ∉ ("[" ++ level.name ++ "]").toList := by
    intro level
    cases level <;> decide
  rw [Record.text]
  refine newline_not_mem_append (newline_not_mem_append (newline_not_mem_append ?_ (by decide)) h.message)
    (newline_not_mem_contextText h)
  split
  · exact (hmark r.level).1
  · exact (hmark r.level).2

theorem onLine_json {r : Record} (h : r.OnLine) (time : String) : (r.json time).OnLine := by
  rw [Record.json]
  refine Json.onLine_object fun m hm => ?_
  rcases List.mem_append.1 hm with hm | hm
  · rcases List.mem_append.1 hm with hm | hm
    · simp only [List.mem_cons, List.not_mem_nil, or_false] at hm
      obtain rfl | rfl | rfl | rfl := hm
      all_goals exact Json.onLine_string _
    · split at hm
      · cases hm
      · rw [List.mem_singleton.1 hm]
        refine Json.onLine_object fun m hm => ?_
        obtain ⟨x, hx, rfl⟩ := List.mem_map.1 hm
        exact h.json _ (mem_of_mem_shown hx).2
  · split at hm
    · rw [List.mem_singleton.1 hm]
      exact Json.onLine_string _
    · cases hm

/-- **A record is one line** in either format, if what it shows has no line end. -/
theorem Record.OnLine.newline_not_mem_line {r : Record} (h : r.OnLine) (format : Format) (time : String) :
    '\n' ∉ (r.line format time).toList := by
  cases format with
  | text color => exact newline_not_mem_text h color
  | json => exact onLine_json h time

end Log
end SchemaSketch
