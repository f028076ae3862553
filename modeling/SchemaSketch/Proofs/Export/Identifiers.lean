import Mathlib
import SchemaSketch.Proofs.Export.Columns
import SchemaSketch.Proofs.Naming.Humps
import SchemaSketch.Proofs.Text.Keywords

/-!
# Written names as identifiers

A name is written as an identifier of SQL: bare, or between double quotes with each quote inside doubled. `Ident.read` is
how SQL reads one: a quote that is not doubled ends it, a bare word ends where no more of it follows, is not reserved,
and counts by its small letters; between quotes there is at least one character.

Read so, a written name gives the name back and leaves what stands behind it (`Ident.read_enclosed`,
`Ident.read_plain`). There are two exceptions (`Ident.quote_read`). Nothing is no name. And a simple word with a line end
behind it is written bare, even if the word is reserved, so only the word is read, or nothing.
-/

namespace SchemaSketch.Ident

open Text Identifier

/-! ## Reading an identifier -/

/-- The text up to the double quote that ends it, with one quote for two, and what is left behind that quote. -/
def readQuoted : List Char → Option (List Char × List Char)
  | [] => none
  | [c] => if c == '"' then some ([], []) else none
  | c :: d :: rest =>
    if c == '"' then
      if d == '"' then (readQuoted rest).map fun (name, left) => ('"' :: name, left) else some ([], d :: rest)
    else (readQuoted (d :: rest)).map fun (name, left) => (c :: name, left)

/-- The name that the identifier at the front of a text stands for, and what is left behind the identifier. -/
def read : List Char → Option (List Char × List Char)
  | [] => none
  | c :: rest =>
    if c == '"' then (readQuoted rest).filter (! ·.1.isEmpty)
    else
      let word := (c :: rest).takeWhile isBareChar
      if isWord c && !isDecimal c && !reserved.contains (upperName (String.ofList word)) then
        some (lower word, (c :: rest).dropWhile isBareChar)
      else none

theorem readQuoted_cons_of_ne {c : Char} (hc : c ≠ '"') (cs : List Char) :
    readQuoted (c :: cs) = (readQuoted cs).map fun (name, left) => (c :: name, left) := by
  cases cs with
  | nil => exact if_neg (by simpa using hc)
  | cons d rest => exact if_neg (by simpa using hc)

/-- **Undoubling.** Doubled quotes are read back one for two, and the quote behind them ends the text. -/
theorem readQuoted_doubled {rest : List Char} (hrest : rest.head? ≠ some '"') (name : List Char) :
    readQuoted (doubled name ++ '"' :: rest) = some (name, rest) := by
  induction name with
  | nil =>
    cases rest with
    | nil => rfl
    | cons d rest =>
      have hd : d ≠ '"' := fun heq => hrest (congrArg some heq)
      rw [doubled, List.nil_append, readQuoted, if_pos (beq_self_eq_true _), if_neg (by simpa using hd)]
  | cons c name ih =>
    by_cases hc : c = '"'
    · rw [doubled, hc, if_pos (beq_self_eq_true _), List.cons_append, List.cons_append, readQuoted,
        if_pos (beq_self_eq_true _), if_pos (beq_self_eq_true _), ih]
      rfl
    · rw [doubled, if_neg (by simpa using hc), List.cons_append, readQuoted_cons_of_ne hc, ih]
      rfl

/-- A name between quotes is read back if there is one. -/
theorem read_enclosed {rest : List Char} (hrest : rest.head? ≠ some '"') (name : List Char) :
    read (enclosed name ++ rest) = if name = [] then none else some (name, rest) := by
  rw [enclosed, List.cons_append, List.append_assoc, List.singleton_append, read, if_pos (beq_self_eq_true _),
    readQuoted_doubled hrest]
  cases name <;> rfl

/-- A word of simple characters is read as it stands if it is not reserved. -/
theorem read_plain {word rest : List Char} (hword : Plain word) (hrest : ∀ c ∈ rest.head?, isBareChar c = false) :
    read (word ++ rest) =
      if reserved.contains (upperName (String.ofList word)) then none else some (word, rest) := by
  have htaken : (word ++ rest).takeWhile isBareChar = word := takeWhile_append hword.isBareChar hrest
  have hleft : (word ++ rest).dropWhile isBareChar = rest := by
    rw [← drop_length_takeWhile, htaken, List.drop_left]
  have hlower : lower word = word := by
    have hsimple : ∀ c ∈ word, isNameChar c = true ∧ c.toLower = c := fun c hc =>
      of_isSimpleChar (motive := fun c => isNameChar c = true ∧ c.toLower = c) (by decide +kernel) (hword.simple c hc)
    rw [lower_of_isNameChar fun c hc => (hsimple c hc).1]
    exact (List.map_congr_left fun c hc => (hsimple c hc).2).trans (List.map_id word)
  obtain ⟨c, more, rfl, hstart⟩ := hword.begins
  have hfirst : (c == '"') = false ∧ isWord c = true ∧ isDecimal c = false :=
    of_isSimpleChar
      (motive := fun c => isSimpleStart c = true → (c == '"') = false ∧ isWord c = true ∧ isDecimal c = false)
      (by decide +kernel) (isSimpleChar_of_isSimpleStart hstart) hstart
  rw [List.cons_append] at htaken hleft ⊢
  rw [read, hfirst.1, if_neg Bool.false_ne_true]
  dsimp only
  rw [htaken, hleft, hlower, hfirst.2.1, hfirst.2.2, Bool.not_false, Bool.true_and, Bool.true_and]
  cases reserved.contains (upperName (String.ofList (c :: more))) <;> rfl

/-! ## Names that are written bare -/

/-- A simple word with a line end behind it. -/
def EndsLine (name : List Char) : Prop := ∃ word, name = word ++ ['\n'] ∧ Plain word

theorem not_plain_of_endsLine {name : List Char} (h : EndsLine name) : ¬ Plain name := by
  obtain ⟨word, rfl, -⟩ := h
  intro hplain
  exact absurd (hplain.simple '\n' (List.mem_append_right word (List.mem_singleton.2 rfl))) (by decide)

theorem isSimple_iff {name : List Char} : isSimple name = true ↔ Plain name ∨ EndsLine name := by
  have hsimple : ∀ {c : Char} {word : List Char}, isSimpleStart c = true → (∀ d ∈ word, isSimpleChar d = true) →
      Plain (c :: word) := fun hc hword =>
    ⟨⟨_, _, rfl, hc⟩, List.forall_mem_cons.2 ⟨isSimpleChar_of_isSimpleStart hc, hword⟩⟩
  constructor
  · intro h
    cases name with
    | nil => cases h
    | cons c rest =>
      rw [isSimple, Bool.and_eq_true, simpleRest_iff] at h
      rcases h.2 with hrest | ⟨front, rfl, hfront⟩
      · exact .inl (hsimple h.1 hrest)
      · exact .inr ⟨c :: front, rfl, hsimple h.1 hfront⟩
  · rintro (⟨⟨c, rest, rfl, hc⟩, hrest⟩ | ⟨word, rfl, ⟨c, rest, rfl, hc⟩, hrest⟩)
    · rw [isSimple, Bool.and_eq_true, simpleRest_iff]
      exact ⟨hc, .inl (List.forall_mem_cons.1 hrest).2⟩
    · rw [List.cons_append, isSimple, Bool.and_eq_true, simpleRest_iff]
      exact ⟨hc, .inr ⟨rest, rfl, (List.forall_mem_cons.1 hrest).2⟩⟩

/-- A name is written bare if it is simple and not reserved, or ends a line. -/
theorem isBare_iff {name : String} :
    isBare name = true ↔ Plain name.toList ∧ upperName name ∉ reserved ∨ EndsLine name.toList := by
  rw [isBare, Bool.and_eq_true, isSimple_iff, Bool.not_eq_true', Bool.eq_false_iff, ne_eq, List.contains_iff_mem,
    or_and_right]
  refine or_congr_right (and_iff_left_of_imp ?_)
  rintro ⟨word, hname, -⟩ hmem
  have hline : '\n' ∈ name.toList := hname ▸ List.mem_append_right word (List.mem_singleton.2 rfl)
  rw [← List.contains_iff_mem, not_reserved_of_line hline] at hmem
  cases hmem

theorem quote_eq_self_iff {name : String} : quote name = name ↔ isBare name = true := by
  rw [quote]
  split
  · next h => exact iff_of_true rfl h
  · next h =>
    refine iff_of_false (fun heq => ?_) h
    have hlength : ∀ cs : List Char, cs.length ≤ (doubled cs).length := by
      intro cs
      induction cs with
      | nil => exact Nat.le_refl 0
      | cons c cs ih =>
        rw [doubled]
        split <;> simp only [List.length_cons] <;> omega
    have hlists := congrArg List.length (congrArg String.toList heq)
    rw [String.toList_ofList, enclosed, List.length_cons, List.length_append] at hlists
    have := hlength name.toList
    simp only [List.length_singleton] at hlists
    omega

/-! ## Written names, read -/

/-- A written name gives the name back, unless there is none or a line ends in it. -/
theorem read_quote_iff {rest : List Char} (hrest : ∀ c ∈ rest.head?, isBareChar c = false ∧ c ≠ '"') (name : String) :
    read ((quote name).toList ++ rest) = some (name.toList, rest) ↔ name ≠ "" ∧ ¬ EndsLine name.toList := by
  have hempty : name ≠ "" ↔ name.toList ≠ [] := String.toList_eq_nil_iff.not.symm
  by_cases hbare : isBare name = true
  · rw [quote, if_pos hbare]
    rcases isBare_iff.1 hbare with ⟨hplain, hreserved⟩ | hends
    · rw [read_plain hplain fun c hc => (hrest c hc).1, String.ofList_toList, if_neg (mt List.contains_iff_mem.1 hreserved)]
      exact iff_of_true rfl ⟨hempty.2 hplain.ne_nil, fun hends => not_plain_of_endsLine hends hplain⟩
    · refine iff_of_false (fun hread => ?_) fun h => h.2 hends
      obtain ⟨word, hname, hword⟩ := hends
      -- the word ends at the line end, which is left
      rw [hname, List.append_assoc, read_plain hword (by rintro c ⟨⟩; decide)] at hread
      split at hread
      · cases hread
      · have hlength := congrArg List.length (Prod.mk.inj (Option.some.inj hread)).1
        rw [List.length_append, List.length_singleton] at hlength
        omega
  · have hquote : rest.head? ≠ some '"' := fun heq => (hrest '"' heq).2 rfl
    rw [quote, if_neg hbare, String.toList_ofList, read_enclosed hquote, hempty]
    split
    · next hnil => exact iff_of_false (fun hread => by cases hread) fun h => h.1 hnil
    · next hne => exact iff_of_true rfl ⟨hne, fun hends => hbare (isBare_iff.2 (.inr hends))⟩

/-- **A name is written as one identifier**, whatever stands behind it: bare exactly if it is a simple word that is not
reserved, or ends a line, and between quotes from which undoubling recovers it otherwise. It is read back as it was
unless it is empty or ends a line, and different names are written differently. -/
theorem quote_read {rest : List Char} (hrest : ∀ c ∈ rest.head?, isBareChar c = false ∧ c ≠ '"') (name : String) :
    (quote name = name ↔ Plain name.toList ∧ upperName name ∉ reserved ∨ EndsLine name.toList) ∧
      (quote name ≠ name → (quote name).toList = '"' :: (doubled name.toList ++ ['"']) ∧
        readQuoted (doubled name.toList ++ '"' :: rest) = some (name.toList, rest)) ∧
      (read ((quote name).toList ++ rest) = some (name.toList, rest) ↔ name ≠ "" ∧ ¬ EndsLine name.toList) ∧
      ∀ other, quote other = quote name → other = name := by
  refine ⟨quote_eq_self_iff.trans isBare_iff, fun hquoted => ⟨?_, ?_⟩, read_quote_iff hrest name, ?_⟩
  · rw [quote, if_neg (mt quote_eq_self_iff.2 hquoted), String.toList_ofList]
    rfl
  · exact readQuoted_doubled (fun heq => (hrest '"' heq).2 rfl) _
  · exact fun other h => quote_injective h

/-- A name with quotes in it, in front of a type. -/
theorem quote_read_quotes :
    (∀ c ∈ " INT".toList.head?, isBareChar c = false ∧ c ≠ '"') ∧ quote "a\"b\"" = "\"a\"\"b\"\"\"" ∧
      read ((quote "a\"b\"").toList ++ " INT".toList) = some ("a\"b\"".toList, " INT".toList) := by
  have hrest : ∀ c ∈ " INT".toList.head?, isBareChar c = false ∧ c ≠ '"' := by
    rintro c ⟨⟩
    exact ⟨by decide +kernel, by decide⟩
  have hquote : quote "a\"b\"" = "\"a\"\"b\"\"\"" := by decide +kernel
  have hquoted : quote "a\"b\"" ≠ "a\"b\"" := by rw [hquote]; decide
  obtain ⟨hbare, -, hread, -⟩ := quote_read hrest "a\"b\""
  exact ⟨hrest, hquote, hread.2 ⟨by decide, fun hends => hquoted (hbare.2 (.inr hends))⟩⟩

/-- A word with a line end behind it is neither simple nor written between quotes, and the reader stops at the line end;
if the word is reserved it reads nothing. -/
theorem not_quote_read_line :
    ¬ (quote "abc\n" = "abc\n" ∧ Plain "abc\n".toList ∧ upperName "abc\n" ∉ reserved ∨
        (quote "abc\n").toList = enclosed "abc\n".toList) ∧
      read ((quote "abc\n").toList ++ " INT".toList) = some ("abc".toList, "\n INT".toList) ∧
      quote "select\n" = "select\n" ∧ read (quote "select\n").toList = none := by
  have hplain : ¬ Plain "abc\n".toList := fun h => absurd (h.simple '\n' (by decide)) (by decide)
  have habc : quote "abc\n" = "abc\n" := if_pos (by decide +kernel)
  have hselect : quote "select\n" = "select\n" := if_pos (by decide +kernel)
  have hline : ∀ {rest : List Char}, ∀ c ∈ ('\n' :: rest).head?, isBareChar c = false := by
    rintro rest c ⟨⟩
    decide +kernel
  refine ⟨?_, ?_, hselect, ?_⟩
  · rw [habc]
    rintro (⟨-, h, -⟩ | h)
    · exact hplain h
    · exact absurd h (by decide)
  · rw [habc]
    have hword : Plain "abc".toList := ⟨⟨'a', _, rfl, by decide⟩, List.all_eq_true.1 (by decide +kernel)⟩
    refine (@read_plain _ "\n INT".toList hword hline).trans ?_
    exact if_neg (by decide +kernel)
  · rw [hselect]
    have hword : Plain "select".toList := ⟨⟨'s', _, rfl, by decide⟩, List.all_eq_true.1 (by decide +kernel)⟩
    refine (@read_plain _ ['\n'] hword hline).trans ?_
    exact if_pos (by decide +kernel)

end SchemaSketch.Ident
