import Mathlib
import SchemaSketch.Proofs.Json.Numbers

/-!
# Values that are written and read

A value is **readable** (`Readable`) when its text says all there is to say about it. Floating-point
numbers are left out, since a rounded text is not at issue here; a number of too many digits, a nesting
that is too deep and a name that an object has twice are what the reader does not give back.

That a text is read back (`ReadBack`) is said in front of anything that does not carry a number on, and
with rounds enough for the text: twice its length. Lists and objects begin and end with a character of
their own, so what they hold has rounds enough as well. The members of an object are put in one after the
other, each behind those before it, since no name comes twice.
-/

namespace SchemaSketch.Json

/-- A value that its own text is read back as: nested no deeper than `depth`, without floating-point
numbers, without whole numbers of too many digits, and without an object that has one name twice. -/
inductive Readable : Nat → Json → Prop where
  | null {depth : Nat} : Readable depth null
  | bool {depth : Nat} (b : Bool) : Readable depth (bool b)
  | int {depth : Nat} {i : Int} (digits : (Nat.toDigits 10 i.natAbs).length ≤ maxDigits) : Readable depth (int i)
  | string {depth : Nat} (s : String) : Readable depth (string s)
  | array {depth : Nat} {items : List Json} (inner : ∀ item ∈ items, Readable depth item) :
    Readable (depth + 1) (array items)
  | object {depth : Nat} {members : List (String × Json)} (names : (members.map Prod.fst).Nodup)
    (inner : ∀ member ∈ members, Readable depth member.2) : Readable (depth + 1) (object members)

theorem Readable.mono {depth deeper : Nat} {v : Json} (h : Readable depth v) (hle : depth ≤ deeper) :
    Readable deeper v := by
  induction h generalizing deeper with
  | null => exact .null
  | bool b => exact .bool b
  | int digits => exact .int digits
  | string s => exact .string s
  | array _ ih =>
    obtain ⟨more, rfl⟩ : ∃ more, deeper = more + 1 := ⟨deeper - 1, by omega⟩
    exact .array fun item hitem => ih item hitem (by omega)
  | object names _ ih =>
    obtain ⟨more, rfl⟩ : ∃ more, deeper = more + 1 := ⟨deeper - 1, by omega⟩
    exact .object names fun member hmember => ih member hmember (by omega)

/-! ### The text of a value -/

theorem toList_newLine (level : Nat) : (newLine level).toList = '\n' :: List.replicate (2 * level) ' ' :=
  String.toList_ofList

theorem toList_stringText (s : String) :
    (stringText s).toList = '"' :: (s.toList.flatMap escapeChar ++ ['"']) :=
  String.toList_ofList

theorem skipSpace_newLine (level : Nat) (cs : List Char) :
    skipSpace ((newLine level).toList ++ cs) = skipSpace cs := by
  rw [toList_newLine, skipSpace, List.dropWhile_append_of_pos]
  · rfl
  · intro c hc
    obtain rfl | hc := List.mem_cons.1 hc
    · rfl
    · rw [List.eq_of_mem_replicate hc]
      rfl

theorem skipSpace_cons {c : Char} (hc : isSpace c = false) (cs : List Char) : skipSpace (c :: cs) = c :: cs := by
  simp [skipSpace, hc]

theorem toList_array (level : Nat) (item : Json) (rest : List Json) :
    (indentedAt level (array (item :: rest))).toList
      = '[' :: ((itemsIndented (level + 1) (item :: rest)).toList ++ ((newLine level).toList ++ [']'])) := by
  simp [indentedAt]

theorem toList_object (level : Nat) (member : String × Json) (rest : List (String × Json)) :
    (indentedAt level (object (member :: rest))).toList
      = '{' :: ((membersIndented (level + 1) (member :: rest)).toList ++ ((newLine level).toList ++ ['}'])) := by
  simp [indentedAt]

theorem toList_items_one (level : Nat) (item : Json) :
    (itemsIndented level [item]).toList = (newLine level).toList ++ (indentedAt level item).toList := by
  simp [itemsIndented]

theorem toList_items_more (level : Nat) (item next : Json) (rest : List Json) :
    (itemsIndented level (item :: next :: rest)).toList
      = (newLine level).toList ++ ((indentedAt level item).toList
        ++ ',' :: (itemsIndented level (next :: rest)).toList) := by
  rw [itemsIndented]
  simp

theorem toList_members_one (level : Nat) (name : String) (value : Json) :
    (membersIndented level [(name, value)]).toList
      = (newLine level).toList ++ ((stringText name).toList
        ++ ':' :: ' ' :: (indentedAt level value).toList) := by
  simp [membersIndented]

theorem toList_members_more (level : Nat) (name : String) (value : Json) (next : String × Json)
    (rest : List (String × Json)) :
    (membersIndented level ((name, value) :: next :: rest)).toList
      = (newLine level).toList ++ ((stringText name).toList
        ++ ':' :: ' ' :: ((indentedAt level value).toList
          ++ ',' :: (membersIndented level (next :: rest)).toList)) := by
  rw [membersIndented]
  simp

/-- A character that a written value may begin with. -/
def begins (c : Char) : Bool := c.isDigit || ['-', '"', '{', '[', 'n', 't', 'f'].contains c

theorem isSpace_of_begins {c : Char} (hc : begins c = true) : isSpace c = false := by
  by_contra h
  simp only [isSpace, Bool.not_eq_false, Bool.or_eq_true, beq_iff_eq, or_assoc] at h
  obtain rfl | rfl | rfl | rfl := h <;> cases hc

theorem begins_toString (i : Int) :
    ∃ c cs, (toString i).toList = c :: cs ∧ (c.isDigit = true ∨ c = '-') := by
  obtain ⟨d, ds, hds⟩ := exists_toDigits i.natAbs
  obtain hneg | hpos := lt_or_ge i 0
  · exact ⟨'-', _, toList_toString_of_neg hneg, .inr rfl⟩
  · exact ⟨d, ds, (toList_toString_of_nonneg hpos).trans hds, .inl (isDigit_of_toDigits hds).1⟩

theorem begins_indentedAt {depth : Nat} {v : Json} (h : Readable depth v) (level : Nat) :
    ∃ c cs, (indentedAt level v).toList = c :: cs ∧ begins c = true := by
  cases h with
  | null => exact ⟨'n', ['u', 'l', 'l'], by simp [indentedAt], rfl⟩
  | bool b => cases b with
    | false => exact ⟨'f', ['a', 'l', 's', 'e'], by simp [indentedAt], rfl⟩
    | true => exact ⟨'t', ['r', 'u', 'e'], by simp [indentedAt], rfl⟩
  | @int _ i digits =>
    obtain ⟨c, cs, htext, hc⟩ := begins_toString i
    refine ⟨c, cs, htext, ?_⟩
    obtain hc | rfl := hc
    · rw [begins, hc, Bool.true_or]
    · rfl
  | string s => exact ⟨'"', _, toList_stringText s, rfl⟩
  | @array _ items inner => cases items with
    | nil => exact ⟨'[', [']'], by simp [indentedAt], rfl⟩
    | cons item rest => exact ⟨'[', _, toList_array level item rest, rfl⟩
  | @object _ members names inner => cases members with
    | nil => exact ⟨'{', ['}'], by simp [indentedAt], rfl⟩
    | cons member rest => exact ⟨'{', _, toList_object level member rest, rfl⟩

/-- In front of a value nothing is skipped. -/
theorem skipSpace_indentedAt {depth : Nat} {v : Json} (h : Readable depth v) (level : Nat) (rest : List Char) :
    skipSpace ((indentedAt level v).toList ++ rest) = (indentedAt level v).toList ++ rest := by
  obtain ⟨c, cs, htext, hc⟩ := begins_indentedAt h level
  rw [htext, List.cons_append, skipSpace_cons (isSpace_of_begins hc)]

/-! ### Reading the text of a value -/

/-- What is no string, list or object is read as a scalar. -/
theorem readValue_scalar (depth rounds : Nat) {c : Char} (hquote : c ≠ '"') (hbrace : c ≠ '{')
    (hbracket : c ≠ '[') (cs : List Char) : readValue depth (rounds + 1) (c :: cs) = readScalar (c :: cs) := by
  simp [readValue, hquote, hbrace, hbracket]

theorem readValue_int (depth rounds : Nat) {i : Int} (hi : (Nat.toDigits 10 i.natAbs).length ≤ maxDigits)
    {rest : List Char} (hrest : Stops rest) :
    readValue depth (rounds + 1) ((toString i).toList ++ rest) = .ok (int i, rest) := by
  obtain ⟨c, cs, htext, hc⟩ := begins_toString i
  have hne (d : Char) (hd : d.isDigit = false) (hm : d ≠ '-') : c ≠ d := by
    rintro rfl
    exact hc.elim (fun h => by simp [hd] at h) hm
  rw [← readScalar_int hi hrest, htext]
  exact readValue_scalar depth rounds (hne _ rfl (by decide)) (hne _ rfl (by decide)) (hne _ rfl (by decide)) _

theorem readValue_string (depth rounds : Nat) (s : String) (rest : List Char) :
    readValue depth (rounds + 1) ((stringText s).toList ++ rest) = .ok (string s, rest) := by
  rw [toList_stringText, List.cons_append, List.append_assoc, List.singleton_append]
  simp [readValue, readString_escaped, Except.map]

section

variable {depth rounds : Nat} {text after others rest : List Char}

theorem readItems_last {item : Json} (hitem : readValue depth rounds text = .ok (item, after))
    (hafter : skipSpace after = ']' :: rest) : readItems depth (rounds + 1) text = .ok ([item], rest) := by
  simp [readItems, hitem, hafter]

theorem readItems_more {item : Json} {items : List Json}
    (hitem : readValue depth rounds text = .ok (item, after)) (hafter : skipSpace after = ',' :: others)
    (hmore : readItems depth rounds (skipSpace others) = .ok (items, rest)) :
    readItems depth (rounds + 1) text = .ok (item :: items, rest) := by
  simp [readItems, hitem, hafter, hmore, Except.map]

variable {members : List (String × Json)} {name : String} {value : Json}

/-- A name, the colon behind it, and the value behind that. -/
theorem readMembers_last
    (hvalue : readValue depth rounds (skipSpace text) = .ok (value, after)) (hafter : skipSpace after = '}' :: rest) :
    readMembers depth (rounds + 1) members ((stringText name).toList ++ ':' :: text)
      = .ok (insert name value members, rest) := by
  rw [toList_stringText, List.cons_append, List.append_assoc, List.singleton_append]
  simp [readMembers, readString_escaped, skipSpace_cons, isSpace, hvalue, hafter]

theorem readMembers_more
    (hvalue : readValue depth rounds (skipSpace text) = .ok (value, after)) (hafter : skipSpace after = ',' :: others) :
    readMembers depth (rounds + 1) members ((stringText name).toList ++ ':' :: text)
      = readMembers depth rounds (insert name value members) (skipSpace others) := by
  rw [toList_stringText, List.cons_append, List.append_assoc, List.singleton_append]
  simp [readMembers, readString_escaped, skipSpace_cons, isSpace, hvalue, hafter]

end

/-- A name that is new is put in at the end. -/
theorem insert_of_not_mem {name : String} {value : Json} {members : List (String × Json)}
    (h : name ∉ members.map Prod.fst) : insert name value members = members ++ [(name, value)] := by
  induction members with
  | nil => rfl
  | cons member members ih =>
    rw [List.map_cons, List.mem_cons, not_or] at h
    rw [insert, if_neg (by simpa using Ne.symm h.1), ih h.2]
    rfl

theorem new_of_nodup {before rest : List (String × Json)} {name : String} {value : Json}
    (h : ((before ++ (name, value) :: rest).map Prod.fst).Nodup) : name ∉ before.map Prod.fst := by
  rw [List.map_append, List.nodup_append] at h
  exact fun hmem => h.2.2 name hmem name (by simp) rfl

theorem skipSpace_stringText (s : String) (rest : List Char) :
    skipSpace ((stringText s).toList ++ rest) = (stringText s).toList ++ rest := by
  rw [toList_stringText, List.cons_append, skipSpace_cons rfl]

theorem skipSpace_space_indentedAt {depth : Nat} {v : Json} (h : Readable depth v) (level : Nat) (rest : List Char) :
    skipSpace (' ' :: ((indentedAt level v).toList ++ rest)) = (indentedAt level v).toList ++ rest :=
  skipSpace_indentedAt h level rest

theorem skipSpace_newLine_cons (level : Nat) {c : Char} (hc : isSpace c = false) (rest : List Char) :
    skipSpace ((newLine level).toList ++ c :: rest) = c :: rest := by
  rw [skipSpace_newLine, skipSpace_cons hc]

theorem stops_newLine (level : Nat) (rest : List Char) : Stops ((newLine level).toList ++ rest) := by
  rw [toList_newLine]
  exact stops_cons (.inr rfl) _

theorem length_newLine_pos (level : Nat) : 0 < (newLine level).toList.length := by
  simp [toList_newLine]

/-- That the text of a value is read back, in front of anything that does not carry on a number. -/
def ReadBack (depth level : Nat) (v : Json) : Prop :=
  ∀ rounds rest, 2 * (indentedAt level v).toList.length ≤ rounds → Stops rest →
    readValue depth rounds ((indentedAt level v).toList ++ rest) = .ok (v, rest)

/-- The items of a list are read back up to its closing bracket. -/
theorem readItems_itemsIndented {depth level : Nat} (outer : Nat) (item : Json) (items : List Json)
    (hitems : ∀ v ∈ item :: items, Readable depth v ∧ ReadBack depth level v)
    {rounds : Nat} (hrounds : 2 * (itemsIndented level (item :: items)).toList.length ≤ rounds) (rest : List Char) :
    readItems depth rounds (skipSpace ((itemsIndented level (item :: items)).toList
      ++ ((newLine outer).toList ++ ']' :: rest))) = .ok (item :: items, rest) := by
  have hpos := length_newLine_pos level
  induction items generalizing item rounds with
  | nil =>
    obtain ⟨hreadable, hback⟩ := hitems item (by simp)
    rw [toList_items_one, List.length_append] at hrounds
    obtain ⟨more, rfl⟩ : ∃ more, rounds = more + 1 := ⟨rounds - 1, by omega⟩
    rw [toList_items_one, List.append_assoc, skipSpace_newLine, skipSpace_indentedAt hreadable]
    exact readItems_last (hback more _ (by omega) (stops_newLine outer _)) (skipSpace_newLine_cons outer rfl rest)
  | cons next items ih =>
    obtain ⟨⟨hreadable, hback⟩, hnext⟩ := List.forall_mem_cons.1 hitems
    rw [toList_items_more, List.length_append, List.length_append, List.length_cons] at hrounds
    obtain ⟨more, rfl⟩ : ∃ more, rounds = more + 1 := ⟨rounds - 1, by omega⟩
    rw [toList_items_more, List.append_assoc, skipSpace_newLine, List.append_assoc, skipSpace_indentedAt hreadable]
    exact readItems_more (hback more _ (by omega) (stops_cons (.inl rfl) _)) (skipSpace_cons rfl _)
      (ih next hnext (by omega))

/-- The members of an object are read back up to its closing brace, behind those that were read before. -/
theorem readMembers_membersIndented {depth level : Nat} (outer : Nat) (before : List (String × Json))
    (member : String × Json) (members : List (String × Json))
    (hnames : ((before ++ member :: members).map Prod.fst).Nodup)
    (hmembers : ∀ m ∈ member :: members, Readable depth m.2 ∧ ReadBack depth level m.2)
    {rounds : Nat} (hrounds : 2 * (membersIndented level (member :: members)).toList.length ≤ rounds)
    (rest : List Char) :
    readMembers depth rounds before (skipSpace ((membersIndented level (member :: members)).toList
      ++ ((newLine outer).toList ++ '}' :: rest))) = .ok (before ++ member :: members, rest) := by
  have hpos := length_newLine_pos level
  induction members generalizing before member rounds with
  | nil =>
    obtain ⟨name, value⟩ := member
    obtain ⟨hreadable, hback⟩ : Readable depth value ∧ ReadBack depth level value := hmembers (name, value) (by simp)
    rw [toList_members_one, List.length_append, List.length_append, List.length_cons, List.length_cons] at hrounds
    obtain ⟨more, rfl⟩ : ∃ more, rounds = more + 1 := ⟨rounds - 1, by omega⟩
    have hvalue : readValue depth more (skipSpace (' ' :: ((indentedAt level value).toList
        ++ ((newLine outer).toList ++ '}' :: rest)))) = .ok (value, (newLine outer).toList ++ '}' :: rest) := by
      rw [skipSpace_space_indentedAt hreadable]
      exact hback more _ (by omega) (stops_newLine outer _)
    rw [toList_members_one, List.append_assoc, skipSpace_newLine, List.append_assoc, skipSpace_stringText,
      List.cons_append, List.cons_append, readMembers_last hvalue (skipSpace_newLine_cons outer rfl rest),
      insert_of_not_mem (new_of_nodup hnames)]
  | cons next members ih =>
    obtain ⟨name, value⟩ := member
    obtain ⟨⟨hreadable, hback⟩, hnext⟩ := List.forall_mem_cons.1 hmembers
    change Readable depth value at hreadable
    change ReadBack depth level value at hback
    rw [toList_members_more, List.length_append, List.length_append, List.length_cons, List.length_cons,
      List.length_append, List.length_cons] at hrounds
    obtain ⟨more, rfl⟩ : ∃ more, rounds = more + 1 := ⟨rounds - 1, by omega⟩
    have hvalue (others : List Char) : readValue depth more (skipSpace (' ' :: ((indentedAt level value).toList
        ++ ',' :: others))) = .ok (value, ',' :: others) := by
      rw [skipSpace_space_indentedAt hreadable]
      exact hback more _ (by omega) (stops_cons (.inl rfl) _)
    have hnames' : ((before ++ [(name, value)] ++ next :: members).map Prod.fst).Nodup := by
      rwa [List.append_assoc, List.singleton_append]
    rw [toList_members_more, List.append_assoc, skipSpace_newLine, List.append_assoc, skipSpace_stringText,
      List.cons_append, List.cons_append, List.append_assoc, List.cons_append,
      readMembers_more (hvalue _) (skipSpace_cons rfl _), insert_of_not_mem (new_of_nodup hnames),
      ih _ next hnames' hnext (by omega), List.append_assoc, List.singleton_append]

theorem skipSpace_membersIndented (level : Nat) (member : String × Json) (members : List (String × Json))
    (rest : List Char) : ∃ cs, skipSpace ((membersIndented level (member :: members)).toList ++ rest) = '"' :: cs := by
  obtain ⟨name, value⟩ := member
  cases members with
  | nil =>
    rw [toList_members_one, List.append_assoc, skipSpace_newLine, List.append_assoc, skipSpace_stringText,
      toList_stringText]
    exact ⟨_, rfl⟩
  | cons next members =>
    rw [toList_members_more, List.append_assoc, skipSpace_newLine, List.append_assoc, skipSpace_stringText,
      toList_stringText]
    exact ⟨_, rfl⟩

theorem skipSpace_itemsIndented {depth : Nat} {item : Json} (h : Readable depth item) (level : Nat)
    (items : List Json) (rest : List Char) :
    ∃ c cs, skipSpace ((itemsIndented level (item :: items)).toList ++ rest) = c :: cs ∧ begins c = true := by
  obtain ⟨c, cs, htext, hc⟩ := begins_indentedAt h level
  cases items with
  | nil =>
    rw [toList_items_one, List.append_assoc, skipSpace_newLine, skipSpace_indentedAt h, htext]
    exact ⟨c, _, rfl, hc⟩
  | cons next items =>
    rw [toList_items_more, List.append_assoc, skipSpace_newLine, List.append_assoc, skipSpace_indentedAt h, htext]
    exact ⟨c, _, rfl, hc⟩

theorem readValue_items {depth rounds : Nat} {text : List Char} {c : Char} {cs : List Char}
    (htext : skipSpace text = c :: cs) (hc : c ≠ ']') :
    readValue (depth + 1) (rounds + 1) ('[' :: text)
      = (readItems depth rounds (skipSpace text)).map fun (items, after) => (array items, after) := by
  simp [readValue, htext, hc]

theorem readValue_members {depth rounds : Nat} {text : List Char} {c : Char} {cs : List Char}
    (htext : skipSpace text = c :: cs) (hc : c ≠ '}') :
    readValue (depth + 1) (rounds + 1) ('{' :: text)
      = (readMembers depth rounds [] (skipSpace text)).map fun (members, after) => (object members, after) := by
  simp [readValue, htext, hc]

/-- The first round is always there: no value is written as the empty text. -/
theorem readBack_of_round {depth level : Nat} {v : Json} (hv : Readable depth v)
    (h : ∀ rounds rest, 2 * (indentedAt level v).toList.length ≤ rounds + 1 → Stops rest →
      readValue depth (rounds + 1) ((indentedAt level v).toList ++ rest) = .ok (v, rest)) :
    ReadBack depth level v := by
  intro rounds rest hrounds hrest
  obtain ⟨c, cs, htext, -⟩ := begins_indentedAt hv level
  have hpos : 0 < (indentedAt level v).toList.length := by simp [htext]
  obtain ⟨more, rfl⟩ : ∃ more, rounds = more + 1 := ⟨rounds - 1, by omega⟩
  exact h more rest hrounds hrest

/-- A readable value is read back from its text, in front of anything that does not carry on a number. -/
theorem readValue_indentedAt {depth : Nat} {v : Json} (h : Readable depth v) (level : Nat) :
    ReadBack depth level v := by
  induction h generalizing level with
  | null =>
    refine readBack_of_round .null fun rounds rest _ _ => ?_
    simp [indentedAt, readValue, readScalar, wordValues]
  | bool b =>
    refine readBack_of_round (.bool b) fun rounds rest _ _ => ?_
    cases b <;> simp [indentedAt, readValue, readScalar, wordValues]
  | int digits => exact readBack_of_round (.int digits) fun rounds rest _ hrest => readValue_int _ _ digits hrest
  | string s => exact readBack_of_round (.string s) fun rounds rest _ _ => readValue_string _ _ s rest
  | @array depth items hinner ih =>
    refine readBack_of_round (.array hinner) fun rounds rest hrounds _ => ?_
    cases items with
    | nil => simp [indentedAt, readValue, skipSpace, isSpace]
    | cons item items =>
      obtain ⟨c, cs, htext, hc⟩ := skipSpace_itemsIndented (hinner item (by simp)) (level + 1) items
        ((newLine level).toList ++ ']' :: rest)
      have hclose : c ≠ ']' := by
        rintro rfl
        cases hc
      rw [toList_array] at hrounds ⊢
      simp only [List.length_cons, List.length_append] at hrounds
      rw [List.cons_append, List.append_assoc, List.append_assoc, List.singleton_append,
        readValue_items htext hclose,
        readItems_itemsIndented level item items (fun v hv => ⟨hinner v hv, ih v hv (level + 1)⟩) (by omega) rest]
      rfl
  | @object depth members names hinner ih =>
    refine readBack_of_round (.object names hinner) fun rounds rest hrounds _ => ?_
    cases members with
    | nil => simp [indentedAt, readValue, skipSpace, isSpace]
    | cons member members =>
      obtain ⟨cs, htext⟩ := skipSpace_membersIndented (level + 1) member members ((newLine level).toList ++ '}' :: rest)
      rw [toList_object] at hrounds ⊢
      simp only [List.length_cons, List.length_append] at hrounds
      rw [List.cons_append, List.append_assoc, List.append_assoc, List.singleton_append,
        readValue_members htext (by decide),
        readMembers_membersIndented level [] member members names
          (fun m hm => ⟨hinner m hm, ih m hm (level + 1)⟩) (by omega) rest]
      rfl

/-- A readable value is read back from the text that it is written as. -/
theorem read_indented {v : Json} (h : Readable maxNesting v) : read (indented v).toList = .ok v := by
  obtain ⟨c, cs, htext, hc⟩ := begins_indentedAt h 0
  have hmark : c ≠ Char.ofNat 0xFEFF := by
    rintro rfl
    cases hc
  have hskip := skipSpace_indentedAt h 0 []
  have hread := readValue_indentedAt h 0 (2 * (indentedAt 0 v).toList.length + 2) [] (by omega) stops_nil
  rw [List.append_nil] at hskip hread
  rw [indented, read, hskip, hread, htext]
  simp [hmark, skipSpace]

/-! ### The characters of the text -/

theorem isWritten_of_mem_newLine {level : Nat} {c : Char} (hc : c ∈ (newLine level).toList) : isWritten c = true := by
  rw [toList_newLine] at hc
  obtain rfl | hc := List.mem_cons.1 hc
  · rfl
  · rw [List.eq_of_mem_replicate hc]
    rfl

theorem isWritten_of_mem_items {level : Nat} {items : List Json}
    (hitems : ∀ v ∈ items, ∀ c ∈ (indentedAt level v).toList, isWritten c = true) :
    ∀ c ∈ (itemsIndented level items).toList, isWritten c = true := by
  induction items with
  | nil => simp [itemsIndented]
  | cons item items ih =>
    obtain ⟨hitem, hitems⟩ := List.forall_mem_cons.1 hitems
    intro c hc
    cases items with
    | nil =>
      rw [toList_items_one, List.mem_append] at hc
      exact hc.elim isWritten_of_mem_newLine (hitem c)
    | cons next items =>
      rw [toList_items_more, List.mem_append, List.mem_append, List.mem_cons] at hc
      obtain hc | hc | rfl | hc := hc
      · exact isWritten_of_mem_newLine hc
      · exact hitem c hc
      · rfl
      · exact ih hitems c hc

theorem isWritten_of_mem_members {level : Nat} {members : List (String × Json)}
    (hmembers : ∀ m ∈ members, ∀ c ∈ (indentedAt level m.2).toList, isWritten c = true) :
    ∀ c ∈ (membersIndented level members).toList, isWritten c = true := by
  induction members with
  | nil => simp [membersIndented]
  | cons member members ih =>
    obtain ⟨hmember, hmembers⟩ := List.forall_mem_cons.1 hmembers
    intro c hc
    cases members with
    | nil =>
      rw [toList_members_one, List.mem_append, List.mem_append, List.mem_cons, List.mem_cons] at hc
      obtain hc | hc | rfl | rfl | hc := hc
      · exact isWritten_of_mem_newLine hc
      · exact isWritten_of_mem_stringText hc
      · rfl
      · rfl
      · exact hmember c hc
    | cons next members =>
      rw [toList_members_more, List.mem_append, List.mem_append, List.mem_cons, List.mem_cons, List.mem_append,
        List.mem_cons] at hc
      obtain hc | hc | rfl | rfl | hc | rfl | hc := hc
      · exact isWritten_of_mem_newLine hc
      · exact isWritten_of_mem_stringText hc
      · rfl
      · rfl
      · exact hmember c hc
      · rfl
      · exact ih hmembers c hc

/-- The text of a readable value is printable ASCII and line ends. -/
theorem isWritten_of_mem_indentedAt {depth : Nat} {v : Json} (h : Readable depth v) (level : Nat) :
    ∀ c ∈ (indentedAt level v).toList, isWritten c = true := by
  induction h generalizing level with
  | null => simp [indentedAt, isWritten]
  | bool b => cases b <;> simp [indentedAt, isWritten]
  | int digits => exact fun c hc => isWritten_of_mem_toString hc
  | string s => exact fun c hc => isWritten_of_mem_stringText hc
  | @array _ items _ ih =>
    cases items with
    | nil => simp [indentedAt, isWritten]
    | cons item items =>
      intro c hc
      rw [toList_array, List.mem_cons, List.mem_append, List.mem_append, List.mem_singleton] at hc
      obtain rfl | hc | hc | rfl := hc
      · rfl
      · exact isWritten_of_mem_items (fun v hv => ih v hv (level + 1)) c hc
      · exact isWritten_of_mem_newLine hc
      · rfl
  | @object _ members _ _ ih =>
    cases members with
    | nil => simp [indentedAt, isWritten]
    | cons member members =>
      intro c hc
      rw [toList_object, List.mem_cons, List.mem_append, List.mem_append, List.mem_singleton] at hc
      obtain rfl | hc | hc | rfl := hc
      · rfl
      · exact isWritten_of_mem_members (fun m hm => ih m hm (level + 1)) c hc
      · exact isWritten_of_mem_newLine hc
      · rfl

end SchemaSketch.Json
