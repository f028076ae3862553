import SchemaSketch.Design.Assembly
import SchemaSketch.Proofs.Text.Cased
import SchemaSketch.Proofs.Text.Squeeze

/-!
# Low lines and humps

A plain word (`Word`) is a small letter with small letters and digits after it. Plain words make a name in three
ways: with low lines between them, with a capital at the beginning of each, and with a capital at the beginning of each
but the first.

A capital makes a hump only where a small letter or a digit stands before it. A word of one letter has none behind its
capital, so the hump of the next word is lost. While no such word has another one after it, the humps are exactly where
the low lines were (`markHumpsAfter_pascalText`): a name comes back from the other two spellings, and a base column is
met in each of them (`spellings`).
-/

namespace SchemaSketch

open Text

namespace Naming

/-- A plain word: a small letter, then small letters and digits. -/
structure Word where
  /-- the first letter -/
  initial : Char
  /-- what follows it -/
  rest : List Char
  small : initial.isLower = true
  ground : ∀ c ∈ rest, isLowGround c = true

/-- The word in small letters. -/
def Word.text (w : Word) : List Char := w.initial :: w.rest

/-- The word with a capital. -/
def Word.hump (w : Word) : List Char := w.initial.toUpper :: w.rest

/-- Words with low lines between them: `user_profile`. -/
def snakeText (words : List Word) : List Char := join ['_'] (words.map Word.text)

/-- Words with capitals: `UserProfile`. -/
def pascalText (words : List Word) : List Char := words.flatMap Word.hump

/-- Words with capitals behind the first one: `userProfile`. -/
def camelText : List Word → List Char
  | [] => []
  | first :: others => first.text ++ pascalText others

/-! ## The characters of plain words -/

theorem isNameChar_of_isLowGround {c : Char} (hc : isLowGround c = true) : isNameChar c = true := by
  rw [isNameChar, Char.isAlphanum, Char.isAlpha]
  rcases Bool.or_eq_true_iff.1 hc with h | h <;> simp [h]

/-- Small letters and digits are no capitals, and no separators, and stay as they are. -/
theorem of_isLowGround {c : Char} (hc : isLowGround c = true) :
    c.isUpper = false ∧ isSeparator c = false ∧ c.toLower = c :=
  of_isNameChar
    (motive := fun c => isLowGround c = true → c.isUpper = false ∧ isSeparator c = false ∧ c.toLower = c)
    (by decide +kernel) (isNameChar_of_isLowGround hc) hc

/-- The capital of a small letter. -/
theorem toUpper_of_isLower {c : Char} (hc : c.isLower = true) :
    c.toUpper.isUpper = true ∧ isNameChar c.toUpper = true ∧ isLowGround c.toUpper = false ∧
      c.toUpper.toLower = c := by
  have hground : isLowGround c = true := by rw [isLowGround, hc, Bool.true_or]
  exact of_isNameChar
    (motive := fun c => c.isLower = true → c.toUpper.isUpper = true ∧ isNameChar c.toUpper = true ∧
      isLowGround c.toUpper = false ∧ c.toUpper.toLower = c)
    (by decide +kernel) (isNameChar_of_isLowGround hground) hc

theorem lower_of_isLowGround {cs : List Char} (h : ∀ c ∈ cs, isLowGround c = true) : lower cs = cs := by
  rw [lower_of_isNameChar fun c hc => isNameChar_of_isLowGround (h c hc)]
  exact (List.map_congr_left fun c hc => (of_isLowGround (h c hc)).2.2).trans (List.map_id cs)

namespace Word

variable (w : Word)

theorem isLowGround : ∀ c ∈ w.text, isLowGround c = true :=
  List.forall_mem_cons.2 ⟨by rw [Naming.isLowGround, w.small, Bool.true_or], w.ground⟩

theorem isNameChar_hump : ∀ c ∈ w.hump, isNameChar c = true :=
  List.forall_mem_cons.2 ⟨(toUpper_of_isLower w.small).2.1, fun c hc => isNameChar_of_isLowGround (w.ground c hc)⟩

theorem capitalised_text : capitalised w.text = w.hump := by
  have hinitial : isNameChar w.initial = true := isNameChar_of_isLowGround (w.isLowGround _ (List.mem_cons_self ..))
  rw [text, capitalised, (forms_of_isNameChar hinitial).1, lower_of_isLowGround w.ground]
  rfl

theorem map_toLower_hump : w.hump.map Char.toLower = w.text := by
  rw [hump, List.map_cons, (toUpper_of_isLower w.small).2.2.2, text]
  exact congrArg _ ((List.map_congr_left fun c hc => (of_isLowGround (w.ground c hc)).2.2).trans (List.map_id _))

end Word

/-! ## The words of a name are found again -/

theorem mem_snakeText {words : List Word} : ∀ c ∈ snakeText words, isLowGround c = true ∨ c = '_' := by
  refine forall_mem_join (fun c hc => .inr (List.mem_singleton.1 hc)) fun part hpart c hc => ?_
  obtain ⟨w, -, rfl⟩ := List.mem_map.1 hpart
  exact .inl (w.isLowGround c hc)

theorem markHumpsAfter_of_no_capital {cs : List Char} (h : ∀ c ∈ cs, c.isUpper = false) (ground : Bool) :
    markHumpsAfter ground cs = cs := by
  induction cs generalizing ground with
  | nil => rfl
  | cons c rest ih =>
    obtain ⟨hc, hrest⟩ := List.forall_mem_cons.1 h
    rw [markHumpsAfter, hc, Bool.and_false, if_neg Bool.false_ne_true, ih hrest]

/-- Words in small letters have no humps, so they are what stands between the low lines. -/
theorem wordsOf_snakeText (words : List Word) : wordsOf (snakeText words) = words.map Word.text := by
  have hplain : ∀ c ∈ snakeText words, c.isUpper = false := fun c hc =>
    (mem_snakeText c hc).elim (fun h => (of_isLowGround h).1) (fun h => h ▸ rfl)
  rw [wordsOf, markHumps, markHumpsAfter_of_no_capital hplain]
  refine runs_join rfl fun part hpart => ?_
  obtain ⟨w, -, rfl⟩ := List.mem_map.1 hpart
  exact ⟨List.cons_ne_nil _ _, fun c hc => (of_isLowGround (w.isLowGround c hc)).2.1⟩

theorem pascal_map_text (words : List Word) : pascal (words.map Word.text) = pascalText words := by
  rw [pascal, List.flatMap_map]
  exact congrArg (words.flatMap ·) (funext Word.capitalised_text)

theorem camel_map_text (words : List Word) : camel (words.map Word.text) = camelText words := by
  cases words with
  | nil => rfl
  | cons first others =>
    rw [List.map_cons, camel, lower_of_isLowGround first.isLowGround, pascal_map_text]
    rfl

/-! ## Every hump is where a low line was -/

/-- Behind low ground a capital would be a hump. -/
theorem markHumpsAfter_ground {cs : List Char} (h : ∀ c ∈ cs, isLowGround c = true) {more : List Char}
    (hne : cs ≠ [] ∨ more = []) (ground : Bool) :
    markHumpsAfter ground (cs ++ more) = cs ++ markHumpsAfter true more := by
  induction cs generalizing ground with
  | nil =>
    obtain rfl : more = [] := hne.resolve_left (· rfl)
    rfl
  | cons c rest ih =>
    obtain ⟨hc, hrest⟩ := List.forall_mem_cons.1 h
    rw [List.cons_append, markHumpsAfter, (of_isLowGround hc).1, Bool.and_false, if_neg Bool.false_ne_true, hc]
    cases rest with
    | nil => rfl
    | cons d rest => rw [ih hrest (.inl (List.cons_ne_nil d rest))]; rfl

/-- A word with a capital gets a low line where low ground is before it, and is low ground for what follows. -/
theorem markHumpsAfter_hump (w : Word) {more : List Char} (h : w.rest ≠ [] ∨ more = []) (ground : Bool) :
    markHumpsAfter ground (w.hump ++ more) = (if ground then ['_'] else []) ++ w.hump ++ markHumpsAfter true more := by
  obtain ⟨hupper, -, hlow, -⟩ := toUpper_of_isLower w.small
  rw [Word.hump, List.cons_append, markHumpsAfter, hupper, Bool.and_true, hlow, markHumpsAfter_ground w.ground h]
  cases ground <;> rfl

/-- Of words of which each but the last has two letters, the first has low ground behind its capital or is the last. -/
theorem long_cons {w : Word} {others : List Word} (hlong : ∀ v ∈ (w :: others).dropLast, 2 ≤ v.text.length) :
    (w.rest ≠ [] ∨ pascalText others = []) ∧ ∀ v ∈ others.dropLast, 2 ≤ v.text.length := by
  cases others with
  | nil => exact ⟨.inr rfl, nofun⟩
  | cons next others =>
    rw [List.dropLast_cons_cons] at hlong
    obtain ⟨hw, hothers⟩ := List.forall_mem_cons.1 hlong
    refine ⟨.inl fun hnil => ?_, hothers⟩
    rw [Word.text, hnil] at hw
    exact absurd hw (Nat.lt_irrefl 1)

/-- **Behind low ground every word with a capital gets a low line**, if there is low ground between the capitals. -/
theorem markHumpsAfter_pascalText {words : List Word} (hlong : ∀ w ∈ words.dropLast, 2 ≤ w.text.length) :
    markHumpsAfter true (pascalText words) = words.flatMap fun w => '_' :: w.hump := by
  induction words with
  | nil => rfl
  | cons w others ih =>
    obtain ⟨hw, hothers⟩ := long_cons hlong
    rw [pascalText, List.flatMap_cons, ← pascalText, markHumpsAfter_hump w hw true, ih hothers]
    rfl

/-! ## The spellings of a name -/

theorem snakeText_cons (first : Word) (others : List Word) :
    snakeText (first :: others) = first.text ++ others.flatMap fun w => '_' :: w.text := by
  rw [snakeText, List.map_cons, join_cons, List.flatMap_map]
  rfl

theorem lower_humps {front : List Char} (hfront : ∀ c ∈ front, isNameChar c = true) (others : List Word) :
    lower (front ++ others.flatMap fun w => '_' :: w.hump)
      = front.map Char.toLower ++ others.flatMap fun w => '_' :: w.text := by
  have hothers : ∀ c ∈ others.flatMap fun w => '_' :: w.hump, isNameChar c = true := by
    intro c hc
    obtain ⟨w, -, hc⟩ := List.mem_flatMap.1 hc
    exact (List.mem_cons.1 hc).elim (fun h => h ▸ rfl) (w.isNameChar_hump c)
  rw [lower_of_isNameChar (List.forall_mem_append.2 ⟨hfront, hothers⟩), List.map_append, List.map_flatMap]
  congr 2
  funext w
  rw [List.map_cons, w.map_toLower_hump]
  rfl

/-- The name that words make with low lines between them. -/
def snakeName (words : List Word) : String := String.ofList (snakeText words)

theorem camelCase_snakeName (words : List Word) : camelCase (snakeName words) = String.ofList (camelText words) := by
  rw [camelCase, snakeName, String.toList_ofList, wordsOf_snakeText, camel_map_text]

theorem pascalCase_snakeName (words : List Word) : pascalCase (snakeName words) = String.ofList (pascalText words) := by
  rw [pascalCase, snakeName, String.toList_ofList, wordsOf_snakeText, pascal_map_text]

/-- The first word is in small letters, so the next one has low ground before it. -/
theorem snakeCase_camelText {words : List Word} (hlong : ∀ w ∈ words.tail.dropLast, 2 ≤ w.text.length) :
    snakeCase (String.ofList (camelText words)) = snakeName words := by
  cases words with
  | nil => rfl
  | cons first others =>
    have hname : ∀ c ∈ first.text, isNameChar c = true := fun c hc => isNameChar_of_isLowGround (first.isLowGround c hc)
    have hhumps : markHumpsAfter true (pascalText others) = _ := markHumpsAfter_pascalText hlong
    rw [snakeCase, String.toList_ofList, camelText, markHumps,
      markHumpsAfter_ground first.isLowGround (.inl (List.cons_ne_nil _ _)), hhumps, lower_humps hname,
      ← lower_of_isNameChar hname, lower_of_isLowGround first.isLowGround, ← snakeText_cons, snakeName]

/-- The capital of the first word makes no hump, so the next one has low ground before it if there is more of the
word. -/
theorem snakeCase_pascalText {words : List Word} (hlong : ∀ w ∈ words.dropLast, 2 ≤ w.text.length) :
    snakeCase (String.ofList (pascalText words)) = snakeName words := by
  cases words with
  | nil => rfl
  | cons first others =>
    obtain ⟨hfirst, hothers⟩ := long_cons hlong
    have hhumps : markHumps (pascalText (first :: others)) = first.hump ++ others.flatMap fun w => '_' :: w.hump := by
      rw [pascalText, List.flatMap_cons, ← pascalText, markHumps, markHumpsAfter_hump first hfirst false,
        markHumpsAfter_pascalText hothers]
      rfl
    rw [snakeCase, String.toList_ofList, hhumps, lower_humps first.isNameChar_hump, first.map_toLower_hump,
      ← snakeText_cons, snakeName]

theorem lowerName_snakeName (words : List Word) : lowerName (snakeName words) = snakeName words := by
  have hname : ∀ c ∈ snakeText words, isNameChar c = true ∧ c.toLower = c := fun c hc =>
    (mem_snakeText c hc).elim (fun h => ⟨isNameChar_of_isLowGround h, (of_isLowGround h).2.2⟩) (fun h => h ▸ ⟨rfl, rfl⟩)
  rw [lowerName, snakeName, String.toList_ofList, lower_of_isNameChar fun c hc => (hname c hc).1,
    List.map_congr_left fun c hc => (hname c hc).2, List.map_id']

/-- Capitals are undone by small letters. -/
theorem lowerName_upperName_snakeName (words : List Word) :
    lowerName (upperName (snakeName words)) = snakeName words := by
  have hname : ∀ c ∈ snakeText words, isNameChar c = true ∧ isNameChar c.toUpper = true ∧ c.toUpper.toLower = c := by
    intro c hc
    refine (mem_snakeText c hc).elim (fun h => ?_) (fun h => h ▸ ⟨rfl, rfl, rfl⟩)
    have hc := isNameChar_of_isLowGround h
    exact ⟨hc, of_isNameChar
      (motive := fun c => isLowGround c = true → isNameChar c.toUpper = true ∧ c.toUpper.toLower = c)
      (by decide +kernel) hc h⟩
  have hupper : ∀ c ∈ (snakeText words).map Char.toUpper, isNameChar c = true := by
    intro c hc
    obtain ⟨d, hd, rfl⟩ := List.mem_map.1 hc
    exact (hname d hd).2.1
  have hback : (snakeText words).map (Char.toLower ∘ Char.toUpper) = snakeText words :=
    (List.map_congr_left fun c hc => (hname c hc).2.2).trans (List.map_id _)
  rw [lowerName, upperName, snakeName, String.toList_ofList, String.toList_ofList,
    upper_of_isNameChar fun c hc => (hname c hc).1, lower_of_isNameChar hupper, List.map_map, hback]

/-- **A name comes back from its other spellings**, if each word but the first and the last has two letters; and so
a base column is met in every spelling. The capital of a first word of one letter is the exception: it hides the hump
of the next word. -/
theorem spellings {words : List Word} (hne : words ≠ []) (hlong : ∀ w ∈ words.tail.dropLast, 2 ≤ w.text.length) :
    let s := snakeName words
    let headStands := words.length = 1 ∨ ∀ w ∈ words.head?, 2 ≤ w.text.length
    snakeCase (camelCase s) = s ∧ (headStands → snakeCase (pascalCase s) = s) ∧
      ∀ names : List String, s ∈ names →
        let base := BaseColumns.ofNames names
        base.holds s = true ∧ base.holds (upperName s) = true ∧ base.holds (camelCase s) = true ∧
          (headStands → base.holds (pascalCase s) = true) := by
  intro s headStands
  have hcamel : snakeCase (camelCase s) = s := by
    rw [camelCase_snakeName, snakeCase_camelText hlong]
  have hpascal : headStands → snakeCase (pascalCase s) = s := by
    intro hhead
    rw [pascalCase_snakeName, snakeCase_pascalText]
    obtain ⟨first, others, rfl⟩ := List.exists_cons_of_ne_nil hne
    cases others with
    | nil => nofun
    | cons next others =>
      rw [List.dropLast_cons_cons]
      exact List.forall_mem_cons.2 ⟨hhead.resolve_left (by simp) first rfl, hlong⟩
  refine ⟨hcamel, hpascal, fun names hs => ?_⟩
  have hbase : (BaseColumns.ofNames names).contains s = true := by
    refine List.contains_iff_mem.2 (List.mem_map.2 ⟨s, hs, lowerName_snakeName words⟩)
  -- a column is among them if it, or its spelling with low lines, is the name in small letters
  have hholds : ∀ column, lowerName column = s ∨ snakeCase column = s →
      (BaseColumns.ofNames names).holds column = true := by
    rintro column (h | h)
    · rw [BaseColumns.holds, h, hbase, Bool.true_or]
    · rw [BaseColumns.holds, h, lowerName_snakeName, hbase, Bool.or_true]
  exact ⟨hholds s (.inl (lowerName_snakeName words)), hholds _ (.inl (lowerName_upperName_snakeName words)),
    hholds _ (.inr hcamel), fun hhead => hholds _ (.inr (hpascal hhead))⟩

/-- Two words that a base column is made of. -/
def createdAt : List Word :=
  [⟨'c', "reated".toList, rfl, List.all_eq_true.1 rfl⟩, ⟨'a', "t".toList, rfl, List.all_eq_true.1 rfl⟩]

theorem spellings_createdAt :
    let base := BaseColumns.ofNames ["version", "created_at"]
    snakeName createdAt = "created_at" ∧ snakeCase (camelCase "created_at") = "created_at" ∧
      snakeCase (pascalCase "created_at") = "created_at" ∧ base.holds (upperName "created_at") = true ∧
      base.holds (camelCase "created_at") = true ∧ base.holds (pascalCase "created_at") = true := by
  have hname : snakeName createdAt = "created_at" := rfl
  have hhead : createdAt.length = 1 ∨ ∀ w ∈ createdAt.head?, 2 ≤ w.text.length := .inr (by rintro w ⟨⟩; decide)
  obtain ⟨hcamel, hpascal, hbase⟩ := @spellings createdAt (List.cons_ne_nil _ _) nofun
  rw [hname] at hcamel hpascal hbase
  obtain ⟨-, hupper, hcamelHolds, hpascalHolds⟩ := hbase ["version", "created_at"] (by decide)
  exact ⟨hname, hcamel, hpascal hhead, hupper, hcamelHolds, hpascalHolds hhead⟩

end Naming

end SchemaSketch
