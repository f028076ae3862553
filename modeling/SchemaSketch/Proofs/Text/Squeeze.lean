import SchemaSketch.Text.Trim

/-!
# Trimming and squeezing

Both only take blanks away, or put one blank for several.

* **Trimming.** A text is its trimmed form between blanks (`exists_trim`), and this alone tells what
  trimming keeps: the characters that are not blank, and what squeezing makes of the text.
* **Squeezing.** `Squeezed a b` says step by step that `a` is `b` with its runs of blanks narrowed. The
  squeezed form of a text stands in this relation to the text without its leading blanks
  (`squeezed_squeeze`); whatever is told character by character can be carried over along it.
-/

namespace SchemaSketch.Text

/-- A text of blanks only. -/
def Blank (cs : List Char) : Prop := ∀ c ∈ cs, isBlank c = true

/-- The characters of a text that are not blank. -/
def inked (cs : List Char) : List Char := cs.filter (! isBlank ·)

theorem inked_append (a b : List Char) : inked (a ++ b) = inked a ++ inked b := List.filter_append ..

theorem inked_of_blank {cs : List Char} (h : Blank cs) : inked cs = [] := by
  rw [inked, List.filter_eq_nil_iff]
  intro c hc
  rw [h c hc]
  decide

/-! ## Trimming -/

theorem dropEnd_append {p : Char → Bool} {b : List Char} (h : ∀ c ∈ b, p c = true) (a : List Char) :
    dropEnd p (a ++ b) = dropEnd p a := by
  have hb : ∀ c ∈ b.reverse, p c = true := fun c hc => h c (List.mem_reverse.1 hc)
  rw [dropEnd, dropEnd, List.reverse_append, List.dropWhile_append_of_pos hb]

theorem dropEnd_append_of_neg {p : Char → Bool} {c : Char} (h : p c = false) (a : List Char) :
    dropEnd p (a ++ [c]) = a ++ [c] := by
  rw [dropEnd, List.reverse_append, List.reverse_singleton, List.singleton_append,
    List.dropWhile_cons_of_neg (by simp [h]), List.reverse_cons, List.reverse_reverse]

theorem exists_dropEnd (p : Char → Bool) (cs : List Char) :
    ∃ b, (∀ c ∈ b, p c = true) ∧ cs = dropEnd p cs ++ b := by
  refine ⟨(cs.reverse.takeWhile p).reverse, fun c hc => ?_, ?_⟩
  · exact List.all_eq_true.1 List.all_takeWhile c (List.mem_reverse.1 hc)
  · rw [dropEnd, ← List.reverse_append, List.takeWhile_append_dropWhile, List.reverse_reverse]

theorem trim_append_blank {b : List Char} (hb : Blank b) (a : List Char) :
    trim (a ++ b) = trim a := by
  rw [trim, trim, trimBy, trimBy, List.dropWhile_append]
  split
  · next hnil =>
    have hall : b.dropWhile isBlank = [] := by
      rw [← List.append_nil b, List.dropWhile_append_of_pos hb]
      rfl
    rw [List.isEmpty_iff.1 hnil, hall]
  · exact dropEnd_append hb _

theorem trim_blank_append {b : List Char} (hb : Blank b) (a : List Char) :
    trim (b ++ a) = trim a := by
  rw [trim, trim, trimBy, trimBy, List.dropWhile_append_of_pos hb]

/-- **A text is its trimmed form between blanks.** -/
theorem exists_trim (cs : List Char) : ∃ a b, Blank a ∧ Blank b ∧ cs = a ++ (trim cs ++ b) := by
  obtain ⟨b, hb, hend⟩ := exists_dropEnd isBlank (cs.dropWhile isBlank)
  refine ⟨cs.takeWhile isBlank, b, fun c hc => ?_, hb, ?_⟩
  · exact List.all_eq_true.1 List.all_takeWhile c hc
  · exact (congrArg (cs.takeWhile isBlank ++ ·) hend ▸ List.takeWhile_append_dropWhile).symm

theorem trim_trim (cs : List Char) : trim (trim cs) = trim cs := by
  obtain ⟨a, b, ha, hb, hcs⟩ := exists_trim cs
  have h : trim cs = trim (a ++ (trim cs ++ b)) := congrArg trim hcs
  rw [trim_blank_append ha, trim_append_blank hb] at h
  exact h.symm

theorem inked_trim (cs : List Char) : inked (trim cs) = inked cs := by
  obtain ⟨a, b, ha, hb, hcs⟩ := exists_trim cs
  have h : inked cs = inked (a ++ (trim cs ++ b)) := congrArg inked hcs
  rw [inked_append, inked_append, inked_of_blank ha, inked_of_blank hb, List.nil_append,
    List.append_nil] at h
  exact h.symm

/-- A text without characters of a class is not trimmed. -/
theorem trimBy_eq_self {p : Char → Bool} {cs : List Char} (h : ∀ c ∈ cs, p c = false) : trimBy p cs = cs := by
  have hkept : ∀ {cs : List Char}, (∀ c ∈ cs, p c = false) → cs.dropWhile p = cs := by
    intro cs h
    cases cs with
    | nil => rfl
    | cons c rest => exact List.dropWhile_cons_of_neg (Bool.eq_false_iff.1 (h c (List.mem_cons_self ..)))
  rw [trimBy, dropEnd, hkept h, hkept fun c hc => h c (List.mem_reverse.1 hc), List.reverse_reverse]

theorem subset_trimBy (p : Char → Bool) (cs : List Char) : trimBy p cs ⊆ cs := by
  obtain ⟨b, -, hend⟩ := exists_dropEnd p (cs.dropWhile p)
  intro c hc
  refine (List.dropWhile_suffix p).subset ?_
  rw [hend]
  exact List.mem_append_left b hc

theorem subset_trim (cs : List Char) : trim cs ⊆ cs := subset_trimBy isBlank cs

/-- The mark that ends a text is dropped with the blanks before it. -/
theorem trim_dropEnd_trim {mark : Char} (hmark : isBlank mark = false) {cs : List Char}
    (hcs : cs.getLast? ≠ some mark) : trim (dropEnd (· == mark) (trim (cs ++ [mark]))) = trim cs := by
  have hdrop : (cs ++ [mark]).dropWhile isBlank = cs.dropWhile isBlank ++ [mark] := by
    rw [List.dropWhile_append]
    split
    · next hnil =>
      rw [List.isEmpty_iff.1 hnil, List.dropWhile_cons_of_neg (by simp [hmark])]
      rfl
    · rfl
  have hfree : dropEnd (· == mark) (cs.dropWhile isBlank) = cs.dropWhile isBlank := by
    obtain ⟨b, hb, hend⟩ := exists_dropEnd (· == mark) (cs.dropWhile isBlank)
    rcases List.eq_nil_or_concat b with rfl | ⟨front, x, rfl⟩
    · exact (hend.trans (List.append_nil _)).symm
    · -- the last character would be the mark
      have hx : x = mark := beq_iff_eq.1 (hb x (by simp))
      have hlast : (cs.dropWhile isBlank).getLast? = some mark := by
        rw [hend, List.concat_eq_append, ← List.append_assoc, List.getLast?_concat, hx]
      refine absurd ?_ hcs
      rw [← List.takeWhile_append_dropWhile (p := isBlank) (l := cs), List.getLast?_append, hlast]
      rfl
  have htrim : trim (cs ++ [mark]) = cs.dropWhile isBlank ++ [mark] := by
    rw [trim, trimBy, hdrop, dropEnd_append_of_neg hmark]
  rw [htrim, dropEnd_append (fun c hc => by simpa using List.mem_singleton.1 hc), hfree]
  -- the blanks in front make no difference
  have hfront : Blank (cs.takeWhile isBlank) := fun c hc => List.all_eq_true.1 List.all_takeWhile c hc
  rw [← trim_blank_append hfront, List.takeWhile_append_dropWhile]

/-! ## Words -/

theorem ne_nil_of_mem_runsFrom {p : Char → Bool} {current cs run : List Char}
    (h : run ∈ runsFrom p current cs) : run ≠ [] := by
  induction cs generalizing current with
  | nil =>
    rw [runsFrom] at h
    split at h
    · exact absurd h List.not_mem_nil
    · next hcurrent =>
      rw [List.mem_singleton.1 h]
      simpa using hcurrent
  | cons c rest ih =>
    rw [runsFrom] at h
    split at h
    · split at h
      · exact ih h
      · next hcurrent =>
        rcases List.mem_cons.1 h with rfl | h
        · simpa using hcurrent
        · exact ih h
    · exact ih h

/-- The characters of a run are of another class than those around it. -/
theorem not_of_mem_runsFrom {p : Char → Bool} {current cs run : List Char} (hcurrent : ∀ c ∈ current, p c = false)
    (h : run ∈ runsFrom p current cs) : ∀ c ∈ run, p c = false := by
  induction cs generalizing current with
  | nil =>
    rw [runsFrom] at h
    split at h
    · cases h
    · obtain rfl := List.mem_singleton.1 h
      exact fun c hc => hcurrent c (List.mem_reverse.1 hc)
  | cons d rest ih =>
    have hnone : ∀ c ∈ ([] : List Char), p c = false := fun c hc => absurd hc List.not_mem_nil
    rw [runsFrom] at h
    split at h
    · split at h
      · exact ih hnone h
      · rcases List.mem_cons.1 h with rfl | h
        · exact fun c hc => hcurrent c (List.mem_reverse.1 hc)
        · exact ih hnone h
    · next hd => exact ih (List.forall_mem_cons.2 ⟨by simpa using hd, hcurrent⟩) h

/-- Behind the first text, every text stands after a separator. -/
theorem join_cons (separator part : List Char) (parts : List (List Char)) :
    join separator (part :: parts) = part ++ parts.flatMap (separator ++ ·) := by
  induction parts generalizing part with
  | nil => exact (List.append_nil part).symm
  | cons next rest ih => rw [join, ih, List.flatMap_cons, List.append_assoc, List.append_assoc]

theorem forall_mem_join {motive : Char → Prop} {separator : List Char} (hseparator : ∀ c ∈ separator, motive c)
    {parts : List (List Char)} (h : ∀ part ∈ parts, ∀ c ∈ part, motive c) : ∀ c ∈ join separator parts, motive c := by
  cases parts with
  | nil => nofun
  | cons part parts =>
    obtain ⟨hpart, hparts⟩ := List.forall_mem_cons.1 h
    intro c hc
    rw [join_cons, List.mem_append, List.mem_flatMap] at hc
    rcases hc with hc | ⟨next, hnext, hc⟩
    · exact hpart c hc
    · exact (List.mem_append.1 hc).elim (hseparator c) (hparts next hnext c)

/-- A character is in joined texts only if it is in one of them, or in the separator. -/
theorem not_mem_join {c : Char} {separator : List Char} (hseparator : c ∉ separator) {parts : List (List Char)}
    (h : ∀ part ∈ parts, c ∉ part) : c ∉ join separator parts := fun hmem =>
  forall_mem_join (motive := (· ≠ c)) (fun _ hd heq => hseparator (heq ▸ hd))
    (fun part hpart _ hd heq => h part hpart (heq ▸ hd)) c hmem rfl

/-- A squeezed text stands on one line. -/
theorem newline_not_mem_squeeze (cs : List Char) : '\n' ∉ squeeze cs := by
  refine not_mem_join (by decide) fun word hword hmem => ?_
  have := not_of_mem_runsFrom (fun c hc => absurd hc List.not_mem_nil) hword '\n' hmem
  exact absurd this (by decide)

theorem words_blank_append {b : List Char} (hb : Blank b) (a : List Char) : words (b ++ a) = words a := by
  induction b with
  | nil => rfl
  | cons c b ih =>
    obtain ⟨hc, hb⟩ := List.forall_mem_cons.1 hb
    rw [List.cons_append, words, runs, runsFrom, if_pos hc]
    exact ih hb

theorem runsFrom_append_blank {b : List Char} (hb : Blank b) (current a : List Char) :
    runsFrom isBlank current (a ++ b) = runsFrom isBlank current a := by
  induction a generalizing current with
  | nil =>
    cases b with
    | nil => rfl
    | cons c b =>
      obtain ⟨hc, hb⟩ := List.forall_mem_cons.1 hb
      have hrest : runsFrom isBlank [] b = [] := by
        have h := words_blank_append hb []
        rwa [List.append_nil] at h
      simp only [List.nil_append, runsFrom, hc, if_true, hrest]
  | cons c a ih => rw [List.cons_append, runsFrom, runsFrom, ih, ih]

theorem runsFrom_append {p : Char → Bool} {a : List Char} (ha : ∀ c ∈ a, p c = false) (current b : List Char) :
    runsFrom p current (a ++ b) = runsFrom p (a.reverse ++ current) b := by
  induction a generalizing current with
  | nil => rfl
  | cons c a ih =>
    obtain ⟨hc, ha⟩ := List.forall_mem_cons.1 ha
    rw [List.cons_append, runsFrom, hc, if_neg Bool.false_ne_true, ih ha, List.reverse_cons, List.append_assoc]
    rfl

/-- A run that has been begun is the first one. -/
theorem exists_runsFrom {p : Char → Bool} {current : List Char} (hne : current ≠ []) (cs : List Char) :
    ∃ r more, runsFrom p current cs = (current.reverse ++ r) :: more := by
  have hcurrent : ¬ current.isEmpty = true := by simp [hne]
  induction cs generalizing current with
  | nil => exact ⟨[], [], by rw [runsFrom, if_neg hcurrent, List.append_nil]⟩
  | cons c rest ih =>
    rw [runsFrom]
    split
    · exact ⟨[], _, by rw [List.append_nil]⟩
    · obtain ⟨r, more, h⟩ := ih (List.cons_ne_nil c current) (by simp)
      exact ⟨c :: r, more, by rw [h, List.reverse_cons, List.append_assoc, List.singleton_append]⟩

/-- A run at the front of a text. -/
theorem runs_append {p : Char → Bool} {a : List Char} (hne : a ≠ []) (ha : ∀ c ∈ a, p c = false) {b : List Char}
    (hb : ∀ c ∈ b.head?, p c = true) : runs p (a ++ b) = a :: runs p b := by
  have hcurrent : ¬ (a.reverse ++ []).isEmpty = true := by simp [hne]
  rw [runs, runsFrom_append ha]
  cases b with
  | nil => rw [runsFrom, if_neg hcurrent, List.append_nil, List.reverse_reverse]; rfl
  | cons c b =>
    have hc := hb c rfl
    rw [runsFrom, if_pos hc, if_neg hcurrent, List.append_nil, List.reverse_reverse, runs, runsFrom, if_pos hc]
    rfl

/-- A word at the front of a text. -/
theorem words_append {a : List Char} (hne : a ≠ []) (ha : ∀ c ∈ a, isBlank c = false) {b : List Char}
    (hb : ∀ c ∈ b.head?, isBlank c = true) : words (a ++ b) = a :: words b :=
  runs_append hne ha hb

/-- Runs that are joined by a character of the class are found again. -/
theorem runs_join {p : Char → Bool} {mark : Char} (hmark : p mark = true) {parts : List (List Char)}
    (h : ∀ part ∈ parts, part ≠ [] ∧ ∀ c ∈ part, p c = false) : runs p (join [mark] parts) = parts := by
  induction parts with
  | nil => rfl
  | cons part parts ih =>
    obtain ⟨⟨hne, hpart⟩, hparts⟩ := List.forall_mem_cons.1 h
    cases parts with
    | nil =>
      have hlone := runs_append hne hpart (b := []) nofun
      rwa [List.append_nil] at hlone
    | cons next rest =>
      have hpassed : ∀ cs, runs p (mark :: cs) = runs p cs := fun cs => by rw [runs, runsFrom, if_pos hmark]; rfl
      rw [join, List.append_assoc, List.singleton_append, runs_append hne hpart (by rintro c ⟨⟩; exact hmark),
        hpassed, ih hparts]

/-- Trimming first makes no difference to squeezing. -/
theorem squeeze_trim (cs : List Char) : squeeze (trim cs) = squeeze cs := by
  obtain ⟨a, b, ha, hb, hcs⟩ := exists_trim cs
  have h : words cs = words (trim cs) := by
    have hwords : words cs = words (a ++ (trim cs ++ b)) := congrArg words hcs
    rw [hwords, words_blank_append ha]
    exact runsFrom_append_blank hb [] _
  rw [squeeze, squeeze, h]

/-! ## Squeezing -/

/-- The first text is the second with its runs of blanks narrowed. -/
inductive Squeezed : List Char → List Char → Prop where
  | nil : Squeezed [] []
  /-- a character that is not blank is kept -/
  | keep {c : Char} {a b : List Char} (hc : isBlank c = false) (h : Squeezed a b) :
      Squeezed (c :: a) (c :: b)
  /-- a blank becomes a space -/
  | space {c : Char} {a b : List Char} (hc : isBlank c = true) (h : Squeezed a b) :
      Squeezed (' ' :: a) (c :: b)
  /-- a blank is dropped before another one, and at the end -/
  | drop {c : Char} {a b : List Char} (hc : isBlank c = true) (ha : ∀ x, a.head? = some x → x = ' ')
      (h : Squeezed a b) : Squeezed a (c :: b)

/-- Blanks at the end are dropped. -/
theorem Squeezed.drops {a b : List Char} (ha : Blank a) (h : Squeezed [] b) : Squeezed [] (a ++ b) := by
  induction a with
  | nil => exact h
  | cons c a ih =>
    obtain ⟨hc, ha⟩ := List.forall_mem_cons.1 ha
    exact .drop hc (fun _ h => by cases h) (ih ha)

/-- Blanks between words become one space. -/
theorem Squeezed.spaces {a b rest : List Char} {c : Char} (hc : isBlank c = true) (ha : Blank a)
    (h : Squeezed rest b) : Squeezed (' ' :: rest) (c :: (a ++ b)) := by
  induction a generalizing c with
  | nil => exact .space hc h
  | cons d a ih =>
    obtain ⟨hd, ha⟩ := List.forall_mem_cons.1 ha
    exact .drop hc (fun x hx => (Option.some.inj hx).symm) (ih hd ha)

theorem squeezed_runsFrom (cs : List Char) :
    (∀ current, current ≠ [] → ∃ rest, Squeezed rest cs ∧
      join [' '] (runsFrom isBlank current cs) = current.reverse ++ rest) ∧
    ∃ a b, Blank a ∧ cs = a ++ b ∧ Squeezed (join [' '] (runsFrom isBlank [] cs)) b := by
  -- inside a word all that is read is kept; before a word blanks are passed over first
  induction cs with
  | nil =>
    refine ⟨fun current hne => ⟨[], .nil, ?_⟩, [], [], fun _ h => absurd h List.not_mem_nil, rfl, .nil⟩
    rw [runsFrom, if_neg (by simpa using hne), List.append_nil]
    rfl
  | cons c cs ih =>
    obtain ⟨hopen, a, b, ha, hsplit, hclosed⟩ := ih
    cases hc : isBlank c with
    | false =>
      -- the word goes on
      have hstep : ∀ current, runsFrom isBlank current (c :: cs) = runsFrom isBlank (c :: current) cs :=
        fun current => by rw [runsFrom, hc]; rfl
      refine ⟨fun current _ => ?_, [], c :: cs, fun _ h => absurd h List.not_mem_nil, rfl, ?_⟩
      · obtain ⟨rest, hrest, hjoin⟩ := hopen (c :: current) (by simp)
        refine ⟨c :: rest, .keep hc hrest, ?_⟩
        rw [hstep, hjoin, List.reverse_cons, List.append_assoc]
        rfl
      · obtain ⟨rest, hrest, hjoin⟩ := hopen [c] (by simp)
        rw [hstep, hjoin]
        exact .keep hc hrest
    | true =>
      have hempty : runsFrom isBlank [] (c :: cs) = runsFrom isBlank [] cs := by
        rw [runsFrom, hc]
        rfl
      refine ⟨fun current hne => ?_, c :: a, b, List.forall_mem_cons.2 ⟨hc, ha⟩, ?_, ?_⟩
      · -- the word ends, and the blanks up to the next one become a space
        have hstep : runsFrom isBlank current (c :: cs)
            = current.reverse :: runsFrom isBlank [] cs := by
          rw [runsFrom, hc, if_pos rfl, if_neg (by simpa using hne)]
        rw [hstep]
        cases hruns : runsFrom isBlank [] cs with
        | nil =>
          rw [hruns] at hclosed
          exact ⟨[], hsplit ▸ hclosed.drops (List.forall_mem_cons.2 ⟨hc, ha⟩), (List.append_nil _).symm⟩
        | cons w ws =>
          rw [hruns] at hclosed
          exact ⟨' ' :: join [' '] (w :: ws), hsplit ▸ .spaces hc ha hclosed, List.append_assoc ..⟩
      · rw [hsplit]
        rfl
      · rw [hempty]
        exact hclosed

/-- **The squeezed form of a text** is the text, without its leading blanks, with its runs of blanks
narrowed. -/
theorem squeezed_squeeze (cs : List Char) : ∃ a b, Blank a ∧ cs = a ++ b ∧ Squeezed (squeeze cs) b :=
  (squeezed_runsFrom cs).2

theorem Squeezed.inked_eq {a b : List Char} (h : Squeezed a b) : inked a = inked b := by
  have hblank : ∀ {c : Char} (cs : List Char), isBlank c = true → inked (c :: cs) = inked cs :=
    fun cs hc => List.filter_cons_of_neg (by simp [hc])
  have hink : ∀ {c : Char} (cs : List Char), isBlank c = false → inked (c :: cs) = c :: inked cs :=
    fun cs hc => List.filter_cons_of_pos (by simp [hc])
  induction h with
  | nil => rfl
  | keep hc _ ih => rw [hink _ hc, hink _ hc, ih]
  | space hc _ ih => rw [hblank _ (by decide), hblank _ hc, ih]
  | drop hc _ _ ih => rw [hblank _ hc, ih]

theorem inked_squeeze (cs : List Char) : inked (squeeze cs) = inked cs := by
  obtain ⟨a, b, ha, rfl, h⟩ := squeezed_squeeze cs
  rw [h.inked_eq, inked_append, inked_of_blank ha, List.nil_append]

/-! ## Squeezed texts -/

/-- Words with single spaces between them. -/
inductive Tidy : List Char → Prop where
  | word {a : List Char} (hne : a ≠ []) (ha : ∀ c ∈ a, isBlank c = false) : Tidy a
  | append {a b : List Char} (hne : a ≠ []) (ha : ∀ c ∈ a, isBlank c = false) (hb : Tidy b) : Tidy (a ++ ' ' :: b)

/-- A word grows by what is put in front of it. -/
theorem Tidy.prepend {a b : List Char} (ha : ∀ c ∈ a, isBlank c = false) (hb : Tidy b) : Tidy (a ++ b) := by
  have hgrown : ∀ {w : List Char}, w ≠ [] → (∀ c ∈ w, isBlank c = false) →
      a ++ w ≠ [] ∧ ∀ c ∈ a ++ w, isBlank c = false := fun hne hw =>
    ⟨fun h => hne (List.append_eq_nil_iff.1 h).2, fun c hc => (List.mem_append.1 hc).elim (ha c) (hw c)⟩
  cases hb with
  | word hne hw => exact .word (hgrown hne hw).1 (hgrown hne hw).2
  | append hne hw hb =>
    rw [← List.append_assoc]
    exact .append (hgrown hne hw).1 (hgrown hne hw).2 hb

theorem Tidy.words_ne_nil {cs : List Char} (h : Tidy cs) : words cs ≠ [] := by
  cases h with
  | word hne ha =>
    have hwords := words_append hne ha (b := []) (fun c hc => by cases hc)
    rw [List.append_nil] at hwords
    exact hwords ▸ List.cons_ne_nil _ _
  | append hne ha _ =>
    rw [words_append hne ha (by rintro c ⟨⟩; rfl)]
    exact List.cons_ne_nil _ _

/-- A text in which single spaces stand between words stays as it is. -/
theorem Tidy.squeeze_eq {cs : List Char} (h : Tidy cs) : squeeze cs = cs := by
  induction h with
  | word hne ha =>
    have hwords := words_append hne ha (b := []) (fun c hc => by cases hc)
    rw [List.append_nil] at hwords
    rw [squeeze, hwords]
    rfl
  | @append a b hne ha hb ih =>
    obtain ⟨w, ws, hws⟩ := List.exists_cons_of_ne_nil hb.words_ne_nil
    have hspace : words (' ' :: b) = words b := words_blank_append (List.forall_mem_singleton.2 rfl) b
    rw [squeeze, hws] at ih
    rw [squeeze, words_append hne ha (by rintro c ⟨⟩; rfl), hspace, hws, join, ih, List.append_assoc]
    rfl

end SchemaSketch.Text
