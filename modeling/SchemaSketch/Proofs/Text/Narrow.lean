import SchemaSketch.Proofs.Text.Squeeze

/-!
# Blanks inside a text

Squeezing does not know of literals: where a text stands in the middle of another, its runs of blanks become single
spaces like all others (`squeeze_narrow`). What it becomes is its *narrowed* form, which is the text itself exactly
if each blank in it is a space and no two stand side by side (`narrow_eq_self_iff`).
-/

namespace SchemaSketch.Text

/-! ## Narrowed texts -/

/-- A text in which each run of blanks is one space, at its ends too. `after` says that a blank stands in front. -/
def narrowFrom (after : Bool) : List Char → List Char
  | [] => []
  | c :: rest =>
    if isBlank c then (if after then [] else [' ']) ++ narrowFrom true rest else c :: narrowFrom false rest

/-- A text in which each run of blanks is one space. -/
def narrow (cs : List Char) : List Char := narrowFrom false cs

theorem narrowFrom_blank {c : Char} (hc : isBlank c = true) (after : Bool) (rest : List Char) :
    narrowFrom after (c :: rest) = (if after then [] else [' ']) ++ narrowFrom true rest := by
  rw [narrowFrom, if_pos hc]

theorem narrowFrom_ink {c : Char} (hc : isBlank c = false) (after : Bool) (rest : List Char) :
    narrowFrom after (c :: rest) = c :: narrowFrom false rest := by
  rw [narrowFrom, if_neg (Bool.eq_false_iff.1 hc)]

theorem mem_narrowFrom {c : Char} (hc : isBlank c = false) {after : Bool} {cs : List Char}
    (h : c ∈ narrowFrom after cs) : c ∈ cs := by
  induction cs generalizing after with
  | nil => exact h
  | cons d rest ih =>
    cases hd : isBlank d with
    | true =>
      rw [narrowFrom_blank hd] at h
      rcases List.mem_append.1 h with h | h
      · have hspace : c = ' ' := by
          cases after with
          | true => cases h
          | false => exact List.mem_singleton.1 h
        rw [hspace] at hc
        cases hc
      · exact List.mem_cons_of_mem d (ih h)
    | false =>
      rw [narrowFrom_ink hd] at h
      rcases List.mem_cons.1 h with rfl | h
      · exact List.mem_cons_self ..
      · exact List.mem_cons_of_mem d (ih h)

/-! ## Squeezing around a text -/

/-- The words of a text are the same when blanks in its middle are narrowed. `current` is the word being read. -/
theorem runsFrom_narrowFrom (current cs tail : List Char) :
    runsFrom isBlank current (narrowFrom current.isEmpty cs ++ tail) = runsFrom isBlank current (cs ++ tail) := by
  induction cs generalizing current with
  | nil => rfl
  | cons c rest ih =>
    cases hc : isBlank c with
    | false =>
      rw [narrowFrom_ink hc, List.cons_append, List.cons_append, runsFrom, runsFrom, hc]
      exact ih (c :: current)
    | true =>
      rw [narrowFrom_blank hc, List.cons_append, runsFrom, if_pos hc]
      cases current with
      | nil => exact ih []
      | cons d current =>
        have hspace : isBlank ' ' = true := rfl
        simp only [List.isEmpty_cons, Bool.false_eq_true, if_false, List.cons_append, List.nil_append, runsFrom, hspace,
          if_true]
        exact congrArg _ (ih [])

/-- A tidy text stays tidy when a text with narrow blanks is put in front of it. -/
theorem tidy_narrowFrom {tail : List Char} (htail : Tidy tail) (cs : List Char) :
    Tidy (narrowFrom true cs ++ tail) ∧
      ∀ word, word ≠ [] → (∀ c ∈ word, isBlank c = false) → Tidy (word ++ (narrowFrom false cs ++ tail)) := by
  induction cs with
  | nil => exact ⟨htail, fun word _ hword => htail.prepend hword⟩
  | cons c rest ih =>
    obtain ⟨hafter, hword⟩ := ih
    cases hc : isBlank c with
    | true =>
      rw [narrowFrom_blank hc, narrowFrom_blank hc]
      exact ⟨hafter, fun word hne hblank => .append hne hblank hafter⟩
    | false =>
      have hone : ∀ d ∈ [c], isBlank d = false := List.forall_mem_singleton.2 hc
      rw [narrowFrom_ink hc, narrowFrom_ink hc]
      refine ⟨hword [c] (List.cons_ne_nil c []) hone, fun word _ hblank => ?_⟩
      have hlonger := hword (word ++ [c]) (by simp) fun d hd => (List.mem_append.1 hd).elim (hblank d) (hone d)
      rwa [List.append_assoc] at hlonger

/-- Words with spaces between them are a tidy text. -/
theorem tidy_join {ws : List (List Char)} (hne : ws ≠ []) (h : ∀ w ∈ ws, w ≠ [] ∧ ∀ c ∈ w, isBlank c = false) :
    Tidy (join [' '] ws) := by
  induction ws with
  | nil => exact absurd rfl hne
  | cons w rest ih =>
    obtain ⟨⟨hw, hblank⟩, hrest⟩ := List.forall_mem_cons.1 h
    cases rest with
    | nil => exact .word hw hblank
    | cons v rest =>
      rw [join, List.append_assoc]
      exact .append hw hblank (ih (List.cons_ne_nil v rest) hrest)

/-- A word in front of a space is squeezed by itself. -/
theorem squeeze_append_space {a b : List Char} (hne : a ≠ []) (ha : ∀ c ∈ a, isBlank c = false) (hb : words b ≠ []) :
    squeeze (a ++ ' ' :: b) = a ++ ' ' :: squeeze b := by
  obtain ⟨w, ws, hws⟩ := List.exists_cons_of_ne_nil hb
  have hspace : words (' ' :: b) = words b := words_blank_append (List.forall_mem_singleton.2 rfl) b
  rw [squeeze, squeeze, words_append hne ha (by rintro c ⟨⟩; rfl), hspace, hws, join, List.append_assoc]
  rfl

/-- A text that squeezing leaves as it is. -/
theorem tidy_of_squeeze_eq {cs : List Char} (hne : cs ≠ []) (h : squeeze cs = cs) : Tidy cs := by
  have hwords : words cs ≠ [] := by
    intro hnil
    rw [squeeze, hnil] at h
    exact hne h.symm
  rw [← h]
  exact tidy_join hwords fun w hw =>
    ⟨ne_nil_of_mem_runsFrom hw, not_of_mem_runsFrom (fun c hc => absurd hc List.not_mem_nil) hw⟩

/-- A gap parts the words of a text. -/
theorem words_gap {c : Char} (hc : isBlank c = true) {gap : List Char} (hgap : Blank gap) (a b : List Char) :
    words (a ++ c :: (gap ++ b)) = words a ++ words b := by
  have hrest : runsFrom isBlank [] (gap ++ b) = words b := words_blank_append hgap b
  have hruns : ∀ current, runsFrom isBlank current (a ++ c :: (gap ++ b)) = runsFrom isBlank current a ++ words b := by
    induction a with
    | nil =>
      intro current
      simp only [List.nil_append, runsFrom, hc, if_true, hrest]
      split <;> rfl
    | cons d a ih =>
      intro current
      rw [List.cons_append, runsFrom, runsFrom, ih, ih]
      split
      · split <;> rfl
      · rfl
  exact hruns []

theorem words_join {c : Char} (hc : isBlank c = true) {gap : List Char} (hgap : Blank gap) (lines : List (List Char)) :
    words (join (c :: gap) lines) = lines.flatMap words := by
  induction lines with
  | nil => rfl
  | cons line rest ih =>
    cases rest with
    | nil => exact (List.append_nil _).symm
    | cons next rest =>
      rw [join, List.append_assoc, List.cons_append, words_gap hc hgap, ih]
      rfl

/-- Two tidy texts with a space between them are tidy. -/
theorem Tidy.space {a b : List Char} (ha : Tidy a) (hb : Tidy b) : Tidy (a ++ ' ' :: b) := by
  induction ha with
  | word hne ha => exact .append hne ha hb
  | append hne ha _ ih =>
    rw [List.append_assoc, List.cons_append]
    exact .append hne ha ih

/-- So are more of them. -/
theorem Tidy.join {lines : List (List Char)} (hne : lines ≠ []) (h : ∀ line ∈ lines, Tidy line) :
    Tidy (join [' '] lines) := by
  induction lines with
  | nil => exact absurd rfl hne
  | cons line rest ih =>
    obtain ⟨hline, hrest⟩ := List.forall_mem_cons.1 h
    cases rest with
    | nil => exact hline
    | cons next rest =>
      rw [Text.join, List.append_assoc]
      exact hline.space (ih (List.cons_ne_nil next rest) hrest)

/-- A text with the same words as a tidy one is squeezed to it. -/
theorem Tidy.squeeze_of_words {a b : List Char} (hb : Tidy b) (h : words a = words b) : squeeze a = b := by
  rw [squeeze, h]
  exact hb.squeeze_eq

/-- **Tidy lines become one line**: whatever gap is between them becomes one space. -/
theorem squeeze_join {c : Char} (hc : isBlank c = true) {gap : List Char} (hgap : Blank gap) {lines : List (List Char)}
    (hne : lines ≠ []) (h : ∀ line ∈ lines, Tidy line) : squeeze (join (c :: gap) lines) = join [' '] lines := by
  have hspace : words (join [' '] lines) = lines.flatMap words :=
    words_join rfl (fun c hc => absurd hc List.not_mem_nil) lines
  exact (Tidy.join hne h).squeeze_of_words ((words_join hc hgap lines).trans hspace.symm)

/-- **Squeezing narrows the blanks inside a text** that stands between tidy ones. -/
theorem squeeze_narrow {front cs tail : List Char} (hfront : Tidy front) (htail : Tidy tail) :
    squeeze (front ++ (cs ++ tail)) = front ++ (narrow cs ++ tail) ∧ words (front ++ (cs ++ tail)) ≠ [] := by
  induction hfront with
  | @word a hne ha =>
    have hopen : (a.reverse ++ []).isEmpty = false := by simpa using hne
    have hwords := runsFrom_narrowFrom (a.reverse ++ []) cs tail
    rw [hopen] at hwords
    have htidy := (tidy_narrowFrom htail cs).2 a hne ha
    have hsame : words (a ++ (cs ++ tail)) = words (a ++ (narrow cs ++ tail)) := by
      rw [narrow, words, words, runs, runs, runsFrom_append ha, runsFrom_append ha, hwords]
    exact ⟨(congrArg (join [' ']) hsame).trans htidy.squeeze_eq, hsame ▸ htidy.words_ne_nil⟩
  | @append a b hne ha _ ih =>
    have hspace : words (' ' :: (b ++ (cs ++ tail))) = words (b ++ (cs ++ tail)) :=
      words_blank_append (List.forall_mem_singleton.2 rfl) _
    rw [List.append_assoc, List.cons_append, squeeze_append_space hne ha ih.2, ih.1, List.append_assoc, List.cons_append,
      words_append hne ha (by rintro c ⟨⟩; rfl), hspace]
    exact ⟨rfl, List.cons_ne_nil _ _⟩

/-! ## What is narrow already -/

theorem length_narrowFrom_le (after : Bool) (cs : List Char) : (narrowFrom after cs).length ≤ cs.length := by
  induction cs generalizing after with
  | nil => exact Nat.le_refl 0
  | cons c rest ih =>
    have hblank := ih true
    have hink := ih false
    rw [narrowFrom]
    split
    · cases after with
      | true => exact Nat.le_succ_of_le hblank
      | false => exact Nat.succ_le_succ hblank
    · exact Nat.succ_le_succ hink

/-- Each blank of a text is a space, and no two of them stand side by side. -/
structure IsNarrow (cs : List Char) : Prop where
  space : ∀ c ∈ cs, isBlank c = true → c = ' '
  apart : ¬ [' ', ' '] <:+: cs

theorem isNarrow_cons_ink {c : Char} (hc : isBlank c = false) (rest : List Char) :
    IsNarrow (c :: rest) ↔ IsNarrow rest := by
  have hpair : [' ', ' '] <:+: c :: rest ↔ [' ', ' '] <:+: rest := by
    rw [List.infix_cons_iff, or_iff_right]
    intro hprefix
    rw [← (List.cons_prefix_cons.1 hprefix).1] at hc
    cases hc
  constructor
  · intro h
    exact ⟨fun d hd => h.space d (List.mem_cons_of_mem c hd), fun hp => h.apart (hpair.2 hp)⟩
  · intro h
    refine ⟨List.forall_mem_cons.2 ⟨fun hblank => ?_, h.space⟩, fun hp => h.apart (hpair.1 hp)⟩
    rw [hc] at hblank
    cases hblank

theorem isNarrow_space_ink {c : Char} (hc : isBlank c = false) (rest : List Char) :
    IsNarrow (' ' :: c :: rest) ↔ IsNarrow (c :: rest) := by
  have hpair : [' ', ' '] <:+: ' ' :: c :: rest ↔ [' ', ' '] <:+: c :: rest := by
    rw [List.infix_cons_iff, or_iff_right]
    intro hprefix
    have hsecond := (List.cons_prefix_cons.1 (List.cons_prefix_cons.1 hprefix).2).1
    rw [← hsecond] at hc
    cases hc
  constructor
  · intro h
    exact ⟨fun d hd => h.space d (List.mem_cons_of_mem _ hd), fun hp => h.apart (hpair.2 hp)⟩
  · intro h
    exact ⟨List.forall_mem_cons.2 ⟨fun _ => rfl, h.space⟩, fun hp => h.apart (hpair.1 hp)⟩

/-- Narrowing leaves a text as it is exactly if its blanks are narrow. -/
theorem narrowFrom_eq_self_iff (cs : List Char) :
    (narrowFrom false cs = cs ↔ IsNarrow cs) ∧ (narrowFrom true cs = cs ↔ IsNarrow (' ' :: cs)) := by
  induction cs with
  | nil =>
    refine ⟨iff_of_true rfl ⟨fun c hc => absurd hc List.not_mem_nil, by decide⟩, iff_of_true rfl ⟨?_, by decide⟩⟩
    exact List.forall_mem_singleton.2 fun _ => rfl
  | cons c rest ih =>
    cases hc : isBlank c with
    | false =>
      rw [narrowFrom_ink hc, narrowFrom_ink hc, isNarrow_space_ink hc, isNarrow_cons_ink hc, List.cons_inj_right]
      exact ⟨ih.1, ih.1⟩
    | true =>
      rw [narrowFrom_blank hc, narrowFrom_blank hc]
      constructor
      · -- a blank that is kept is a space, and none may follow it
        constructor
        · intro h
          obtain ⟨hspace, hrest⟩ := List.cons.inj h
          rw [← hspace]
          exact ih.2.1 hrest
        · intro h
          obtain rfl := h.space c (List.mem_cons_self ..) hc
          exact congrArg _ (ih.2.2 h)
      · -- a blank behind a blank is dropped
        constructor
        · intro h
          have hlength := length_narrowFrom_le true rest
          have h : narrowFrom true rest = c :: rest := h
          rw [h, List.length_cons] at hlength
          omega
        · intro h
          obtain rfl := h.space c (List.mem_cons_of_mem _ (List.mem_cons_self ..)) hc
          exact absurd (List.prefix_append [' ', ' '] rest).isInfix h.apart

theorem narrow_eq_self_iff {cs : List Char} : narrow cs = cs ↔ IsNarrow cs := (narrowFrom_eq_self_iff cs).1

/-! ## Texts that end in ink -/

/-- A text whose last character is no blank. -/
def EndsInInk (cs : List Char) : Prop := ∃ front last, cs = front ++ [last] ∧ isBlank last = false

theorem endsInInk_of_forall {cs : List Char} (hne : cs ≠ []) (h : ∀ c ∈ cs, isBlank c = false) : EndsInInk cs :=
  ⟨cs.dropLast, cs.getLast hne, (List.dropLast_concat_getLast hne).symm, h _ (List.getLast_mem hne)⟩

theorem EndsInInk.append {b : List Char} (hb : EndsInInk b) (a : List Char) : EndsInInk (a ++ b) := by
  obtain ⟨front, last, rfl, hlast⟩ := hb
  exact ⟨a ++ front, last, (List.append_assoc ..).symm, hlast⟩

theorem narrowFrom_append_ink {c : Char} (hc : isBlank c = false) (after : Bool) (a b : List Char) :
    narrowFrom after (a ++ c :: b) = narrowFrom after a ++ c :: narrow b := by
  induction a generalizing after with
  | nil => exact narrowFrom_ink hc after b
  | cons d a ih =>
    cases hd : isBlank d with
    | true => rw [List.cons_append, narrowFrom_blank hd, narrowFrom_blank hd, ih, List.append_assoc]
    | false => rw [List.cons_append, narrowFrom_ink hd, narrowFrom_ink hd, ih, List.cons_append]

/-- Behind ink a text is narrowed by itself. -/
theorem EndsInInk.narrow_append {a : List Char} (ha : EndsInInk a) (b : List Char) :
    narrow (a ++ b) = narrow a ++ narrow b := by
  obtain ⟨front, last, rfl, hlast⟩ := ha
  have hfront : narrow (front ++ [last]) = narrow front ++ [last] := narrowFrom_append_ink hlast false front []
  rw [hfront, List.append_assoc, List.append_assoc, List.singleton_append, List.singleton_append]
  exact narrowFrom_append_ink hlast false front b

/-- A text with ink at both ends is squeezed by narrowing its blanks. -/
theorem EndsInInk.squeeze_eq {c : Char} (hc : isBlank c = false) {rest : List Char} (h : EndsInInk (c :: rest)) :
    squeeze (c :: rest) = narrow (c :: rest) ∧ words (narrow (c :: rest)) = words (c :: rest) := by
  have hfirst : Tidy [c] := .word (List.cons_ne_nil c []) (List.forall_mem_singleton.2 hc)
  have hnarrow : squeeze (c :: rest) = narrow (c :: rest) := by
    obtain ⟨front, last, hsplit, hlast⟩ := h
    cases front with
    | nil =>
      obtain ⟨rfl, rfl⟩ := List.cons.inj hsplit
      rw [hfirst.squeeze_eq, narrow, narrowFrom_ink hc]
      rfl
    | cons d front =>
      obtain ⟨rfl, hrest⟩ := List.cons.inj hsplit
      obtain rfl : rest = front ++ [last] := hrest
      have hend : Tidy [last] := .word (List.cons_ne_nil last []) (List.forall_mem_singleton.2 hlast)
      rw [narrow, narrowFrom_ink hc, narrowFrom_append_ink hlast]
      exact (@squeeze_narrow _ front _ hfirst hend).1
  refine ⟨hnarrow, ?_⟩
  have hwords := runsFrom_narrowFrom [] (c :: rest) []
  rw [List.append_nil, List.append_nil, List.isEmpty_nil, narrowFrom_ink hc] at hwords
  rw [narrow, narrowFrom_ink hc]
  exact hwords

theorem narrow_ne_nil {cs : List Char} (hne : cs ≠ []) : narrow cs ≠ [] := by
  obtain ⟨c, rest, rfl⟩ := List.exists_cons_of_ne_nil hne
  rw [narrow, narrowFrom]
  split <;> exact List.cons_ne_nil _ _

theorem blank_narrow {cs : List Char} (h : Blank cs) : Blank (narrow cs) := by
  intro c hc
  cases hink : isBlank c with
  | true => rfl
  | false =>
    rw [h c (mem_narrowFrom hink hc)] at hink
    cases hink

end SchemaSketch.Text
