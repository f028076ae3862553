import SchemaSketch.Proofs.Sql.Lists
import SchemaSketch.Proofs.Sql.Signs
import SchemaSketch.Proofs.Text.Cased

/-!
# The entries of an even list

In an even list the cut at tokens is a cut at characters (`Text.signs`). An entry is even by itself, its parentheses
are matched, and no comma stands outside of them (`IsEntry`). A body that lists entries, with commas between them and
any blanks around them (`Statement.Lists`), is cut into just these (`Statement.Lists.definitions_eq`), and it is what
stands in the parentheses around it (`Statement.Lists.inParentheses?_eq`).
-/

namespace SchemaSketch

open Text

namespace Text

/-! ## Even texts, one behind the other -/

variable {inside : Bool} {before : Option Char} {a more : List Char}

/-- What may follow an even text: nothing in it combines with the end of the text. -/
def Follows (more : List Char) : Prop := ∀ c ∈ more.head?, c ≠ '(' ∧ c ≠ '-' ∧ c ≠ '*'

theorem isOpen_append (hmore : Follows more) {c : Char} (h : isOpen a c = true) : isOpen (a ++ more) c = true := by
  have hhead : ∀ {x : Char}, x = '(' ∨ x = '-' ∨ x = '*' → (a.head? != some x) = true →
      ((a ++ more).head? != some x) = true := by
    intro x hx ha
    cases a with
    | nil =>
      refine bne_iff_ne.2 fun hfirst => ?_
      obtain ⟨hparen, hdash, hstar⟩ := hmore x hfirst
      rcases hx with rfl | rfl | rfl <;> contradiction
    | cons d a => exact ha
  unfold isOpen at h ⊢
  split at h
  all_goals first | exact absurd h Bool.false_ne_true | skip
  · exact hhead (.inl rfl) h
  · exact hhead (.inr (.inl rfl)) h
  · exact hhead (.inr (.inr rfl)) h
  · rw [Bool.and_eq_true, List.contains_iff_mem] at h ⊢
    have hclosed : a.any (fun d => !(d != ']')) = true := List.any_eq_true.2 ⟨']', h.1, rfl⟩
    rw [takeWhile_append_of_any hclosed]
    exact ⟨List.mem_append_left _ h.1, h.2⟩
  · rfl

/-- **Behind an even text** stands what stands outside of literals. -/
theorem isEven_even_append (hmore : Follows more) (h : isEven inside before a = true) :
    isEven inside before (a ++ more) = isEven false (a.getLast?.or before) more := by
  induction a generalizing inside before with
  | nil =>
    rw [isEven, Bool.not_eq_true'] at h
    rw [h]
    rfl
  | cons c a ih =>
    have hlast : (c :: a).getLast?.or before = a.getLast?.or (some c) := by
      rw [List.getLast?_cons]
      cases a.getLast? <;> rfl
    rw [hlast, List.cons_append]
    by_cases hc : c = '\''
    · subst hc
      rw [isEven_quote, Bool.and_eq_true] at h
      rw [isEven_quote, h.1, Bool.true_and, ih h.2]
    cases inside with
    | true =>
      rw [isEven_inside hc, Bool.and_eq_true] at h
      obtain ⟨d, a, rfl⟩ : ∃ d a', a = d :: a' := by
        cases a with
        | nil => cases h.2
        | cons d a => exact ⟨d, a, rfl⟩
      rw [isEven_inside hc, ← ih h.2, List.cons_append, List.head?_cons]
      rw [List.head?_cons] at h
      rw [h.1, Bool.true_and]
    | false =>
      rw [isEven_outside hc, Bool.and_eq_true] at h
      rw [isEven_outside hc, isOpen_append hmore h.1, Bool.true_and, ih h.2]

theorem signs_even_append (h : isEven inside before a = true) :
    signs inside (a ++ more) = signs inside a ++ signs false more := by
  induction a generalizing inside before with
  | nil =>
    rw [isEven, Bool.not_eq_true'] at h
    rw [h]
    rfl
  | cons c a ih =>
    rw [List.cons_append, signs, signs, List.cons_append]
    refine congrArg (_ :: ·) ?_
    by_cases hc : c = '\''
    · subst hc
      rw [isEven_quote, Bool.and_eq_true] at h
      have hturn : (inside != ('\'' == '\'')) = !inside := by cases inside <;> rfl
      rw [hturn]
      exact ih h.2
    · rw [beq_eq_false_iff_ne.2 hc, Bool.bne_false]
      cases inside with
      | true => exact ih (Bool.and_eq_true_iff.1 (isEven_inside hc ▸ h)).2
      | false => exact ih (Bool.and_eq_true_iff.1 (isEven_outside hc ▸ h)).2

/-- The character in front of an even text matters only in that a word may end there. -/
theorem isEven_congr {before' : Option Char} (h : wordMayBegin before = wordMayBegin before') (inside : Bool)
    (cs : List Char) : isEven inside before cs = isEven inside before' cs := by
  cases cs with
  | nil => rfl
  | cons c rest => rw [isEven, isEven, h]

theorem map_fst_signs (inside : Bool) (cs : List Char) : (signs inside cs).map Prod.fst = cs := by
  induction cs generalizing inside with
  | nil => rfl
  | cons c cs ih => rw [signs, List.map_cons, ih]

/-! ## Blanks -/

theorem isOpen_of_isBlank {c : Char} (hc : isBlank c = true) (rest : List Char) : isOpen rest c = true := by
  unfold isOpen
  split
  all_goals first | rfl | exact absurd hc (by decide)

/-- Blanks hide nothing. -/
theorem isEven_blank_append {gap : List Char} (hgap : Blank gap) (before : Option Char) (cs : List Char) :
    isEven false before (gap ++ cs) = isEven false (gap.getLast?.or before) cs := by
  induction gap generalizing before with
  | nil => rfl
  | cons c gap ih =>
    obtain ⟨hc, hgap⟩ := List.forall_mem_cons.1 hgap
    have hquote : c ≠ '\'' := fun h => absurd (h ▸ hc) (by decide)
    have hlast : (c :: gap).getLast?.or before = gap.getLast?.or (some c) := by
      rw [List.getLast?_cons]
      cases gap.getLast? <;> rfl
    rw [List.cons_append, isEven_outside hquote, isOpen_of_isBlank hc, Bool.true_and, ih hgap, hlast]

/-- Behind blanks a word may begin. -/
theorem wordMayBegin_blank {gap : List Char} (hgap : Blank gap) (hbefore : wordMayBegin before = true) :
    wordMayBegin (gap.getLast?.or before) = true := by
  cases hlast : gap.getLast? with
  | none => exact hbefore
  | some c =>
    have hblank := hgap c (List.mem_of_getLast? hlast)
    rw [Option.some_or, wordMayBegin, isWord_of_isBlank hblank]
    rfl

theorem signs_blank {gap : List Char} (hgap : Blank gap) : signs false gap = gap.map (·, false) := by
  have h := signs_append (fun c hc => Pattern.not_mem_of_clears (by decide) (hgap c hc)) []
  rwa [List.append_nil, signs, List.append_nil] at h

theorem follows_blank {gap : List Char} (hgap : Blank gap) : Follows gap := by
  intro c hc
  have hblank := hgap c (List.mem_of_head? hc)
  refine ⟨?_, ?_, ?_⟩
  all_goals
    rintro rfl
    exact absurd hblank (by decide)

/-! ## Entries -/

/-- Whether the signs of a text close `depth` parentheses and those that it opens, and no comma stands outside of all
these. -/
def isMatched (depth : Nat) : List (Char × Bool) → Bool
  | [] => depth == 0
  | (c, counts) :: rest =>
    if counts && c == '(' then isMatched (depth + 1) rest
    else if counts && c == ')' then depth != 0 && isMatched (depth - 1) rest
    else if counts && c == ',' then depth != 0 && isMatched depth rest
    else isMatched depth rest

/-- An entry of a list: nothing in it cuts the list. -/
structure IsEntry (cs : List Char) : Prop where
  /-- its signs can be told from its characters -/
  even : isEven false none cs = true
  /-- its parentheses are matched, and no comma stands outside of them -/
  matched : isMatched 0 (signs false cs) = true
  /-- it neither begins nor ends with a blank -/
  tight : Statement.Tight cs

theorem isEntry_iff {cs : List Char} : IsEntry cs ↔ isEven false none cs = true ∧ isMatched 0 (signs false cs) = true ∧
    cs ≠ [] ∧ cs.head?.all (! isBlank ·) = true ∧ cs.getLast?.all (! isBlank ·) = true := by
  simp only [Option.all_eq_true, Bool.not_eq_true']
  exact ⟨fun h => ⟨h.even, h.matched, h.tight.ne_nil, h.tight.head, h.tight.last⟩,
    fun ⟨heven, hmatched, hne, hhead, hlast⟩ => ⟨heven, hmatched, ⟨hne, hhead, hlast⟩⟩⟩

instance (cs : List Char) : Decidable (IsEntry cs) := decidable_of_iff _ isEntry_iff.symm

theorem isMatched_uncounted (cs : List Char) (depth : Nat) (rest : List (Char × Bool)) :
    isMatched depth (cs.map (·, false) ++ rest) = isMatched depth rest := by
  induction cs with
  | nil => rfl
  | cons c cs ih => exact ih

/-- What does not count at the end makes no difference. -/
theorem isMatched_append_uncounted (cs : List Char) (depth : Nat) (signs : List (Char × Bool)) :
    isMatched depth (signs ++ cs.map (·, false)) = isMatched depth signs := by
  induction signs generalizing depth with
  | nil =>
    have h := isMatched_uncounted cs depth []
    rwa [List.append_nil] at h
  | cons sign rest ih => simp only [List.cons_append, isMatched, ih]

end Text

theorem Statement.Tight.trim_eq {cs : List Char} (h : Tight cs) : trim cs = cs := by
  obtain ⟨c, rest, rfl⟩ := List.exists_cons_of_ne_nil h.ne_nil
  rw [trim, trimBy, List.dropWhile_cons_of_neg (by simp [h.head c rfl])]
  rcases List.eq_nil_or_concat (c :: rest) with hnil | ⟨front, d, hfront⟩
  · cases hnil
  · rw [hfront, List.concat_eq_append]
    refine dropEnd_append_of_neg (h.last d ?_) front
    rw [hfront, List.concat_eq_append, List.getLast?_concat]

namespace Token

/-! ## Signs among tokens -/

variable {t : Token} {ts : List Token}

theorem textOf_eq_map_signs (ts : List Token) : Statement.textOf ts = (ts.flatMap signs).map Prod.fst := by
  rw [List.map_flatMap]
  exact List.flatMap_congr fun t _ => (map_fst_signs t).symm

/-- The token of a sign that counts is that sign. -/
theorem exists_of_isSign (h : t.isSign = true) : ∃ c, t = ⟨.punctuation, [c]⟩ ∧ Text.isSign c = true := by
  have hmark : ∀ {c : Char}, t.isMark c = true → t = ⟨.punctuation, [c]⟩ := fun {c} hc => by
    rw [isMark, Bool.and_eq_true, beq_iff_eq, beq_iff_eq] at hc
    obtain ⟨kind, text⟩ := t
    obtain ⟨rfl, rfl⟩ := hc
    rfl
  rw [isSign, Bool.or_eq_true, Bool.or_eq_true] at h
  rcases h with (h | h) | h
  · exact ⟨'(', hmark h, rfl⟩
  · exact ⟨')', hmark h, rfl⟩
  · exact ⟨',', hmark h, rfl⟩

/-- **Where a sign counts, there is its token**, and the tokens in front and behind give the rest. -/
theorem exists_of_flatMap_signs {a b : List (Char × Bool)} {c : Char} (h : ts.flatMap signs = a ++ (c, true) :: b) :
    ∃ front back, ts = front ++ ⟨.punctuation, [c]⟩ :: back ∧ front.flatMap signs = a ∧ back.flatMap signs = b := by
  induction ts generalizing a with
  | nil => simp at h
  | cons t ts ih =>
    rw [List.flatMap_cons] at h
    have hgo : ∀ a', a = t.signs ++ a' → ts.flatMap signs = a' ++ (c, true) :: b →
        ∃ front back, t :: ts = front ++ ⟨.punctuation, [c]⟩ :: back ∧ front.flatMap signs = a ∧
          back.flatMap signs = b := by
      rintro a' rfl hrest
      obtain ⟨front, back, rfl, rfl, rfl⟩ := ih hrest
      exact ⟨t :: front, back, rfl, rfl, rfl⟩
    rcases List.append_eq_append_iff.1 h with ⟨a', ha, hrest⟩ | ⟨b', hsigns, hrest⟩
    · exact hgo a' ha hrest
    cases b' with
    | nil => exact hgo [] (by rw [List.append_nil, hsigns, List.append_nil]) hrest.symm
    | cons sign b' =>
      obtain ⟨rfl, rfl⟩ := List.cons.inj hrest
      -- the sign is in this token, which then has nothing else
      have hmem : (c, true) ∈ t.signs := hsigns ▸ List.mem_append_right _ (List.mem_cons_self ..)
      obtain ⟨d, hd, hpair⟩ := List.mem_map.1 hmem
      obtain ⟨e, rfl, -⟩ := exists_of_isSign (Prod.mk.inj hpair).2
      have hsingle : [(e, _)] = a ++ (c, true) :: b' := hsigns
      cases a with
      | nil =>
        obtain ⟨hsign, rfl⟩ := List.cons.inj hsingle
        obtain rfl := (Prod.mk.inj hsign).1
        exact ⟨[], ts, rfl, rfl, rfl⟩
      | cons first a => simp at hsingle

/-- A token is one mark at most. -/
theorem isMark_eq_false {c d : Char} (h : t.isMark c = true) (hne : c ≠ d) : t.isMark d = false :=
  Statement.isMark_of_not_mem fun hmem => hne (List.mem_singleton.1 (text_of_isMark h ▸ hmem)).symm

/-- What a token does to the count of open parentheses. -/
theorem isMatched_signs_append (t : Token) (depth : Nat) (rest : List (Char × Bool)) :
    isMatched depth (t.signs ++ rest) =
      if t.isMark '(' then isMatched (depth + 1) rest
      else if t.isMark ')' then depth != 0 && isMatched (depth - 1) rest
      else if t.isMark ',' then depth != 0 && isMatched depth rest
      else isMatched depth rest := by
  cases hsign : t.isSign with
  | true =>
    obtain ⟨c, rfl, hc⟩ := exists_of_isSign hsign
    simp only [Text.isSign, Bool.or_eq_true, beq_iff_eq] at hc
    rcases hc with (rfl | rfl) | rfl <;> rfl
  | false =>
    rw [signs, hsign, isMatched_uncounted]
    rw [isSign, Bool.or_eq_false_iff, Bool.or_eq_false_iff] at hsign
    rw [hsign.1.1, hsign.1.2, hsign.2]
    rfl

end Token

namespace Statement

variable {depth : Nat} {ts : List Token}

/-- **An entry cuts no run.** -/
theorem commaRuns_matched (h : isMatched depth (ts.flatMap Token.signs) = true) (current rest : List Token) :
    commaRuns depth current (ts ++ rest) = commaRuns 0 (ts.reverse ++ current) rest := by
  induction ts generalizing depth current with
  | nil =>
    obtain rfl := beq_iff_eq.1 h
    rfl
  | cons t ts ih =>
    rw [List.flatMap_cons, Token.isMatched_signs_append] at h
    rw [List.cons_append, commaRuns, List.reverse_cons, List.append_assoc, List.singleton_append]
    by_cases hopen : t.isMark '(' = true
    · have hcomma : t.isMark ',' = false := Token.isMark_eq_false hopen (by decide)
      rw [if_pos hopen] at h
      rw [hcomma, Bool.false_and, if_neg Bool.false_ne_true, if_pos hopen]
      exact ih h _
    rw [if_neg hopen] at h
    by_cases hclose : t.isMark ')' = true
    · have hcomma : t.isMark ',' = false := Token.isMark_eq_false hclose (by decide)
      rw [if_pos hclose, Bool.and_eq_true] at h
      rw [hcomma, Bool.false_and, if_neg Bool.false_ne_true, if_neg hopen, if_pos hclose]
      exact ih h.2 _
    rw [if_neg hclose] at h
    by_cases hcomma : t.isMark ',' = true
    · rw [if_pos hcomma, Bool.and_eq_true, bne_iff_ne] at h
      rw [beq_eq_false_iff_ne.2 h.1, Bool.and_false, if_neg Bool.false_ne_true, if_neg hopen, if_neg hclose]
      exact ih h.2 _
    · rw [if_neg hcomma] at h
      rw [Bool.eq_false_iff.2 hcomma, Bool.false_and, if_neg Bool.false_ne_true, if_neg hopen, if_neg hclose]
      exact ih h _

/-- **An entry closes no parenthesis** but its own. -/
theorem untilClosed_matched (h : isMatched depth (ts.flatMap Token.signs) = true) (inner rest : List Token) :
    untilClosed (depth + 1) inner (ts ++ rest) = untilClosed 1 (ts.reverse ++ inner) rest := by
  induction ts generalizing depth inner with
  | nil =>
    obtain rfl := beq_iff_eq.1 h
    rfl
  | cons t ts ih =>
    rw [List.flatMap_cons, Token.isMatched_signs_append] at h
    rw [List.cons_append, untilClosed, List.reverse_cons, List.append_assoc, List.singleton_append]
    by_cases hopen : t.isMark '(' = true
    · rw [if_pos hopen] at h
      rw [if_pos hopen, if_neg (by rw [beq_iff_eq]; omega)]
      exact ih h _
    rw [if_neg hopen] at h
    rw [if_neg hopen]
    by_cases hclose : t.isMark ')' = true
    · rw [if_pos hclose, Bool.and_eq_true, bne_iff_ne] at h
      have hdepth : (depth : Int) + 1 - 1 = ((depth - 1 : Nat) : Int) + 1 := by omega
      rw [if_pos hclose, if_neg (by rw [beq_iff_eq]; omega), hdepth]
      exact ih h.2 _
    rw [if_neg hclose] at h
    rw [if_neg hclose]
    split at h
    · exact ih (Bool.and_eq_true_iff.1 h).2 _
    · exact ih h _

/-- Blanks at the end belong to the last run. -/
theorem map_commaRuns_spaces {spaces : List Token} (hspaces : Spaces spaces) (depth : Nat) (current ts : List Token) :
    (commaRuns depth current (ts ++ spaces)).map (fun run => trim (textOf run)) =
      (commaRuns depth current ts).map fun run => trim (textOf run) := by
  induction ts generalizing depth current with
  | nil =>
    have hmark : ∀ t ∈ spaces, ∀ c, t.isMark c = false := fun t ht c => isMark_of_isSpace (hspaces t ht).1 c
    have hruns : ∀ current : List Token, commaRuns depth current spaces = [current.reverse ++ spaces] := by
      clear hspaces
      induction spaces with
      | nil => exact fun current => congrArg (fun run => [run]) (List.append_nil _).symm
      | cons t spaces ih =>
        obtain ⟨ht, hrest⟩ := List.forall_mem_cons.1 hmark
        intro current
        rw [commaRuns, ht, ht, ht, Bool.false_and, if_neg Bool.false_ne_true, if_neg Bool.false_ne_true,
          if_neg Bool.false_ne_true, ih hrest, List.reverse_cons, List.append_assoc]
        rfl
    rw [List.nil_append, hruns, commaRuns, List.map_singleton, List.map_singleton, textOf_append,
      trim_append_blank (blank_textOf hspaces)]
  | cons t ts ih =>
    rw [List.cons_append, commaRuns, commaRuns]
    split
    · rw [List.map_cons, List.map_cons, ih]
    · split
      · exact ih _ _
      · split <;> exact ih _ _

/-! ## Bodies that list entries -/

/-- A body that lists entries, with commas between them and blanks around each. -/
inductive Lists : List (List Char) → List Char → Prop where
  /-- the last entry -/
  | last {a entry b : List Char} (ha : Blank a) (hentry : IsEntry entry) (hb : Blank b) :
      Lists [entry] (a ++ (entry ++ b))
  /-- an entry, and the others behind a comma -/
  | more {a entry b : List Char} {entries : List (List Char)} {rest : List Char} (ha : Blank a) (hentry : IsEntry entry)
      (hb : Blank b) (hrest : Lists entries rest) : Lists (entry :: entries) (a ++ (entry ++ b) ++ ',' :: rest)

/-- Entries with commas between them are a list. -/
theorem lists_join {entries : List (List Char)} (hne : entries ≠ []) (h : ∀ entry ∈ entries, IsEntry entry) :
    Lists entries (join [','] entries) := by
  have hnil : Blank ([] : List Char) := List.forall_mem_nil _
  induction entries with
  | nil => exact absurd rfl hne
  | cons entry rest ih =>
    obtain ⟨hentry, hrest⟩ := List.forall_mem_cons.1 h
    cases rest with
    | nil =>
      have hlast := Lists.last hnil hentry hnil
      rwa [List.nil_append, List.append_nil] at hlast
    | cons next rest =>
      have hlist := Lists.more hnil hentry hnil (ih (List.cons_ne_nil _ _) hrest)
      rw [List.nil_append, List.append_nil] at hlist
      rw [join, List.append_assoc]
      exact hlist

section

variable {a entry b : List Char} (ha : Blank a) (hentry : IsEntry entry) (hb : Blank b)

include ha hentry hb

theorem isEven_item {before : Option Char} (hbefore : wordMayBegin before = true) :
    isEven false before (a ++ (entry ++ b)) = true := by
  have heven : isEven false (a.getLast?.or before) entry = true := by
    rw [isEven_congr ((wordMayBegin_blank ha hbefore).trans (rfl : wordMayBegin none = true).symm), hentry.even]
  have hblank := isEven_blank_append hb (entry.getLast?.or (a.getLast?.or before)) []
  rw [List.append_nil] at hblank
  rw [isEven_blank_append ha, isEven_even_append (follows_blank hb) heven, hblank]
  rfl

theorem signs_item : signs false (a ++ (entry ++ b)) =
    a.map (·, false) ++ (signs false entry ++ b.map (·, false)) := by
  rw [signs_append fun c hc => Pattern.not_mem_of_clears (by decide) (ha c hc), signs_even_append hentry.even,
    signs_blank hb]

theorem isMatched_item : isMatched 0 (signs false (a ++ (entry ++ b))) = true := by
  rw [signs_item ha hentry hb, isMatched_uncounted, isMatched_append_uncounted, hentry.matched]

theorem trim_item : trim (a ++ (entry ++ b)) = entry := by
  rw [trim_blank_append ha, trim_append_blank hb, hentry.tight.trim_eq]

end

namespace Lists

variable {entries : List (List Char)} {body : List Char} (h : Lists entries body)

include h

theorem isEven {before : Option Char} (hbefore : wordMayBegin before = true) : isEven false before body = true := by
  induction h generalizing before with
  | last ha hentry hb => exact isEven_item ha hentry hb hbefore
  | @more _ _ _ _ rest ha hentry hb _ ih =>
    have hfollows : Follows (',' :: rest) := by rintro _ ⟨⟩; decide
    rw [isEven_even_append hfollows (isEven_item ha hentry hb hbefore), isEven_outside (by decide)]
    exact ih rfl

/-- **The cut gives the entries.** -/
theorem map_commaRuns {ts : List Token} (hts : ts.flatMap Token.signs = signs false body) :
    (commaRuns 0 [] ts).map (fun run => trim (textOf run)) = entries := by
  induction h generalizing ts with
  | last ha hentry hb =>
    have hmatched := isMatched_item ha hentry hb
    rw [← hts] at hmatched
    have hruns := commaRuns_matched hmatched [] []
    rw [List.append_nil, List.append_nil] at hruns
    rw [hruns, commaRuns, List.reverse_reverse, List.map_singleton, Token.textOf_eq_map_signs, hts, map_fst_signs,
      trim_item ha hentry hb]
  | more ha hentry hb _ ih =>
    have hitem := isEven_item ha hentry hb (show wordMayBegin none = true from rfl)
    rw [signs_even_append hitem, signs_outside (by decide)] at hts
    obtain ⟨front, back, rfl, hfront, hback⟩ := Token.exists_of_flatMap_signs hts
    have hmatched := isMatched_item ha hentry hb
    rw [← hfront] at hmatched
    rw [commaRuns_matched hmatched, List.append_nil, commaRuns]
    have hcomma : (Token.isMark ',' ⟨.punctuation, [',']⟩ && 0 == 0) = true := rfl
    rw [if_pos hcomma, List.map_cons, ih hback, List.reverse_reverse, Token.textOf_eq_map_signs, hfront, map_fst_signs,
      trim_item ha hentry hb]

/-- The parenthesis in front of a body is not closed in it. -/
theorem untilClosed_append {ts : List Token} (hts : ts.flatMap Token.signs = signs false body)
    (inner rest : List Token) : untilClosed 1 inner (ts ++ rest) = untilClosed 1 (ts.reverse ++ inner) rest := by
  induction h generalizing ts inner with
  | last ha hentry hb =>
    have hmatched := isMatched_item ha hentry hb
    rw [← hts] at hmatched
    exact untilClosed_matched hmatched inner rest
  | more ha hentry hb _ ih =>
    have hitem := isEven_item ha hentry hb (show wordMayBegin none = true from rfl)
    rw [signs_even_append hitem, signs_outside (by decide)] at hts
    obtain ⟨front, back, rfl, hfront, hback⟩ := Token.exists_of_flatMap_signs hts
    have hmatched := isMatched_item ha hentry hb
    rw [← hfront] at hmatched
    have hfront := untilClosed_matched hmatched inner (⟨.punctuation, [',']⟩ :: (back ++ rest))
    rw [List.append_assoc, List.cons_append, List.reverse_append, List.reverse_cons, List.append_assoc,
      List.append_assoc, List.singleton_append]
    exact hfront.trans (ih hback _)

theorem isEntry {entry : List Char} (hmem : entry ∈ entries) : IsEntry entry := by
  induction h with
  | last _ hentry _ => exact List.mem_singleton.1 hmem ▸ hentry
  | more _ hentry _ _ ih => exact (List.mem_cons.1 hmem).elim (fun heq => heq ▸ hentry) ih

theorem not_blank : body.all isBlank = false := by
  have hitem : ∀ {a entry b : List Char}, IsEntry entry → (a ++ (entry ++ b)).all isBlank = false := by
    intro a entry b hentry
    obtain ⟨c, rest, rfl⟩ := List.exists_cons_of_ne_nil hentry.tight.ne_nil
    rw [List.all_append, List.cons_append, List.all_cons, hentry.tight.head c rfl, Bool.false_and, Bool.and_false]
  induction h with
  | last _ hentry _ => exact hitem hentry
  | more _ hentry _ _ _ => rw [List.all_append, hitem hentry, Bool.false_and]

/-- **A body is cut into the entries that it lists**, within the limits. -/
theorem definitions_eq : definitions body = (Script.tokens body).map fun _ => entries := by
  rw [definitions, h.not_blank, if_neg Bool.false_ne_true]
  cases htokens : Script.tokens body with
  | error cause => rfl
  | ok ts =>
    obtain ⟨spaces, hlex, hspaces⟩ := exists_tokens_append htokens
    have hsigns : (ts ++ spaces).flatMap Token.signs = signs false body := hlex ▸ Token.signs_lexAfter (h.isEven rfl)
    have hruns := map_commaRuns_spaces hspaces 0 [] ts
    rw [h.map_commaRuns hsigns] at hruns
    have hkept : entries.filter (! ·.isEmpty) = entries := List.filter_eq_self.2 fun entry hmem => by
      rw [List.isEmpty_eq_false_iff.2 (h.isEntry hmem).tight.ne_nil]
      rfl
    refine congrArg Except.ok ?_
    dsimp only
    rw [← hruns, hkept]

/-- **In parentheses, it is what stands between them**, within the limits. -/
theorem inParentheses?_eq {after : List Char} (hafter : Text.isEven false (some ')') after = true) :
    inParentheses? ('(' :: (body ++ ')' :: after)) =
      (Script.tokens ('(' :: (body ++ ')' :: after))).map fun _ => some body := by
  cases htokens : Script.tokens ('(' :: (body ++ ')' :: after)) with
  | error cause => rw [inParentheses?, htokens]; rfl
  | ok ts =>
    obtain ⟨spaces, hlex, hspaces⟩ := exists_tokens_append htokens
    have hunmarked := untilClosed_append_unmarked (fun t (ht : t ∈ spaces) =>
      ⟨isMark_of_isSpace (hspaces t ht).1 '(', isMark_of_isSpace (hspaces t ht).1 ')'⟩) 0 [] ts
    rw [← hlex, lex_paren] at hunmarked
    have hfollows : Follows (')' :: after) := by rintro _ ⟨⟩; decide
    have heven : Text.isEven false (some '(') (body ++ ')' :: after) = true := by
      rw [isEven_even_append hfollows (h.isEven rfl), isEven_outside (by decide)]
      exact hafter
    have hsigns := Token.signs_lexAfter heven
    rw [signs_even_append (h.isEven (show wordMayBegin none = true from rfl)), signs_outside (by decide)] at hsigns
    obtain ⟨front, back, hcut, hfront, -⟩ := Token.exists_of_flatMap_signs hsigns
    have hbody := h.untilClosed_append hfront [] (⟨.punctuation, [')']⟩ :: back)
    have hclosed : untilClosed 1 front.reverse (⟨.punctuation, [')']⟩ :: back) =
        some (textOf front.reverse.reverse) := rfl
    rw [List.append_nil, ← hcut, hclosed, List.reverse_reverse, Token.textOf_eq_map_signs, hfront,
      map_fst_signs] at hbody
    rw [inParentheses?, htokens]
    refine congrArg Except.ok ?_
    rw [← hunmarked]
    exact hbody

end Lists
end Statement
end SchemaSketch
