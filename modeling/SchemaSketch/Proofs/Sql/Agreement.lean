import SchemaSketch.Proofs.Sql.Shut
import SchemaSketch.Proofs.Sql.Survivors

/-!
# Where the two readers agree

The reader that takes comments out and the reader of tokens end quoted text at the same place as long as
(`agrees`)

* all quoted text is closed, and no backslash stands before a double quote in it;
* a tagged body begins for both of them or for none, and ends at the same place;
* what only the reader of tokens takes as a whole (`foreign`), such as a name in brackets, leaves the other
  reader outside of quotes.

Then the reader that takes comments out is outside of quotes wherever a token begins (`modeAfter_tokens`),
and no comment is left after the comments have been taken out (`isMarked_eq_false`).
-/

namespace SchemaSketch

open Text Pattern

namespace Comment

/-! ## Agreement -/

/-- What only the reader of tokens takes as a whole. -/
def foreign : List Pattern := [
  Token.commentMark >> char '+' >> Token.toLineEnd,
  Token.commentMark >> Token.toLineEnd,
  Token.quotedBy '´' false,
  bracketed,
  Token.zoneHead >> many1 (· != '\'') >> char '\'']

/-- Whether the reader is outside of quotes behind what a pattern covers. -/
def comesOut (before : Option Char) (cs : List Char) (p : Pattern) : Bool :=
  match p cs with
  | some n => modeAfter .code before (cs.take n) (cs.drop n) == .code
  | none => true

/-- Whether a tagged body begins for both readers or for none, and ends at the same place. Behind a hash,
which may stand in a word, none may begin. -/
def sameBody (before : Option Char) (cs : List Char) : Bool :=
  !bodyMayOpen before
    || (bodyLength? cs == (Token.delimited before cs).map (·.2)
      && (before != some '#' || (bodyLength? cs).isNone))

/-- Whether the readers agree on what begins at the front of a text. -/
def agreesAt (mode : Mode) (before : Option Char) (cs : List Char) : Bool :=
  match mode with
  | .code => foreign.all (comesOut before cs) && (cs.head? != some '$' || sameBody before cs)
  | .quote mark => mark != '"' || !(['\\', '"'].isPrefixOf cs)
  | .line | .block _ | .body _ | .drop _ | .keep _ => true

/-- **Whether the readers agree** on where quoted text ends, all through a text. -/
def agrees (mode : Mode) (before : Option Char) : List Char → Bool
  | [] => mode == .code
  | c :: rest =>
    agreesAt mode before (c :: rest) && agrees (step mode before c rest).2 (some c) rest

theorem modeAfter_append (mode : Mode) (before : Option Char) (front middle rest : List Char) :
    modeAfter mode before (front ++ middle) rest =
      modeAfter (modeAfter mode before front (middle ++ rest)) (lastOf before front) middle rest := by
  induction front generalizing mode before with
  | nil => rfl
  | cons c front ih => rw [List.cons_append, modeAfter, modeAfter, List.append_assoc, ih, lastOf_cons]

theorem agrees_append {mode : Mode} {before : Option Char} (front : List Char) {rest : List Char}
    (h : agrees mode before (front ++ rest) = true) :
    agrees (modeAfter mode before front rest) (lastOf before front) rest = true := by
  induction front generalizing mode before with
  | nil => exact h
  | cons c front ih =>
    rw [List.cons_append, agrees, Bool.and_eq_true] at h
    rw [modeAfter, lastOf_cons]
    exact ih h.2

/-- A text outside of quotes on which the readers agree, and in which there are no comments. -/
structure Level (before : Option Char) (cs : List Char) : Prop where
  /-- the readers agree on it -/
  agrees : agrees .code before cs = true
  /-- no comment is taken out of it -/
  kept : stripFrom .code before cs = cs

/-- What comes behind a front part that leaves the reader outside of quotes. -/
theorem Level.append {before : Option Char} {front rest : List Char} (h : Level before (front ++ rest))
    (hfront : modeAfter .code before front rest = .code) : Level (lastOf before front) rest := by
  have hagrees := agrees_append front h.agrees
  have hkept := (shows_modeAfter (.inl rfl) h.kept).2
  rw [hfront] at hagrees hkept
  exact ⟨hagrees, hkept⟩

theorem Level.front {before : Option Char} {c : Char} {rest : List Char} (h : Level before (c :: rest)) :
    foreign.all (comesOut before (c :: rest)) = true ∧
      (c != '$' || sameBody before (c :: rest)) = true := by
  have hagrees := h.agrees
  rw [Comment.agrees, Bool.and_eq_true, agreesAt, Bool.and_eq_true] at hagrees
  exact hagrees.1

/-- What only the reader of tokens takes as a whole leaves the other reader outside of quotes. -/
theorem Level.modeAfter_foreign {before : Option Char} {c : Char} {rest : List Char}
    (h : Level before (c :: rest)) {p : Pattern} (hp : p ∈ foreign) {n : Nat} (hn : p (c :: rest) = some n) :
    modeAfter .code before ((c :: rest).take n) ((c :: rest).drop n) = .code := by
  have hout := List.all_eq_true.1 h.front.1 p hp
  rw [comesOut, hn] at hout
  exact beq_iff_eq.1 hout

theorem Level.bodyLength?_eq {before : Option Char} {rest : List Char} (h : Level before ('$' :: rest))
    (hopen : bodyMayOpen before = true) :
    bodyLength? ('$' :: rest) = (Token.delimited before ('$' :: rest)).map (·.2) ∧
      (before = some '#' → bodyLength? ('$' :: rest) = none) := by
  have hsame : sameBody before ('$' :: rest) = true := h.front.2
  rw [sameBody, hopen, Bool.not_true, Bool.false_or, Bool.and_eq_true, beq_iff_eq] at hsame
  refine ⟨hsame.1, ?_⟩
  rintro rfl
  exact Option.isNone_iff_eq_none.1 hsame.2

/-! ## Text without quotes -/

/-- A character that begins no quoted text leaves the reader outside of it. -/
theorem Level.step_eq {before : Option Char} {c : Char} {rest : List Char} (h : Level before (c :: rest))
    (hquote : isQuote c = false)
    (hbody : c = '$' → bodyMayOpen before = true → bodyLength? (c :: rest) = none) :
    step .code before c rest = ([c], .code) := by
  rcases step_code_cases before c rest with ⟨hc, -⟩ | ⟨hdollar, hopen, n, hn, -⟩ | ⟨-, -, hstep⟩ |
    ⟨-, -, hstep⟩ | ⟨-, hstep⟩
  · rw [hquote] at hc
    cases hc
  · rw [hbody hdollar hopen] at hn
    cases hn
  · exact absurd h.kept (stripFrom_ne_of_dropped hstep)
  · exact absurd h.kept (stripFrom_ne_of_dropped hstep)
  · exact hstep

theorem Level.of_step {before : Option Char} {c : Char} {rest : List Char} (h : Level before (c :: rest))
    (hstep : step .code before c rest = ([c], .code)) : Level (some c) rest :=
  Level.append (show Level before ([c] ++ rest) from h) (congrArg Prod.snd hstep)

/-- Text in which no quoted text begins leaves the reader outside of it. -/
theorem Level.modeAfter_clean {before : Option Char} {front rest : List Char}
    (h : Level before (front ++ rest)) (hfront : ∀ c ∈ front, isOpening c = false) :
    modeAfter .code before front rest = .code := by
  induction front generalizing before with
  | nil => rfl
  | cons c front ih =>
    obtain ⟨hc, hfront⟩ := List.forall_mem_cons.1 hfront
    rw [isOpening, Bool.or_eq_false_iff, beq_eq_false_iff_ne] at hc
    have hstep : step .code before c (front ++ rest) = ([c], .code) :=
      h.step_eq hc.1 fun hdollar => absurd hdollar hc.2
    rw [modeAfter, hstep]
    exact ih (h.of_step hstep) hfront

/-- A character inside of a word, for the reader of tokens. -/
def isWordPart (c : Char) : Bool := isWord c || c == '$' || c == '#'

/-- In a word no tagged body begins. -/
theorem Level.modeAfter_word {b : Char} {front rest : List Char} (h : Level (some b) (front ++ rest))
    (hb : isWordPart b = true) (hfront : ∀ c ∈ front, isWordPart c = true) :
    modeAfter .code (some b) front rest = .code := by
  induction front generalizing b with
  | nil => rfl
  | cons c front ih =>
    obtain ⟨hc, hfront⟩ := List.forall_mem_cons.1 hfront
    have hquote : isQuote c = false := by
      rw [isWordPart, Bool.or_eq_true, Bool.or_eq_true, beq_iff_eq, beq_iff_eq] at hc
      rcases hc with (hc | rfl) | rfl
      · exact isQuote_of_isWord hc
      · rfl
      · rfl
    have hbody : c = '$' → bodyMayOpen (some b) = true → bodyLength? (c :: (front ++ rest)) = none := by
      rintro rfl hopen
      obtain rfl : b = '#' := by
        simp only [bodyMayOpen, Bool.not_eq_true', Bool.or_eq_false_iff] at hopen
        simpa [isWordPart, hopen.1, hopen.2] using hb
      exact (h.bodyLength?_eq hopen).2 rfl
    have hstep : step .code (some b) c (front ++ rest) = ([c], .code) := h.step_eq hquote hbody
    rw [modeAfter, hstep]
    exact ih (h.of_step hstep) hc hfront

/-! ## Quoted text -/

/-- The quotes that both readers know, and whether a backslash stands for the one behind it. -/
def sharedQuotes : List (Char × Bool) := [('\'', true), ('"', true), ('`', false)]

variable {quote : Char} {escapes : Bool}

theorem cases_of_mem_sharedQuotes (hquote : (quote, escapes) ∈ sharedQuotes) :
    (quote = '\'' ∧ escapes = true) ∨ (quote = '"' ∧ escapes = true) ∨ (quote = '`' ∧ escapes = false) := by
  simpa [sharedQuotes] using hquote

/-- A doubled quote goes on with the quoted text. Only for single quotes is it one mark: other text is ended
by the first of the two and begun again by the second. -/
theorem modeAfter_doubled (hquote : (quote, escapes) ∈ sharedQuotes) (before : Option Char)
    (front rest : List Char) :
    modeAfter (.quote quote) before (quote :: quote :: front) rest
      = modeAfter (.quote quote) (some quote) front rest := by
  rcases cases_of_mem_sharedQuotes hquote with ⟨rfl, -⟩ | ⟨rfl, -⟩ | ⟨rfl, -⟩ <;> rfl

/-- A quote that is not doubled ends quoted text. -/
theorem step_quote_ends (hquote : (quote, escapes) ∈ sharedQuotes) (before : Option Char) {rest : List Char}
    (hrest : rest.head? ≠ some quote) : step (.quote quote) before quote rest = ([quote], .code) := by
  rcases cases_of_mem_sharedQuotes hquote with ⟨rfl, -⟩ | ⟨rfl, -⟩ | ⟨rfl, -⟩
  · have hhead : (rest.head? == some '\'') = false := beq_eq_false_iff_ne.2 hrest
    rw [step, hhead]
    rfl
  · rfl
  · rfl

/-- A character that is no quote, and stands for none with the one behind it, stays in quoted text. -/
theorem step_quote_stays (hquote : (quote, escapes) ∈ sharedQuotes) (before : Option Char) {c : Char}
    (hc : c ≠ quote) {rest : List Char} (hescape : escapes = true → c = '\\' → rest.head? ≠ some quote) :
    step (.quote quote) before c rest = ([c], .quote quote) := by
  have hplain : ¬ (quote == '\'' && c == '\\' && rest.head? == some '\'') = true := by
    simp only [Bool.and_eq_true, beq_iff_eq]
    rintro ⟨⟨rfl, hback⟩, hhead⟩
    rcases cases_of_mem_sharedQuotes hquote with ⟨-, he⟩ | ⟨h, -⟩ | ⟨h, -⟩
    · exact hescape he hback hhead
    · exact absurd h (by decide)
    · exact absurd h (by decide)
  rw [step, if_neg hplain, if_neg (by simpa using hc)]

/-- **Quoted text ends at the same place** for both readers. -/
theorem closing_of_agrees (hquote : (quote, escapes) ∈ sharedQuotes) {before : Option Char}
    {cs : List Char} (h : agrees (.quote quote) before cs = true) :
    ∃ k, (∀ passed fallback, Token.closing quote escapes passed fallback cs = some (passed + k)) ∧
      modeAfter (.quote quote) before (cs.take k) (cs.drop k) = .code := by
  fun_induction Token.shuts quote escapes cs generalizing before with
  | case1 => cases h
  | case2 c =>
    by_cases hc : c = quote
    · subst hc
      refine ⟨1, fun passed fallback => ?_, congrArg Prod.snd (step_quote_ends hquote before (by simp))⟩
      rw [Token.closing, if_pos (beq_self_eq_true c)]
    · have hmode := (Bool.and_eq_true_iff.1 h).2
      rw [step_quote_stays hquote before hc fun _ _ => by simp] at hmode
      cases hmode
  | case3 c d more hc hd ih =>
    obtain rfl := beq_iff_eq.1 hc
    obtain rfl := beq_iff_eq.1 hd
    have hmore := agrees_append [d, d] h
    rw [modeAfter_doubled hquote] at hmore
    obtain ⟨k, hclosing, hmode⟩ := ih hmore
    refine ⟨k + 2, fun passed fallback => ?_, (modeAfter_doubled hquote ..).trans hmode⟩
    rw [Token.closing, if_pos hc, if_pos hd, hclosing, Nat.add_assoc, Nat.add_comm 2]
  | case4 c d more hc hd =>
    obtain rfl := beq_iff_eq.1 hc
    have hhead : (d :: more).head? ≠ some c := fun h => hd (beq_iff_eq.2 (Option.some.inj h))
    refine ⟨1, fun passed fallback => ?_, congrArg Prod.snd (step_quote_ends hquote before hhead)⟩
    rw [Token.closing, if_pos hc, if_neg hd]
  | case5 c d more hc hescape ih =>
    have hpair := hescape
    rw [Bool.and_eq_true, Bool.and_eq_true, beq_iff_eq, beq_iff_eq] at hpair
    obtain ⟨⟨he, rfl⟩, rfl⟩ := hpair
    rcases cases_of_mem_sharedQuotes hquote with ⟨rfl, -⟩ | ⟨rfl, -⟩ | ⟨-, hnone⟩
    · obtain ⟨k, hclosing, hmode⟩ := ih (agrees_append ['\\', '\''] h)
      refine ⟨k + 2, fun passed fallback => ?_, hmode⟩
      rw [Token.closing, if_neg hc, if_pos hescape, hclosing, Nat.add_assoc, Nat.add_comm 2]
    · -- before a double quote the readers do not agree on a backslash
      cases (Bool.and_eq_true_iff.1 h).1
    · rw [he] at hnone
      cases hnone
  | case6 c d more hc hescape ih =>
    have hstep : step (.quote quote) before c (d :: more) = ([c], .quote quote) :=
      step_quote_stays hquote before (fun h => hc (beq_iff_eq.2 h)) fun he hback hhead =>
        hescape (by rw [he, hback, Option.some.inj hhead]; simp)
    have hmore := (Bool.and_eq_true_iff.1 h).2
    rw [hstep] at hmore
    obtain ⟨k, hclosing, hmode⟩ := ih hmore
    refine ⟨k + 1, fun passed fallback => ?_, ?_⟩
    · rw [Token.closing, if_neg hc, if_neg hescape, hclosing, Nat.add_assoc, Nat.add_comm 1]
    · rw [List.take_succ_cons, List.drop_succ_cons, modeAfter, List.take_append_drop, hstep]
      exact hmode

/-! ## Tagged bodies -/

theorem modeAfter_body {left : Nat} {front : List Char} (h : front.length = left + 1) (before : Option Char)
    (rest : List Char) : modeAfter (.body left) before front rest = .code := by
  induction left generalizing before front with
  | zero =>
    obtain ⟨c, rfl⟩ := List.length_eq_one_iff.1 h
    rfl
  | succ left ih =>
    cases front with
    | nil => cases h
    | cons c front => exact ih (Nat.succ.inj h) (some c)

/-- Behind a delimited stretch the reader is outside of quotes. -/
theorem Level.modeAfter_stretch {before : Option Char} {c : Char} {rest : List Char}
    (h : Level before (c :: rest)) {kind : TokenKind} {n : Nat}
    (hn : Token.delimited before (c :: rest) = some (kind, n)) :
    modeAfter .code before (c :: rest.take (n - 1)) (rest.drop (n - 1)) = .code := by
  rcases Token.delimited_eq_some hn with ⟨-, hbefore, _, _, hcons, -⟩ | ⟨-, _, hcons, -⟩
  · obtain ⟨rfl, rfl⟩ := List.cons.inj hcons
    have hopen : bodyMayOpen before = true := by
      cases before with
      | none => rfl
      | some b =>
        simp only [Token.bodyMayBegin, Bool.not_eq_true', Bool.or_eq_false_iff] at hbefore
        rw [bodyMayOpen, hbefore.1.1, hbefore.2]
        rfl
    have hlength : bodyLength? ('$' :: rest) = some n := by
      rw [(h.bodyLength?_eq hopen).1, hn]
      rfl
    rcases step_code_cases before '$' rest with ⟨hquote, -⟩ | ⟨-, -, m, hm, hstep⟩ | ⟨hdash, -⟩ |
      ⟨hslash, -⟩ | ⟨hinert, -⟩
    · cases hquote
    · obtain rfl : m + 2 = n := Option.some.inj (hm.symm.trans hlength)
      have hfirst : Token.first before ('$' :: rest) = (kind, m + 2) := by rw [Token.first, hn]
      have hbound := Token.first_le before '$' rest
      rw [hfirst, List.length_cons] at hbound
      have hbody : (rest.take (m + 1)).length = m + 1 := List.length_take_of_le (by omega)
      rw [Nat.add_sub_cancel (m + 1) 1, modeAfter, List.take_append_drop, hstep]
      exact modeAfter_body hbody ..
    · exact absurd hdash (by decide)
    · exact absurd hslash (by decide)
    · rw [bodyLength?, hinert.body rfl hopen] at hlength
      cases hlength
  · obtain ⟨rfl, rfl⟩ := List.cons.inj hcons
    exact absurd h.kept (stripFrom_ne_of_dropped rfl)

end Comment

/-! ## Tokens -/

namespace Token

theorem firstFit_append {before : Option Char} {cs : List Char} {front : List Rule}
    (h : ∀ rule ∈ front, rule.pattern cs = none) (back : List Rule) :
    firstFit before cs (front ++ back) = firstFit before cs back := by
  induction front with
  | nil => rfl
  | cons rule front ih =>
    obtain ⟨hrule, hfront⟩ := List.forall_mem_cons.1 h
    rw [List.cons_append, firstFit_cons_none hrule, ih hfront]

/-- Where quoted text begins, it is the first token. -/
theorem first_quote {quote : Char} {escapes : Bool} (hquote : (quote, escapes) ∈ Comment.sharedQuotes)
    (before : Option Char) {rest : List Char} {n : Nat} (hn : quotedBy quote escapes (quote :: rest) = some n) :
    first before (quote :: rest) = (.other, n) := by
  have hfirst : ∀ (front : List Rule) (rule : Rule) {back : List Rule}, rules = front ++ rule :: back →
      (∀ rule ∈ front, rule.pattern (quote :: rest) = none) → rule.after before = true →
      rule.pattern (quote :: rest) = some n → delimited before (quote :: rest) = none →
      first before (quote :: rest) = (rule.kind, n) := by
    intro front rule back hrules hfront hafter hrule hdelimited
    have hfit : firstFit before (quote :: rest) rules = some (rule.kind, n) := by
      rw [hrules, firstFit_append hfront, firstFit_cons_some hafter hrule]
    rw [first, hdelimited, hfit]
  rcases Comment.cases_of_mem_sharedQuotes hquote with ⟨rfl, rfl⟩ | ⟨rfl, rfl⟩ | ⟨rfl, rfl⟩
  case' inl =>
    refine hfirst (rules.take 22) ⟨.other, literal, fun _ => true⟩ rfl ?_ rfl hn rfl
  case' inr.inl =>
    refine hfirst (rules.take 23) ⟨.other, quotedBy '"' true, fun _ => true⟩ rfl ?_ rfl hn rfl
  case' inr.inr =>
    refine hfirst (rules.take 7) ⟨.other, quotedBy '`' false, fun _ => true⟩ rfl ?_ rfl hn rfl
  -- no rule in front of the one for the quote covers it
  all_goals
    simp only [rules, nameRules, literalRules, List.cons_append, List.nil_append, List.take_succ_cons,
      List.take_zero, List.forall_mem_cons, List.not_mem_nil, false_implies, implies_true, and_true]
    and_intros
    all_goals rfl

/-- What ranges far is known to both readers only if it is quoted text. -/
theorem Ranging.cases {p : Pattern} (h : Ranging p) :
    p ∈ Comment.foreign ∨
      ∃ quote escapes, (quote, escapes) ∈ Comment.sharedQuotes ∧ p = quotedBy quote escapes := by
  cases h with
  | hint => exact .inl (.head _)
  | comment => exact .inl (.tail _ (.head _))
  | @quoted quote escapes h =>
    simp only [quotes, List.mem_cons, Prod.mk.injEq, List.not_mem_nil, or_false] at h
    rcases h with ⟨rfl, rfl⟩ | ⟨rfl, rfl⟩ | ⟨rfl, rfl⟩ | ⟨rfl, rfl⟩
    · exact .inr ⟨_, _, by decide, rfl⟩
    · exact .inr ⟨_, _, by decide, rfl⟩
    · exact .inr ⟨_, _, by decide, rfl⟩
    · exact .inl (.tail _ (.tail _ (.head _)))
  | bracketed => exact .inl (.tail _ (.tail _ (.tail _ (.head _))))
  | zone => exact .inl (.tail _ (.tail _ (.tail _ (.tail _ (.head _)))))

end Token

namespace Comment

variable {quote : Char} {escapes : Bool}

theorem isQuote_of_mem_sharedQuotes (h : (quote, escapes) ∈ sharedQuotes) : isQuote quote = true := by
  rcases cases_of_mem_sharedQuotes h with ⟨rfl, -⟩ | ⟨rfl, -⟩ | ⟨rfl, -⟩ <;> rfl

theorem exists_mem_sharedQuotes {c : Char} (h : isQuote c = true) : ∃ escapes, (c, escapes) ∈ sharedQuotes := by
  rw [isQuote, Bool.or_eq_true, Bool.or_eq_true, beq_iff_eq, beq_iff_eq, beq_iff_eq] at h
  rcases h with (rfl | rfl) | rfl
  · exact ⟨true, by decide⟩
  · exact ⟨true, by decide⟩
  · exact ⟨false, by decide⟩

/-- **One token** leaves the reader that takes comments out outside of quotes. -/
theorem Level.modeAfter_first {before : Option Char} {c : Char} {rest : List Char}
    (h : Level before (c :: rest)) {kind : TokenKind} {n : Nat}
    (hfirst : Token.first before (c :: rest) = (kind, n)) :
    modeAfter .code before (c :: rest.take (n - 1)) (rest.drop (n - 1)) = .code := by
  by_cases hquote : isQuote c = true
  · obtain ⟨escapes, hmem⟩ := exists_mem_sharedQuotes hquote
    have hstep : step .code before c rest = ([c], .quote c) := if_pos hquote
    have hinner := (Bool.and_eq_true_iff.1 h.agrees).2
    rw [hstep] at hinner
    obtain ⟨k, hclosing, hmode⟩ := closing_of_agrees hmem hinner
    have hquoted : Token.quotedBy c escapes (c :: rest) = some (1 + k) := by
      rw [Token.quotedBy, if_pos (beq_self_eq_true c), hclosing]
    obtain ⟨-, rfl⟩ := Prod.mk.inj (hfirst.symm.trans (Token.first_quote hmem before hquoted))
    rw [Nat.add_sub_cancel_left, modeAfter, List.take_append_drop, hstep]
    exact hmode
  rw [Bool.not_eq_true] at hquote
  -- what begins a body is a delimited stretch, so nothing begins at the other tokens
  have hbehind : Token.delimited before (c :: rest) = none →
      (Level (some c) rest → modeAfter .code (some c) (rest.take (n - 1)) (rest.drop (n - 1)) = .code) →
      modeAfter .code before (c :: rest.take (n - 1)) (rest.drop (n - 1)) = .code := by
    intro hdelimited hmode
    have hstep : step .code before c rest = ([c], .code) := by
      refine h.step_eq hquote ?_
      rintro rfl hopen
      rw [(h.bodyLength?_eq hopen).1, hdelimited]
      rfl
    rw [modeAfter, List.take_append_drop, hstep]
    exact hmode (h.of_step hstep)
  have hmodest : ∀ {p : Pattern}, Modest p → p (c :: rest) = some n → Level (some c) rest →
      modeAfter .code (some c) (rest.take (n - 1)) (rest.drop (n - 1)) = .code := by
    intro p hp hn hlevel
    rw [← List.take_append_drop (n - 1) rest] at hlevel
    refine hlevel.modeAfter_clean fun x hx => hp.clean _ n hn x ?_
    cases n with
    | zero => cases hx
    | succ n => exact List.mem_cons_of_mem c hx
  cases Token.origin_of_first hfirst with
  | stretch hn => exact h.modeAfter_stretch hn
  | rule hdelimited hmem hn => 
    rcases Token.modest_rules _ hmem with hp | hp | hp
    · exact hbehind hdelimited (hmodest hp hn)
    · rw [hp, Token.placeholder] at hn
      obtain ⟨m, k, hm, hk, rfl⟩ := andThen_eq_some.1 hn
      obtain ⟨_, _, -, -, rfl⟩ := one_eq_some.1 hm
      refine hbehind hdelimited fun hlevel => ?_
      rw [Nat.add_sub_cancel_left]
      rw [← List.take_append_drop k rest] at hlevel
      exact hlevel.modeAfter_clean fun x hx => isOpening_of_isWord (class_of_many1 hk x hx)
    · rcases hp.cases with hforeign | ⟨quote, escapes, hmem, hquoted⟩
      · cases n with
        | zero => exact hbehind hdelimited fun _ => rfl
        | succ n => exact h.modeAfter_foreign hforeign hn
      · rw [hquoted, Token.quotedBy] at hn
        split at hn
        · next hc =>
          rw [beq_iff_eq.1 hc, isQuote_of_mem_sharedQuotes hmem] at hquote
          cases hquote
        · cases hn
  | word hdelimited hn =>
    obtain ⟨m, k, hm, hk, rfl⟩ := andThen_eq_some.1 hn
    obtain ⟨_, _, hcons, hc, rfl⟩ := one_eq_some.1 hm
    obtain ⟨rfl, rfl⟩ := List.cons.inj hcons
    refine hbehind hdelimited fun hlevel => ?_
    rw [Nat.add_sub_cancel_left]
    rw [← List.take_append_drop k rest] at hlevel
    exact hlevel.modeAfter_word (by rw [isWordPart, hc]; rfl) (class_of_many hk)
  | sign hdelimited hmem hn =>
    rcases Token.modest_of_mem_signRules hmem with hp | hp
    · rw [hp] at hn
      obtain ⟨_, _, -, -, rfl⟩ := one_eq_some.1 hn
      exact hbehind hdelimited fun _ => rfl
    · exact hbehind hdelimited (hmodest hp hn)
  | single hdelimited => exact hbehind hdelimited fun _ => rfl

open Statement Token in
/-- **Where a token begins**, the reader that takes comments out is outside of quotes. -/
theorem Level.modeAfter_tokens {before : Option Char} {cs : List Char} (h : Level before cs)
    {front back : List Token} (hcut : lexAfter before cs = front ++ back) :
    modeAfter .code before (textOf front) (textOf back) = .code := by
  induction front generalizing before cs with
  | nil => rfl
  | cons t front ih =>
    cases cs with
    | nil => cases hcut
    | cons c rest =>
      cases hfirst : first before (c :: rest) with
      | mk kind n =>
        rw [lexAfter_cons, hfirst, List.cons_append] at hcut
        obtain ⟨rfl, htokens⟩ := List.cons.inj hcut
        have hbehind : textOf front ++ textOf back = rest.drop (n - 1) := by
          rw [← textOf_append, ← htokens]
          exact lexFrom_texts ..
        have hlast : lastOf before (c :: rest.take (n - 1)) = (c :: rest.take (n - 1)).getLast? := by
          rw [lastOf, List.getLast?_cons]
          rfl
        have hmode := h.modeAfter_first hfirst
        have hlevel : Level (c :: rest.take (n - 1)).getLast? (rest.drop (n - 1)) := by
          rw [← hlast]
          refine Level.append ?_ hmode
          rwa [List.cons_append, List.take_append_drop]
        have htext : textOf (⟨kind, c :: rest.take (n - 1)⟩ :: front)
            = (c :: rest.take (n - 1)) ++ textOf front := rfl
        rw [htext, modeAfter_append, hbehind, hmode, hlast]
        exact ih hlevel htokens

/-- **No comment is left** where the readers agree. -/
theorem isMarked_eq_false {script : List Char} (h : agrees .code none (strip script) = true) :
    ∀ t ∈ Token.lex (strip script), t.isMarked = false := by
  have hlevel : Level none (strip script) := ⟨h, strip_strip script⟩
  refine fun t ht => Bool.eq_false_iff.2 fun hmarked => ?_
  obtain ⟨front, t, back, hcut, -, hquotes⟩ := (survives_iff script).1 ⟨t, ht, hmarked⟩
  rw [hlevel.modeAfter_tokens hcut] at hquotes
  cases hquotes

end Comment

/-! ## The comments of a script -/

open Statement Token in
/-- **What is left of the comments of a script** after they have been taken out. A comment is left if and
only if one begins, for the reader of tokens, where the text is quoted for the reader that takes comments
out. On a text on which the two agree there is no such place: the second is outside of quotes wherever a
token begins, and no comment is left. -/
theorem Comment.survivors (script : List Char) :
    ((∃ t ∈ lex (strip script), t.isMarked = true) ↔
      ∃ front t back, lex (strip script) = front ++ t :: back ∧ opens (textOf (t :: back)) = true ∧
        (modeAfter .code none (textOf front) (textOf (t :: back))).inQuotes = true) ∧
    (agrees .code none (strip script) = true →
      (∀ front back, lex (strip script) = front ++ back →
        modeAfter .code none (textOf front) (textOf back) = .code) ∧
      ∀ t ∈ lex (strip script), t.isMarked = false) :=
  ⟨survives_iff script, fun h =>
    ⟨fun _ _ => Level.modeAfter_tokens ⟨h, strip_strip script⟩, isMarked_eq_false h⟩⟩

/-- A script with quoted text of all kinds. -/
def Comment.quotedScript : List Char :=
  "CREATE TABLE a (x DEFAULT 'it''s \\'--', \"q\"\"--\" INT, -- note\n y DEFAULT ARRAY['a'], z $$--'$$);".toList

theorem Comment.survivors_quotedScript :
    agrees .code none (strip quotedScript) = true ∧
      ∀ t ∈ Token.lex (strip quotedScript), t.isMarked = false := by
  have hagrees : agrees .code none (strip quotedScript) = true := by decide +kernel
  exact ⟨hagrees, ((survivors quotedScript).2 hagrees).2⟩

/-- A table with a comment in it, behind a literal that is not closed. -/
def Comment.shadowing : List Char :=
  "CREATE TABLE a (x TEXT DEFAULT 'oops);\nCREATE TABLE bs (y INT, -- note\n z INT);".toList

/-- **What a comment hides.** The literal is open to the end for the reader that takes comments out, and so
the comment stays. For the reader of tokens it is one. When the statement is put on one line, the comment
takes the rest of it, and the table is lost, which is not so without the comment. -/
theorem Comment.survives_hides :
    (∃ t ∈ Token.lex (strip shadowing), t.isMarked = true) ∧
      (Design.ofScript .standard shadowing).toOption.map (·.entities.map (·.tableName)) = some ["a"] ∧
      (Design.ofScript .standard
          "CREATE TABLE a (x TEXT DEFAULT 'oops);\nCREATE TABLE bs (y INT,\n z INT);".toList).toOption.map
        (·.entities.map (·.tableName)) = some ["a", "bs"] := by
  refine ⟨?_, by decide +kernel, by decide +kernel⟩
  have hany : (Token.lex (strip shadowing)).any Token.isMarked = true := by decide +kernel
  exact List.any_eq_true.1 hany

end SchemaSketch
