import SchemaSketch.Proofs.Sql.Splitting
import SchemaSketch.Proofs.Sql.Unclosed

/-!
# Cutting a column list loses no text

A column list is taken out of a statement in two cuts: its body is what stands between the parenthesis at the
front and the one that closes it, and the parts of the body are what stands between its commas.

* **The body.** Parentheses are counted on tokens. The body ends at the first of them at which the count is back
  at zero (`Token.FirstReturn`), and there is none exactly if the count never comes back
  (`Enclosed`).
* **The parts.** They are stretches of the body in its order, each cut out of a run of tokens without a comma
  outside parentheses, and around them there are only blanks and commas (`Listed`).

Both readers count on the tokens of all segments, however a semicolon or a literal may cut the list; what the
segments leave out is white space at the end (`exists_tokens_append`).
-/

namespace SchemaSketch

open Text

/-! ## The count of parentheses -/

namespace Token

/-- The count of parentheses is back at zero at a token, if it was at `depth` in front of the list: the token
is a parenthesis, and up to it as many are closed as are open. -/
def ReturnsAt (depth : Int) (ts : List Token) (n : Nat) : Prop :=
  ∃ t, ts[n]? = some t ∧ (t.isMark '(' = true ∨ t.isMark ')' = true) ∧ depth + weights (ts.take (n + 1)) = 0

/-- The count is back at zero for the first time. -/
structure FirstReturn (depth : Int) (ts : List Token) (n : Nat) : Prop where
  /-- it is back -/
  returns : ReturnsAt depth ts n
  /-- it was not before -/
  first : ∀ m < n, ¬ ReturnsAt depth ts m

variable {depth : Int} {t : Token} {ts : List Token} {n : Nat}

theorem returnsAt_nil : ¬ ReturnsAt depth [] n := fun ⟨_, ht, _⟩ => by cases ht

theorem returnsAt_zero : ReturnsAt depth (t :: ts) 0 ↔
    (t.isMark '(' = true ∨ t.isMark ')' = true) ∧ depth + t.weight = 0 := by
  simp only [ReturnsAt, List.getElem?_cons_zero, Option.some.injEq, exists_eq_left', List.take_succ_cons,
    List.take_zero, weights, Int.add_zero]

theorem returnsAt_succ : ReturnsAt depth (t :: ts) (n + 1) ↔ ReturnsAt (depth + t.weight) ts n := by
  simp only [ReturnsAt, List.getElem?_cons_succ, List.take_succ_cons, weights, Int.add_assoc]

/-- Behind a token at which the count is not back at zero it is back where it is in the rest. -/
theorem forall_not_returnsAt_cons (ht : ¬ ReturnsAt depth (t :: ts) 0) :
    (∀ n, ¬ ReturnsAt depth (t :: ts) n) ↔ ∀ n, ¬ ReturnsAt (depth + t.weight) ts n := by
  refine ⟨fun h n hn => h (n + 1) (returnsAt_succ.2 hn), fun h n => ?_⟩
  cases n with
  | zero => exact ht
  | succ n => exact fun hn => h n (returnsAt_succ.1 hn)

theorem FirstReturn.cons (ht : ¬ ReturnsAt depth (t :: ts) 0) (h : FirstReturn (depth + t.weight) ts n) :
    FirstReturn depth (t :: ts) (n + 1) := by
  refine ⟨returnsAt_succ.2 h.returns, fun m hm => ?_⟩
  cases m with
  | zero => exact ht
  | succ m => exact fun hmr => h.first m (Nat.lt_of_succ_lt_succ hm) (returnsAt_succ.1 hmr)

theorem weight_of_open (h : t.isMark '(' = true) : t.weight = 1 := if_pos h

theorem weight_of_close (hopen : ¬ t.isMark '(' = true) (h : t.isMark ')' = true) : t.weight = -1 := by
  rw [weight, if_neg hopen, if_pos h]

theorem weight_of_unmarked (hopen : ¬ t.isMark '(' = true) (hclose : ¬ t.isMark ')' = true) : t.weight = 0 := by
  rw [weight, if_neg hopen, if_neg hclose]

theorem text_of_isMark {c : Char} (h : t.isMark c = true) : t.text = [c] := by
  rw [isMark, Bool.and_eq_true, beq_iff_eq, beq_iff_eq] at h
  exact h.2

end Token

namespace Statement

open Token

/-! ## The body of a list -/

/-- Where the list is open, the body ends at the first return of the count. -/
theorem exists_of_untilClosed {depth : Int} (hdepth : 1 ≤ depth) {inner ts : List Token} {body : List Char}
    (h : untilClosed depth inner ts = some body) :
    ∃ n, FirstReturn depth ts n ∧ textOf (inner.reverse ++ ts.take (n + 1)) = body ++ [')'] := by
  induction ts generalizing depth inner with
  | nil => cases h
  | cons t rest ih =>
    -- a token that does not end the list goes into what has been read
    have hgo : ∀ {next : Int}, next = depth + t.weight → 1 ≤ next → untilClosed next (t :: inner) rest = some body →
        ∃ n, FirstReturn depth (t :: rest) n ∧ textOf (inner.reverse ++ (t :: rest).take (n + 1)) = body ++ [')'] := by
      rintro _ rfl hnext h
      obtain ⟨n, hfirst, htext⟩ := ih hnext h
      rw [List.reverse_cons, List.append_assoc] at htext
      exact ⟨n + 1, hfirst.cons (fun h0 => by have := (returnsAt_zero.1 h0).2; omega), htext⟩
    rw [untilClosed] at h
    split at h
    · next hopen =>
      rw [if_neg (by rw [beq_iff_eq]; omega)] at h
      exact hgo (by rw [weight_of_open hopen]) (by omega) h
    · next hopen =>
      split at h
      · next hclose =>
        split at h
        · next hone =>
          rw [beq_iff_eq] at hone
          have hback : ReturnsAt depth (t :: rest) 0 :=
            returnsAt_zero.2 ⟨.inr hclose, by rw [weight_of_close hopen hclose, hone]; rfl⟩
          refine ⟨0, ⟨hback, fun m hm => absurd hm (Nat.not_lt_zero m)⟩, ?_⟩
          rw [List.take_succ_cons, List.take_zero, textOf_append, Option.some.inj h, textOf, List.flatMap_singleton,
            text_of_isMark hclose]
        · next hone =>
          rw [beq_iff_eq] at hone
          exact hgo (by rw [weight_of_close hopen hclose]; omega) (by omega) h
      · next hclose => exact hgo (by rw [weight_of_unmarked hopen hclose, Int.add_zero]) hdepth h

/-- A list that is not closed has no return of the count. -/
theorem not_returnsAt_of_untilClosed {depth : Int} (hdepth : 1 ≤ depth) {inner ts : List Token}
    (h : untilClosed depth inner ts = none) (n : Nat) : ¬ ReturnsAt depth ts n := by
  induction ts generalizing depth inner n with
  | nil => exact returnsAt_nil
  | cons t rest ih =>
    have hgo : ∀ {next : Int}, next = depth + t.weight → 1 ≤ next → untilClosed next (t :: inner) rest = none →
        ¬ ReturnsAt depth (t :: rest) n := by
      rintro _ rfl hnext h
      refine (forall_not_returnsAt_cons fun h0 => ?_).2 (fun m => ih hnext h m) n
      have := (returnsAt_zero.1 h0).2
      omega
    rw [untilClosed] at h
    split at h
    · next hopen =>
      rw [if_neg (by rw [beq_iff_eq]; omega)] at h
      exact hgo (by rw [weight_of_open hopen]) (by omega) h
    · next hopen =>
      split at h
      · next hclose =>
        split at h
        · cases h
        · next hone =>
          rw [beq_iff_eq] at hone
          exact hgo (by rw [weight_of_close hopen hclose]; omega) (by omega) h
      · next hclose => exact hgo (by rw [weight_of_unmarked hopen hclose, Int.add_zero]) hdepth h

/-- Tokens that are no parentheses close nothing. -/
theorem untilClosed_append_unmarked {us : List Token}
    (hus : ∀ t ∈ us, t.isMark '(' = false ∧ t.isMark ')' = false) (depth : Int) (inner ts : List Token) :
    untilClosed depth inner (ts ++ us) = untilClosed depth inner ts := by
  induction ts generalizing depth inner with
  | nil =>
    rw [List.nil_append, untilClosed]
    induction us generalizing inner with
    | nil => rfl
    | cons t rest ih =>
      obtain ⟨⟨hopen, hclose⟩, hrest⟩ := List.forall_mem_cons.1 hus
      rw [untilClosed, hopen, hclose, if_neg Bool.false_ne_true, if_neg Bool.false_ne_true]
      exact ih hrest (t :: inner)
  | cons t rest ih => simp only [List.cons_append, untilClosed, ih]

/-- **The tokens of a text are all that the lexer finds**, but for white space at the end. -/
theorem exists_tokens_append {cs : List Char} {ts : List Token} (h : Script.tokens cs = .ok ts) :
    ∃ spaces, Token.lex cs = ts ++ spaces ∧ Spaces spaces := by
  rw [Script.tokens, Script.segments] at h
  cases hcheck : (Script.cut (Token.lex cs)).forM Script.check with
  | error cause =>
    rw [hcheck] at h
    cases h
  | ok _ =>
    rw [hcheck] at h
    cases h
    obtain ⟨spaces, hspaces, hlex⟩ := exists_flatten_cutFrom {} [] (Token.lex cs)
    refine ⟨spaces, hlex, fun t ht => ⟨hspaces t ht, ?_⟩⟩
    have hmem : t ∈ Token.lex cs := by
      rw [← List.nil_append (Token.lex cs), ← List.reverse_nil, hlex]
      exact List.mem_append_right _ ht
    exact Token.blank_of_isSpace hmem (hspaces t ht)

/-- A text has tokens, or a segment of it is too much. -/
theorem tokens_eq_error {cs : List Char} {cause : Script.LimitFault} (h : Script.tokens cs = .error cause) :
    ∃ segment ∈ Script.cut (Token.lex cs), Script.check segment = .error cause := by
  rw [Script.tokens, Script.segments] at h
  cases hcheck : (Script.cut (Token.lex cs)).forM Script.check with
  | error cause' =>
    rw [hcheck] at h
    obtain rfl : cause' = cause := Except.error.inj h
    obtain ⟨before, segment, after, hsegments, -, hfault⟩ := Except.forM_eq_error.1 hcheck
    exact ⟨segment, by rw [hsegments]; simp, hfault⟩
  | ok _ =>
    rw [hcheck] at h
    cases h

/-- What may become of a text that begins with the parenthesis of a list. -/
inductive Enclosed (cs : List Char) : Except Script.LimitFault (Option (List Char)) → Prop where
  /-- the count comes back, and up to its first return stand the body and its two parentheses -/
  | closed {body : List Char} {n : Nat} (hfirst : FirstReturn 0 (Token.lex cs) n)
      (htext : textOf ((Token.lex cs).take (n + 1)) = '(' :: (body ++ [')']))
      (hopens : '(' :: (body ++ [')']) <+: cs) : Enclosed cs (.ok (some body))
  /-- the count never comes back -/
  | unclosed (hnever : ∀ n, ¬ ReturnsAt 0 (Token.lex cs) n) : Enclosed cs (.ok none)
  /-- a segment is too much -/
  | refused {cause : Script.LimitFault} {segment : List Token} (hsegment : segment ∈ Script.cut (Token.lex cs))
      (hcheck : Script.check segment = .error cause) : Enclosed cs (.error cause)

/-- **The body of a list ends at the first return of the count**, and there is none only if the count never comes
back. -/
theorem inParentheses?_enclosed (rest : List Char) : Enclosed ('(' :: rest) (inParentheses? ('(' :: rest)) := by
  have hstart : ¬ ReturnsAt 0 (Token.lex ('(' :: rest)) 0 := by
    rw [lex_paren, returnsAt_zero]
    exact fun h => absurd h.2 (by decide)
  have hopened : untilClosed 0 [] (Token.lex ('(' :: rest)) = untilClosed 1 [] (Token.lexAfter (some '(') rest) := by
    rw [lex_paren]
    rfl
  cases htokens : Script.tokens ('(' :: rest) with
  | error cause =>
    obtain ⟨segment, hsegment, hcheck⟩ := tokens_eq_error htokens
    rw [inParentheses?, htokens]
    exact .refused hsegment hcheck
  | ok ts =>
    obtain ⟨spaces, hlex, hspaces⟩ := exists_tokens_append htokens
    have hread : untilClosed 0 [] ts = untilClosed 1 [] (Token.lexAfter (some '(') rest) := by
      rw [← hopened, hlex, untilClosed_append_unmarked fun t ht =>
        ⟨isMark_of_isSpace (hspaces t ht).1 '(', isMark_of_isSpace (hspaces t ht).1 ')'⟩]
    rw [inParentheses?, htokens, Except.map, hread]
    cases hclosed : untilClosed 1 [] (Token.lexAfter (some '(') rest) with
    | none =>
      refine .unclosed ?_
      rw [lex_paren] at hstart ⊢
      exact (forall_not_returnsAt_cons hstart).2 (not_returnsAt_of_untilClosed (Int.le_refl 1) hclosed)
    | some body =>
      obtain ⟨n, hfirst, htext⟩ := exists_of_untilClosed (Int.le_refl 1) hclosed
      have hwhole : textOf ((Token.lex ('(' :: rest)).take (n + 2)) = '(' :: (body ++ [')']) := by
        rw [lex_paren]
        exact congrArg ('(' :: ·) htext
      refine .closed (n := n + 1) ?_ hwhole ?_
      · rw [lex_paren] at hstart ⊢
        exact FirstReturn.cons hstart hfirst
      · refine ⟨textOf ((Token.lex ('(' :: rest)).drop (n + 2)), ?_⟩
        rw [← hwhole, ← textOf_append, List.take_append_drop, textOf_lex]

/-! ## The parts of a body -/

/-- A text of blanks and commas. -/
def ListGap (cs : List Char) : Prop := ∀ c ∈ cs, isBlank c = true ∨ c = ','

/-- How many parentheses are open behind tokens; one that closes none counts for nothing. -/
def depthAfter (ts : List Token) : Nat :=
  ts.foldl (fun depth t => if t.isMark '(' then depth + 1 else if t.isMark ')' then depth - 1 else depth) 0

/-- No comma of a run of tokens stands outside of parentheses; `before` are the tokens in front of the run. -/
def Uncut (before run : List Token) : Prop :=
  ∀ front t back, run = front ++ t :: back → t.isMark ',' = true → depthAfter (before ++ front) ≠ 0

/-- Parts of a list stand among tokens in this order. Each is cut out of a run of tokens by dropping the blanks at
its ends, and no comma of the run stands outside of parentheses. Around and between the runs there are only blanks
and commas. -/
inductive Listed : List Token → List (List Char) → List Token → Prop where
  /-- no part -/
  | gap {before ts : List Token} (hts : ListGap (textOf ts)) : Listed before [] ts
  /-- a gap, a part, and what follows it -/
  | part {before gap run rest : List Token} {a part b : List Char} {parts : List (List Char)}
      (hgap : ListGap (textOf gap)) (hrun : textOf run = a ++ (part ++ b)) (ha : Blank a) (hb : Blank b)
      (hpart : Tight part) (huncut : Uncut (before ++ gap) run) (hrest : Listed (before ++ gap ++ run) parts rest) :
      Listed before (part :: parts) (gap ++ (run ++ rest))

theorem listGap_of_blank {cs : List Char} (h : Blank cs) : ListGap cs := fun c hc => .inl (h c hc)

theorem ListGap.append {a b : List Token} (ha : ListGap (textOf a)) (hb : ListGap (textOf b)) :
    ListGap (textOf (a ++ b)) := by
  rw [textOf_append]
  exact fun c hc => (List.mem_append.1 hc).elim (ha c) (hb c)

/-- A gap in front makes no difference. -/
theorem Listed.gap_append {before gap ts : List Token} {parts : List (List Char)} (hgap : ListGap (textOf gap))
    (h : Listed (before ++ gap) parts ts) : Listed before parts (gap ++ ts) := by
  generalize hfront : before ++ gap = front at h
  cases h with
  | gap hts => exact .gap (hgap.append hts)
  | part hgap' hrun ha hb hpart huncut hrest =>
    subst hfront
    rw [List.append_assoc] at huncut
    rw [List.append_assoc before] at hrest
    rw [← List.append_assoc]
    exact .part (hgap.append hgap') hrun ha hb hpart huncut hrest

/-- A gap at the end makes none either. -/
theorem Listed.append_gap {before ts gap : List Token} {parts : List (List Char)} (h : Listed before parts ts)
    (hgap : ListGap (textOf gap)) : Listed before parts (ts ++ gap) := by
  induction h with
  | gap hts => exact .gap (hts.append hgap)
  | part hgap' hrun ha hb hpart huncut _ ih =>
    rw [List.append_assoc, List.append_assoc]
    exact .part hgap' hrun ha hb hpart huncut ih

/-- A run gives one part, or none if it is blank. -/
theorem Listed.run_append {before run rest : List Token} {parts : List (List Char)} (huncut : Uncut before run)
    (h : Listed (before ++ run) parts rest) :
    Listed before ([trim (textOf run)].filter (! ·.isEmpty) ++ parts) (run ++ rest) := by
  obtain ⟨a, b, ha, hb, htext⟩ := exists_trim (textOf run)
  by_cases hnil : trim (textOf run) = []
  · rw [hnil] at htext ⊢
    refine h.gap_append (listGap_of_blank fun c hc => ?_)
    rw [htext] at hc
    exact (List.mem_append.1 hc).elim (ha c) (hb c)
  · rw [filter_singleton hnil]
    have hnone : ListGap (textOf ([] : List Token)) := fun c hc => absurd hc List.not_mem_nil
    exact .part hnone htext ha hb (tight_trim hnil) (by rwa [List.append_nil]) (by rwa [List.append_nil])

theorem depthAfter_concat (ts : List Token) (t : Token) :
    depthAfter (ts ++ [t]) =
      if t.isMark '(' then depthAfter ts + 1 else if t.isMark ')' then depthAfter ts - 1 else depthAfter ts := by
  rw [depthAfter, List.foldl_append]
  rfl

theorem uncut_nil (before : List Token) : Uncut before [] := fun front t back h => by simp at h

theorem Uncut.concat {before run : List Token} (h : Uncut before run) {t : Token}
    (ht : t.isMark ',' = true → depthAfter (before ++ run) ≠ 0) : Uncut before (run ++ [t]) := by
  intro front u back hsplit hu
  rcases List.eq_nil_or_concat back with rfl | ⟨back, v, rfl⟩
  · obtain ⟨rfl, hlast⟩ := List.append_inj' hsplit rfl
    obtain rfl := (List.cons.inj hlast).1
    exact ht hu
  · rw [List.concat_eq_append, ← List.cons_append, ← List.append_assoc] at hsplit
    exact h front u back (List.append_inj' hsplit rfl).1 hu

/-- **The commas outside parentheses part the tokens**, and nothing else is dropped. -/
theorem listed_commaRuns {before current : List Token} (huncut : Uncut before current.reverse) (ts : List Token) :
    Listed before (((commaRuns (depthAfter (before ++ current.reverse)) current ts).map fun run =>
      trim (textOf run)).filter (! ·.isEmpty)) (current.reverse ++ ts) := by
  induction ts generalizing before current with
  | nil =>
    have hnothing : ListGap (textOf []) := fun c hc => absurd hc List.not_mem_nil
    have h := Listed.run_append huncut (.gap hnothing)
    rwa [List.append_nil] at h
  | cons t rest ih =>
    have hdepth := depthAfter_concat (before ++ current.reverse) t
    rw [List.append_assoc, ← List.reverse_cons] at hdepth
    have hkeep : (t.isMark ',' = true → depthAfter (before ++ current.reverse) ≠ 0) →
        Listed before (((commaRuns (depthAfter (before ++ (t :: current).reverse)) (t :: current) rest).map fun run =>
          trim (textOf run)).filter (! ·.isEmpty)) (current.reverse ++ t :: rest) := by
      intro ht
      have h := @ih before (t :: current) (by rw [List.reverse_cons]; exact huncut.concat ht)
      rw [List.reverse_cons, List.append_assoc _ [t], List.singleton_append] at h
      rwa [List.reverse_cons]
    rw [commaRuns]
    split
    · next hcut =>
      rw [Bool.and_eq_true, beq_iff_eq] at hcut
      obtain ⟨hcomma, hzero⟩ := hcut
      have htext := text_of_isMark hcomma
      have hother : ∀ c, c ≠ ',' → ¬ t.isMark c = true := fun c hc h =>
        hc (List.cons.inj ((text_of_isMark h).symm.trans htext)).1
      rw [List.reverse_cons, ← List.append_assoc, if_neg (hother '(' (by decide)), if_neg (hother ')' (by decide)),
        hzero] at hdepth
      have hgap : ListGap (textOf [t]) := by
        rw [textOf, List.flatMap_singleton, htext]
        exact fun c hc => .inr (List.mem_singleton.1 hc)
      have hrest := @ih (before ++ current.reverse ++ [t]) [] (uncut_nil _)
      rw [List.reverse_nil, List.append_nil, hdepth, List.nil_append] at hrest
      rw [List.map_cons, ← List.singleton_append, List.filter_append]
      exact (hrest.gap_append hgap).run_append huncut
    · next hcut =>
      have ht : t.isMark ',' = true → depthAfter (before ++ current.reverse) ≠ 0 := fun hcomma hzero =>
        hcut (by rw [hcomma, hzero]; rfl)
      have h := hkeep ht
      rw [hdepth] at h
      split
      · next hopen => rwa [if_pos hopen] at h
      · next hopen =>
        rw [if_neg hopen] at h
        split
        · next hclose => rwa [if_pos hclose] at h
        · next hclose => rwa [if_neg hclose] at h

/-- What may become of a body. -/
inductive Parted (body : List Char) : Except Script.LimitFault (List (List Char)) → Prop where
  /-- it is cut into parts that stand in it in their order -/
  | parts {parts : List (List Char)} (hlisted : Listed [] parts (Token.lex body)) : Parted body (.ok parts)
  /-- a segment is too much -/
  | refused {cause : Script.LimitFault} {segment : List Token} (hsegment : segment ∈ Script.cut (Token.lex body))
      (hcheck : Script.check segment = .error cause) : Parted body (.error cause)

/-- **Cutting a body at its commas loses no text.** -/
theorem definitions_parted (body : List Char) : Parted body (definitions body) := by
  rw [definitions]
  split
  · next hblank =>
    refine .parts (.gap (listGap_of_blank ?_))
    rw [textOf_lex]
    exact List.all_eq_true.1 hblank
  cases htokens : Script.tokens body with
  | error cause =>
    obtain ⟨segment, hsegment, hcheck⟩ := tokens_eq_error htokens
    exact .refused hsegment hcheck
  | ok ts =>
    obtain ⟨spaces, hlex, hspaces⟩ := exists_tokens_append htokens
    have hlisted := @listed_commaRuns [] [] (uncut_nil []) ts
    refine .parts ?_
    rw [hlex]
    exact hlisted.append_gap (listGap_of_blank (blank_textOf hspaces))

/-- **Cutting a column list loses nothing**: neither where its body is taken out of a text that begins with its
parenthesis, nor where a body is cut into parts. -/
theorem lists_kept (rest body : List Char) :
    Enclosed ('(' :: rest) (inParentheses? ('(' :: rest)) ∧ Parted body (definitions body) :=
  ⟨inParentheses?_enclosed rest, definitions_parted body⟩

end Statement
end SchemaSketch
