import SchemaSketch.Proofs.Sql.Local

/-!
# Text in which nothing is left open

A text is *shut* if whatever begins at one of its tokens and goes on until it is closed is closed in the text:
comments, quoted text, tagged bodies, names in brackets (`isShut`). A shut text need not be plain, and yet it
has its own tokens, whatever stands behind a semicolon after it (`lexAfter_shut`).
-/

namespace SchemaSketch

open Text Pattern

namespace Token

/-! ## Stretches -/

/-- Whether quoted text is closed by a quote that is neither doubled nor behind a backslash. -/
def shuts (quote : Char) (escapes : Bool) : List Char → Bool
  | [] => false
  | [c] => c == quote
  | c :: d :: rest =>
    if c == quote then if d == quote then shuts quote escapes rest else true
    else if escapes && c == '\\' && d == quote then shuts quote escapes rest
    else shuts quote escapes (d :: rest)

/-- Something that goes on until it is closed. -/
structure Stretch where
  /-- how it begins -/
  opening : Pattern
  /-- whether the text behind a beginning closes it -/
  closes : List Char → List Char → Bool

/-- The stretches of the token rules. -/
def stretches : List Stretch := [
  ⟨commentMark, fun _ rest => rest.any fun c => c == '\r' || c == '\n'⟩,
  ⟨exactly ['/', '*'], fun _ rest => (Comment.indexOf? ['*', '/'] rest).isSome⟩,
  ⟨char '\'', fun _ => shuts '\'' true⟩,
  ⟨char '"', fun _ => shuts '"' true⟩,
  ⟨char '`', fun _ => shuts '`' false⟩,
  ⟨char '´', fun _ => shuts '´' false⟩,
  ⟨char '[', fun _ rest => rest.any (! isInBracket ·)⟩,
  ⟨bodyTag, fun mark rest => (Comment.indexOf? mark rest).isSome⟩,
  ⟨zoneHead, fun _ rest => rest.contains '\''⟩]

/-- Whether each stretch that may begin at the front of a text is closed in it. -/
def settles (cs : List Char) : Bool :=
  stretches.all fun s => match s.opening cs with
    | some n => s.closes (cs.take n) (cs.drop n)
    | none => true

/-- Whether each stretch that may begin at one of some tokens is closed in them. -/
def isShut : List Token → Bool
  | [] => true
  | t :: rest => settles (Statement.textOf (t :: rest)) && isShut rest

theorem closes_of_settles {cs : List Char} (h : settles cs = true) {s : Stretch} (hs : s ∈ stretches)
    {n : Nat} (hn : s.opening cs = some n) : s.closes (cs.take n) (cs.drop n) = true := by
  have hclosed := List.all_eq_true.1 h s hs
  rw [hn] at hclosed
  exact hclosed

/-! ## Quoted text -/

theorem closing_append {quote : Char} (hquote : quote ≠ ';') {escapes : Bool} {cs : List Char}
    (h : shuts quote escapes cs = true) (passed : Nat) (fallback : Option Nat) (rest : List Char) :
    closing quote escapes passed fallback (cs ++ ';' :: rest) = closing quote escapes passed fallback cs := by
  fun_induction shuts quote escapes cs generalizing passed fallback with
  | case1 => cases h
  | case2 c =>
    have hnext : (';' == quote) = false := beq_eq_false_iff_ne.2 (Ne.symm hquote)
    rw [List.singleton_append, closing, closing, h, hnext]
    rfl
  | case3 c d more hc hd ih =>
    rw [List.cons_append, List.cons_append, closing, closing, if_pos hc, if_pos hc, if_pos hd, if_pos hd]
    exact ih h _ _
  | case4 c d more hc hd =>
    rw [List.cons_append, List.cons_append, closing, closing, if_pos hc, if_pos hc, if_neg hd, if_neg hd]
  | case5 c d more hc hescape ih =>
    rw [List.cons_append, List.cons_append, closing, closing, if_neg hc, if_neg hc, if_pos hescape,
      if_pos hescape]
    exact ih h _ _
  | case6 c d more hc hescape ih =>
    rw [List.cons_append, List.cons_append, closing, closing, if_neg hc, if_neg hc, if_neg hescape,
      if_neg hescape]
    exact ih h _ _

theorem closing_le {quote : Char} {escapes : Bool} {cs : List Char} {passed n : Nat}
    {fallback : Option Nat} (hfallback : ∀ m, fallback = some m → m ≤ passed + cs.length)
    (h : closing quote escapes passed fallback cs = some n) : n ≤ passed + cs.length := by
  fun_induction closing quote escapes passed fallback cs with
  | case1 passed fallback => exact hfallback n h
  | case2 passed fallback c => cases h; simp
  | case3 passed fallback c => exact hfallback n h
  | case4 passed fallback c d more hc hd ih =>
    simp only [List.length_cons] at ih ⊢
    have := ih (fun m hm => by cases hm; omega) h
    omega
  | case5 passed fallback c d more hc hd => cases h; simp only [List.length_cons]; omega
  | case6 passed fallback c d more hc hescape ih =>
    simp only [List.length_cons] at ih ⊢
    have := ih (fun m hm => by cases hm; omega) h
    omega
  | case7 passed fallback c d more hc hescape ih =>
    simp only [List.length_cons] at ih hfallback ⊢
    have := ih (fun m hm => by have := hfallback m hm; omega) h
    omega

theorem bounded_quotedBy (quote : Char) (escapes : Bool) : (quotedBy quote escapes).Bounded := by
  intro cs n h
  cases cs with
  | nil => cases h
  | cons c rest =>
    rw [quotedBy] at h
    split at h
    · have hbound := closing_le (fun m hm => by cases hm) h
      rw [List.length_cons]
      omega
    · cases h

/-! ## What ranges far -/

theorem bounded_toLineEnd : toLineEnd.Bounded :=
  bounded_andThen (bounded_many _) modest_lineEnd.optional.bounded

/-- A comment ends with its line. -/
theorem toLineEnd_append {cs : List Char} (h : (cs.any fun c => c == '\r' || c == '\n') = true)
    (rest : List Char) : toLineEnd (cs ++ ';' :: rest) = toLineEnd cs := by
  have hline : cs.any (fun c => !(c != '\r' && c != '\n')) = true := by
    simpa [Bool.not_and] using h
  change Pattern.andThen (many _) (optional lineEnd) (cs ++ ';' :: rest)
    = Pattern.andThen (many _) (optional lineEnd) cs
  rw [Pattern.andThen, Pattern.andThen, many, many, takeWhile_append_of_any hline]
  dsimp only
  rw [drop_append_semicolon (List.takeWhile_prefix _).length_le, modest_lineEnd.optional.eq]

/-- What is closed in a text is closed at the same place when more follows. -/
theorem indexOf?_append_of_isSome {part cs : List Char} (h : (Comment.indexOf? part cs).isSome = true)
    (more : List Char) : Comment.indexOf? part (cs ++ more) = Comment.indexOf? part cs := by
  obtain ⟨n, hn⟩ := Option.isSome_iff_exists.1 h
  obtain ⟨a, b, rfl, rfl⟩ := Comment.exists_of_indexOf? hn
  rw [hn, List.append_assoc, List.append_assoc]
  exact Comment.indexOf?_append hn (b ++ more)

/-- A local pattern and then one that sees nothing beyond the semicolon where it is used. -/
theorem andThen_append {p q : Pattern} (hp : Local p) {cs rest : List Char}
    (hq : ∀ m, p cs = some m → q (cs.drop m ++ ';' :: rest) = q (cs.drop m)) :
    (p >> q) (cs ++ ';' :: rest) = (p >> q) cs := by
  change Pattern.andThen p q (cs ++ ';' :: rest) = Pattern.andThen p q cs
  rw [Pattern.andThen, Pattern.andThen, hp.eq]
  cases hm : p cs with
  | none => rfl
  | some m =>
    dsimp only
    rw [drop_append_semicolon (hp.bounded cs m hm), hq m hm]

/-- Characters of a class, and then a local pattern, where not all are of the class. -/
theorem many1_andThen_append {f : Char → Bool} {q : Pattern} (hq : Local q) {cs : List Char}
    (h : cs.any (! f ·) = true) (rest : List Char) :
    (many1 f >> q) (cs ++ ';' :: rest) = (many1 f >> q) cs := by
  have hrun : many1 f (cs ++ ';' :: rest) = many1 f cs := by
    refine Option.ext fun n => ?_
    rw [many1_eq_some, many1_eq_some, takeWhile_append_of_any h]
  change Pattern.andThen (many1 f) q (cs ++ ';' :: rest) = Pattern.andThen (many1 f) q cs
  rw [Pattern.andThen, Pattern.andThen, hrun]
  cases hm : many1 f cs with
  | none => rfl
  | some m =>
    have hbound : m ≤ cs.length := bounded_andThen (bounded_one f) (bounded_many f) cs m hm
    dsimp only
    rw [drop_append_semicolon hbound, hq.eq]

theorem modest_commentMark : Modest commentMark :=
  (modest_exactly (by decide)).orElse (modest_exactly (by decide))

theorem local_zoneHead : Local zoneHead := by
  have hwords : Local (keyword "at" <|> keyword "with'") :=
    (local_letters (by decide)).orElse (local_letters (by decide))
  exact hwords.andThen ((modest_phrase (by decide)).apart.toLocal.andThen
    (modest_blanks1.toLocal.andThen (local_one (by decide))))

theorem Ranging.bounded {p : Pattern} (hp : Ranging p) : p.Bounded := by
  have hmark := modest_commentMark.bounded
  cases hp with
  | hint => exact bounded_andThen hmark (bounded_andThen (bounded_one _) bounded_toLineEnd)
  | comment => exact bounded_andThen hmark bounded_toLineEnd
  | quoted _ => exact bounded_quotedBy _ _
  | bracketed =>
    exact bounded_andThen (bounded_one _)
      (bounded_andThen (bounded_andThen (bounded_one _) (bounded_many _)) (bounded_one _))
  | zone =>
    exact bounded_andThen local_zoneHead.bounded
      (bounded_andThen (bounded_andThen (bounded_one _) (bounded_many _)) (bounded_one _))

/-- **A rule that ranges far** covers the same if what it covers is closed before the semicolon. -/
theorem Ranging.eq {p : Pattern} (hp : Ranging p) {c : Char} {cs : List Char}
    (hcs : settles (c :: cs) = true) (rest : List Char) : p (c :: cs ++ ';' :: rest) = p (c :: cs) := by
  cases hp with
  | hint =>
    refine andThen_append modest_commentMark.toLocal fun m hm => ?_
    have hline : (((c :: cs).drop m).any fun c => c == '\r' || c == '\n') = true :=
      closes_of_settles hcs (s := stretches[0]) (List.getElem_mem _) hm
    refine andThen_append (modest_char (by decide)).toLocal fun k hk => ?_
    obtain ⟨hplus, rfl⟩ := char_eq_some.1 hk
    obtain ⟨more, hmore⟩ := List.head?_eq_some_iff.1 hplus
    rw [hmore] at hline
    have hbehind : (more.any fun c => c == '\r' || c == '\n') = true := hline
    rw [hmore]
    exact toLineEnd_append hbehind rest
  | comment =>
    exact andThen_append modest_commentMark.toLocal fun m hm =>
      toLineEnd_append (closes_of_settles hcs (s := stretches[0]) (List.getElem_mem _) hm) rest
  | @quoted quote escapes h =>
    have hshuts : c = quote → shuts quote escapes cs = true := by
      rintro rfl
      simp only [quotes, List.mem_cons, Prod.mk.injEq, List.not_mem_nil, or_false] at h
      rcases h with ⟨rfl, rfl⟩ | ⟨rfl, rfl⟩ | ⟨rfl, rfl⟩ | ⟨rfl, rfl⟩
      · exact closes_of_settles hcs (s := stretches[2]) (n := 1) (List.getElem_mem _) rfl
      · exact closes_of_settles hcs (s := stretches[3]) (n := 1) (List.getElem_mem _) rfl
      · exact closes_of_settles hcs (s := stretches[4]) (n := 1) (List.getElem_mem _) rfl
      · exact closes_of_settles hcs (s := stretches[5]) (n := 1) (List.getElem_mem _) rfl
    have hquote : quote ≠ ';' := by
      rintro rfl
      simp [quotes] at h
    rw [List.cons_append, quotedBy, quotedBy]
    split
    · next hc => exact closing_append hquote (hshuts (beq_iff_eq.1 hc)) 1 none rest
    · rfl
  | bracketed =>
    refine andThen_append (local_one (by decide)) fun m hm => ?_
    have hclosed : ((c :: cs).drop m).any (! isInBracket ·) = true :=
      closes_of_settles hcs (s := stretches[6]) (List.getElem_mem _) hm
    exact many1_andThen_append (local_one (by decide)) hclosed rest
  | zone =>
    refine andThen_append local_zoneHead fun m hm => ?_
    have hquote : ((c :: cs).drop m).contains '\'' = true :=
      closes_of_settles hcs (s := stretches[8]) (List.getElem_mem _) hm
    exact many1_andThen_append (local_one (by decide)) (by simpa using hquote) rest

/-! ## Tokens of a shut text -/

theorem local_bodyTag : Local bodyTag :=
  (local_one (by decide)).andThen
    (((modest_one (by decide)).andThen (modest_many (by decide))).optional.toLocal.andThen
      (local_one (by decide)))

/-- A stretch that is closed where it opens. -/
theorem upTo_append {opening closing cs : List Char} (hlength : opening.length ≤ cs.length)
    (h : (Comment.indexOf? closing (cs.drop opening.length)).isSome = true) (more : List Char) :
    upTo opening closing (cs ++ more) = upTo opening closing cs := by
  rw [upTo, upTo, List.drop_append_of_le_length hlength, indexOf?_append_of_isSome h]

theorem delimited_of_ne {c : Char} {rest : List Char} (hdollar : c ≠ '$')
    (hblock : c = '/' → rest.head? ≠ some '*') (before : Option Char) :
    delimited before (c :: rest) = none := by
  rw [delimited.eq_def]
  split
  · next h => exact absurd (List.cons.inj h).1 hdollar
  · next h =>
    obtain ⟨rfl, rfl⟩ := List.cons.inj h
    exact absurd rfl (hblock rfl)
  · rfl

theorem delimited_append {c : Char} {cs : List Char} (hcs : settles (c :: cs) = true)
    (before : Option Char) (rest : List Char) :
    delimited before (c :: (cs ++ ';' :: rest)) = delimited before (c :: cs) := by
  by_cases hdollar : c = '$'
  · subst hdollar
    have htag : bodyTag ('$' :: (cs ++ ';' :: rest)) = bodyTag ('$' :: cs) := local_bodyTag.eq ('$' :: cs) rest
    rw [delimited, delimited, htag]
    cases hn : bodyTag ('$' :: cs) with
    | none => rfl
    | some n =>
      have hbound : n ≤ ('$' :: cs).length := local_bodyTag.bounded _ n hn
      have htake : ('$' :: (cs ++ ';' :: rest)).take n = ('$' :: cs).take n :=
        List.take_append_of_le_length hbound
      have hclosed : (Comment.indexOf? (('$' :: cs).take n) (('$' :: cs).drop n)).isSome = true :=
        closes_of_settles hcs (s := stretches[7]) (List.getElem_mem _) hn
      have hlength : (('$' :: cs).take n).length = n := List.length_take_of_le hbound
      have hupTo : upTo (('$' :: cs).take n) (('$' :: cs).take n) ('$' :: cs ++ ';' :: rest)
          = upTo (('$' :: cs).take n) (('$' :: cs).take n) ('$' :: cs) :=
        upTo_append (by omega) (by rwa [hlength]) _
      dsimp only
      rw [htake]
      exact congrArg (fun found => if bodyMayBegin before then found.map (TokenKind.other, ·) else none) hupTo
  by_cases hblock : c = '/' ∧ cs.head? = some '*'
  · obtain ⟨rfl, hhead⟩ := hblock
    obtain ⟨more, rfl⟩ := List.head?_eq_some_iff.1 hhead
    have hclosed : (Comment.indexOf? ['*', '/'] more).isSome = true :=
      closes_of_settles hcs (s := stretches[1]) (n := 2) (List.getElem_mem _) rfl
    have hupTo : upTo ['/', '*'] ['*', '/'] ('/' :: '*' :: more ++ ';' :: rest)
        = upTo ['/', '*'] ['*', '/'] ('/' :: '*' :: more) := upTo_append (by simp) hclosed _
    exact congrArg (Option.map (TokenKind.blockComment, ·)) hupTo
  · have hhead : c = '/' → cs.head? ≠ some '*' := fun hc hstar => hblock ⟨hc, hstar⟩
    rw [delimited_of_ne hdollar hhead, delimited_of_ne hdollar fun hc => ?_]
    cases cs with
    | nil => exact fun h => absurd (Option.some.inj h) (by decide)
    | cons d cs => exact hhead hc

/-- **The first token** of a shut text is the same when a semicolon and more follow. -/
theorem first_shut {c : Char} {cs : List Char} (hcs : settles (c :: cs) = true) (before : Option Char)
    (rest : List Char) : first before (c :: (cs ++ ';' :: rest)) = first before (c :: cs) := by
  have hrules : firstFit before (c :: (cs ++ ';' :: rest)) rules = firstFit before (c :: cs) rules := by
    refine firstFit_congr (fun _ _ => rfl) fun rule hrule => ?_
    rcases modest_rules rule hrule with hmodest | hpattern | hranging
    · exact hmodest.eq (c :: cs) rest
    · rw [hpattern]
      exact local_placeholder.eq (c :: cs) rest
    · exact hranging.eq hcs rest
  have hsigns : firstFit before (c :: (cs ++ ';' :: rest)) signRules
      = firstFit before (c :: cs) signRules := by
    refine firstFit_congr (fun _ _ => rfl) fun rule hrule => ?_
    rcases modest_of_mem_signRules hrule with hpattern | hmodest
    · rw [hpattern]
      rfl
    · exact hmodest.eq (c :: cs) rest
  have hword : plainWord (c :: (cs ++ ';' :: rest)) = plainWord (c :: cs) :=
    local_plainWord.eq (c :: cs) rest
  rw [first, first, delimited_append hcs, hrules, hsigns, hword]
  cases hn : plainWord (c :: cs) with
  | none => rfl
  | some n =>
    have htake : (c :: cs ++ ';' :: rest).take n = (c :: cs).take n :=
      List.take_append_of_le_length (local_plainWord.bounded _ n hn)
    rw [List.cons_append] at htake
    dsimp only
    rw [htake]

/-- The first token is never longer than the text. -/
theorem first_le (before : Option Char) (c : Char) (cs : List Char) :
    (first before (c :: cs)).2 ≤ (c :: cs).length := by
  have hupTo : ∀ {opening closing : List Char} {n : Nat}, upTo opening closing (c :: cs) = some n →
      opening.length ≤ (c :: cs).length → n ≤ (c :: cs).length := by
    intro opening closing n hn hlength
    obtain ⟨m, hm, rfl⟩ := Option.map_eq_some_iff.1 hn
    obtain ⟨a, b, hsplit, rfl⟩ := Comment.exists_of_indexOf? hm
    have hbehind := congrArg List.length hsplit
    rw [List.length_drop, List.length_append, List.length_append] at hbehind
    omega
  generalize hfirst : first before (c :: cs) = found
  obtain ⟨kind, n⟩ := found
  cases origin_of_first hfirst with
  | stretch hfound =>
    rcases delimited_eq_some hfound with ⟨-, -, rest, k, -, hk, hn⟩ | ⟨-, rest, hsplit, hn⟩
    · exact hupTo hn (List.length_take_le' ..)
    · exact hupTo hn (by rw [hsplit]; simp)
  | rule _ hmem hn =>
    rcases modest_rules _ hmem with hmodest | hpattern | hranging
    · exact hmodest.bounded _ _ hn
    · rw [hpattern] at hn
      exact local_placeholder.bounded _ _ hn
    · exact hranging.bounded _ _ hn
  | word _ hn => exact local_plainWord.bounded _ _ hn
  | sign _ hmem hn =>
    rcases modest_of_mem_signRules hmem with hpattern | hmodest
    · rw [hpattern] at hn
      exact bounded_one _ _ _ hn
    · exact hmodest.bounded _ _ hn
  | single _ => exact Nat.le_add_left ..

theorem lexAfter_shut (before : Option Char) {cs : List Char} (hcs : isShut (lexAfter before cs) = true)
    (rest : List Char) :
    lexAfter before (cs ++ ';' :: rest) = lexAfter before cs ++ semicolon :: lex rest := by
  -- the induction is on the length: each token takes at least one character
  induction hlength : cs.length using Nat.strongRecOn generalizing before cs with
  | _ length ih =>
    cases cs with
    | nil =>
      rw [List.nil_append, lexAfter_cons, first_mark (.inr (.inr rfl)) before rest]
      exact congrArg (semicolon :: ·) (lexAfter_semicolon rest)
    | cons c cs =>
      have hbound := first_le before c cs
      have htext : Statement.textOf (lexAfter before (c :: cs)) = c :: cs := lexFrom_texts ..
      rw [lexAfter_cons] at hcs htext
      rw [isShut, htext, Bool.and_eq_true] at hcs
      rw [List.length_cons] at hbound hlength
      rw [List.cons_append, lexAfter_cons, lexAfter_cons, first_shut hcs.1]
      have hn : (first before (c :: cs)).2 - 1 ≤ cs.length := by omega
      dsimp only at hcs ⊢
      rw [List.take_append_of_le_length hn, List.drop_append_of_le_length hn,
        ih (cs.drop _).length (by rw [List.length_drop]; omega) _ hcs.2 rfl]
      rfl

/-- **A shut text has its own tokens**, whatever stands behind a semicolon after it. -/
theorem lex_shut {cs : List Char} (hcs : isShut (lex cs) = true) (rest : List Char) :
    lex (cs ++ ';' :: rest) = lex cs ++ semicolon :: lex rest :=
  lexAfter_shut none hcs rest

end Token
end SchemaSketch
