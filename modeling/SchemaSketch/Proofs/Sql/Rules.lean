import SchemaSketch.Proofs.Sql.Plain

/-!
# The rules of the token grammar are tame

One by one: the rules for quotes and comments are absent from plain text, and the others stop at a
semicolon and close what they open. Two rules need a reason of their own, those for bracketed names and for
placeholders, which are the only ones that cover parentheses or could reach beyond a semicolon.
-/

namespace SchemaSketch

open Text

namespace Pattern

/-! ## Marks of comments -/

theorem absent_pair {a b : Char} (hcalm : ∀ rest, isCalm (b :: rest) a = false) (ha : a ≠ ';')
    (hb : b ≠ ';') : Absent (exactly [a, b]) := by
  have hclash : ∀ rest, isPlain (a :: b :: rest) = true → False := by
    intro rest h
    rw [isPlain, hcalm] at h
    cases h
  refine ⟨fun cs hcs => ?_, fun cs rest hcs _ => ?_⟩
  all_goals
    rw [Option.eq_none_iff_forall_ne_some]
    intro n h
    obtain ⟨hfirst, hsecond⟩ := heads_of_exactly h
  · rcases cs with _ | ⟨x, _ | ⟨y, cs⟩⟩
    · cases hfirst
    · cases hsecond
    · cases hfirst
      cases hsecond
      exact hclash cs hcs
  · rcases cs with _ | ⟨x, _ | ⟨y, cs⟩⟩
    · cases hfirst
      exact ha rfl
    · cases hsecond
      exact hb rfl
    · cases hfirst
      cases hsecond
      exact hclash cs hcs

theorem absent_commentMark : Absent Token.commentMark :=
  (absent_pair (fun _ => rfl) (by decide) (by decide)).orElse
    (absent_pair (fun _ => rfl) (by decide) (by decide))

/-! ## Brackets and parentheses -/

/-- A name in brackets. -/
abbrev bracketed : Pattern := char '[' >> many1 isInBracket >> char ']'

theorem bracketed_eq_some {cs : List Char} {n : Nat} :
    bracketed cs = some n ↔ ∃ inner rest, cs = '[' :: (inner ++ ']' :: rest) ∧ inner ≠ [] ∧
      (∀ c ∈ inner, isInBracket c = true) ∧ n = inner.length + 2 := by
  rw [bracketed, andThen_eq_some]
  constructor
  · rintro ⟨m, k, hm, hk, rfl⟩
    obtain ⟨hhead, rfl⟩ := char_eq_some.1 hm
    obtain ⟨rest, rfl⟩ := List.head?_eq_some_iff.1 hhead
    obtain ⟨i, j, hi, hj, rfl⟩ := andThen_eq_some.1 hk
    obtain ⟨hpos, hlength⟩ := many1_eq_some.1 hi
    obtain ⟨hclose, rfl⟩ := char_eq_some.1 hj
    obtain ⟨tail, htail⟩ := List.head?_eq_some_iff.1 hclose
    -- the text is what the name takes and what it leaves
    have htake : rest.take i = rest.takeWhile isInBracket :=
      hlength ▸ (List.prefix_iff_eq_take.1 (List.takeWhile_prefix isInBracket)).symm
    have hrest : rest = rest.takeWhile isInBracket ++ ']' :: tail := by
      rw [← htake]
      exact (List.take_append_drop i rest).symm.trans (congrArg (rest.take i ++ ·) htail)
    have hlength' : i = (rest.takeWhile isInBracket).length := hlength
    refine ⟨rest.takeWhile isInBracket, tail, congrArg ('[' :: ·) hrest, ?_, ?_, by omega⟩
    · exact List.ne_nil_of_length_pos (hlength ▸ hpos)
    · exact fun c hc => List.all_eq_true.1 List.all_takeWhile c hc
  · rintro ⟨inner, rest, rfl, hne, hinner, rfl⟩
    have htake := takeWhile_append_cons hinner (c := ']') (by decide) rest
    refine ⟨1, inner.length + 1, rfl, ?_, by omega⟩
    refine andThen_eq_some.2 ⟨inner.length, 1, many1_eq_some.2 ⟨?_, ?_⟩, ?_, rfl⟩
    · exact List.length_pos_iff.2 hne
    · exact congrArg List.length htake.symm
    · exact char_eq_some.2 ⟨congrArg List.head? (@List.drop_left _ inner _), rfl⟩

theorem tame_bracketed : Tame bracketed := by
  refine ⟨⟨fun cs n _ h => ?_, fun cs rest hcs hrest => Option.ext fun n => ?_⟩, fun cs n hcs h => ?_⟩
  · obtain ⟨inner, rest, rfl, -, -, rfl⟩ := bracketed_eq_some.1 h
    simp
  · rw [bracketed_eq_some, bracketed_eq_some]
    constructor
    · rintro ⟨inner, tail, hsplit, hne, hinner, rfl⟩
      cases cs with
      | nil => cases hsplit
      | cons c cs =>
        have hsplit' : cs ++ ';' :: rest = inner ++ ']' :: tail := (List.cons.inj hsplit).2
        obtain rfl : c = '[' := (List.cons.inj hsplit).1
        rcases List.append_eq_append_iff.1 hsplit' with ⟨more, rfl, hmore⟩ | ⟨more, rfl, hmore⟩
        · -- the name would reach beyond the semicolon, but no bracket is closed there
          cases more with
          | nil => cases hmore
          | cons x more =>
            obtain ⟨rfl, rfl⟩ := List.cons.inj hmore
            have hlate : ∀ c ∈ more, isInBracket c = true := fun c hc => hinner c (by simp [hc])
            have hrest' : opensFirst (more ++ ']' :: tail) = true := hrest
            rw [opensFirst, dropWhile_append_cons hlate (by decide)] at hrest'
            cases hrest'
        · cases more with
          | nil => cases hmore
          | cons x more =>
            obtain ⟨rfl, -⟩ := List.cons.inj hmore
            exact ⟨inner, more, rfl, hne, hinner, rfl⟩
    · rintro ⟨inner, tail, rfl, hne, hinner, rfl⟩
      exact ⟨inner, tail ++ ';' :: rest, by simp, hne, hinner, rfl⟩
  · obtain ⟨inner, rest, rfl, -, hinner, rfl⟩ := bracketed_eq_some.1 h
    have hcalm : isCalm (inner ++ ']' :: rest) '[' = true := (isPlain_cons hcs).1
    have hopen : ∀ c ∈ inner, (c != ']') = true := fun c hc =>
      (Bool.and_eq_true_iff.1 (hinner c hc)).2
    have htake : ('[' :: (inner ++ ']' :: rest)).take (inner.length + 2) = '[' :: (inner ++ [']']) := by
      rw [List.take_succ_cons, List.take_length_add_append]
      rfl
    rw [htake]
    exact neutral_bracketed hcalm hopen

/-- A word in parentheses. -/
theorem tame_enclosedWord : Tame (char '(' >> many1 isWord >> char ')') := by
  have hword : Tame (many1 isWord) := tame_many1 (by decide)
  refine ⟨(stops_one (by decide)).andThen (hword.toStops.andThen (stops_one (by decide))), ?_⟩
  intro cs n hcs h
  obtain ⟨m, k, hm, hk, rfl⟩ := andThen_eq_some.1 h
  obtain ⟨hhead, rfl⟩ := char_eq_some.1 hm
  obtain ⟨rest, rfl⟩ := List.head?_eq_some_iff.1 hhead
  obtain ⟨i, j, hi, hj, rfl⟩ := andThen_eq_some.1 hk
  obtain ⟨hclose, rfl⟩ := char_eq_some.1 hj
  obtain ⟨tail, htail⟩ := List.head?_eq_some_iff.1 hclose
  have htake : ('(' :: rest).take (1 + (i + 1)) = '(' :: (rest.take i ++ [')']) := by
    have hone : (rest.drop i).take 1 = [')'] := congrArg (List.take 1) htail
    rw [Nat.add_comm 1, List.take_succ_cons, List.take_add, hone]
  rw [htake]
  exact neutral_enclosed (hword.closes rest i (isPlain_cons hcs).2 hi)

/-! ## Numbers -/

theorem noLatinNext_append (cs rest : List Char) :
    Token.noLatinNext (cs ++ ';' :: rest) = Token.noLatinNext cs := by
  cases cs with
  | nil => exact (by decide : (!Token.isLatinOrLow ';') = true)
  | cons c cs => rfl

/-- What a number covers: its beginning and then digits, all of them or all but one. -/
theorem digitsBeforeLetter_eq_some {start : Pattern} {least : Nat} {cs : List Char} {n : Nat}
    (h : Token.digitsBeforeLetter start least cs = some n) :
    ∃ m k, start cs = some m ∧ k ≤ ((cs.drop m).takeWhile isDecimal).length ∧ n = m + k := by
  rw [Token.digitsBeforeLetter] at h
  cases hm : start cs with
  | none =>
    rw [hm] at h
    cases h
  | some m =>
    rw [hm] at h
    dsimp only at h
    split at h
    · cases h
      exact ⟨m, _, rfl, Nat.le_refl _, rfl⟩
    split at h
    · next hleast =>
      cases h
      exact ⟨m, ((cs.drop m).takeWhile isDecimal).length - 1, rfl, Nat.sub_le .., by omega⟩
    · cases h

theorem Tame.digitsBeforeLetter {start : Pattern} (hs : Tame start) (least : Nat) :
    Tame (Token.digitsBeforeLetter start least) := by
  have hdigits : shuns isDecimal = true := by decide
  refine ⟨⟨fun cs n hcs h => ?_, fun cs rest hcs hrest => ?_⟩, fun cs n hcs h => ?_⟩
  · obtain ⟨m, k, hm, hk, rfl⟩ := digitsBeforeLetter_eq_some h
    have hfront : m ≤ cs.length := hs.bounded cs m hcs hm
    have hback : ((cs.drop m).takeWhile isDecimal).length ≤ (cs.drop m).length :=
      (List.takeWhile_prefix _).length_le
    rw [List.length_drop] at hback
    omega
  · rw [Token.digitsBeforeLetter, Token.digitsBeforeLetter, hs.eq cs rest hcs hrest]
    cases hm : start cs with
    | none => rfl
    | some m =>
      have hfront : m ≤ cs.length := hs.bounded cs m hcs hm
      have hback : ((cs.drop m).takeWhile isDecimal).length ≤ (cs.drop m).length :=
        (List.takeWhile_prefix _).length_le
      rw [List.length_drop] at hback
      dsimp only
      rw [drop_append_semicolon hfront, takeWhile_append_semicolon (semicolon_of_shuns hdigits),
        drop_append_semicolon (by omega), noLatinNext_append]
  · obtain ⟨m, k, hm, hk, rfl⟩ := digitsBeforeLetter_eq_some h
    rw [List.take_add]
    refine (hs.closes cs m hcs hm).append (neutral_of_forall fun c hc => ?_)
    have hfront : (cs.drop m).take k <+: (cs.drop m).takeWhile isDecimal :=
      List.prefix_of_prefix_length_le (List.take_prefix ..) (List.takeWhile_prefix _)
        (Nat.le_trans (List.length_take_le ..) hk)
    exact eq_false_of_shuns hdigits (List.all_eq_true.1 List.all_takeWhile c (hfront.subset hc))

end Pattern

/-! ## All rules are tame -/

namespace Token

open Pattern

theorem pointNext_append (cs rest : List Char) : pointNext (cs ++ ';' :: rest) = pointNext cs := by
  have hdrop := @List.dropWhile_append _ isBlank cs (';' :: rest)
  rw [pointNext, pointNext]
  cases hcs : cs.dropWhile isBlank with
  | nil =>
    rw [hcs, List.dropWhile_cons_of_neg (by decide)] at hdrop
    rw [hdrop]
    rfl
  | cons c left =>
    rw [hcs] at hdrop
    rw [hdrop]
    by_cases hpoint : c = '.'
    · subst hpoint
      cases left with
      | nil => exact (by decide : (!isDecimal ';') = true)
      | cons d left => rfl
    · simp [hpoint]

theorem tame_identifier : Tame identifier := (tame_one (by decide)).andThen (tame_many (by decide))

theorem tame_lineEnd : Tame lineEnd :=
  (tame_exactly (by decide)).orElse ((tame_char (by decide)).orElse (tame_char (by decide)))

theorem tame_sign : Tame (optional (char '-')) := (tame_char (by decide)).optional

theorem tame_digits1 : Tame digits1 := tame_many1 (by decide)

theorem tame_nameRules : ∀ rule ∈ nameRules, Tame rule.pattern := by
  have hword : Tame (many1 isWord) := tame_many1 (by decide)
  simp only [nameRules, List.forall_mem_cons, List.not_mem_nil, false_implies, implies_true, and_true]
  refine ⟨?_, ?_, tame_lineEnd, tame_one (by decide), tame_exactly (by decide),
    tame_exactly (by decide), tame_char (by decide), ?_, ?_, tame_char (by decide), ?_, ?_, ?_, ?_, ?_,
    ?_, tame_identifier, ?_⟩
  · exact (absent_commentMark.andThen _).tame
  · exact (absent_commentMark.andThen _).tame
  · exact (absent_quotedBy _ (fun _ => rfl) (by decide)).tame
  · exact (absent_quotedBy _ (fun _ => rfl) (by decide)).tame
  · exact (tame_char (by decide)).andThen
      (tame_enclosedWord.optional.andThen (tame_keyword (by decide)))
  · exact (tame_one (by decide)).andThen hword
  · exact (tame_char (by decide)).andThen hword
  · exact (tame_oneOf (by decide)).wordEnds
  · refine (Tame.orElse (tame_char (by decide)) ?_).andThen ((tame_one (by decide)).andThen hword)
    exact (tame_exactly (by decide)).orElse (tame_char (by decide))
  · exact tame_identifier.followedBy pointNext_append
  · refine tame_identifier.followedBy fun cs rest => ?_
    cases cs <;> rfl

theorem tame_literalRules : ∀ rule ∈ literalRules, Tame rule.pattern := by
  have hpoint : Tame (char '.') := tame_char (by decide)
  simp only [literalRules, List.forall_mem_cons, List.not_mem_nil, false_implies, implies_true,
    and_true]
  refine ⟨?_, ?_, ?_, tame_sign.digitsBeforeLetter 1, ?_, ?_, tame_bracketed⟩
  · exact tame_sign.andThen ((tame_char (by decide)).andThen
      ((tame_keyword (by decide)).andThen (tame_many1 (by decide))))
  · exact tame_sign.andThen (tame_digits1.andThen ((hpoint.andThen tame_digits1).optional.andThen
      ((tame_keyword (by decide)).andThen (tame_sign.andThen tame_digits1))))
  · exact ((tame_sign.andThen (tame_digits1.andThen hpoint)).digitsBeforeLetter 0).orElse
      ((tame_sign.andThen hpoint).digitsBeforeLetter 1)
  · exact (absent_quotedBy _ (fun _ => rfl) (by decide)).tame
  · exact (absent_quotedBy _ (fun _ => rfl) (by decide)).tame

theorem tame_phraseRules : ∀ rule ∈ phraseRules, Tame rule.pattern := by
  simp only [phraseRules, List.forall_mem_cons, List.not_mem_nil, false_implies, implies_true,
    and_true]
  have hnot : Tame (lead (keyword "not")) := (tame_keyword (by decide)).lead
  have hfirst : Tame (apart (oneOf ["first", "last"])) := (tame_oneOf (by decide)).apart
  refine ⟨?_, ?_, ?_, ?_, (tame_phrase (by decide)).wordEnds, ?_, ?_,
    (tame_phrase (by decide)).wordEnds, ?_, (tame_phrase (by decide)).wordEnds,
    (tame_phrase (by decide)).wordEnds, (tame_phrase (by decide)).wordEnds,
    (tame_phrase (by decide)).wordEnds, (tame_phrase (by decide)).wordEnds, ?_, ?_, ?_, ?_, ?_⟩
  · exact ((tame_oneOf (by decide)).lead.andThen
      ((tame_oneOf (by decide)).lead.andThen (tame_keyword (by decide)))).wordEnds
  · exact ((tame_oneOf (by decide)).lead.andThen (tame_keyword (by decide))).wordEnds
  · exact (tame_keyword (by decide)).extended (tame_oneOf (by decide)).apart
  · exact ((tame_keyword (by decide)).andThen
      (tame_blanks1.andThen (hnot.andThen (tame_keyword (by decide))))).wordEnds
  · exact (tame_oneOf (by decide)).extended ((tame_keyword (by decide)).apart.andThen hfirst)
  · exact ((tame_keyword (by decide)).andThen hfirst).wordEnds
  · exact (tame_keyword (by decide)).extended (tame_phrase (by decide)).apart
  · exact ((tame_keyword (by decide)).andThen ((tame_one (by decide)).andThen tame_digits1)).wordEnds
  · exact ((tame_phrase (by decide)).andThen (tame_oneOf (by decide)).apart).wordEnds
  · -- the rule for time zones goes on with a literal
    have hquote : Absent (char '\'') := absent_quote (fun _ => rfl) (by decide)
    have hzone : Absent (apart (char '\'') >> many1 (· != '\'') >> char '\'') :=
      (tame_blanks1.toStops.absent_andThen hquote).andThen _
    exact (((tame_keyword (by decide)).orElse (tame_keyword (by decide))).toStops.absent_andThen
      ((tame_phrase (by decide)).apart.toStops.absent_andThen hzone)).tame
  · exact (hnot.andThen (tame_oneOf (by decide))).wordEnds
  · exact (hnot.andThen (tame_keyword (by decide))).extended (tame_keyword (by decide)).apart

theorem tame_rules : ∀ rule ∈ rules, Tame rule.pattern := by
  intro rule h
  rcases List.mem_append.1 h with h | h
  · rcases List.mem_append.1 h with h | h
    · exact tame_nameRules rule h
    · exact tame_literalRules rule h
  · exact tame_phraseRules rule h

theorem tame_plainWord : Tame plainWord := (tame_one (by decide)).andThen (tame_many (by decide))

theorem tame_operator : Tame operator :=
  (tame_exactly (by decide)).orElse <| (tame_exactly (by decide)).orElse <|
    (tame_exactly (by decide)).orElse <| (tame_exactly (by decide)).orElse <|
    (tame_exactly (by decide)).orElse <| (tame_exactly (by decide)).orElse <|
    (tame_exactly (by decide)).orElse <| (tame_char (by decide)).orElse <|
    (tame_char (by decide)).orElse (tame_exactly (by decide))

end Token
end SchemaSketch
