import SchemaSketch.Proofs.Sql.Stripping

/-!
# What rules see of any text

A text need not be plain for most rules of the token grammar to stop at a semicolon. A `Local` pattern never
looks beyond one, whatever stands before it. A local pattern is `Modest` if it covers no quote and no dollar
sign either, so that no quoted text begins or ends inside of what it covers.

Every rule is modest but the one for placeholders, which may begin with a dollar sign, and those that cover
something up to its end, however far that is (`Ranging`): comments, quoted text, names in brackets, and the
literal behind `AT TIME ZONE`.
-/

namespace SchemaSketch

open Text Comment

namespace Pattern

/-! ## Local patterns -/

/-- A pattern that looks at nothing beyond a semicolon. -/
structure Local (p : Pattern) : Prop where
  /-- it never reaches beyond the text -/
  bounded : p.Bounded
  /-- what follows a semicolon makes no difference -/
  eq : ∀ cs rest, p (cs ++ ';' :: rest) = p cs

/-- A character with which quoted text or a tagged body may begin. -/
def isOpening (c : Char) : Bool := isQuote c || c == '$'

/-- A local pattern that covers no quote and no dollar sign. -/
structure Modest (p : Pattern) : Prop extends Local p where
  /-- no quoted text begins in what it covers -/
  clean : ∀ cs n, p cs = some n → ∀ c ∈ cs.take n, isOpening c = false

theorem local_one {f : Char → Bool} (hf : f ';' = false) : Local (one f) := by
  refine ⟨bounded_one f, fun cs rest => ?_⟩
  cases cs with
  | nil => simp [one, hf]
  | cons c cs => rfl

theorem local_many {f : Char → Bool} (hf : f ';' = false) : Local (many f) :=
  ⟨bounded_many f, fun cs rest => by rw [many, many, takeWhile_append_semicolon hf]⟩

theorem Local.andThen {p q : Pattern} (hp : Local p) (hq : Local q) : Local (p >> q) := by
  refine ⟨bounded_andThen hp.bounded hq.bounded, fun cs rest => ?_⟩
  change Pattern.andThen p q (cs ++ ';' :: rest) = Pattern.andThen p q cs
  rw [Pattern.andThen, Pattern.andThen, hp.eq cs rest]
  cases hn : p cs with
  | none => rfl
  | some n =>
    dsimp only
    rw [drop_append_semicolon (hp.bounded cs n hn), hq.eq]

theorem Local.orElse {p q : Pattern} (hp : Local p) (hq : Local q) : Local (p <|> q) := by
  refine ⟨bounded_orElse hp.bounded hq.bounded, fun cs rest => ?_⟩
  change Pattern.orElse p q (cs ++ ';' :: rest) = Pattern.orElse p q cs
  rw [Pattern.orElse, Pattern.orElse, hp.eq, hq.eq]

theorem local_letters {ks : List Char} (h : (ks.all fun k => !sameLetter k ';') = true) :
    Local (letters ks) := by
  induction ks with
  | nil => exact ⟨fun cs n h => (by cases h; exact Nat.zero_le _), fun _ _ => rfl⟩
  | cons k ks ih =>
    obtain ⟨hk, hks⟩ := Bool.and_eq_true_iff.1 h
    exact (local_one (by simpa using hk)).andThen (ih hks)

/-! ## Modest patterns -/

/-- A class of characters to which neither a semicolon nor a quote nor the dollar sign belongs. -/
def spares (f : Char → Bool) : Bool := !f ';' && !f '\'' && !f '"' && !f '`' && !f '$'

theorem semicolon_of_spares {f : Char → Bool} (hf : spares f = true) : f ';' = false := by
  simp only [spares, Bool.and_eq_true, Bool.not_eq_true'] at hf
  exact hf.1.1.1.1

theorem isOpening_of_spares {f : Char → Bool} (hf : spares f = true) {c : Char} (hc : f c = true) :
    isOpening c = false := by
  simp only [spares, Bool.and_eq_true, Bool.not_eq_true'] at hf
  simp only [isOpening, isQuote, Bool.or_eq_false_iff, beq_eq_false_iff_ne]
  refine ⟨⟨⟨?_, ?_⟩, ?_⟩, ?_⟩ <;> rintro rfl <;> simp_all

theorem isOpening_of_isWord {c : Char} (hc : isWord c = true) : isOpening c = false :=
  isOpening_of_spares (f := isWord) (by decide) hc

theorem modest_empty : Modest empty := by
  refine ⟨⟨fun cs n h => ?_, fun _ _ => rfl⟩, fun cs n h => ?_⟩
  · cases h
    exact Nat.zero_le _
  · cases h
    exact fun c hc => absurd hc (by simp)

theorem modest_none : Modest fun _ => none :=
  ⟨⟨fun _ _ h => (by cases h), fun _ _ => rfl⟩, fun _ _ h => by cases h⟩

theorem modest_one {f : Char → Bool} (hf : spares f = true) : Modest (one f) := by
  refine ⟨local_one (semicolon_of_spares hf), fun cs n h => ?_⟩
  obtain ⟨c, rest, rfl, hc, rfl⟩ := one_eq_some.1 h
  exact fun x hx => List.mem_singleton.1 hx ▸ isOpening_of_spares hf hc

theorem modest_many {f : Char → Bool} (hf : spares f = true) : Modest (many f) := by
  refine ⟨local_many (semicolon_of_spares hf), fun cs n h c hc => ?_⟩
  exact isOpening_of_spares hf (class_of_many h c hc)

theorem Modest.andThen {p q : Pattern} (hp : Modest p) (hq : Modest q) : Modest (p >> q) := by
  refine ⟨hp.toLocal.andThen hq.toLocal, fun cs n h => ?_⟩
  obtain ⟨m, k, hm, hk, rfl⟩ := andThen_eq_some.1 h
  rw [List.take_add]
  exact fun c hc => (List.mem_append.1 hc).elim (hp.clean cs m hm c) (hq.clean _ k hk c)

theorem Modest.orElse {p q : Pattern} (hp : Modest p) (hq : Modest q) : Modest (p <|> q) :=
  ⟨hp.toLocal.orElse hq.toLocal, fun cs n h =>
    (eq_some_of_orElse h).elim (hp.clean cs n) (hq.clean cs n)⟩

theorem Modest.optional {p : Pattern} (hp : Modest p) : Modest (optional p) := hp.orElse modest_empty

theorem modest_many1 {f : Char → Bool} (hf : spares f = true) : Modest (many1 f) :=
  (modest_one hf).andThen (modest_many hf)

theorem modest_char {c : Char} (hc : spares (· == c) = true) : Modest (char c) := modest_one hc

theorem Modest.followedBy {p : Pattern} (hp : Modest p) {test : List Char → Bool}
    (htest : ∀ cs rest, test (cs ++ ';' :: rest) = test cs) : Modest (p.followedBy test) := by
  refine ⟨⟨fun cs n h => hp.bounded cs n (followedBy_eq_some.1 h).1, fun cs rest => ?_⟩, fun cs n h => ?_⟩
  · rw [Pattern.followedBy, Pattern.followedBy, hp.eq]
    cases hn : p cs with
    | none => rfl
    | some n =>
      dsimp only
      rw [drop_append_semicolon (hp.bounded cs n hn), htest]
  · exact hp.clean cs n (followedBy_eq_some.1 h).1

theorem Modest.wordEnds {p : Pattern} (hp : Modest p) : Modest (p.followedBy Pattern.wordEnds) :=
  hp.followedBy wordEnds_append

theorem Modest.extended {p q : Pattern} (hp : Modest p) (hq : Modest q) : Modest (Token.extended p q) :=
  (hp.andThen hq).wordEnds.orElse hp.wordEnds

/-! ## Words and numbers -/

/-- Letters among which there is neither a semicolon nor a quote nor the dollar sign. -/
def areModest (ks : List Char) : Bool := ks.all fun k => spares (sameLetter k)

theorem modest_letters {ks : List Char} (h : areModest ks = true) : Modest (letters ks) := by
  induction ks with
  | nil => exact modest_empty
  | cons k ks ih =>
    obtain ⟨hk, hks⟩ := Bool.and_eq_true_iff.1 h
    exact (modest_one hk).andThen (ih hks)

theorem modest_keyword {w : String} (h : areModest w.toList = true) : Modest (keyword w) :=
  modest_letters h

theorem modest_blanks1 : Modest blanks1 := modest_many1 (by decide)

theorem modest_phrase {ws : List String} (h : ws.all (areModest ·.toList) = true) : Modest (phrase ws) := by
  induction ws with
  | nil => exact modest_empty
  | cons w ws ih =>
    obtain ⟨hw, hws⟩ := Bool.and_eq_true_iff.1 h
    cases ws with
    | nil => exact modest_keyword hw
    | cons v ws => exact (modest_keyword hw).andThen (modest_blanks1.andThen (ih hws))

theorem modest_oneOf {ws : List String} (h : ws.all (areModest ·.toList) = true) : Modest (oneOf ws) := by
  induction ws with
  | nil => exact modest_none
  | cons w ws ih =>
    obtain ⟨hw, hws⟩ := Bool.and_eq_true_iff.1 h
    exact (modest_keyword hw).orElse (ih hws)

theorem modest_exactly {cs : List Char} (h : cs.all (fun c => spares (· == c)) = true) :
    Modest (exactly cs) := by
  induction cs with
  | nil => exact modest_empty
  | cons c cs ih =>
    obtain ⟨hc, hcs⟩ := Bool.and_eq_true_iff.1 h
    exact (modest_char hc).andThen (ih hcs)

theorem Modest.apart {p : Pattern} (hp : Modest p) : Modest (Token.apart p) := modest_blanks1.andThen hp

theorem Modest.lead {p : Pattern} (hp : Modest p) : Modest (Token.lead p) :=
  (hp.andThen modest_blanks1).optional

theorem Modest.digitsBeforeLetter {start : Pattern} (hs : Modest start) (least : Nat) :
    Modest (Token.digitsBeforeLetter start least) := by
  have hdigits : spares isDecimal = true := by decide
  have hback : ∀ cs : List Char, (cs.takeWhile isDecimal).length ≤ cs.length := fun cs =>
    (List.takeWhile_prefix _).length_le
  refine ⟨⟨fun cs n h => ?_, fun cs rest => ?_⟩, fun cs n h => ?_⟩
  · obtain ⟨m, k, hm, hk, rfl⟩ := digitsBeforeLetter_eq_some h
    have hfront := hs.bounded cs m hm
    have hrun := hback (cs.drop m)
    rw [List.length_drop] at hrun
    omega
  · rw [Token.digitsBeforeLetter, Token.digitsBeforeLetter, hs.eq]
    cases hm : start cs with
    | none => rfl
    | some m =>
      have hfront := hs.bounded cs m hm
      have hrun := hback (cs.drop m)
      rw [List.length_drop] at hrun
      dsimp only
      rw [drop_append_semicolon hfront, takeWhile_append_semicolon (semicolon_of_spares hdigits),
        drop_append_semicolon (by omega), noLatinNext_append]
  · obtain ⟨m, k, hm, hk, rfl⟩ := digitsBeforeLetter_eq_some h
    rw [List.take_add]
    intro c hc
    rcases List.mem_append.1 hc with hc | hc
    · exact hs.clean cs m hm c hc
    · have hfront : (cs.drop m).take k <+: (cs.drop m).takeWhile isDecimal :=
        List.prefix_of_prefix_length_le (List.take_prefix ..) (List.takeWhile_prefix _)
          (Nat.le_trans (List.length_take_le ..) hk)
      exact isOpening_of_spares hdigits (List.all_eq_true.1 List.all_takeWhile c (hfront.subset hc))

end Pattern

/-! ## The rules -/

namespace Token

open Pattern

/-- What comes before the quoted text of a time zone. -/
def zoneHead : Pattern :=
  (keyword "at" <|> keyword "with'") >> apart (phrase ["time", "zone"]) >> apart (char '\'')

/-- A time zone with its literal. -/
def zone : Pattern := zoneHead >> many1 (· != '\'') >> char '\''

/-- The quotes, and whether a backslash stands for the one behind it. -/
def quotes : List (Char × Bool) := [('\'', true), ('"', true), ('`', false), ('´', false)]

/-- A placeholder with a name. -/
def placeholder : Pattern := one (fun c => c == '$' || c == ':' || c == '?') >> many1 isWord

/-- The pattern of a rule that goes on until something ends, be it beyond a semicolon. -/
inductive Ranging : Pattern → Prop where
  /-- a comment that begins with a plus sign -/
  | hint : Ranging (commentMark >> char '+' >> toLineEnd)
  /-- a comment up to the end of the line -/
  | comment : Ranging (commentMark >> toLineEnd)
  /-- quoted text -/
  | quoted {quote : Char} {escapes : Bool} (h : (quote, escapes) ∈ quotes) :
      Ranging (quotedBy quote escapes)
  /-- a name in brackets -/
  | bracketed : Ranging bracketed
  /-- a time zone -/
  | zone : Ranging (zoneHead >> many1 (· != '\'') >> char '\'')

theorem modest_identifier : Modest identifier := (modest_one (by decide)).andThen (modest_many (by decide))

theorem modest_lineEnd : Modest lineEnd :=
  (modest_exactly (by decide)).orElse ((modest_char (by decide)).orElse (modest_char (by decide)))

theorem modest_sign : Modest (optional (char '-')) := (modest_char (by decide)).optional

theorem modest_digits1 : Modest digits1 := modest_many1 (by decide)

theorem modest_nameRules :
    ∀ rule ∈ nameRules, Modest rule.pattern ∨ rule.pattern = placeholder ∨ Ranging rule.pattern := by
  have hword : Modest (many1 isWord) := modest_many1 (by decide)
  have hparens : Modest (char '(' >> many1 isWord >> char ')') :=
    (modest_char (by decide)).andThen (hword.andThen (modest_char (by decide)))
  simp only [nameRules, List.forall_mem_cons, List.not_mem_nil, false_implies, implies_true, and_true]
  refine ⟨.inr (.inr .hint), .inr (.inr .comment), .inl modest_lineEnd, .inl (modest_one (by decide)),
    .inl (modest_exactly (by decide)), .inl (modest_exactly (by decide)), .inl (modest_char (by decide)),
    .inr (.inr (.quoted (by decide))), .inr (.inr (.quoted (by decide))), .inl (modest_char (by decide)),
    .inl ?_, .inr (.inl rfl), .inl ?_, .inl (modest_oneOf (by decide)).wordEnds, .inl ?_,
    .inl (modest_identifier.followedBy pointNext_append), .inl modest_identifier,
    .inl (modest_identifier.followedBy fun cs rest => ?_)⟩
  · exact (modest_char (by decide)).andThen (hparens.optional.andThen (modest_keyword (by decide)))
  · exact (modest_char (by decide)).andThen hword
  · refine Modest.andThen ?_ ((modest_one (by decide)).andThen hword)
    exact (modest_char (by decide)).orElse
      ((modest_exactly (by decide)).orElse (modest_char (by decide)))
  · cases cs <;> rfl

theorem modest_literalRules : ∀ rule ∈ literalRules, Modest rule.pattern ∨ Ranging rule.pattern := by
  have hpoint : Modest (char '.') := modest_char (by decide)
  simp only [literalRules, List.forall_mem_cons, List.not_mem_nil, false_implies, implies_true, and_true]
  refine ⟨.inl ?_, .inl ?_, .inl ?_, .inl (modest_sign.digitsBeforeLetter 1), .inr (.quoted (by decide)),
    .inr (.quoted (by decide)), .inr .bracketed⟩
  · exact modest_sign.andThen ((modest_char (by decide)).andThen
      ((modest_keyword (by decide)).andThen (modest_many1 (by decide))))
  · exact modest_sign.andThen (modest_digits1.andThen ((hpoint.andThen modest_digits1).optional.andThen
      ((modest_keyword (by decide)).andThen (modest_sign.andThen modest_digits1))))
  · exact ((modest_sign.andThen (modest_digits1.andThen hpoint)).digitsBeforeLetter 0).orElse
      ((modest_sign.andThen hpoint).digitsBeforeLetter 1)

theorem modest_phraseRules : ∀ rule ∈ phraseRules, Modest rule.pattern ∨ Ranging rule.pattern := by
  have hnot : Modest (lead (keyword "not")) := (modest_keyword (by decide)).lead
  have hfirst : Modest (apart (oneOf ["first", "last"])) := (modest_oneOf (by decide)).apart
  have hphrase : ∀ {ws : List String}, ws.all (areModest ·.toList) = true →
      Modest ((phrase ws).followedBy wordEnds) := fun h => (modest_phrase h).wordEnds
  simp only [phraseRules, List.forall_mem_cons, List.not_mem_nil, false_implies, implies_true, and_true]
  refine ⟨.inl ?_, .inl ?_, .inl ?_, .inl ?_, .inl (hphrase (by decide)), .inl ?_, .inl ?_,
    .inl (hphrase (by decide)), .inl ?_, .inl (hphrase (by decide)), .inl (hphrase (by decide)),
    .inl (hphrase (by decide)), .inl (hphrase (by decide)), .inl (hphrase (by decide)), .inl ?_, .inl ?_,
    .inr ?_, .inl ?_, .inl ?_⟩
  · exact ((modest_oneOf (by decide)).lead.andThen
      ((modest_oneOf (by decide)).lead.andThen (modest_keyword (by decide)))).wordEnds
  · exact ((modest_oneOf (by decide)).lead.andThen (modest_keyword (by decide))).wordEnds
  · exact (modest_keyword (by decide)).extended (modest_oneOf (by decide)).apart
  · exact ((modest_keyword (by decide)).andThen
      (modest_blanks1.andThen (hnot.andThen (modest_keyword (by decide))))).wordEnds
  · exact (modest_oneOf (by decide)).extended ((modest_keyword (by decide)).apart.andThen hfirst)
  · exact ((modest_keyword (by decide)).andThen hfirst).wordEnds
  · exact (modest_keyword (by decide)).extended (modest_phrase (by decide)).apart
  · exact ((modest_keyword (by decide)).andThen ((modest_one (by decide)).andThen modest_digits1)).wordEnds
  · exact ((modest_phrase (by decide)).andThen (modest_oneOf (by decide)).apart).wordEnds
  · have hzone := Ranging.zone
    rwa [zoneHead, andThen_assoc, andThen_assoc] at hzone
  · exact (hnot.andThen (modest_oneOf (by decide))).wordEnds
  · exact (hnot.andThen (modest_keyword (by decide))).extended (modest_keyword (by decide)).apart

/-- **All rules are modest**, but for placeholders and those that go on until something ends. -/
theorem modest_rules :
    ∀ rule ∈ rules, Modest rule.pattern ∨ rule.pattern = placeholder ∨ Ranging rule.pattern := by
  intro rule h
  rcases List.mem_append.1 h with h | h
  · rcases List.mem_append.1 h with h | h
    · exact modest_nameRules rule h
    · exact (modest_literalRules rule h).imp_right .inr
  · exact (modest_phraseRules rule h).imp_right .inr

theorem local_placeholder : Local placeholder :=
  (local_one (by decide)).andThen ((local_one (by decide)).andThen (local_many (by decide)))

theorem local_plainWord : Local plainWord := (local_one (by decide)).andThen (local_many (by decide))

theorem modest_operator : Modest operator :=
  (modest_exactly (by decide)).orElse <| (modest_exactly (by decide)).orElse <|
    (modest_exactly (by decide)).orElse <| (modest_exactly (by decide)).orElse <|
    (modest_exactly (by decide)).orElse <| (modest_exactly (by decide)).orElse <|
    (modest_exactly (by decide)).orElse <| (modest_char (by decide)).orElse <|
    (modest_char (by decide)).orElse (modest_exactly (by decide))

theorem modest_of_mem_signRules {rule : Rule} (h : rule ∈ signRules) :
    rule.pattern = one isPunctuationMark ∨ Modest rule.pattern := by
  simp only [signRules, List.mem_cons, List.not_mem_nil, or_false] at h
  rcases h with rfl | rfl | rfl | rfl
  · exact .inl rfl
  · exact .inr modest_operator
  · exact .inr (modest_many1 (by decide))
  · exact .inr (modest_many1 (by decide))

end Token
end SchemaSketch
