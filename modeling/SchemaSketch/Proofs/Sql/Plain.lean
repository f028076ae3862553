import SchemaSketch.Proofs.Text.Pattern
import SchemaSketch.Sql.Token

/-!
# Plain text

A text is *plain* when neither a quote nor a comment begins in it, so that a semicolon behind it is one,
and every parenthesis in it is one. What is needed of patterns for this is `Tame`:

* **They stop.** What a tame pattern covers of a plain text does not change when a semicolon and more
  text follow.
* **They close what they open.** The stretch that a tame pattern covers leaves the count of open
  parentheses as it was (`Neutral`). There is one pattern that covers parentheses at all, for
  placeholders such as `%(name)s`.

Both are kept by all ways of combining patterns. A pattern that begins with a quote or with the mark of a
comment is `Absent`: it fits nowhere in a plain text.
-/

namespace SchemaSketch

open Text

namespace Text

/-! ## Counting parentheses -/

/-- A parenthesis. -/
def isParen (c : Char) : Bool := c == '(' || c == ')'

/-- How many parentheses are open after a text, if `n` were open before it; nothing if one is closed that
is not open. -/
def openAfter (n : Nat) : List Char → Option Nat
  | [] => some n
  | c :: rest =>
    if c == '(' then openAfter (n + 1) rest
    else if c == ')' then (if n = 0 then none else openAfter (n - 1) rest)
    else openAfter n rest

/-- A text that leaves the count of open parentheses as it was. -/
def Neutral (cs : List Char) : Prop := ∀ n, openAfter n cs = some n

theorem openAfter_append (n : Nat) (a b : List Char) :
    openAfter n (a ++ b) = (openAfter n a).bind (openAfter · b) := by
  induction a generalizing n with
  | nil => rfl
  | cons c rest ih =>
    rw [List.cons_append, openAfter, openAfter]
    split
    · exact ih _
    split
    · split
      · rfl
      · exact ih _
    · exact ih n

/-- What is open before a text stays open if the text closes no more than it opens. -/
theorem openAfter_add {n m : Nat} {cs : List Char} (h : openAfter n cs = some m) (more : Nat) :
    openAfter (n + more) cs = some (m + more) := by
  induction cs generalizing n with
  | nil =>
    cases h
    rfl
  | cons c rest ih =>
    rw [openAfter] at h ⊢
    by_cases hopen : (c == '(') = true
    · rw [if_pos hopen] at h ⊢
      rw [Nat.add_right_comm]
      exact ih h
    · rw [if_neg hopen] at h ⊢
      by_cases hclose : (c == ')') = true
      · rw [if_pos hclose] at h ⊢
        by_cases hn : n = 0
        · rw [if_pos hn] at h
          cases h
        · rw [if_neg hn] at h
          rw [if_neg (by omega), Nat.sub_add_comm (by omega)]
          exact ih h
      · rw [if_neg hclose] at h ⊢
        exact ih h

theorem neutral_nil : Neutral [] := fun _ => rfl

theorem Neutral.append {a b : List Char} (ha : Neutral a) (hb : Neutral b) : Neutral (a ++ b) := by
  intro n
  rw [openAfter_append, ha n]
  exact hb n

/-- A text without parentheses is neutral. -/
theorem neutral_of_forall {cs : List Char} (h : ∀ c ∈ cs, isParen c = false) : Neutral cs := by
  intro n
  induction cs with
  | nil => rfl
  | cons c rest ih =>
    obtain ⟨hc, hrest⟩ := List.forall_mem_cons.1 h
    rw [isParen, Bool.or_eq_false_iff] at hc
    rw [openAfter, hc.1, hc.2]
    exact ih hrest

/-- A neutral text in parentheses is neutral. -/
theorem neutral_enclosed {cs : List Char} (h : Neutral cs) : Neutral ('(' :: (cs ++ [')'])) := by
  intro n
  have hcs : openAfter (n + 1) (cs ++ [')']) = some n := by
    rw [openAfter_append, h (n + 1)]
    rfl
  exact hcs

/-! ## Plain text -/

/-- A character that may stand between the dollar signs of a tag. -/
def isTagChar (c : Char) : Bool := isWord c || Token.isLatinOrLow c || Comment.isTagStart c

/-- A character that is no bracket. -/
def isInBracket (c : Char) : Bool := c != '[' && c != ']'

/-- Whether a character that stands before `rest` begins neither a quote nor a comment. A bracket begins
one if a parenthesis stands between it and the closing bracket, and so do two dollar signs with nothing
but a name between them. -/
def isCalm (rest : List Char) : Char → Bool
  | '\'' | '"' | '`' | '´' => false
  | '-' => rest.head? != some '-'
  | '/' => rest.head? != some '*'
  | '#' => !rest.head?.any isBlank
  | '$' => (rest.dropWhile isTagChar).head? != some '$'
  | '[' => !rest.contains ']' || (rest.takeWhile (· != ']')).all (! isParen ·)
  | _ => true

/-- Whether neither quotes nor comments begin in a text. -/
def isPlain : List Char → Bool
  | [] => true
  | c :: rest => isCalm rest c && isPlain rest

/-- Whether a text closes no bracket before it opens one. -/
def opensFirst (cs : List Char) : Bool := (cs.dropWhile isInBracket).head? != some ']'

theorem isPlain_cons {c : Char} {rest : List Char} (h : isPlain (c :: rest) = true) :
    isCalm rest c = true ∧ isPlain rest = true := Bool.and_eq_true_iff.1 h

theorem isPlain_drop {cs : List Char} (h : isPlain cs = true) (n : Nat) :
    isPlain (cs.drop n) = true := by
  induction cs generalizing n with
  | nil => rw [List.drop_nil]; rfl
  | cons c rest ih =>
    cases n with
    | zero => exact h
    | succ n => exact ih (isPlain_cons h).2 n

/-- A text in brackets is neutral where a bracket is calm. -/
theorem neutral_bracketed {inner rest : List Char} (hcalm : isCalm (inner ++ ']' :: rest) '[' = true)
    (hinner : ∀ c ∈ inner, (c != ']') = true) : Neutral ('[' :: (inner ++ [']'])) := by
  have hparen : ∀ c ∈ inner, isParen c = false := by
    rw [isCalm, takeWhile_append_cons hinner (by decide)] at hcalm
    simpa using hcalm
  refine neutral_of_forall fun c hc => ?_
  obtain rfl | hc | rfl : c = '[' ∨ c ∈ inner ∨ c = ']' := by simpa using hc
  · decide
  · exact hparen c hc
  · decide

end Text

namespace Pattern

/-! ## Patterns that stop -/

/-- A pattern that never reaches beyond a plain text, nor beyond a semicolon after it. -/
structure Stops (p : Pattern) : Prop where
  /-- it never reaches beyond the text -/
  bounded : ∀ cs n, isPlain cs = true → p cs = some n → n ≤ cs.length
  /-- what follows a semicolon makes no difference -/
  eq : ∀ cs rest, isPlain cs = true → opensFirst rest = true → p (cs ++ ';' :: rest) = p cs

theorem stops_empty : Stops empty := by
  refine ⟨fun cs n _ h => ?_, fun _ _ _ _ => rfl⟩
  cases h
  exact Nat.zero_le _

theorem stops_one {f : Char → Bool} (hf : f ';' = false) : Stops (one f) := by
  refine ⟨fun cs n _ => bounded_one f cs n, fun cs rest _ _ => ?_⟩
  cases cs with
  | nil => simp [one, hf]
  | cons c cs => rfl

theorem takeWhile_append_semicolon {f : Char → Bool} (hf : f ';' = false) (cs rest : List Char) :
    (cs ++ ';' :: rest).takeWhile f = cs.takeWhile f := by
  rw [List.takeWhile_append]
  split
  · next hall =>
    rw [List.takeWhile_cons_of_neg (by simp [hf]), List.append_nil]
    exact (List.takeWhile_prefix f).eq_of_length hall |>.symm
  · rfl

theorem stops_many {f : Char → Bool} (hf : f ';' = false) : Stops (many f) :=
  ⟨fun cs n _ => bounded_many f cs n, fun cs rest _ _ => by rw [many, many, takeWhile_append_semicolon hf]⟩

/-- What is left of a text with more text behind it. -/
theorem drop_append_semicolon {cs rest : List Char} {n : Nat} (h : n ≤ cs.length) :
    (cs ++ ';' :: rest).drop n = cs.drop n ++ ';' :: rest :=
  List.drop_append_of_le_length h

theorem Stops.andThen {p q : Pattern} (hp : Stops p) (hq : Stops q) : Stops (p >> q) := by
  refine ⟨fun cs n hcs h => ?_, fun cs rest hcs hrest => ?_⟩
  · obtain ⟨m, k, hm, hk, rfl⟩ := andThen_eq_some.1 h
    have hfront : m ≤ cs.length := hp.bounded cs m hcs hm
    have hback : k ≤ (cs.drop m).length := hq.bounded _ k (isPlain_drop hcs m) hk
    rw [List.length_drop] at hback
    omega
  · change Pattern.andThen p q (cs ++ ';' :: rest) = Pattern.andThen p q cs
    rw [Pattern.andThen, Pattern.andThen, hp.eq cs rest hcs hrest]
    cases hn : p cs with
    | none => rfl
    | some n =>
      dsimp only
      rw [drop_append_semicolon (hp.bounded cs n hcs hn), hq.eq _ rest (isPlain_drop hcs n) hrest]

theorem Stops.orElse {p q : Pattern} (hp : Stops p) (hq : Stops q) : Stops (p <|> q) := by
  refine ⟨fun cs n hcs h => ?_, fun cs rest hcs hrest => ?_⟩
  · exact (eq_some_of_orElse h).elim (hp.bounded cs n hcs) (hq.bounded cs n hcs)
  · change Pattern.orElse p q (cs ++ ';' :: rest) = Pattern.orElse p q cs
    rw [Pattern.orElse, Pattern.orElse, hp.eq cs rest hcs hrest, hq.eq cs rest hcs hrest]

/-! ## Tame patterns -/

/-- A pattern that closes the parentheses that it opens in a plain text. -/
def Closes (p : Pattern) : Prop := ∀ cs n, isPlain cs = true → p cs = some n → Neutral (cs.take n)

theorem Closes.andThen {p q : Pattern} (hp : Closes p) (hq : Closes q) : Closes (p >> q) := by
  intro cs n hcs h
  obtain ⟨m, k, hm, hk, rfl⟩ := andThen_eq_some.1 h
  rw [List.take_add]
  exact (hp cs m hcs hm).append (hq _ k (isPlain_drop hcs m) hk)

theorem Closes.orElse {p q : Pattern} (hp : Closes p) (hq : Closes q) : Closes (p <|> q) :=
  fun cs n hcs h => (eq_some_of_orElse h).elim (hp cs n hcs) (hq cs n hcs)

/-- A pattern that stops and closes what it opens. -/
structure Tame (p : Pattern) : Prop extends Stops p where
  /-- it closes the parentheses that it opens -/
  closes : Closes p

theorem tame_empty : Tame empty :=
  ⟨stops_empty, fun cs n _ h => by cases h; rw [List.take_zero]; exact neutral_nil⟩

/-- A class of characters to which neither a semicolon nor a parenthesis belongs. -/
def shuns (f : Char → Bool) : Bool := !f ';' && !f '(' && !f ')'

theorem eq_false_of_shuns {f : Char → Bool} (hf : shuns f = true) {c : Char} (hc : f c = true) :
    isParen c = false := by
  simp only [shuns, Bool.and_eq_true, Bool.not_eq_true'] at hf
  rw [isParen, Bool.or_eq_false_iff, beq_eq_false_iff_ne, beq_eq_false_iff_ne]
  refine ⟨?_, ?_⟩ <;> rintro rfl <;> simp_all

theorem semicolon_of_shuns {f : Char → Bool} (hf : shuns f = true) : f ';' = false := by
  simp only [shuns, Bool.and_eq_true, Bool.not_eq_true'] at hf
  exact hf.1.1

theorem tame_one {f : Char → Bool} (hf : shuns f = true) : Tame (one f) := by
  refine ⟨stops_one (semicolon_of_shuns hf), fun cs n _ h => ?_⟩
  cases cs with
  | nil => cases h
  | cons c rest =>
    rw [one] at h
    split at h
    · next hc =>
      cases h
      exact neutral_of_forall fun x hx => by
        rw [List.mem_singleton.1 hx]
        exact eq_false_of_shuns hf hc
    · cases h

theorem tame_many {f : Char → Bool} (hf : shuns f = true) : Tame (many f) := by
  refine ⟨stops_many (semicolon_of_shuns hf), fun cs n _ h => ?_⟩
  exact neutral_of_forall fun c hc => eq_false_of_shuns hf (class_of_many h c hc)

theorem Tame.andThen {p q : Pattern} (hp : Tame p) (hq : Tame q) : Tame (p >> q) :=
  ⟨hp.toStops.andThen hq.toStops, hp.closes.andThen hq.closes⟩

theorem Tame.orElse {p q : Pattern} (hp : Tame p) (hq : Tame q) : Tame (p <|> q) :=
  ⟨hp.toStops.orElse hq.toStops, hp.closes.orElse hq.closes⟩

theorem Tame.optional {p : Pattern} (hp : Tame p) : Tame (optional p) := hp.orElse tame_empty

theorem tame_many1 {f : Char → Bool} (hf : shuns f = true) : Tame (many1 f) :=
  (tame_one hf).andThen (tame_many hf)

theorem tame_char {c : Char} (hc : shuns (· == c) = true) : Tame (char c) := tame_one hc

theorem Tame.followedBy {p : Pattern} (hp : Tame p) {test : List Char → Bool}
    (htest : ∀ cs rest, test (cs ++ ';' :: rest) = test cs) : Tame (p.followedBy test) := by
  refine ⟨⟨fun cs n hcs h => ?_, fun cs rest hcs hrest => ?_⟩, fun cs n hcs h => ?_⟩
  · exact hp.bounded cs n hcs (followedBy_eq_some.1 h).1
  · rw [Pattern.followedBy, Pattern.followedBy, hp.eq cs rest hcs hrest]
    cases hn : p cs with
    | none => rfl
    | some n =>
      dsimp only
      rw [drop_append_semicolon (hp.bounded cs n hcs hn), htest]
  · exact hp.closes cs n hcs (followedBy_eq_some.1 h).1

/-! ## Words -/

/-- Letters among which there is neither a semicolon nor a parenthesis. -/
def areTame (ks : List Char) : Bool := ks.all fun k => shuns (sameLetter k)

theorem tame_letters {ks : List Char} (h : areTame ks = true) : Tame (letters ks) := by
  induction ks with
  | nil => exact tame_empty
  | cons k ks ih =>
    obtain ⟨hk, hks⟩ := Bool.and_eq_true_iff.1 h
    exact (tame_one hk).andThen (ih hks)

theorem tame_keyword {w : String} (h : areTame w.toList = true) : Tame (keyword w) := tame_letters h

theorem tame_blanks1 : Tame blanks1 := tame_many1 (by decide)

theorem tame_phrase {ws : List String} (h : ws.all (areTame ·.toList) = true) : Tame (phrase ws) := by
  induction ws with
  | nil => exact tame_empty
  | cons w ws ih =>
    obtain ⟨hw, hws⟩ := Bool.and_eq_true_iff.1 h
    cases ws with
    | nil => exact tame_keyword hw
    | cons v ws => exact (tame_keyword hw).andThen (tame_blanks1.andThen (ih hws))

theorem tame_oneOf {ws : List String} (h : ws.all (areTame ·.toList) = true) : Tame (oneOf ws) := by
  induction ws with
  | nil => exact ⟨⟨fun _ _ _ h => (by cases h), fun _ _ _ _ => rfl⟩, fun _ _ _ h => by cases h⟩
  | cons w ws ih =>
    obtain ⟨hw, hws⟩ := Bool.and_eq_true_iff.1 h
    exact (tame_keyword hw).orElse (ih hws)

theorem tame_exactly {cs : List Char} (h : cs.all (fun c => shuns (· == c)) = true) :
    Tame (exactly cs) := by
  induction cs with
  | nil => exact tame_empty
  | cons c cs ih =>
    obtain ⟨hc, hcs⟩ := Bool.and_eq_true_iff.1 h
    exact (tame_char hc).andThen (ih hcs)

theorem Tame.apart {p : Pattern} (hp : Tame p) : Tame (Token.apart p) := tame_blanks1.andThen hp

theorem Tame.lead {p : Pattern} (hp : Tame p) : Tame (Token.lead p) := (hp.andThen tame_blanks1).optional

theorem wordEnds_append (cs rest : List Char) : wordEnds (cs ++ ';' :: rest) = wordEnds cs := by
  cases cs with
  | nil => exact (by decide : (!isWord ';') = true)
  | cons c cs => rfl

theorem Tame.wordEnds {p : Pattern} (hp : Tame p) : Tame (p.followedBy Pattern.wordEnds) :=
  hp.followedBy wordEnds_append

theorem Tame.extended {p q : Pattern} (hp : Tame p) (hq : Tame q) : Tame (Token.extended p q) :=
  (hp.andThen hq).wordEnds.orElse hp.wordEnds

/-! ## Absent patterns -/

/-- A pattern that fits nowhere in a plain text, whether a semicolon follows it or nothing. -/
structure Absent (p : Pattern) : Prop where
  /-- it does not fit when nothing follows -/
  alone : ∀ cs, isPlain cs = true → p cs = none
  /-- it does not fit when a semicolon follows -/
  before : ∀ cs rest, isPlain cs = true → opensFirst rest = true → p (cs ++ ';' :: rest) = none

theorem Absent.tame {p : Pattern} (hp : Absent p) : Tame p := by
  refine ⟨⟨fun cs n hcs h => ?_, fun cs rest hcs hrest => ?_⟩, fun cs n hcs h => ?_⟩
  · rw [hp.alone cs hcs] at h
    cases h
  · rw [hp.alone cs hcs, hp.before cs rest hcs hrest]
  · rw [hp.alone cs hcs] at h
    cases h

theorem Absent.andThen {p : Pattern} (hp : Absent p) (q : Pattern) : Absent (p >> q) :=
  ⟨fun cs hcs => andThen_eq_none (hp.alone cs hcs),
    fun cs rest hcs hrest => andThen_eq_none (hp.before cs rest hcs hrest)⟩

theorem Stops.absent_andThen {p q : Pattern} (hp : Stops p) (hq : Absent q) : Absent (p >> q) := by
  have halone : ∀ cs, isPlain cs = true → (p >> q) cs = none := by
    intro cs hcs
    rw [Option.eq_none_iff_forall_ne_some]
    intro n h
    obtain ⟨m, k, -, hk, -⟩ := andThen_eq_some.1 h
    rw [hq.alone _ (isPlain_drop hcs m)] at hk
    cases hk
  refine ⟨halone, fun cs rest hcs hrest => ?_⟩
  rw [Option.eq_none_iff_forall_ne_some]
  intro n h
  obtain ⟨m, k, hm, hk, -⟩ := andThen_eq_some.1 h
  rw [hp.eq cs rest hcs hrest] at hm
  rw [drop_append_semicolon (hp.bounded cs m hcs hm),
    hq.before _ rest (isPlain_drop hcs m) hrest] at hk
  cases hk

theorem Absent.orElse {p q : Pattern} (hp : Absent p) (hq : Absent q) : Absent (p <|> q) := by
  refine ⟨fun cs hcs => ?_, fun cs rest hcs hrest => ?_⟩
  · change Pattern.orElse p q cs = none
    rw [Pattern.orElse, hp.alone cs hcs, hq.alone cs hcs]
  · change Pattern.orElse p q (cs ++ ';' :: rest) = none
    rw [Pattern.orElse, hp.before cs rest hcs hrest, hq.before cs rest hcs hrest]

/-- A pattern that only fits at a character that begins a quote whatever stands behind it. -/
theorem absent_of_head {p : Pattern} {c : Char} (hc : ∀ rest, isCalm rest c = false) (hne : c ≠ ';')
    (hnil : p [] = none) (hp : ∀ x rest, x ≠ c → p (x :: rest) = none) : Absent p := by
  have hcons : ∀ x cs rest, isPlain (x :: cs) = true → p (x :: rest) = none := by
    intro x cs rest hcs
    refine hp x rest ?_
    rintro rfl
    rw [isPlain, hc cs] at hcs
    cases hcs
  refine ⟨fun cs hcs => ?_, fun cs rest hcs _ => ?_⟩
  · cases cs with
    | nil => exact hnil
    | cons x cs => exact hcons x cs cs hcs
  · cases cs with
    | nil => exact hp ';' rest (Ne.symm hne)
    | cons x cs => exact hcons x cs _ hcs

theorem absent_quote {c : Char} (hc : ∀ rest, isCalm rest c = false) (hne : c ≠ ';') :
    Absent (char c) :=
  absent_of_head hc hne rfl fun _ rest h => char_cons_of_ne h rest

theorem absent_quotedBy {c : Char} (escapes : Bool) (hc : ∀ rest, isCalm rest c = false)
    (hne : c ≠ ';') : Absent (Token.quotedBy c escapes) :=
  absent_of_head hc hne rfl fun x rest h => by rw [Token.quotedBy, if_neg (by simpa using h)]

end Pattern
end SchemaSketch
