import SchemaSketch.Proofs.Sql.Depth
import SchemaSketch.Proofs.Sql.Limits

/-!
# Splitting loses no text

The statements of a script are stretches of it, in their order, and what is left out between them is
nothing but blanks and semicolons (`Laid`). A script goes through four cuts on the way to its statements,
and each of them keeps this:

* the lexer, whose tokens make up the text;
* the cut into segments, which drops no token but white space at the very end (`laid_cutFrom`);
* the cuts inside a segment, which drop the semicolon they are made at (`laid_recoverFrom`);
* trimming, which drops blanks and semicolons at the ends (`laid_trimmed`).

So nothing is lost however broken the script is. The one thing that can happen to a script apart from
being split is that it is too much (`split_laid`).
-/

namespace SchemaSketch

open Text

/-! ## White space of any text -/

namespace Token

/-- A token of white space is made of blanks, whatever stands around it. -/
theorem blank_first {before : Option Char} {c : Char} {cs : List Char} {kind : TokenKind} {n : Nat}
    (h : first before (c :: cs) = (kind, n)) (hkind : kind = .blank ∨ kind = .newline) :
    Blank (c :: cs.take (n - 1)) := by
  rcases first_origin h with hfound | ⟨rule, hmem, rfl, hn⟩ | hother
  · -- delimited stretches are comments or bodies
    rcases delimited_eq_some hfound with ⟨rfl, -⟩ | ⟨rfl, -⟩ <;> simp at hkind
  · rcases cases_of_mem_rules hmem with ⟨hcomment, -⟩ | ⟨-, hpattern⟩ | ⟨-, hpattern⟩ | hother
    · rcases hkind with hkind | hkind <;> rw [hkind] at hcomment <;> simp at hcomment
    · obtain ⟨hpos, hall⟩ := isBlank_of_lineEnd (hpattern ▸ hn)
      rw [take_eq_cons hpos] at hall
      exact List.all_eq_true.1 hall
    · obtain ⟨x, rest, hx, hblank, rfl⟩ := Pattern.one_eq_some.1 (hpattern ▸ hn)
      cases hx
      exact fun y hy => List.mem_singleton.1 hy ▸ hblank
    · rcases hkind with hkind | hkind <;> rw [hkind] at hother <;> simp at hother
  · rcases hkind with rfl | rfl <;> simp at hother

theorem blank_of_mem_lexFrom {rounds : Nat} {before : Option Char} {cs : List Char}
    (hrounds : cs.length ≤ rounds) {t : Token} (h : t ∈ lexFrom rounds before cs)
    (ht : t.isSpace = true) : Blank t.text := by
  induction rounds generalizing before cs with
  | zero =>
    obtain rfl := List.length_eq_zero_iff.1 (Nat.le_zero.1 hrounds)
    exact absurd h List.not_mem_nil
  | succ rounds ih =>
    cases cs with
    | nil => exact absurd h List.not_mem_nil
    | cons c rest =>
      rw [lexFrom] at h
      rcases List.mem_cons.1 h with rfl | h
      · rw [isSpace, Bool.or_eq_true, beq_iff_eq, beq_iff_eq] at ht
        exact blank_first rfl ht
      · exact ih (length_drop_le hrounds) h

/-- **White space is blank.** -/
theorem blank_of_isSpace {cs : List Char} {t : Token} (h : t ∈ lex cs) (ht : t.isSpace = true) :
    Blank t.text := blank_of_mem_lexFrom (Nat.le_refl _) h ht

end Token

/-! ## Stretches of a text -/

namespace Statement

/-- A character that may be left out around a statement. -/
def isGap (c : Char) : Bool := isBlank c || c == ';'

/-- A text of characters that may be left out. -/
def Gap (cs : List Char) : Prop := ∀ c ∈ cs, isGap c = true

/-- A text that is not empty and neither begins nor ends with a blank. -/
structure Tight (cs : List Char) : Prop where
  /-- there is something in it -/
  ne_nil : cs ≠ []
  /-- it does not begin with a blank -/
  head : ∀ c, cs.head? = some c → isBlank c = false
  /-- it does not end with a blank -/
  last : ∀ c, cs.getLast? = some c → isBlank c = false

/-- Statements stand in a text in this order and apart from each other, and around and between them
there is nothing but gaps. -/
inductive Laid : List (List Char) → List Char → Prop where
  /-- nothing but a gap -/
  | gap {g : List Char} (hg : Gap g) : Laid [] g
  /-- a gap, a statement, and what follows it -/
  | cons {g s rest : List Char} {ss : List (List Char)} (hg : Gap g) (hs : Tight s)
      (hrest : Laid ss rest) : Laid (s :: ss) (g ++ s ++ rest)

theorem Gap.append {a b : List Char} (ha : Gap a) (hb : Gap b) : Gap (a ++ b) :=
  fun c hc => (List.mem_append.1 hc).elim (ha c) (hb c)

theorem gap_of_blank {cs : List Char} (h : Blank cs) : Gap cs := fun c hc => by rw [isGap, h c hc]; rfl

/-- A gap in front makes no difference. -/
theorem Laid.gap_append {g cs : List Char} {ss : List (List Char)} (hg : Gap g) (h : Laid ss cs) :
    Laid ss (g ++ cs) := by
  cases h with
  | gap hcs => exact .gap (hg.append hcs)
  | @cons g' s rest ss hg' hs hrest =>
    rw [← List.append_assoc, ← List.append_assoc]
    exact .cons (hg.append hg') hs hrest

/-- What stands in two texts stands in one after the other. -/
theorem Laid.append {a b : List Char} {ss ss' : List (List Char)} (ha : Laid ss a) (hb : Laid ss' b) :
    Laid (ss ++ ss') (a ++ b) := by
  induction ha with
  | gap hg => exact hb.gap_append hg
  | cons hg hs hrest ih =>
    rw [List.append_assoc]
    exact .cons hg hs ih

/-! ## Trimming -/

theorem tight_trim {cs : List Char} (h : trim cs ≠ []) : Tight (trim cs) := by
  have hfirst := List.head?_dropWhile_not isBlank cs
  obtain ⟨b, -, hend⟩ := exists_dropEnd isBlank (cs.dropWhile isBlank)
  refine ⟨h, fun c hc => ?_, fun c hc => ?_⟩
  · have hhead : (cs.dropWhile isBlank).head? = some c := by
      have htrim : (dropEnd isBlank (cs.dropWhile isBlank)).head? = some c := hc
      rw [hend, List.head?_append, htrim]
      rfl
    rw [hhead] at hfirst
    simpa using hfirst
  · have hlast := List.head?_dropWhile_not isBlank (cs.dropWhile isBlank).reverse
    rw [trim, trimBy, dropEnd, List.getLast?_reverse] at hc
    rw [hc] at hlast
    simpa using hlast

/-- **Trimming drops blanks and semicolons only.** -/
theorem laid_trimmed (ts : List Token) : Laid ([trimmed ts].filter (! ·.isEmpty)) (textOf ts) := by
  obtain ⟨a, b, ha, hb, htext⟩ := exists_trim (textOf ts)
  obtain ⟨semicolons, hsemicolons, hend⟩ := exists_dropEnd (· == ';') (trim (textOf ts))
  obtain ⟨a', b', ha', hb', hkept⟩ := exists_trim (dropEnd (· == ';') (trim (textOf ts)))
  have hsplit : textOf ts = (a ++ a') ++ trimmed ts ++ (b' ++ semicolons ++ b) := by
    calc textOf ts = a ++ (dropEnd (· == ';') (trim (textOf ts)) ++ semicolons ++ b) := by
          rw [← hend, ← htext]
      _ = a ++ (a' ++ (trimmed ts ++ b') ++ semicolons ++ b) := by rw [trimmed, ← hkept]
      _ = _ := by simp only [List.append_assoc]
  have hfront : Gap (a ++ a') := (gap_of_blank ha).append (gap_of_blank ha')
  have hback : Gap (b' ++ semicolons ++ b) := by
    refine ((gap_of_blank hb').append fun c hc => ?_).append (gap_of_blank hb)
    rw [isGap, hsemicolons c hc, Bool.or_true]
  rw [hsplit]
  by_cases hnil : trimmed ts = []
  · rw [hnil, List.append_nil]
    exact .gap (hfront.append hback)
  · rw [filter_singleton hnil]
    exact .cons hfront (tight_trim hnil) (.gap hback)

/-! ## Cuts -/

/-- **A cut inside a segment drops its semicolon only.** -/
theorem laid_recoverFrom (depth : Nat) (current ts : List Token) :
    Laid (((recoverFrom depth current ts).map trimmed).filter (! ·.isEmpty))
      (textOf (current.reverse ++ ts)) := by
  induction ts generalizing depth current with
  | nil =>
    rw [recoverFrom, List.append_nil]
    exact laid_trimmed current.reverse
  | cons t rest ih =>
    have hkeep : ∀ depth, Laid (((recoverFrom depth (t :: current) rest).map trimmed).filter (! ·.isEmpty))
        (textOf (current.reverse ++ t :: rest)) := by
      intro depth
      have h := ih depth (t :: current)
      rwa [List.reverse_cons, List.append_assoc] at h
    rw [recoverFrom]
    split
    · exact hkeep _
    split
    · exact hkeep _
    split
    · next hcut =>
      have htext : t.text = [';'] := by
        simp only [Token.isMark, Bool.and_eq_true, beq_iff_eq] at hcut
        exact hcut.1.1.2
      have hgap : Gap t.text := by
        rw [htext]
        exact fun c hc => List.mem_singleton.1 hc ▸ rfl
      have h := (laid_trimmed current.reverse).append ((ih 0 []).gap_append hgap)
      rw [List.map_cons, ← List.singleton_append, List.filter_append, textOf_append]
      exact h
    · exact hkeep _

theorem laid_ofSegment (segment : List Token) : Laid (ofSegment segment) (textOf segment) :=
  laid_recoverFrom 0 [] segment

/-- **The cut into segments drops white space at the end only.** -/
theorem laid_cutFrom (s : Blocks) {current ts : List Token}
    (hcurrent : ∀ t ∈ current, t.isSpace = true → Blank t.text)
    (hts : ∀ t ∈ ts, t.isSpace = true → Blank t.text) :
    Laid ((Script.cutFrom s current ts).flatMap ofSegment) (textOf (current.reverse ++ ts)) := by
  induction ts generalizing s current with
  | nil =>
    rw [Script.cutFrom, List.append_nil]
    split
    · next hspace =>
      refine .gap (gap_of_blank fun c hc => ?_)
      obtain ⟨t, ht, hc⟩ := List.mem_flatMap.1 hc
      have ht := List.mem_reverse.1 ht
      exact hcurrent t ht (List.all_eq_true.1 hspace t ht) c hc
    · rw [List.flatMap_singleton]
      exact laid_ofSegment current.reverse
  | cons t rest ih =>
    obtain ⟨ht, hrest⟩ := List.forall_mem_cons.1 hts
    rw [Script.cutFrom]
    split
    · rw [List.flatMap_cons, textOf_append]
      exact (laid_ofSegment current.reverse).append
        (ih _ (fun u hu => List.mem_singleton.1 hu ▸ ht) hrest)
    · have h := ih (s.next t) (List.forall_mem_cons.2 ⟨ht, hcurrent⟩) hrest
      rwa [List.reverse_cons, List.append_assoc] at h

/-- **Splitting loses no text.** Every script is refused for a segment that is too much, or it is split
into statements that stand in it in their order, with nothing but blanks and semicolons around and
between them. -/
theorem split_laid (script : List Char) :
    (∃ statements, split script = .ok statements ∧ Laid statements script) ∨
      ∃ cause, split script = .error cause ∧
        ∃ segment ∈ Script.cut (Token.lex script), Script.check segment = .error cause := by
  cases hsplit : split script with
  | ok statements =>
    obtain ⟨-, rfl⟩ := split_eq_ok.1 hsplit
    have h := laid_cutFrom {} (fun t ht => absurd ht List.not_mem_nil)
      fun t (ht : t ∈ Token.lex script) => Token.blank_of_isSpace ht
    rw [List.reverse_nil, List.nil_append, textOf_lex] at h
    exact .inl ⟨_, rfl, h⟩
  | error cause =>
    rw [split, Script.segments] at hsplit
    cases hcheck : (Script.cut (Token.lex script)).forM Script.check with
    | ok u =>
      rw [hcheck] at hsplit
      cases hsplit
    | error cause' =>
      rw [hcheck] at hsplit
      obtain rfl : cause' = cause := Except.error.inj hsplit
      obtain ⟨before, segment, after, hsegments, -, hfault⟩ := Except.forM_eq_error.1 hcheck
      exact .inr ⟨_, rfl, segment, by rw [hsegments]; simp, hfault⟩

end Statement
end SchemaSketch
