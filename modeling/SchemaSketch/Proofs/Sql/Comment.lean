import SchemaSketch.Proofs.Sql.Lexing

/-!
# Plain text has no comments

Taking the comments out of a plain text leaves it as it is, and what stands behind a semicolon after it is
read as if nothing stood before it (`stripFrom_append`).
-/

namespace SchemaSketch.Comment

open Text Pattern

theorem stops_tag : Stops tag :=
  (stops_one (by decide)).andThen
    (((tame_one (by decide)).andThen (tame_many (by decide))).optional.toStops.andThen
      (stops_one (by decide)))

/-- No tagged body begins in a plain text. -/
theorem bodyLength?_eq_none {cs rest : List Char} (hcs : isPlain ('$' :: cs) = true)
    (hrest : opensFirst rest = true) : bodyLength? ('$' :: (cs ++ ';' :: rest)) = none := by
  have htag : tag ('$' :: (cs ++ ';' :: rest)) = none :=
    (stops_tag.eq ('$' :: cs) rest hcs hrest).trans
      (Token.tag_eq_none (fun c hc => by simp [isTagChar, hc]) (isPlain_cons hcs).1)
  rw [bodyLength?, htag]
  rfl

/-- A character of a plain text is kept, and no quote or comment begins with it. -/
theorem step_code {c : Char} {cs rest : List Char} (hcs : isPlain (c :: cs) = true)
    (hrest : opensFirst rest = true) (before : Option Char) :
    step .code before c (cs ++ ';' :: rest) = ([c], .code) := by
  have hcalm : isCalm cs c = true := (isPlain_cons hcs).1
  have hhead : ∀ x, x ≠ ';' → cs.head? ≠ some x → ((cs ++ ';' :: rest).head? == some x) = false := by
    intro x hx hne
    rw [beq_eq_false_iff_ne]
    cases cs with
    | nil => exact fun h => hx (Option.some.inj h).symm
    | cons d cs => exact hne
  by_cases hquote : (c == '\'' || c == '"' || c == '`') = true
  · rw [Bool.or_eq_true, Bool.or_eq_true, beq_iff_eq, beq_iff_eq, beq_iff_eq] at hquote
    rcases hquote with (rfl | rfl) | rfl <;> cases hcalm
  rw [step, if_neg hquote]
  by_cases hdollar : c = '$'
  · subst hdollar
    rw [bodyLength?_eq_none hcs hrest]
    cases bodyMayOpen before <;> rfl
  rw [beq_eq_false_iff_ne.2 hdollar, Bool.false_and, if_neg Bool.false_ne_true]
  by_cases hdash : c = '-'
  · subst hdash
    rw [hhead '-' (by decide) (by simpa [isCalm] using hcalm)]
    rfl
  by_cases hslash : c = '/'
  · subst hslash
    rw [hhead '*' (by decide) (by simpa [isCalm] using hcalm)]
    rfl
  rw [beq_eq_false_iff_ne.2 hdash, beq_eq_false_iff_ne.2 hslash]
  rfl

/-- **A plain text is kept as it is**, and the semicolon behind it. -/
theorem stripFrom_append {cs rest : List Char} (hcs : isPlain cs = true)
    (hrest : opensFirst rest = true) (before : Option Char) :
    stripFrom .code before (cs ++ ';' :: rest) = cs ++ ';' :: stripFrom .code (some ';') rest := by
  induction cs generalizing before with
  | nil => rfl
  | cons c cs ih =>
    rw [List.cons_append, stripFrom, step_code hcs hrest]
    exact congrArg (c :: ·) (ih (isPlain_cons hcs).2 (some c))

end SchemaSketch.Comment
