import SchemaSketch.Proofs.Text.Search
import SchemaSketch.Sql.Identifier

/-!
# Reading up to a quote

Two texts that are alike up to a quote are read alike, as long as nothing is read beyond it. A pattern that
`Halts` at a quote never sees what follows one. One that `Settles` may reach over a quote, as a name between
double quotes does, but unless it does so its outcome is settled by what stands in front. The same is said of
readers, and kept when one goes on after another: after one that halts, or with one that cannot fail.
-/

namespace SchemaSketch

open Text

namespace Pattern

/-! ## Patterns that halt -/

/-- A pattern that sees nothing behind a quote. -/
structure Halts (p : Pattern) : Prop where
  /-- it never reaches beyond the text -/
  bounded : p.Bounded
  /-- what follows makes no difference -/
  eq : ∀ a z, p (a ++ '\'' :: z) = p a

theorem halts_empty : Halts empty := by
  refine ⟨fun cs n h => ?_, fun _ _ => rfl⟩
  cases h
  exact Nat.zero_le _

theorem halts_one {f : Char → Bool} (hf : f '\'' = false) : Halts (one f) := by
  refine ⟨bounded_one f, fun a z => ?_⟩
  cases a with
  | nil => rw [List.nil_append, one, one, hf, if_neg Bool.false_ne_true]
  | cons c a => rfl

theorem halts_many {f : Char → Bool} (hf : f '\'' = false) : Halts (many f) := by
  refine ⟨bounded_many f, fun a z => ?_⟩
  rw [many, many, List.takeWhile_append]
  split
  · next hall => rw [List.takeWhile_cons_of_neg (Bool.eq_false_iff.1 hf), List.append_nil, hall]
  · rfl

theorem Halts.andThen {p q : Pattern} (hp : Halts p) (hq : Halts q) : Halts (p >> q) := by
  refine ⟨bounded_andThen hp.bounded hq.bounded, fun a z => ?_⟩
  rw [andThen_apply, andThen_apply, hp.eq]
  cases hn : p a with
  | none => rfl
  | some n =>
    rw [Option.bind_some, Option.bind_some, List.drop_append_of_le_length (hp.bounded a n hn), hq.eq]

theorem Halts.orElse {p q : Pattern} (hp : Halts p) (hq : Halts q) : Halts (p <|> q) :=
  ⟨bounded_orElse hp.bounded hq.bounded, fun a z => by rw [orElse_apply, orElse_apply, hp.eq, hq.eq]⟩

theorem Halts.wordEnds {p : Pattern} (hp : Halts p) : Halts (p.followedBy Pattern.wordEnds) := by
  refine ⟨fun cs n h => hp.bounded cs n (followedBy_eq_some.1 h).1, fun a z => ?_⟩
  rw [followedBy_apply, followedBy_apply, hp.eq]
  cases hn : p a with
  | none => rfl
  | some n =>
    rw [Option.bind_some, Option.bind_some, List.drop_append_of_le_length (hp.bounded a n hn)]
    cases a.drop n <;> rfl

theorem halts_char {c : Char} (hc : c ≠ '\'') : Halts (char c) := halts_one (beq_eq_false_iff_ne.2 (Ne.symm hc))

theorem halts_many1 {f : Char → Bool} (hf : f '\'' = false) : Halts (many1 f) :=
  (halts_one hf).andThen (halts_many hf)

theorem halts_blanks : Halts blanks := halts_many (by decide)

theorem halts_blanks1 : Halts blanks1 := halts_many1 (by decide)

theorem halts_letters {ks : List Char} (h : (ks.all fun k => !sameLetter k '\'') = true) : Halts (letters ks) := by
  induction ks with
  | nil => exact halts_empty
  | cons k ks ih =>
    obtain ⟨hk, hks⟩ := Bool.and_eq_true_iff.1 h
    exact (halts_one (by simpa using hk)).andThen (ih hks)

theorem halts_phrase {ws : List String} (h : (ws.all fun w => w.toList.all fun k => !sameLetter k '\'') = true) :
    Halts (phrase ws) := by
  induction ws with
  | nil => exact halts_empty
  | cons w ws ih =>
    obtain ⟨hw, hws⟩ := Bool.and_eq_true_iff.1 h
    cases ws with
    | nil => exact halts_letters hw
    | cons v ws => exact (halts_letters hw).andThen (halts_blanks1.andThen (ih hws))

/-! ## Patterns whose outcome is settled -/

/-- A pattern whose outcome is settled in front of a quote, unless it reaches over the quote. -/
def Settles (p : Pattern) : Prop :=
  ∀ a, ∃ outcome : Option Nat, (∀ n ∈ outcome, n ≤ a.length) ∧
    ∀ z, p (a ++ '\'' :: z) = outcome ∨ ∃ n, p (a ++ '\'' :: z) = some n ∧ a.length < n

theorem Halts.settles {p : Pattern} (hp : Halts p) : Settles p :=
  fun a => ⟨p a, fun n hn => hp.bounded a n hn, fun z => .inl (hp.eq a z)⟩

theorem Halts.andThen_settles {p q : Pattern} (hp : Halts p) (hq : Settles q) : Settles (p >> q) := by
  intro a
  cases hm : p a with
  | none => exact ⟨none, fun n hn => (by cases hn), fun z => .inl (andThen_eq_none ((hp.eq a z).trans hm))⟩
  | some m =>
    have hbound := hp.bounded a m hm
    obtain ⟨outcome, hwithin, houtcome⟩ := hq (a.drop m)
    refine ⟨outcome.map (m + ·), fun n hn => ?_, fun z => ?_⟩
    · obtain ⟨k, hk, rfl⟩ := Option.map_eq_some_iff.1 hn
      have hk := hwithin k hk
      rw [List.length_drop] at hk
      omega
    · rw [andThen_of_eq_some ((hp.eq a z).trans hm), List.drop_append_of_le_length hbound]
      rcases houtcome z with h | ⟨k, h, hover⟩
      · exact .inl (congrArg _ h)
      · rw [List.length_drop] at hover
        exact .inr ⟨m + k, congrArg _ h, by omega⟩

/-- A pattern that goes on after one that may reach over the quote must not fail. -/
theorem Settles.andThen {p q : Pattern} (hp : Settles p) (hq : Settles q) (htotal : ∀ cs, (q cs).isSome = true) :
    Settles (p >> q) := by
  have hreach : ∀ {cs : List Char} {m l : Nat}, p cs = some m → l < m → ∃ n, (p >> q) cs = some n ∧ l < n := by
    intro cs m l hm hl
    obtain ⟨k, hk⟩ := Option.isSome_iff_exists.1 (htotal (cs.drop m))
    exact ⟨m + k, by rw [andThen_of_eq_some hm, hk]; rfl, by omega⟩
  intro a
  obtain ⟨first, hwithin, hfirst⟩ := hp a
  cases first with
  | none =>
    refine ⟨none, fun n hn => (by cases hn), fun z => ?_⟩
    rcases hfirst z with h | ⟨m, hm, hover⟩
    · exact .inl (andThen_eq_none h)
    · exact .inr (hreach hm hover)
  | some m =>
    have hbound := hwithin m rfl
    obtain ⟨outcome, hrest, houtcome⟩ := hq (a.drop m)
    refine ⟨outcome.map (m + ·), fun n hn => ?_, fun z => ?_⟩
    · obtain ⟨k, hk, rfl⟩ := Option.map_eq_some_iff.1 hn
      have hk := hrest k hk
      rw [List.length_drop] at hk
      omega
    · rcases hfirst z with h | ⟨m, hm, hover⟩
      · rw [andThen_of_eq_some h, List.drop_append_of_le_length hbound]
        rcases houtcome z with h | ⟨k, h, hover⟩
        · exact .inl (congrArg _ h)
        · rw [List.length_drop] at hover
          exact .inr ⟨m + k, congrArg _ h, by omega⟩
      · exact .inr (hreach hm hover)

theorem run_append_cons {closing : Char} {u : List Char} (hu : closing ∉ u) (rest : List Char) :
    (many1 (· != closing) >> char closing) (u ++ closing :: rest) = if u = [] then none else some (u.length + 1) := by
  have hrun : (u ++ closing :: rest).takeWhile (· != closing) = u :=
    takeWhile_append_cons (fun c hc => bne_iff_ne.2 (ne_of_mem_of_not_mem hc hu)) (bne_self_eq_false closing) rest
  split
  · next hnil =>
    subst hnil
    refine andThen_eq_none (andThen_eq_none (if_neg ?_))
    simp
  · next hne =>
    have hmany : many1 (· != closing) (u ++ closing :: rest) = some u.length :=
      many1_eq_some.2 ⟨List.length_pos_iff.2 hne, by rw [hrun]⟩
    rw [andThen_of_eq_some hmany, List.drop_left, char, one, if_pos (beq_self_eq_true closing)]
    rfl

/-- A run up to a mark reaches over the quote if the mark does not stand in front of it. -/
theorem settles_run {closing : Char} (hclosing : closing ≠ '\'') : Settles (many1 (· != closing) >> char closing) := by
  intro a
  -- the mark stands in front of the quote, or what comes up to it is covered together with the quote
  by_cases hmem : closing ∈ a
  · obtain ⟨u, w, rfl, hu⟩ := List.eq_append_cons_of_mem hmem
    refine ⟨if u = [] then none else some (u.length + 1), fun n hn => ?_, fun z => .inl ?_⟩
    · split at hn
      · cases hn
      · cases hn
        simp
    · rw [List.append_assoc, List.cons_append]
      exact run_append_cons hu _
  · refine ⟨none, fun n hn => (by cases hn), fun z => ?_⟩
    cases hread : (many1 (· != closing) >> char closing) (a ++ '\'' :: z) with
    | none => exact .inl rfl
    | some n =>
      obtain ⟨m, k, hm, -, rfl⟩ := andThen_eq_some.1 hread
      have hrun : ∀ c ∈ a ++ ['\''], (c != closing) = true := by
        intro c hc
        rcases List.mem_append.1 hc with hc | hc
        · exact bne_iff_ne.2 (ne_of_mem_of_not_mem hc hmem)
        · rw [List.mem_singleton.1 hc]
          exact bne_iff_ne.2 (Ne.symm hclosing)
      have hlength := (many1_eq_some.1 hm).2
      rw [← List.singleton_append, ← List.append_assoc, List.takeWhile_append_of_pos hrun, List.length_append,
        List.length_append, List.length_singleton] at hlength
      exact .inr ⟨m + k, rfl, by omega⟩

theorem settles_enclosed {opening closing : Char} (hopening : opening ≠ '\'') (hclosing : closing ≠ '\'') :
    Settles (Identifier.enclosed opening closing) :=
  (halts_char hopening).andThen_settles (settles_run hclosing)

/-- Of two patterns that begin with different characters it is settled which one is meant. -/
theorem Settles.orElse {p q : Pattern} (hp : Settles p) (hq : Settles q) {f : Char → Bool}
    (hfirst : ∀ c cs, f c = false → p (c :: cs) = none) (hsecond : ∀ c cs, f c = true → q (c :: cs) = none) :
    Settles (p <|> q) := by
  intro a
  obtain ⟨c, hc⟩ : ∃ c, ∀ z, ∃ cs, a ++ '\'' :: z = c :: cs := by
    cases a with
    | nil => exact ⟨_, fun z => ⟨z, rfl⟩⟩
    | cons c a => exact ⟨c, fun z => ⟨_, rfl⟩⟩
  -- the first character is the same whatever stands behind the quote
  cases hform : f c with
  | true =>
    obtain ⟨outcome, hwithin, houtcome⟩ := hp a
    refine ⟨outcome, hwithin, fun z => ?_⟩
    obtain ⟨cs, hcs⟩ := hc z
    have hz := houtcome z
    rw [hcs] at hz ⊢
    rwa [orElse_apply, hsecond c cs hform, Option.or_none]
  | false =>
    obtain ⟨outcome, hwithin, houtcome⟩ := hq a
    refine ⟨outcome, hwithin, fun z => ?_⟩
    obtain ⟨cs, hcs⟩ := hc z
    have hz := houtcome z
    rw [hcs] at hz ⊢
    rwa [orElse_apply, hfirst c cs hform, Option.none_or]

theorem settles_part : Settles Identifier.part := by
  have hopens : ∀ opening closing c cs, (c == opening) = false →
      Identifier.enclosed opening closing (c :: cs) = none :=
    fun _ _ _ _ hc => andThen_eq_none (if_neg (Bool.eq_false_iff.1 hc))
  have hbare : Settles (many1 Identifier.isBareChar) := (halts_many1 (by decide)).settles
  have hbracket : Settles (Identifier.enclosed '[' ']' <|> many1 Identifier.isBareChar) :=
    (settles_enclosed (by decide) (by decide)).orElse hbare (hopens '[' ']')
      fun c cs hc => by obtain rfl := beq_iff_eq.1 hc; rfl
  have hback : Settles (Identifier.enclosed '`' '`' <|> Identifier.enclosed '[' ']'
      <|> many1 Identifier.isBareChar) :=
    (settles_enclosed (by decide) (by decide)).orElse hbracket (hopens '`' '`')
      fun c cs hc => by obtain rfl := beq_iff_eq.1 hc; rfl
  exact (settles_enclosed (by decide) (by decide)).orElse hback (hopens '"' '"')
    fun c cs hc => by obtain rfl := beq_iff_eq.1 hc; rfl

/-- A repetition stops in front of the quote, or one of its rounds reaches over the quote. -/
theorem coverAgain_settles {p : Pattern} (hp : Settles p) (a : List Char) :
    ∃ n ≤ a.length, ∀ z rounds, a.length + z.length < rounds →
      coverAgain p rounds (a ++ '\'' :: z) = n ∨ a.length < coverAgain p rounds (a ++ '\'' :: z) := by
  have hround : ∀ {z rounds m}, p (a ++ '\'' :: z) = some m → a.length < m → a.length + z.length < rounds →
      a.length < coverAgain p rounds (a ++ '\'' :: z) := by
    intro z rounds m hm hover hrounds
    obtain ⟨rounds, rfl⟩ := Nat.exists_eq_add_of_lt (Nat.lt_of_le_of_lt (Nat.zero_le _) hrounds)
    obtain ⟨m, rfl⟩ := Nat.exists_eq_add_of_lt (Nat.lt_of_le_of_lt (Nat.zero_le _) hover)
    rw [Nat.zero_add] at hm ⊢
    rw [coverAgain, hm]
    dsimp only
    omega
  obtain ⟨outcome, hwithin, houtcome⟩ := hp a
  by_cases hcovers : ∃ m, outcome = some (m + 1)
  · obtain ⟨m, rfl⟩ := hcovers
    have hbound := hwithin _ rfl
    have hless : (a.drop (m + 1)).length < a.length := by rw [List.length_drop]; omega
    obtain ⟨n, hn, hrest⟩ := coverAgain_settles hp (a.drop (m + 1))
    rw [List.length_drop] at hn hrest
    refine ⟨(m + 1) + n, by omega, fun z rounds hrounds => ?_⟩
    rcases houtcome z with h | ⟨k, hk, hover⟩
    · obtain ⟨rounds, rfl⟩ := Nat.exists_eq_add_of_lt (Nat.lt_of_le_of_lt (Nat.zero_le _) hrounds)
      rw [Nat.zero_add] at hrounds ⊢
      rw [coverAgain, h]
      dsimp only
      rw [List.drop_append_of_le_length hbound]
      rcases hrest z rounds (by omega) with h | h <;> omega
    · exact .inr (hround hk hover hrounds)
  · -- what covers nothing is not repeated
    refine ⟨0, Nat.zero_le _, fun z rounds hrounds => ?_⟩
    rcases houtcome z with h | ⟨k, hk, hover⟩
    · refine .inl ?_
      cases rounds with
      | zero => rfl
      | succ rounds =>
        rw [coverAgain, h]
        split
        · next m => exact absurd ⟨m, rfl⟩ hcovers
        · rfl
    · exact .inr (hround hk hover hrounds)
termination_by a.length

theorem settles_star {p : Pattern} (hp : Settles p) : Settles (star p) := by
  intro a
  obtain ⟨n, hn, houtcome⟩ := coverAgain_settles hp a
  refine ⟨some n, fun m hm => Option.some.inj hm ▸ hn, fun z => ?_⟩
  rcases houtcome z (a ++ '\'' :: z).length (by simp) with h | h
  · exact .inl (congrArg some h)
  · exact .inr ⟨_, rfl, h⟩

theorem settles_qualified : Settles Identifier.qualified :=
  settles_part.andThen
    (settles_star (halts_blanks.andThen_settles ((halts_char (by decide)).andThen_settles
      (halts_blanks.andThen_settles settles_part))))
    fun _ => rfl

end Pattern

/-! ## Readers whose outcome is settled -/

namespace Reader

variable {α β : Type}

/-- A reader whose outcome is settled in front of a quote, unless it reads over the quote. -/
def Settles (r : Reader α) : Prop :=
  ∀ a, ∃ outcome : Option (α × List Char), (∀ x ∈ outcome, x.2 <:+ a) ∧
    ∀ z, r (a ++ '\'' :: z) = outcome.map (fun x => (x.1, x.2 ++ '\'' :: z)) ∨
      ∃ x, r (a ++ '\'' :: z) = some x ∧ x.2.length ≤ z.length

/-- A reader that makes a value of what a pattern covers. -/
theorem settles_of_pattern {p : Pattern} (hp : p.Settles) {r : Reader α} (value : List Char → α)
    (hr : ∀ cs, r cs = (p cs).map fun n => (value (cs.take n), cs.drop n)) : Settles r := by
  intro a
  obtain ⟨outcome, hwithin, houtcome⟩ := hp a
  refine ⟨outcome.map fun n => (value (a.take n), a.drop n), fun x hx => ?_, fun z => ?_⟩
  · obtain ⟨n, -, rfl⟩ := Option.map_eq_some_iff.1 hx
    exact List.drop_suffix n a
  rw [hr]
  rcases houtcome z with h | ⟨n, hn, hover⟩
  · refine .inl ?_
    rw [h, Option.map_map]
    cases outcome with
    | none => rfl
    | some n =>
      have hbound := hwithin n rfl
      simp only [Option.map_some, Function.comp_apply, List.take_append_of_le_length hbound,
        List.drop_append_of_le_length hbound]
  · refine .inr ⟨_, by rw [hn]; rfl, ?_⟩
    simp only [List.length_drop, List.length_append, List.length_cons]
    omega

theorem settles_take {p : Pattern} (hp : p.Settles) : Settles (take p) := settles_of_pattern hp id fun _ => rfl

/-- A reader that goes on after a pattern that halts at a quote. -/
theorem settles_skip_bind {p : Pattern} (hp : p.Halts) {f : Unit → Reader α} (hf : Settles (f ())) :
    Settles (skip p >>= f) := by
  intro a
  cases hm : p a with
  | none =>
    refine ⟨none, fun x hx => (by cases hx), fun z => .inl ?_⟩
    rw [skip_bind, (hp.eq a z).trans hm]
    rfl
  | some m =>
    obtain ⟨outcome, hsuffix, houtcome⟩ := hf (a.drop m)
    refine ⟨outcome, fun x hx => (hsuffix x hx).trans (List.drop_suffix m a), fun z => ?_⟩
    rw [skip_bind, (hp.eq a z).trans hm, Option.bind_some, List.drop_append_of_le_length (hp.bounded a m hm)]
    exact houtcome z

/-- A reader that goes on after one that may read over the quote must not fail. -/
theorem Settles.bind {r : Reader α} {f : α → Reader β} (hr : Settles r) (hf : ∀ a, Settles (f a))
    (htotal : ∀ a cs, ∃ x, f a cs = some x ∧ x.2.length ≤ cs.length) : Settles (r >>= f) := by
  have hover : ∀ {cs x l}, r cs = some x → x.2.length ≤ l → ∃ y, (r >>= f) cs = some y ∧ y.2.length ≤ l := by
    intro cs x l hx hl
    obtain ⟨y, hy, hlength⟩ := htotal x.1 x.2
    refine ⟨y, ?_, Nat.le_trans hlength hl⟩
    change (r cs).bind _ = _
    rw [hx]
    exact hy
  intro a
  obtain ⟨first, hwithin, hfirst⟩ := hr a
  cases first with
  | none =>
    refine ⟨none, fun x hx => (by cases hx), fun z => ?_⟩
    rcases hfirst z with h | ⟨x, hx, hl⟩
    · refine .inl ?_
      change (r _).bind _ = _
      rw [h]
      rfl
    · exact .inr (hover hx hl)
  | some v =>
    obtain ⟨outcome, hsuffix, houtcome⟩ := hf v.1 v.2
    refine ⟨outcome, fun x hx => (hsuffix x hx).trans (hwithin v rfl), fun z => ?_⟩
    rcases hfirst z with h | ⟨x, hx, hl⟩
    · have hbind : (r >>= f) (a ++ '\'' :: z) = f v.1 (v.2 ++ '\'' :: z) := by
        change (r _).bind _ = _
        rw [h]
        rfl
      rw [hbind]
      exact houtcome z
    · exact .inr (hover hx hl)

theorem settles_pure (v : α) : Settles (pure v : Reader α) :=
  fun a => ⟨some (v, a), fun _ hx => Option.some.inj hx ▸ List.suffix_refl a, fun _ => .inl rfl⟩

/-- A reader that is settled in front of a quote and does not begin with one. -/
structure Settled (r : Reader α) : Prop where
  settles : Settles r
  quote : ∀ z, r ('\'' :: z) = none

theorem settled_skip_bind {p : Pattern} (hp : p.Halts) (hnil : p [] = none) {f : Unit → Reader α}
    (hf : Settles (f ())) : Settled (skip p >>= f) where
  settles := settles_skip_bind hp hf
  quote z := by
    rw [skip_bind, ← List.nil_append ('\'' :: z), hp.eq, hnil]
    rfl

end Reader
end SchemaSketch
