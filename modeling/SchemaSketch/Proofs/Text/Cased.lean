import SchemaSketch.Proofs.Text.Keywords

/-!
# Keywords in letters of either case

Keywords are met in capital and in small letters, and nothing that looks for them tells the two apart (`Blind`). So of
a text that spells a keyword (`Spells`) it is enough to know what is read where it is spelt in small letters.

A name of ASCII letters, digits and low lines is the keyword that it spells and no other, so a reader that begins with
a keyword passes over every text that lacks it (`searchWord_append_of_lacks`).
-/

namespace SchemaSketch

open Text Pattern

namespace Text

/-- A character of a plain name: an ASCII letter or digit, or the low line. -/
def isNameChar (c : Char) : Bool := c.isAlphanum || c == '_'

/-- Two texts that differ in nothing but the case of ASCII letters. -/
def SameLetters (a b : List Char) : Prop := a.map Char.toLower = b.map Char.toLower

/-- The text is a keyword, or several with spaces between them, in letters of either case. -/
def Spells (cs : List Char) (k : String) : Prop := SameLetters cs k.toList

/-- There is no whole word in the text that is the keyword. -/
def Lacks (k : String) (cs : List Char) : Prop := hasWord (wholeWord k) cs = false

instance (cs : List Char) (k : String) : Decidable (Spells cs k) := inferInstanceAs (Decidable (_ = _))

instance (k : String) (cs : List Char) : Decidable (Lacks k cs) := inferInstanceAs (Decidable (_ = false))

/-- Letters that spell a keyword. -/
structure Cased (k : String) where
  /-- the letters -/
  text : List Char
  spells : Spells text k

/-! ## Letters -/

/-- What holds of the characters of names can be looked up. -/
theorem of_isNameChar {motive : Char → Prop} (h : ∀ n < 128, isNameChar (Char.ofNat n) = true → motive (Char.ofNat n))
    {c : Char} (hc : isNameChar c = true) : motive c := by
  rcases Bool.or_eq_true_iff.1 hc with halphanum | hline
  · exact of_isAlphanum (motive := fun c => isNameChar c = true → motive c) (fun n hn _ => h n hn) halphanum hc
  · rw [beq_iff_eq.1 hline]
    exact h 95 (by decide) rfl

theorem isWord_of_isNameChar {c : Char} (hc : isNameChar c = true) : isWord c = true :=
  of_isNameChar (motive := fun c => isWord c = true) (by decide +kernel) hc

theorem isBlank_of_isNameChar {c : Char} (hc : isNameChar c = true) : isBlank c = false :=
  isBlank_of_isWord (isWord_of_isNameChar hc)

theorem toLower_of_isLower {c : Char} (h : c.isLower = true) : c.toLower = c :=
  of_isAlphanum (motive := fun c => c.isLower = true → c.toLower = c) (by decide +kernel)
    (by rw [Char.isAlphanum, Char.isAlpha, h, Bool.or_true, Bool.true_or]) h

/-- Capital and small forms change nothing but the case of the characters of plain names. -/
theorem forms_of_isNameChar {c : Char} (hc : isNameChar c = true) :
    capitalForm c = [c.toUpper] ∧ ∀ afterCased rest, smallFormAt afterCased c rest = [c.toLower] := by
  have hforms : capitalForm c = [c.toUpper] ∧ smallForm c = c.toLower ∧ c ≠ 'Σ' ∧ c ≠ 'İ' :=
    of_isNameChar (motive := fun c => capitalForm c = [c.toUpper] ∧ smallForm c = c.toLower ∧ c ≠ 'Σ' ∧ c ≠ 'İ')
      (by decide +kernel) hc
  obtain ⟨hcapital, hsmall, hsigma, hdotted⟩ := hforms
  exact ⟨hcapital, fun _ _ => by simp [smallFormAt, hsigma, hdotted, hsmall]⟩

theorem lower_of_isNameChar {cs : List Char} (h : ∀ c ∈ cs, isNameChar c = true) :
    lower cs = cs.map Char.toLower := by
  have hafter : ∀ afterCased, lowerAfter afterCased cs = cs.map Char.toLower := by
    induction cs with
    | nil => exact fun _ => rfl
    | cons c rest ih =>
      obtain ⟨hc, hrest⟩ := List.forall_mem_cons.1 h
      intro afterCased
      rw [lowerAfter, (forms_of_isNameChar hc).2, ih hrest]
      rfl
  exact hafter false

theorem upper_of_isNameChar {cs : List Char} (h : ∀ c ∈ cs, isNameChar c = true) :
    upper cs = cs.map Char.toUpper := by
  induction cs with
  | nil => rfl
  | cons c rest ih =>
    obtain ⟨hc, hrest⟩ := List.forall_mem_cons.1 h
    rw [upper, List.flatMap_cons, (forms_of_isNameChar hc).1, ← upper, ih hrest]
    rfl

/-- A letter is met by the characters of names that have it as their small form. -/
theorem sameLetter_eq {k c : Char} (hk : k.isLower = true) (hc : isNameChar c = true) :
    sameLetter k c = (c.toLower == k) := by
  have hforms : smallForm c = c.toLower ∧ c ≠ 'ı' ∧ c ≠ 'ſ' :=
    of_isNameChar (motive := fun c => smallForm c = c.toLower ∧ c ≠ 'ı' ∧ c ≠ 'ſ') (by decide +kernel) hc
  rw [sameLetter, hforms.1, beq_eq_false_iff_ne.2 hforms.2.1, beq_eq_false_iff_ne.2 hforms.2.2, Bool.and_false,
    Bool.and_false, Bool.or_false, Bool.or_false, Bool.or_eq_right_iff_imp, beq_iff_eq, beq_iff_eq]
  rintro rfl
  exact toLower_of_isLower hk

/-- Only letters differ from a character in case. -/
theorem eq_or_isNameChar {c d : Char} (h : c.toLower = d.toLower) :
    c = d ∨ isNameChar c = true ∧ isNameChar d = true := by
  have hkept : ∀ {c : Char}, ¬ c.isUpper = true → c.toLower = c := fun {c} hc => by
    rw [Char.isUpper, decide_eq_true_eq] at hc
    rw [Char.toLower, dif_neg hc]
  have hchar : ∀ {c : Char}, c.isUpper = true → isNameChar c = true ∧ isNameChar c.toLower = true ∧
      c.toLower.isUpper = false := fun {c} hc => by
    have halphanum : c.isAlphanum = true := by rw [Char.isAlphanum, Char.isAlpha, hc]; rfl
    exact of_isAlphanum (motive := fun c => c.isUpper = true →
      isNameChar c = true ∧ isNameChar c.toLower = true ∧ c.toLower.isUpper = false) (by decide +kernel) halphanum hc
  by_cases hc : c.isUpper = true
  · refine .inr ⟨(hchar hc).1, ?_⟩
    by_cases hd : d.isUpper = true
    · exact (hchar hd).1
    · rw [← hkept hd, ← h]
      exact (hchar hc).2.1
  · by_cases hd : d.isUpper = true
    · refine .inr ⟨?_, (hchar hd).1⟩
      rw [← hkept hc, h]
      exact (hchar hd).2.1
    · exact .inl ((hkept hc).symm.trans (h.trans (hkept hd)))

/-- Capitals do not tell the case of a text. -/
theorem SameLetters.upper_eq {a b : List Char} (h : SameLetters a b) : upper a = upper b := by
  have hform : ∀ {c d : Char}, c.toLower = d.toLower → capitalForm c = capitalForm d := by
    intro c d hcd
    rcases eq_or_isNameChar hcd with rfl | ⟨hc, hd⟩
    · rfl
    · have hsmall : ∀ {c : Char}, isNameChar c = true → capitalForm c = capitalForm c.toLower := fun hc =>
        of_isNameChar (motive := fun c => capitalForm c = capitalForm c.toLower) (by decide +kernel) hc
      rw [hsmall hc, hsmall hd, hcd]
  induction a generalizing b with
  | nil =>
    obtain rfl := List.map_eq_nil_iff.1 h.symm
    rfl
  | cons c a ih =>
    obtain ⟨d, b', rfl, hd, hb⟩ := List.map_eq_cons_iff.1 h.symm
    rw [upper, upper, List.flatMap_cons, List.flatMap_cons, hform hd.symm]
    exact congrArg (_ ++ ·) (ih hb.symm)

theorem SameLetters.append {a b a' b' : List Char} (h : SameLetters a b) (h' : SameLetters a' b') :
    SameLetters (a ++ a') (b ++ b') := by
  rw [SameLetters, List.map_append, List.map_append, h, h']

theorem SameLetters.cons (c : Char) {a b : List Char} (h : SameLetters a b) : SameLetters (c :: a) (c :: b) :=
  congrArg (c.toLower :: ·) h

theorem SameLetters.length_eq {a b : List Char} (h : SameLetters a b) : a.length = b.length := by
  rw [← List.length_map Char.toLower, h, List.length_map]

/-- Only characters of names are not the same in both texts. -/
theorem SameLetters.mem_or_isNameChar {a b : List Char} (h : SameLetters a b) {c : Char} (hc : c ∈ a) :
    c ∈ b ∨ isNameChar c = true := by
  have hmem : c.toLower ∈ b.map Char.toLower := h ▸ List.mem_map_of_mem hc
  obtain ⟨d, hd, hcase⟩ := List.mem_map.1 hmem
  rcases eq_or_isNameChar hcase with rfl | ⟨-, hname⟩
  · exact .inl hd
  · exact .inr hname

/-- Two words and the space between them are told in letters of either case. -/
theorem SameLetters.exists_of_space {cs a b : List Char} (h : SameLetters cs (a ++ ' ' :: b)) :
    ∃ a' b', cs = a' ++ ' ' :: b' ∧ SameLetters a' a ∧ SameLetters b' b := by
  rw [SameLetters, List.map_append, List.map_cons] at h
  obtain ⟨a', rest, rfl, ha, hrest⟩ := List.map_eq_append_iff.1 h
  obtain ⟨c, b', rfl, hc, hb⟩ := List.map_eq_cons_iff.1 hrest
  rcases eq_or_isNameChar hc with rfl | ⟨-, hspace⟩
  · exact ⟨a', b', rfl, ha, hb⟩
  · exact absurd hspace (by decide)

/-- The letters of a keyword are characters of names. -/
theorem SameLetters.isNameChar {a b : List Char} (h : SameLetters a b) (hb : b.all Text.isNameChar = true) :
    ∀ c ∈ a, Text.isNameChar c = true := fun _ hc =>
  (h.mem_or_isNameChar hc).elim (fun hmem => List.all_eq_true.1 hb _ hmem) id

theorem Cased.isNameChar {k : String} (hk : k.toList.all isNameChar = true) (w : Cased k) :
    ∀ c ∈ w.text, isNameChar c = true :=
  SameLetters.isNameChar w.spells hk

theorem Cased.ne_nil {k : String} (hk : k.toList ≠ []) (w : Cased k) : w.text ≠ [] := by
  intro h
  have hlength := SameLetters.length_eq w.spells
  rw [h] at hlength
  exact hk (List.eq_nil_of_length_eq_zero hlength.symm)

end Text

/-! ## Patterns that do not tell case -/

namespace Pattern

/-- A pattern that does not tell the case of letters. -/
def Blind (p : Pattern) : Prop := ∀ a b rest, SameLetters a b → p (a ++ rest) = p (b ++ rest)

theorem blind_one {f : Char → Bool} (hf : ∀ c d, c.toLower = d.toLower → f c = f d) : Blind (one f) := by
  intro a b rest h
  cases a with
  | nil =>
    obtain rfl := List.map_eq_nil_iff.1 h.symm
    rfl
  | cons c a =>
    obtain ⟨d, b', rfl, hd, -⟩ := List.map_eq_cons_iff.1 h.symm
    rw [List.cons_append, List.cons_append, one, one, hf c d hd.symm]

theorem blind_many {f : Char → Bool} (hf : ∀ c d, c.toLower = d.toLower → f c = f d) : Blind (many f) := by
  intro a b rest h
  induction a generalizing b with
  | nil =>
    obtain rfl := List.map_eq_nil_iff.1 h.symm
    rfl
  | cons c a ih =>
    obtain ⟨d, b', rfl, hd, hb⟩ := List.map_eq_cons_iff.1 h.symm
    have hrest := ih b' hb.symm
    rw [many, many, Option.some.injEq] at hrest
    rw [List.cons_append, List.cons_append, many, many, List.takeWhile_cons, List.takeWhile_cons, hf c d hd.symm]
    split
    · rw [List.length_cons, List.length_cons, hrest]
    · rfl

theorem Blind.andThen {p q : Pattern} (hp : Blind p) (hq : Blind q) : Blind (p >> q) := by
  intro a b rest h
  rw [andThen_apply, andThen_apply, hp a b rest h]
  refine Option.bind_congr fun n _ => congrArg (Option.map (n + ·)) ?_
  rw [List.drop_append, List.drop_append, h.length_eq]
  exact hq _ _ _ (by rw [SameLetters, List.map_drop, List.map_drop, h])

theorem Blind.orElse {p q : Pattern} (hp : Blind p) (hq : Blind q) : Blind (p <|> q) := by
  intro a b rest h
  rw [orElse_apply, orElse_apply, hp a b rest h, hq a b rest h]

theorem blind_blanks1 : Blind blanks1 := by
  have hblank : ∀ c d : Char, c.toLower = d.toLower → isBlank c = isBlank d := by
    intro c d h
    rcases eq_or_isNameChar h with rfl | ⟨hc, hd⟩
    · rfl
    · rw [isBlank_of_isNameChar hc, isBlank_of_isNameChar hd]
  exact (blind_one hblank).andThen (blind_many hblank)

theorem blind_keyword {k : String} (hk : isKeyword k = true) : Blind (keyword k) := by
  have hletter : ∀ {l : Char}, l.isLower = true → ∀ c d : Char, c.toLower = d.toLower →
      sameLetter l c = sameLetter l d := by
    intro l hl c d h
    rcases eq_or_isNameChar h with rfl | ⟨hc, hd⟩
    · rfl
    · rw [sameLetter_eq hl hc, sameLetter_eq hl hd, h]
  have hletters : ∀ {ls : List Char}, ls.all Char.isLower = true → Blind (letters ls) := by
    intro ls hls
    induction ls with
    | nil => exact fun _ _ _ _ => rfl
    | cons l ls ih =>
      obtain ⟨hl, hls⟩ := Bool.and_eq_true_iff.1 hls
      exact (blind_one (hletter hl)).andThen (ih hls)
  exact hletters (Bool.and_eq_true_iff.1 hk).2

theorem blind_phrase {ks : List String} (hks : ks.all isKeyword = true) : Blind (phrase ks) := by
  induction ks with
  | nil => exact fun _ _ _ _ => rfl
  | cons k ks ih =>
    obtain ⟨hk, hks⟩ := Bool.and_eq_true_iff.1 hks
    cases ks with
    | nil => exact blind_keyword hk
    | cons l ks => exact (blind_keyword hk).andThen (blind_blanks1.andThen (ih hks))

/-! ## Names -/

/-- The letters that are met in a name are its beginning. -/
theorem map_of_letters {ks name : List Char} {n : Nat} (hks : ks.all Char.isLower = true)
    (hname : ∀ c ∈ name, isNameChar c = true) (h : letters ks name = some n) :
    name.map Char.toLower = ks ++ (name.drop n).map Char.toLower := by
  induction ks generalizing name n with
  | nil =>
    obtain rfl := Option.some.inj h
    rfl
  | cons k ks ih =>
    rw [List.all_cons, Bool.and_eq_true] at hks
    obtain ⟨m, l, hm, hl, rfl⟩ := andThen_eq_some.1 h
    obtain ⟨c, rest, rfl, hc, rfl⟩ := one_eq_some.1 hm
    obtain ⟨hfirst, hrest⟩ := List.forall_mem_cons.1 hname
    rw [sameLetter_eq hks.1 hfirst, beq_iff_eq] at hc
    rw [List.map_cons, hc, Nat.add_comm, List.drop_succ_cons, List.cons_append]
    exact congrArg (k :: ·) (ih hks.2 hrest hl)

/-- **A name is no keyword but the one that it spells.** -/
theorem wholeWord_eq_none_of_name {k : String} (hk : isKeyword k = true) {name : List Char}
    (hname : ∀ c ∈ name, isNameChar c = true) (hne : ¬ Spells name k) : wholeWord k name = none := by
  have hlower := (Bool.and_eq_true_iff.1 hk).2
  have hself : k.toList.map Char.toLower = k.toList :=
    (List.map_congr_left fun c hc => toLower_of_isLower (List.all_eq_true.1 hlower c hc)).trans (List.map_id _)
  rw [Option.eq_none_iff_forall_ne_some]
  intro n hn
  obtain ⟨hletters, hend⟩ := followedBy_eq_some.1 hn
  have hsplit := map_of_letters hlower hname hletters
  cases hrest : name.drop n with
  | nil => exact hne (by rw [Spells, SameLetters, hsplit, hrest, List.map_nil, List.append_nil, hself])
  | cons c rest =>
    have hword := isWord_of_isNameChar (hname c (List.drop_subset n name (hrest ▸ List.mem_cons_self ..)))
    rw [hrest, wordEnds, hword] at hend
    cases hend

end Pattern

/-! ## Texts without a keyword -/

namespace Text

variable {k : String} (hk : isKeyword k = true)

include hk

theorem lacks_nil : Lacks k [] := by
  rw [Lacks, hasWord_eq, hasWordAfter, fits, wholeWord_nil hk]
  rfl

/-- A text is cut where no word is. -/
theorem lacks_append {mark : Char} (hmark : isWord mark = false) (a b : List Char) :
    Lacks k (a ++ mark :: b) ↔ Lacks k a ∧ Lacks k b := by
  have hfirst : wordMayBegin (some mark) = wordMayBegin none := congrArg (! ·) hmark
  rw [Lacks, Lacks, Lacks, hasWord_eq, hasWord_eq, hasWord_eq,
    hasWordAfter_append fun cs => wholeWord_append hk cs hmark b, Bool.or_eq_false_iff, hasWordAfter_congr hfirst]

theorem lacks_cons {mark : Char} (hmark : isWord mark = false) (b : List Char) : Lacks k (mark :: b) ↔ Lacks k b := by
  rw [← List.nil_append (mark :: b), lacks_append hk hmark]
  exact ⟨fun h => h.2, fun h => ⟨lacks_nil hk, h⟩⟩

theorem lacks_blank_append {gap : List Char} (hgap : Blank gap) (b : List Char) : Lacks k (gap ++ b) ↔ Lacks k b := by
  induction gap with
  | nil => rfl
  | cons c gap ih =>
    obtain ⟨hc, hgap⟩ := List.forall_mem_cons.1 hgap
    rw [List.cons_append, lacks_cons hk (isWord_of_isBlank hc), ih hgap]

/-- It is cut there with blanks in front of the mark too. -/
theorem lacks_append_blank {gap : List Char} (hgap : Blank gap) {mark : Char} (hmark : isWord mark = false)
    (a b : List Char) : Lacks k (a ++ (gap ++ mark :: b)) ↔ Lacks k a ∧ Lacks k b := by
  cases gap with
  | nil => exact lacks_append hk hmark a b
  | cons c gap =>
    obtain ⟨hc, hgap⟩ := List.forall_mem_cons.1 hgap
    rw [List.cons_append, lacks_append hk (isWord_of_isBlank hc), lacks_blank_append hk hgap, lacks_cons hk hmark]

/-- Whether a text lacks a keyword does not depend on the case of its letters. -/
theorem lacks_congr {a b : List Char} (h : SameLetters a b) : Lacks k a ↔ Lacks k b := by
  have hword : ∀ {c d : Char}, c.toLower = d.toLower → isWord c = isWord d := by
    intro c d hcd
    rcases eq_or_isNameChar hcd with rfl | ⟨hc, hd⟩
    · rfl
    · rw [isWord_of_isNameChar hc, isWord_of_isNameChar hd]
  have hfits : ∀ {a b : List Char}, SameLetters a b → (wholeWord k).fits a = (wholeWord k).fits b := by
    intro a b h
    have hkeyword := blind_keyword hk a b [] h
    rw [List.append_nil, List.append_nil] at hkeyword
    rw [fits, fits, wholeWord, followedBy_apply, followedBy_apply, hkeyword]
    refine congrArg Option.isSome (Option.bind_congr fun n _ => ?_)
    have hends : wordEnds (a.drop n) = wordEnds (b.drop n) := by
      have hdrop : SameLetters (a.drop n) (b.drop n) := by rw [SameLetters, List.map_drop, List.map_drop, h]
      cases ha : a.drop n with
      | nil =>
        rw [ha] at hdrop
        rw [List.map_eq_nil_iff.1 hdrop.symm]
      | cons c rest =>
        rw [ha] at hdrop
        obtain ⟨d, rest', hb, hd, -⟩ := List.map_eq_cons_iff.1 hdrop.symm
        rw [hb, wordEnds, wordEnds, hword hd.symm]
    rw [hends]
  have hafter : ∀ before, hasWordAfter (wholeWord k) before a = hasWordAfter (wholeWord k) before b := by
    induction a generalizing b with
    | nil =>
      obtain rfl := List.map_eq_nil_iff.1 h.symm
      exact fun _ => rfl
    | cons c a ih =>
      intro before
      obtain ⟨d, b', rfl, hd, hb⟩ := List.map_eq_cons_iff.1 h.symm
      have hbefore : wordMayBegin (some c) = wordMayBegin (some d) := congrArg (! ·) (hword hd.symm)
      rw [hasWordAfter, hasWordAfter, hfits h, ih hb.symm, hasWordAfter_congr hbefore]
  rw [Lacks, Lacks, hasWord_eq, hasWord_eq, hafter]

/-- A name lacks every keyword that it does not spell. -/
theorem lacks_name {name : List Char} (hname : ∀ c ∈ name, isNameChar c = true) (hne : ¬ Spells name k) :
    Lacks k name := by
  have hinside : ∀ {before : Option Char} {cs : List Char}, wordMayBegin before = false →
      (∀ c ∈ cs, isNameChar c = true) → hasWordAfter (wholeWord k) before cs = false := by
    intro before cs hbefore hcs
    induction cs generalizing before with
    | nil => rw [hasWordAfter, hbefore, Bool.false_and]
    | cons c cs ih =>
      obtain ⟨hc, hcs⟩ := List.forall_mem_cons.1 hcs
      have hnext : wordMayBegin (some c) = false := by rw [wordMayBegin, isWord_of_isNameChar hc]; rfl
      rw [hasWordAfter, hbefore, Bool.false_and, Bool.false_or, ih hnext hcs]
  rw [Lacks, hasWord_eq]
  cases name with
  | nil => rw [hasWordAfter, fits, wholeWord_nil hk]; rfl
  | cons c cs =>
    obtain ⟨hc, hcs⟩ := List.forall_mem_cons.1 hname
    have hnext : wordMayBegin (some c) = false := by rw [wordMayBegin, isWord_of_isNameChar hc]; rfl
    rw [hasWordAfter, fits, wholeWord_eq_none_of_name hk hname hne, hinside hnext hcs]
    rfl

variable {α : Type} {r : Reader α}

omit hk in
/-- Nothing is found in a text that lacks the keyword. -/
theorem searchWord_eq_none_of_lacks (hr : r.Begins k) {cs : List Char} (h : Lacks k cs) : searchWord r cs = none :=
  searchWord_eq_none hr h

omit hk in
/-- A name at which nothing is read is passed over up to the mark behind it. -/
theorem searchWord_append_of_eq_none {name : List Char} (hne : name ≠ []) (hname : ∀ c ∈ name, isNameChar c = true)
    {mark : Char} (hmark : isWord mark = false) {b : List Char} (hread : r (name ++ mark :: b) = none) :
    searchWord r (name ++ mark :: b) = searchWord r b := by
  obtain ⟨c, cs, rfl⟩ := List.exists_cons_of_ne_nil hne
  obtain ⟨hc, hcs⟩ := List.forall_mem_cons.1 hname
  have hinside : wordMayBegin (some c) = false := congrArg (! ·) (isWord_of_isNameChar hc)
  have hfirst : wordMayBegin (some mark) = true := congrArg (! ·) hmark
  have hpassed :=
    (Reader.passes_inside (r := r) (fun c hc => isWord_of_isNameChar (hcs c hc)) mark hinside b).searchAfter_eq
  rw [List.append_assoc, List.singleton_append, List.getLast?_concat, Option.some_or] at hpassed
  rw [searchWord, search, List.cons_append, searchAfter_cons, ← List.cons_append, hread, ite_self, Option.none_or,
    hpassed, searchWord, search]
  cases b with
  | nil => rw [searchAfter, searchAfter, hfirst]; rfl
  | cons d b => rw [searchAfter_cons, searchAfter_cons, hfirst]; rfl

/-- **A text that lacks the keyword is passed over** up to a mark. -/
theorem searchWord_append_of_lacks (hr : r.Begins k) {a : List Char} (ha : Lacks k a) {mark : Char}
    (hmark : isWord mark = false) (b : List Char) : searchWord r (a ++ mark :: b) = searchWord r b := by
  have hafter : ∀ {before : Option Char} {a : List Char}, hasWordAfter (wholeWord k) before a = false →
      searchAfter (fun before here => if wordMayBegin before then r here else none) before (a ++ mark :: b) =
        searchAfter (fun before here => if wordMayBegin before then r here else none) (some mark) b := by
    intro before a ha
    have hhere : ∀ {before : Option Char} {cs : List Char}, (wordMayBegin before && (wholeWord k).fits cs) = false →
        (if wordMayBegin before then r (cs ++ mark :: b) else none) = none := by
      intro before cs hcs
      split
      · next hword =>
        rw [hword, Bool.true_and] at hcs
        refine hr _ ((wholeWord_append hk cs hmark b).trans ?_)
        exact Option.isNone_iff_eq_none.1 (Option.isSome_eq_false_iff.1 hcs)
      · rfl
    induction a generalizing before with
    | nil =>
      rw [hasWordAfter] at ha
      have h := hhere ha
      rw [List.nil_append] at h ⊢
      rw [searchAfter_cons, h, Option.none_or]
    | cons c a ih =>
      rw [hasWordAfter, Bool.or_eq_false_iff] at ha
      have h := hhere ha.1
      rw [List.cons_append] at h ⊢
      rw [searchAfter_cons, h, Option.none_or, ih ha.2]
  have hfirst : wordMayBegin (some mark) = true := by rw [wordMayBegin, hmark]; rfl
  rw [searchWord, search, hafter (hasWord_eq (wholeWord k) a ▸ ha), searchWord, search]
  cases b with
  | nil => rw [searchAfter, searchAfter, hfirst]; rfl
  | cons c b => rw [searchAfter_cons, searchAfter_cons, hfirst]; rfl

end Text
end SchemaSketch
