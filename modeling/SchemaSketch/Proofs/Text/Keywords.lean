import SchemaSketch.Proofs.Table.Lines
import SchemaSketch.Proofs.Text.Pieces

/-!
# Keywords among words

A keyword counts only where its word ends. So at a word with a mark behind it all depends on the word
(`Pattern.wholeWord_append`), and what begins with a keyword and blanks is passed over at every other word
(`Piece.avoids`). A name that needs no quotes is another word unless it is the keyword itself, since it has small
letters only (`Ident.Plain.wholeWord_eq_none`).
-/

namespace SchemaSketch

open Text Pattern

namespace Pattern

/-- Small letters, and at least one of them. -/
def isKeyword (k : String) : Bool := !k.toList.isEmpty && k.toList.all Char.isLower

/-! ## A keyword at a word -/

theorem length_le_of_letters {ks cs : List Char} {n : Nat} (h : letters ks cs = some n) : n ≤ cs.length := by
  induction ks generalizing cs n with
  | nil =>
    obtain rfl := Option.some.inj h
    exact Nat.zero_le _
  | cons k ks ih =>
    obtain ⟨m, l, hm, hl, rfl⟩ := andThen_eq_some.1 h
    obtain ⟨c, rest, rfl, -, rfl⟩ := one_eq_some.1 hm
    have hrest : l ≤ rest.length := ih hl
    rw [List.length_cons]
    omega

/-- Letters do not reach beyond a word. -/
theorem letters_append {ks rest : List Char} (h : ∀ k ∈ ks, ∀ c ∈ rest.head?, sameLetter k c = false)
    (word : List Char) : letters ks (word ++ rest) = letters ks word := by
  induction ks generalizing word with
  | nil => rfl
  | cons k ks ih =>
    obtain ⟨hk, hks⟩ := List.forall_mem_cons.1 h
    cases word with
    | nil =>
      cases rest with
      | nil => rfl
      | cons c rest => exact andThen_eq_none (if_neg (Bool.eq_false_iff.1 (hk c rfl)))
    | cons c word =>
      rw [List.cons_append, letters, andThen_apply, andThen_apply, one, one]
      split
      · rw [Option.bind_some, Option.bind_some, List.drop_one, List.drop_one, List.tail_cons, List.tail_cons, ih hks]
      · rfl

/-- A code that is none stands for the first character. -/
theorem toNat_ofNat_or (n : Nat) : (Char.ofNat n).toNat = n ∨ Char.ofNat n = Char.ofNat 0 := by
  rw [Char.ofNat]
  split
  · exact .inl rfl
  · exact .inr rfl

/-- In the table of small forms only the kelvin sign comes to an ASCII character. -/
theorem low_of_mapInRuns {runs : List (Nat × Nat × Nat × Nat)}
    (h : ∀ run ∈ runs, 128 ≤ run.2.2.2 ∨ run.1 = 0x212A ∧ run.2.1 = 0x212A) {n : Nat} (hn : mapInRuns runs n < 128) :
    n < 128 ∨ n = 0x212A := by
  induction runs with
  | nil => exact .inl hn
  | cons run rest ih =>
    obtain ⟨first, last, step, target⟩ := run
    obtain ⟨hrun, hrest⟩ := List.forall_mem_cons.1 h
    dsimp only at hrun
    rw [mapInRuns] at hn
    split at hn
    · exact .inl hn
    split at hn
    · next hin =>
      rw [Bool.and_eq_true, decide_eq_true_eq] at hin
      omega
    · exact ih hrest hn

/-- Whatever stands for a letter is that letter, large or small, but for three letters that have other forms too. -/
theorem cases_of_sameLetter {k c : Char} (hk : k.isLower = true) (h : sameLetter k c = true) :
    isWord c = true ∧ (c.toLower = k ∨ k ∈ ['i', 's', 'k']) := by
  have hself : k.isAlphanum = true := by rw [Char.isAlphanum, Char.isAlpha, hk, Bool.or_true, Bool.true_or]
  obtain ⟨hcode, hsmall⟩ : k.toNat < 128 ∧ (k.isLower = true → k.toLower = k) :=
    of_isAlphanum (motive := fun k => k.toNat < 128 ∧ (k.isLower = true → k.toLower = k)) (by decide +kernel) hself
  rw [sameLetter, Bool.or_eq_true, Bool.or_eq_true, Bool.or_eq_true, beq_iff_eq, beq_iff_eq, Bool.and_eq_true,
    Bool.and_eq_true, beq_iff_eq, beq_iff_eq, beq_iff_eq, beq_iff_eq] at h
  rcases h with ((rfl | hform) | ⟨rfl, rfl⟩) | ⟨rfl, rfl⟩
  · exact ⟨isWord_of_isAlphanum hself, .inl (hsmall hk)⟩
  · rw [smallForm] at hform
    split at hform
    · next hlow =>
      have hascii : ∀ n < 128, (Char.ofNat n).toLower.isLower = true → isWord (Char.ofNat n) = true := by decide +kernel
      have hword := hascii c.toNat hlow
      rw [Char.ofNat_toNat, hform] at hword
      exact ⟨hword hk, .inl hform⟩
    split at hform
    · next hdotted =>
      rw [beq_iff_eq.1 hdotted]
      exact ⟨by cbv, .inr (hform ▸ by decide)⟩
    · next hhigh _ =>
      have hlow : mapInRuns lowerRuns c.toNat < 128 := by
        rcases toNat_ofNat_or (mapInRuns lowerRuns c.toNat) with hvalid | hzero
        · rwa [← hvalid, hform]
        · rw [← hform, hzero] at hk
          cases hk
      rcases low_of_mapInRuns (by decide +kernel) hlow with hlow | hkelvin
      · exact absurd hlow hhigh
      · have hc : c = Char.ofNat 0x212A := by rw [← Char.ofNat_toNat c, hkelvin]
        rw [hkelvin] at hform
        rw [hc]
        exact ⟨by decide +kernel, .inr (hform ▸ by decide +kernel)⟩
  · exact ⟨by cbv, .inr (by decide)⟩
  · exact ⟨by cbv, .inr (by decide)⟩

theorem isWord_of_sameLetter {k c : Char} (hk : k.isLower = true) (h : sameLetter k c = true) : isWord c = true :=
  (cases_of_sameLetter hk h).1

/-- A small letter with no other forms than itself and the large one. -/
def isSteady (k : Char) : Bool := k.isLower && ! ['i', 's', 'k'].contains k

theorem toLower_of_sameLetter {k c : Char} (hk : isSteady k = true) (h : sameLetter k c = true) : c.toLower = k := by
  rw [isSteady, Bool.and_eq_true, Bool.not_eq_true'] at hk
  refine (cases_of_sameLetter hk.1 h).2.resolve_right fun hform => ?_
  rw [List.contains_iff_mem.2 hform] at hk
  cases hk.2

section

variable {k : String} (hk : isKeyword k = true) (word : List Char)

include hk

/-- A keyword does not reach beyond a word. -/
theorem keyword_append {tail : List Char} (htail : wordEnds tail = true) : keyword k (word ++ tail) = keyword k word := by
  refine letters_append (fun l hl c hc => Bool.eq_false_iff.2 fun hsame => ?_) word
  obtain ⟨rest, rfl⟩ := List.head?_eq_some_iff.1 hc
  rw [wordEnds, isWord_of_sameLetter (List.all_eq_true.1 (Bool.and_eq_true_iff.1 hk).2 l hl) hsame] at htail
  cases htail

/-- **A keyword at a word depends on the word alone.** -/
theorem wholeWord_append_tail {tail : List Char} (htail : wordEnds tail = true) :
    wholeWord k (word ++ tail) = wholeWord k word := by
  rw [wholeWord, followedBy_apply, followedBy_apply, keyword_append hk word htail]
  cases hn : keyword k word with
  | none => rfl
  | some n =>
    rw [Option.bind_some, Option.bind_some, List.drop_append_of_le_length (length_le_of_letters hn)]
    cases word.drop n with
    | nil => rw [List.nil_append, htail]; rfl
    | cons c more => rfl

theorem wholeWord_append {mark : Char} (hmark : isWord mark = false) (rest : List Char) :
    wholeWord k (word ++ mark :: rest) = wholeWord k word :=
  wholeWord_append_tail hk word (by rw [wordEnds, hmark]; rfl)

end

theorem wholeWord_nil {k : String} (hk : isKeyword k = true) : wholeWord k [] = none := by
  rw [isKeyword, Bool.and_eq_true] at hk
  rw [wholeWord, followedBy_apply, keyword]
  cases hletters : k.toList with
  | nil =>
    rw [hletters] at hk
    cases hk.1
  | cons l ls => rfl

/-- A keyword in front of blanks is a whole word. -/
theorem keyword_blanks1_eq_none {k : String} {cs : List Char} (h : wholeWord k cs = none) :
    (keyword k >> blanks1) cs = none := by
  rw [wholeWord, followedBy_apply] at h
  rw [Option.eq_none_iff_forall_ne_some]
  intro n hn
  obtain ⟨m, l, hm, hl, -⟩ := andThen_eq_some.1 hn
  obtain ⟨hpos, rfl⟩ := many1_eq_some.1 hl
  rw [hm, Option.bind_some] at h
  cases hrest : cs.drop m with
  | nil =>
    rw [hrest] at hpos
    cases hpos
  | cons c rest =>
    rw [hrest, wordEnds] at h
    cases hblank : isBlank c with
    | false =>
      rw [hrest, List.takeWhile_cons_of_neg (by simp [hblank])] at hpos
      cases hpos
    | true =>
      have htag := isTagChar_of_isBlank hblank
      rw [isTagChar, Bool.or_eq_false_iff, Bool.or_eq_false_iff] at htag
      rw [htag.1.1] at h
      cases h

/-- So is the first word of a phrase. -/
theorem phrase_eq_none {k : String} {cs : List Char} (h : wholeWord k cs = none) (w : String) (ws : List String) :
    phrase (k :: w :: ws) cs = none := by
  change (keyword k >> blanks1 >> phrase (w :: ws)) cs = none
  rw [← andThen_assoc]
  exact andThen_eq_none (keyword_blanks1_eq_none h)

/-- A pattern and one space. -/
theorem andThen_space {p : Pattern} (word : List Char) {rest : List Char}
    (hword : p (word ++ ' ' :: rest) = some word.length) (hrest : ∀ c ∈ rest.head?, isBlank c = false) :
    (p >> blanks1) (word ++ ' ' :: rest) = some (word.length + 1) := by
  have hblank : blanks1 (' ' :: rest) = some 1 := by
    refine many1_eq_some.2 ⟨Nat.one_pos, ?_⟩
    rw [List.takeWhile_cons_of_pos rfl]
    cases rest with
    | nil => rfl
    | cons c rest => rw [List.takeWhile_cons_of_neg (by simp [hrest c rfl])]; rfl
  rw [andThen_of_eq_some hword, List.drop_left, hblank]
  rfl

end Pattern

/-! ## Readers that begin with a keyword -/

/-- Nothing is read where the word is not this one. -/
def Reader.Begins {α : Type} (r : Reader α) (k : String) : Prop := ∀ cs, wholeWord k cs = none → r cs = none

theorem Reader.begins_skip_bind {α : Type} {p : Pattern} {k : String} (h : ∀ cs, wholeWord k cs = none → p cs = none)
    (f : Unit → Reader α) : (Reader.skip p >>= f).Begins k := by
  intro cs hword
  rw [skip_bind, h cs hword]
  rfl

/-- **Such a reader reads nothing at another word.** -/
theorem Piece.avoids {α : Type} {r : Reader α} {k : String} (hr : r.Begins k) (hk : isKeyword k = true) {p : Piece}
    (hp : p.Plain) (hword : wholeWord k p.word = none) : p.Avoids r := by
  constructor
  · intro rest
    exact hr _ ((wholeWord_append hk p.word (p.isWord_mark hp) rest).trans hword)
  · intro rest
    exact hr _ ((wholeWord_append hk [] (p.isWord_mark hp) rest).trans (wholeWord_nil hk))

/-! ## Names without quotes -/

namespace Ident

/-- The characters of a name that is written bare, and that has no line end. -/
structure Plain (name : List Char) : Prop where
  begins : ∃ c rest, name = c :: rest ∧ isSimpleStart c = true
  simple : ∀ c ∈ name, isSimpleChar c = true

theorem plain_of_isBare {name : String} (h : isBare name = true) (hline : '\n' ∉ name.toList) : Plain name.toList := by
  obtain ⟨hne, hsimple⟩ := isSimpleChar_of_isBare h hline
  obtain ⟨c, rest, hname⟩ := List.exists_cons_of_ne_nil hne
  rw [isBare, hname, isSimple, Bool.and_eq_true, Bool.and_eq_true] at h
  exact ⟨⟨c, rest, hname, h.1.1⟩, hsimple⟩

/-- What holds of the simple characters can be looked up. -/
theorem of_isSimpleChar {motive : Char → Prop}
    (h : ∀ n < 128, isSimpleChar (Char.ofNat n) = true → motive (Char.ofNat n)) {c : Char} (hc : isSimpleChar c = true) :
    motive c := by
  by_cases halphanum : c.isAlphanum = true
  · exact of_isAlphanum (motive := fun c => isSimpleChar c = true → motive c) (fun n hn _ => h n hn) halphanum hc
  · have hline : c = '_' := by
      rw [isSimpleChar, Bool.or_eq_true, Bool.or_eq_true, beq_iff_eq] at hc
      rw [Char.isAlphanum, Char.isAlpha, Bool.or_eq_true, Bool.or_eq_true] at halphanum
      rcases hc with (hc | hc) | hc
      · exact absurd (.inl (.inr hc)) halphanum
      · exact absurd (.inr hc) halphanum
      · exact hc
    rw [hline]
    exact h 95 (by decide) rfl

theorem isWord_of_isSimpleChar {c : Char} (hc : isSimpleChar c = true) : isWord c = true :=
  of_isSimpleChar (motive := fun c => isWord c = true) (by decide +kernel) hc

/-- A simple character is no other letter than itself. -/
theorem eq_of_sameLetter {k c : Char} (hc : isSimpleChar c = true) (h : sameLetter k c = true) : c = k := by
  have hself : smallForm c = c ∧ c ≠ 'ı' ∧ c ≠ 'ſ' :=
    of_isSimpleChar (motive := fun c => smallForm c = c ∧ c ≠ 'ı' ∧ c ≠ 'ſ') (by decide +kernel) hc
  rw [sameLetter, hself.1] at h
  simpa [hself.2.1, hself.2.2] using h

namespace Plain

variable {name : List Char} (h : Plain name)

include h

theorem ne_nil : name ≠ [] := by
  obtain ⟨c, rest, rfl, -⟩ := h.begins
  exact List.cons_ne_nil c rest

theorem isWord : ∀ c ∈ name, Text.isWord c = true := fun c hc => isWord_of_isSimpleChar (h.simple c hc)

theorem isBareChar : ∀ c ∈ name, Identifier.isBareChar c = true := fun c hc =>
  isBareChar_of_isSimpleChar (h.simple c hc)

theorem isBlank : ∀ c ∈ name, Text.isBlank c = false := by
  intro c hc
  refine Bool.eq_false_iff.2 fun hblank => ?_
  have hbare := h.isBareChar c hc
  rw [Identifier.isBareChar_of_isBlank hblank] at hbare
  cases hbare

/-- No blank follows what stands in front of such a name. -/
theorem isBlank_head? (rest : List Char) : ∀ c ∈ (name ++ rest).head?, Text.isBlank c = false := by
  intro c hc
  obtain ⟨first, more, rfl, -⟩ := h.begins
  cases hc
  exact h.isBlank _ (List.mem_cons_self ..)

/-- Such a name stands for itself. -/
theorem bareName_eq_self : Identifier.bareName name = name := Identifier.bareName_eq_self h.ne_nil h.isBareChar

/-- Such a name and a mark are a piece of a text. -/
theorem piece {mark : Char} (hmark : mark ∈ [' ', '(', ')', ';']) : Piece.Plain ⟨name, mark⟩ := by
  refine ⟨h.isWord, ?_, hmark⟩
  obtain ⟨c, rest, rfl, hstart⟩ := h.begins
  rintro c ⟨⟩
  have hsimple := h.simple c (List.mem_cons_self ..)
  exact of_isSimpleChar (motive := fun c => isSimpleStart c = true → isDecimal c = false) (by decide +kernel) hsimple
    hstart

/-- **Such a name is no keyword but itself.** -/
theorem wholeWord_eq_none {k : String} (hname : name ≠ k.toList) : wholeWord k name = none := by
  rw [Option.eq_none_iff_forall_ne_some]
  intro n hn
  obtain ⟨hletters, hend⟩ := followedBy_eq_some.1 hn
  -- the letters are a prefix of the name, and nothing can follow them
  have hprefix : ∀ {ks name : List Char} {n : Nat}, (∀ c ∈ name, isSimpleChar c = true) →
      letters ks name = some n → name = ks ++ name.drop n := by
    intro ks
    induction ks with
    | nil =>
      intro name n _ hn
      obtain rfl := Option.some.inj hn
      rfl
    | cons k ks ih =>
      intro name n hsimple hn
      obtain ⟨m, l, hm, hl, rfl⟩ := andThen_eq_some.1 hn
      obtain ⟨c, rest, rfl, hc, rfl⟩ := one_eq_some.1 hm
      obtain ⟨hfirst, hsimple⟩ := List.forall_mem_cons.1 hsimple
      rw [eq_of_sameLetter hfirst hc, Nat.add_comm, List.drop_succ_cons, List.cons_append]
      exact congrArg (k :: ·) (ih hsimple hl)
  have hsplit := hprefix h.simple hletters
  cases hrest : name.drop n with
  | nil => exact hname (by rw [hsplit, hrest, List.append_nil])
  | cons c rest =>
    have hword := h.isWord c (List.drop_subset n name (hrest ▸ List.mem_cons_self ..))
    rw [hrest, wordEnds, hword] at hend
    cases hend

end Plain
end Ident
end SchemaSketch
