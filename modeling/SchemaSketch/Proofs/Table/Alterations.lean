import SchemaSketch.Proofs.Table.Exchange
import SchemaSketch.Proofs.Text.Keywords

/-!
# The clauses of an alteration

What is behind the heading of an alteration is cut at every word `ADD`. Of a text of words and marks this is told
piece by piece (`Alteration.clausesFrom_spell`): a clause is made of the pieces between two such words, and begins with
the mark of the first. A clause without the word `FOREIGN` holds no key (`Reference.keyOf_eq_none`).
-/

namespace SchemaSketch

open Text Pattern

/-- A mark without a word. -/
def Piece.lone (mark : Char) : Piece := ⟨[], mark⟩

/-- A word and a space. -/
def Piece.spaced (word : String) : Piece := ⟨word.toList, ' '⟩

theorem Piece.plain_lone {mark : Char} (hmark : mark ∈ [' ', '(', ')', ';']) : (lone mark).Plain := by
  refine ⟨fun c hc => absurd hc List.not_mem_nil, fun c hc => ?_, hmark⟩
  cases hc

/-- A search for a word passes over a space. -/
theorem Text.searchWord_space {α : Type} {r : Reader α} {k : String} (hr : r.Begins k) (hk : isKeyword k = true)
    (rest : List Char) : searchWord r (' ' :: rest) = searchWord r rest := by
  have hplain : ∀ p ∈ [Piece.lone ' '], p.Plain := List.forall_mem_singleton.2 (Piece.plain_lone (by decide))
  have havoids : ∀ p ∈ [Piece.lone ' '], p.Avoids r := by
    refine List.forall_mem_singleton.2 ?_
    exact Piece.avoids hr hk (hplain _ (List.mem_cons_self ..)) (wholeWord_nil hk)
  exact searchWord_spell_append hplain havoids rest

namespace Alteration

/-! ## Clauses, piece by piece -/

/-- Whether a piece is the word that begins a clause. -/
def isAdd (p : Piece) : Bool := addWord.fits p.word

/-- The clauses of pieces; `front` is what has been read of the clause. -/
def cutPieces (front : List Piece) : List Piece → List (List Piece)
  | [] => [front]
  | p :: ps => if isAdd p then front :: cutPieces [Piece.lone p.mark] ps else cutPieces (front ++ [p]) ps

theorem fits_addWord {p : Piece} (hp : p.Plain) (rest : List Char) :
    addWord.fits (p.word ++ p.mark :: rest) = isAdd p :=
  congrArg Option.isSome (wholeWord_append (by decide) p.word (p.isWord_mark hp) rest)

theorem fits_addWord_mark {mark : Char} (hmark : isWord mark = false) (rest : List Char) :
    addWord.fits (mark :: rest) = false :=
  congrArg Option.isSome ((wholeWord_append (k := "add") (by decide) [] hmark rest).trans (wholeWord_nil (by decide)))

/-- No clause begins where the word is not met. -/
theorem clausesFrom_passes {before : Option Char} {a rest : List Char} (h : add.Passes before a rest)
    (current : Option (List Char)) :
    clausesFrom 0 before current (a ++ rest) =
      clausesFrom 0 (a.getLast?.or before) (current.map (a.reverse ++ ·)) rest := by
  induction a generalizing before current with
  | nil =>
    simp only [List.nil_append, List.getLast?_nil, Option.none_or, List.reverse_nil, Option.map_id']
  | cons c a ih =>
    have hnot : (wordMayBegin before && addWord.fits (c :: (a ++ rest))) = false := by
      rw [Bool.and_eq_false_imp]
      intro hword
      exact congrArg Option.isSome (Option.map_eq_none_iff.1 (h.1 hword))
    have hlast : (c :: a).getLast?.or before = a.getLast?.or (some c) := by
      rw [List.getLast?_cons]
      cases a.getLast? <;> rfl
    rw [List.cons_append, clausesFrom, hnot, if_neg Bool.false_ne_true, ih h.2, hlast, Option.map_map]
    refine congrArg (fun k => clausesFrom 0 _ k rest) (congrArg (Option.map · current) (funext fun k => ?_))
    rw [Function.comp_apply, List.reverse_cons, List.append_assoc]
    rfl

/-- A piece that is another word belongs to the clause. -/
theorem clausesFrom_other {p : Piece} (hp : p.Plain) (hadd : isAdd p = false) (before : Option Char)
    (current : Option (List Char)) (rest : List Char) :
    clausesFrom 0 before current (p.text ++ rest) =
      clausesFrom 0 (some p.mark) (current.map (p.text.reverse ++ ·)) rest := by
  have havoids : p.Avoids add := by
    have hword : addWord p.word = none := Option.isNone_iff_eq_none.1 (Option.isSome_eq_false_iff.1 hadd)
    exact Piece.avoids (k := "add") (fun cs h => Option.map_eq_none_iff.2 h) (by decide) hp hword
  rw [clausesFrom_passes (p.passes hp havoids before rest), p.getLast?_text]
  rfl

/-- The word ends a clause, and the next one begins with its mark. -/
theorem clausesFrom_add {p : Piece} (hp : p.Plain) (hadd : isAdd p = true) {before : Option Char}
    (hbefore : wordMayBegin before = true) (current : Option (List Char)) (rest : List Char) :
    clausesFrom 0 before current (p.text ++ rest) =
      (current.map List.reverse).toList ++ clausesFrom 0 (some p.mark) (some [p.mark]) rest := by
  -- the word has three letters
  obtain ⟨a, b, c, hword⟩ : ∃ a b c, p.word = [a, b, c] := by
    obtain ⟨n, hn⟩ := Option.isSome_iff_exists.1 hadd
    obtain ⟨hletters, hends⟩ := followedBy_eq_some.1 hn
    have hthree : n = 3 := length_of_letters hletters
    have hlong : 3 ≤ p.word.length := length_of_addWord hadd
    have hrest : p.word.drop 3 = [] := by
      rw [hthree] at hends
      cases hdrop : p.word.drop 3 with
      | nil => rfl
      | cons d more =>
        have hd := hp.word d (List.drop_subset 3 p.word (hdrop ▸ List.mem_cons_self ..))
        rw [hdrop, wordEnds, hd] at hends
        cases hends
    have hshort : p.word.length ≤ 3 := List.drop_eq_nil_iff.1 hrest
    exact List.length_eq_three.1 (Nat.le_antisymm hshort hlong)
  have hhere := fits_addWord hp rest
  rw [hadd, hword] at hhere
  have hmark := fits_addWord_mark (p.isWord_mark hp) rest
  have htext : p.text ++ rest = a :: b :: c :: p.mark :: rest := by
    rw [Piece.text, hword]
    rfl
  have hfirst : (wordMayBegin before && addWord.fits (a :: b :: c :: p.mark :: rest)) = true := by
    rw [hbefore]
    exact hhere
  rw [htext, clausesFrom, if_pos hfirst, clausesFrom, clausesFrom, clausesFrom, hmark, Bool.and_false,
    if_neg Bool.false_ne_true]
  rfl

/-- **The clauses of a text of words and marks** are the texts of what is between the words `ADD`. -/
theorem clausesFrom_spell (front : List Piece) {ps : List Piece} (hps : ∀ p ∈ ps, p.Plain) {before : Option Char}
    (hbefore : wordMayBegin before = true) :
    clausesFrom 0 before (some (spell front).reverse) (spell ps) = (cutPieces front ps).map spell := by
  induction ps generalizing front before with
  | nil =>
    change [(spell front).reverse.reverse] = [spell front]
    rw [List.reverse_reverse]
  | cons p ps ih =>
    obtain ⟨hp, hps⟩ := List.forall_mem_cons.1 hps
    have hspell : spell (p :: ps) = p.text ++ spell ps := List.flatMap_cons
    have hmark := p.wordMayBegin_mark hp
    rw [hspell, cutPieces]
    split
    · next hadd =>
      have hlone : [p.mark] = (spell [Piece.lone p.mark]).reverse := rfl
      rw [clausesFrom_add hp hadd hbefore, hlone, ih _ hps hmark, Option.map_some, List.reverse_reverse]
      rfl
    · next hadd =>
      have hfront : p.text.reverse ++ (spell front).reverse = (spell (front ++ [p])).reverse := by
        rw [spell_append, List.reverse_append]
        exact congrArg (· ++ _) (congrArg List.reverse (List.append_nil p.text).symm)
      rw [clausesFrom_other hp (Bool.eq_false_iff.2 hadd), Option.map_some, hfront, ih _ hps hmark]

/-- Behind the word `ADD` at the front of a text. -/
theorem clauses_spell {p : Piece} (hp : p.Plain) (hadd : isAdd p = true) {ps : List Piece} (hps : ∀ p ∈ ps, p.Plain) :
    clauses (spell (Piece.lone ' ' :: p :: ps)) = (cutPieces [Piece.lone p.mark] ps).map spell := by
  have hspace : (Piece.lone ' ').Plain := Piece.plain_lone (by decide)
  have htext : spell (Piece.lone ' ' :: p :: ps) = (Piece.lone ' ').text ++ (p.text ++ spell ps) := by
    rw [spell, List.flatMap_cons, List.flatMap_cons]
    rfl
  have hlone : [p.mark] = (spell [Piece.lone p.mark]).reverse := rfl
  rw [clauses, htext, clausesFrom_other hspace (by decide), clausesFrom_add hp hadd rfl, hlone,
    clausesFrom_spell _ hps (p.wordMayBegin_mark hp)]
  rfl

/-! ## What is cut -/

theorem cutPieces_eq_singleton (front : List Piece) {ps : List Piece} (h : ∀ p ∈ ps, isAdd p = false) :
    cutPieces front ps = [front ++ ps] := by
  induction ps generalizing front with
  | nil => rw [cutPieces, List.append_nil]
  | cons p ps ih =>
    obtain ⟨hp, hps⟩ := List.forall_mem_cons.1 h
    rw [cutPieces, hp, if_neg Bool.false_ne_true, ih _ hps, List.append_assoc, List.singleton_append]

/-- The first clause ends in front of the first word `ADD`. -/
theorem cutPieces_append_cons (front : List Piece) {ps : List Piece} (h : ∀ p ∈ ps, isAdd p = false) {p : Piece}
    (hp : isAdd p = true) (qs : List Piece) :
    cutPieces front (ps ++ p :: qs) = (front ++ ps) :: cutPieces [Piece.lone p.mark] qs := by
  induction ps generalizing front with
  | nil => rw [List.nil_append, cutPieces, if_pos hp, List.append_nil]
  | cons q ps ih =>
    obtain ⟨hq, hps⟩ := List.forall_mem_cons.1 h
    rw [List.cons_append, cutPieces, hq, if_neg Bool.false_ne_true, ih _ hps, List.append_assoc, List.singleton_append]

/-- The pieces of a clause are those that are cut, and the mark of a word `ADD`. -/
theorem mem_of_mem_cutPieces {front ps clause : List Piece} (h : clause ∈ cutPieces front ps) {q : Piece} (hq : q ∈ clause) :
    q ∈ front ∨ q ∈ ps ∨ ∃ r ∈ ps, q = Piece.lone r.mark := by
  induction ps generalizing front with
  | nil =>
    obtain rfl := List.mem_singleton.1 h
    exact .inl hq
  | cons p ps ih =>
    have hlater : q ∈ ps ∨ (∃ r ∈ ps, q = Piece.lone r.mark) →
        q ∈ front ∨ q ∈ p :: ps ∨ ∃ r ∈ p :: ps, q = Piece.lone r.mark := by
      rintro (hps | ⟨r, hr, hlone⟩)
      · exact .inr (.inl (List.mem_cons_of_mem p hps))
      · exact .inr (.inr ⟨r, List.mem_cons_of_mem p hr, hlone⟩)
    rw [cutPieces] at h
    split at h
    · rcases List.mem_cons.1 h with rfl | h
      · exact .inl hq
      · rcases ih h with hlone | hps
        · exact .inr (.inr ⟨p, List.mem_cons_self .., List.mem_singleton.1 hlone⟩)
        · exact hlater hps
    · rcases ih h with hfront | hps
      · rcases List.mem_append.1 hfront with hfront | hp
        · exact .inl hfront
        · exact .inr (.inl (List.mem_singleton.1 hp ▸ List.mem_cons_self ..))
      · exact hlater hps

/-- The key in the text of a clause, if it holds one. -/
def keyOf (clause : List Piece) : Option ForeignKey := (Reference.foreignKey? (spell clause)).value

/-- The keys behind the word `ADD` at the front of a text. -/
theorem keysOf_spell {p : Piece} (hp : p.Plain) (hadd : isAdd p = true) {ps : List Piece} (hps : ∀ p ∈ ps, p.Plain) :
    keysOf (spell (Piece.lone ' ' :: p :: ps)) = (cutPieces [Piece.lone p.mark] ps).filterMap keyOf := by
  rw [keysOf, clauses_spell hp hadd hps, List.filterMap_map]
  rfl

end Alteration

/-! ## A key that is written out -/

/-- A bare name in front of something else than a point is a whole name. -/
theorem Identifier.qualified_append {name : List Char} (hne : name ≠ []) (hname : ∀ c ∈ name, isBareChar c = true)
    {rest : List Char} (hrest : ∀ c ∈ rest.head?, isBareChar c = false)
    (hpoint : (blanks >> char '.' >> blanks >> part) rest = none) : qualified (name ++ rest) = some name.length := by
  rw [qualified, andThen_of_eq_some (part_append hne hname hrest), List.drop_left, star_eq_zero hpoint]
  rfl

/-- A text without the separator is one piece. -/
theorem Text.splitAtChar_of_not_mem {separator : Char} {cs : List Char} (h : separator ∉ cs) :
    splitAtChar separator cs = [cs] := by
  induction cs with
  | nil => rfl
  | cons c rest ih =>
    obtain ⟨hc, hrest⟩ := not_or.1 (mt List.mem_cons.2 h)
    rw [splitAtChar, ih hrest]
    exact if_neg (by simpa using Ne.symm hc)

/-- What is written without a comma is one name. -/
theorem Identifier.names_of_not_mem {cs : List Char} (hcomma : ',' ∉ cs) (hinked : cs.any (! isBlank ·) = true) :
    names cs = [String.ofList (bareName cs)] := by
  have hfilter : [cs].filter (·.any (! isBlank ·)) = [cs] := List.filter_eq_self.2 (List.forall_mem_singleton.2 hinked)
  rw [names, splitAtChar_of_not_mem hcomma, hfilter]
  rfl

namespace Reference

theorem begins_keyColumns : keyColumns.Begins "foreign" :=
  Reader.begins_skip_bind (fun _ h => andThen_eq_none (phrase_eq_none h "key" [])) _

theorem begins_target : target.Begins "references" :=
  Reader.begins_skip_bind (fun _ h => keyword_blanks1_eq_none h) _

theorem begins_constraintName : constraintName.Begins "constraint" :=
  Reader.begins_skip_bind (fun _ h => keyword_blanks1_eq_none h) _

/-- **Without the word `FOREIGN` there is no key.** -/
theorem keyOf_eq_none {clause : List Piece} (h : ∀ p ∈ clause, p.Plain ∧ wholeWord "foreign" p.word = none) :
    Alteration.keyOf clause = none := by
  have hcolumns : searchWord keyColumns (spell clause) = none :=
    searchWord_spell_eq_none (fun p hp => (h p hp).1)
      (fun p hp => Piece.avoids begins_keyColumns (by decide) (h p hp).1 (h p hp).2) rfl
  rw [Alteration.keyOf, foreignKey?, hcolumns]
  rfl

/-- What is cut from pieces without that word holds none. -/
theorem filterMap_keyOf_eq_nil {ps : List Piece} (hps : ∀ p ∈ ps, p.Plain ∧ wholeWord "foreign" p.word = none)
    {mark : Char} (hmark : mark ∈ [' ', '(', ')', ';']) :
    (Alteration.cutPieces [.lone mark] ps).filterMap Alteration.keyOf = [] := by
  have hlone : ∀ {mark : Char}, mark ∈ [' ', '(', ')', ';'] →
      (Piece.lone mark).Plain ∧ wholeWord "foreign" (Piece.lone mark).word = none := fun hmark =>
    ⟨Piece.plain_lone hmark, wholeWord_nil (by decide)⟩
  rw [List.filterMap_eq_nil_iff]
  intro clause hclause
  refine keyOf_eq_none fun q hq => ?_
  rcases Alteration.mem_of_mem_cutPieces hclause hq with hfront | hmem | ⟨r, hr, rfl⟩
  · rw [List.mem_singleton.1 hfront]
    exact hlone hmark
  · exact hps q hmem
  · exact hlone (hps r hr).1.mark

theorem listInParentheses_append {inner : List Char} (hne : inner ≠ []) (h : ∀ c ∈ inner, (c != ')') = true)
    (tail : List Char) : listInParentheses ('(' :: (inner ++ ')' :: tail)) = some (inner, tail) := by
  have hinner : many1 (· != ')') (inner ++ ')' :: tail) = some inner.length := by
    refine many1_eq_some.2 ⟨List.length_pos_iff.2 hne, ?_⟩
    rw [takeWhile_append_cons h (by decide)]
  have hopen : char '(' ('(' :: (inner ++ ')' :: tail)) = some 1 := rfl
  have hclose : char ')' (')' :: tail) = some 1 := rfl
  rw [listInParentheses, Reader.skip_bind, hopen, Option.bind_some, List.drop_one, List.tail_cons, Reader.take_bind,
    hinner, Option.bind_some, List.take_left, List.drop_left, Reader.skip_bind, hclose]
  rfl

theorem listInParentheses_cons {c : Char} (hc : c ≠ '(') (rest : List Char) : listInParentheses (c :: rest) = none := by
  rw [listInParentheses, Reader.skip_bind, char_cons_of_ne hc]
  rfl

/-- The columns of a key. -/
theorem keyColumns_append {inner : List Char} (hne : inner ≠ []) (h : ∀ c ∈ inner, (c != ')') = true)
    (tail : List Char) : keyColumns ("FOREIGN KEY (".toList ++ (inner ++ ')' :: tail)) = some (inner, tail) := by
  have hwords : ∀ rest, (phrase ["foreign", "key"] >> blanks) ("FOREIGN KEY ".toList ++ '(' :: rest) = some 12 :=
    fun rest => rfl
  rw [keyColumns, listAfter, Reader.skip_bind]
  refine (congrArg (Option.bind · _) (hwords _)).trans ?_
  exact listInParentheses_append hne h tail

/-- The table that a key refers to, and its columns. -/
theorem target_append {table inner : List Char} (htable : Ident.Plain table) (hne : inner ≠ [])
    (h : ∀ c ∈ inner, (c != ')') = true) (tail : List Char) :
    target ("REFERENCES ".toList ++ (table ++ '(' :: (inner ++ ')' :: tail))) = some ((table, inner), tail) := by
  have hwords : (keyword "references" >> blanks1) ("REFERENCES ".toList ++ (table ++ '(' :: (inner ++ ')' :: tail))) =
      some 11 := andThen_space "REFERENCES".toList rfl (htable.isBlank_head? _)
  have hname : Identifier.qualified (table ++ '(' :: (inner ++ ')' :: tail)) = some table.length :=
    Identifier.qualified_append htable.ne_nil htable.isBareChar (by rintro c ⟨⟩; decide) rfl
  have hblanks : blanks ('(' :: (inner ++ ')' :: tail)) = some 0 := rfl
  rw [target, Reader.skip_bind, hwords, Option.bind_some]
  change (Reader.take Identifier.qualified >>= _) (table ++ '(' :: (inner ++ ')' :: tail)) = _
  rw [Reader.take_bind, hname, Option.bind_some, List.take_left, List.drop_left, Reader.skip_bind, hblanks,
    Option.bind_some, List.drop_zero]
  change (listOrNone ('(' :: (inner ++ ')' :: tail))).bind _ = _
  rw [listOrNone, listInParentheses_append hne h]
  rfl

/-- The name of a constraint. -/
theorem constraintName_append {name : List Char} (hname : Ident.Plain name) (tail : List Char) :
    constraintName ("CONSTRAINT ".toList ++ (name ++ ' ' :: tail)) = some (name, ' ' :: tail) := by
  have hwords : (keyword "constraint" >> blanks1) ("CONSTRAINT ".toList ++ (name ++ ' ' :: tail)) = some 11 :=
    andThen_space "CONSTRAINT".toList rfl (hname.isBlank_head? _)
  have hpart : Identifier.part (name ++ ' ' :: tail) = some name.length :=
    Identifier.part_append hname.ne_nil hname.isBareChar (by rintro c ⟨⟩; decide)
  rw [constraintName, Reader.skip_bind, hwords, Option.bind_some]
  change Reader.take Identifier.part (name ++ ' ' :: tail) = _
  rw [Reader.take, hpart, Option.map_some, List.take_left, List.drop_left]

/-- A list of one name. -/
theorem names_eq_singleton {name : List Char} (hname : Ident.Plain name) :
    Identifier.names name = [String.ofList name] := by
  have hcomma : ',' ∉ name := fun hc => absurd (hname.isBareChar _ hc) (by decide)
  have hinked : name.any (! isBlank ·) = true := by
    obtain ⟨c, rest, rfl, -⟩ := hname.begins
    rw [List.any_cons, hname.isBlank c (List.mem_cons_self ..)]
    rfl
  rw [Identifier.names_of_not_mem hcomma hinked, hname.bareName_eq_self]

end Reference

/-! ## The heading -/

namespace Heading

/-- A name is looked for without optional words where these do not fit. -/
theorem nameAfter_of_eq_none {optionalWords : Pattern} {cs : List Char} (h : optionalWords cs = none)
    (others : List Pattern) : nameAfter (optionalWords :: others) cs = nameAfter others cs := by
  have hnone : (Reader.skip optionalWords >>= fun _ => Reader.take Identifier.qualified) cs = none := by
    rw [Reader.skip_bind, h]
    rfl
  rw [nameAfter]
  dsimp only
  rw [hnone]

/-- A name is taken behind optional words that fit. -/
theorem nameAfter_of_eq_some {optionalWords : Pattern} (words : List Char) {name rest : List Char}
    (hwords : optionalWords (words ++ (name ++ rest)) = some words.length)
    (hname : Identifier.qualified (name ++ rest) = some name.length) (others : List Pattern) :
    nameAfter (optionalWords :: others) (words ++ (name ++ rest)) = some (name, rest) := by
  have hsome : (Reader.skip optionalWords >>= fun _ => Reader.take Identifier.qualified) (words ++ (name ++ rest)) =
      some (name, rest) := by
    rw [Reader.skip_bind, hwords, Option.bind_some, List.drop_left, Reader.take, hname, Option.map_some,
      List.take_left, List.drop_left]
  rw [nameAfter]
  dsimp only
  rw [hsome]

/-- The word behind `ALTER TABLE`. -/
theorem altered_eq_nameAfter {rest : List Char} (h : ∀ c ∈ rest.head?, isBlank c = false) :
    altered ("ALTER TABLE ".toList ++ rest) = nameAfter [ifExists >> only, ifExists, only, Pattern.empty] rest := by
  have hwords : (phrase ["alter", "table"] >> blanks1) ("ALTER TABLE".toList ++ ' ' :: rest) = some 12 :=
    andThen_space _ rfl h
  rw [altered, Reader.skip_bind]
  exact congrArg (Option.bind · _) hwords

/-- **The table that is altered**, unless its name is one of the optional words. -/
theorem altered_append {table : List Char} (htable : Ident.Plain table) (hif : table ≠ "if".toList)
    (honly : table ≠ "only".toList) (tail : List Char) :
    altered ("ALTER TABLE ".toList ++ (table ++ ' ' :: 'A' :: tail)) = some (table, ' ' :: 'A' :: tail) := by
  have hword : ∀ {k : String}, isKeyword k = true → table ≠ k.toList →
      wholeWord k (table ++ ' ' :: 'A' :: tail) = none := fun hk hne =>
    (wholeWord_append hk table (by decide) _).trans (htable.wholeWord_eq_none hne)
  have hifExists : ifExists (table ++ ' ' :: 'A' :: tail) = none :=
    andThen_eq_none (phrase_eq_none (hword (by decide) hif) "exists" [])
  have hnone : only (table ++ ' ' :: 'A' :: tail) = none := keyword_blanks1_eq_none (hword (by decide) honly)
  have hname : Identifier.qualified (table ++ ' ' :: 'A' :: tail) = some table.length :=
    Identifier.qualified_append htable.ne_nil htable.isBareChar (by rintro c ⟨⟩; decide) rfl
  rw [altered_eq_nameAfter (htable.isBlank_head? _), nameAfter_of_eq_none (andThen_eq_none hifExists),
    nameAfter_of_eq_none hifExists, nameAfter_of_eq_none hnone]
  exact nameAfter_of_eq_some [] rfl hname []

/-- The word `only` is passed over, and the next word is taken for the table. -/
theorem altered_only (tail : List Char) :
    altered ("ALTER TABLE ".toList ++ ("only".toList ++ " ADD C".toList ++ tail)) =
      some ("ADD".toList, " C".toList ++ tail) := by
  have hifExists : ifExists ("only ".toList ++ ("ADD".toList ++ ' ' :: 'C' :: tail)) = none := rfl
  have honly : only ("only ".toList ++ ("ADD".toList ++ ' ' :: 'C' :: tail)) = some "only ".toList.length := rfl
  have hname : Identifier.qualified ("ADD".toList ++ ' ' :: 'C' :: tail) = some "ADD".toList.length :=
    Identifier.qualified_append (by decide) (List.all_eq_true.1 (by decide)) (by rintro c ⟨⟩; decide) rfl
  have hhead : ∀ c ∈ ("only ".toList ++ ("ADD".toList ++ ' ' :: 'C' :: tail)).head?, isBlank c = false := by
    rintro c ⟨⟩
    decide
  refine (altered_eq_nameAfter hhead).trans ?_
  rw [nameAfter_of_eq_none (andThen_eq_none hifExists), nameAfter_of_eq_none hifExists]
  exact nameAfter_of_eq_some _ honly hname [Pattern.empty]

end Heading

/-- What is read of a statement, told by its heading and its clauses. -/
theorem Alteration.value_read {statement written rest : List Char}
    (h : Heading.altered statement = some (written, rest)) :
    (read statement).value =
      if (keysOf rest).isEmpty then
        .error (.statement (.noForeignKey (String.ofList (Identifier.bareName written))) statement)
      else .ok ⟨String.ofList (Identifier.bareName written), keysOf rest⟩ := by
  have hkeys : ((clauses rest).map Reference.foreignKey?).filterMap (·.value) = keysOf rest := List.filterMap_map ..
  rw [read, h]
  dsimp only
  rw [hkeys]
  split <;> rfl

end SchemaSketch
