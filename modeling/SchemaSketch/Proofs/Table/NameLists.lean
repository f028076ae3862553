import SchemaSketch.Proofs.Table.Alterations
import SchemaSketch.Proofs.Text.Cased

/-!
# Lists of plain names

A list of plain names is written with commas between the names and blanks behind the commas (`PlainName.listed`).
Each name stands for itself, so the list is read back whole (`PlainName.names_listed`).
-/

namespace SchemaSketch

open Text Pattern

/-- A plain name: ASCII letters, digits and low lines, and no digit at the front. -/
structure PlainName where
  /-- its characters -/
  text : List Char
  begins : ∃ c rest, text = c :: rest ∧ (c.isAlpha || c == '_') = true
  chars : ∀ c ∈ text, isNameChar c = true

/-- Blanks do not belong to a name. -/
theorem Identifier.bareName_blank_append {gap : List Char} (hgap : Blank gap) (name : List Char) :
    bareName (gap ++ name) = bareName name := by
  have hkept : gap.filter (· != zeroWidthSpace) = gap := by
    refine List.filter_eq_self.2 fun c hc => bne_iff_ne.2 ?_
    rintro rfl
    exact absurd (hgap _ hc) (by decide +kernel)
  rw [bareName, bareName, List.filter_append, hkept, trim_blank_append hgap]

/-- A text is cut at its first separator. -/
theorem Text.splitAtChar_append {separator : Char} {a : List Char} (ha : separator ∉ a) (b : List Char) :
    splitAtChar separator (a ++ separator :: b) = a :: splitAtChar separator b := by
  induction a with
  | nil =>
    obtain ⟨piece, pieces, hb⟩ : ∃ piece pieces, splitAtChar separator b = piece :: pieces := by
      cases b with
      | nil => exact ⟨_, _, rfl⟩
      | cons c b =>
        rw [splitAtChar]
        split
        · exact ⟨_, _, rfl⟩
        · split <;> exact ⟨_, _, rfl⟩
    rw [List.nil_append, splitAtChar, hb]
    exact if_pos (beq_self_eq_true separator)
  | cons c a ih =>
    obtain ⟨hc, ha⟩ := not_or.1 (mt List.mem_cons.2 ha)
    rw [List.cons_append, splitAtChar, ih ha]
    exact if_neg (by simpa using Ne.symm hc)

/-- The name in front of a comma is the first one. -/
theorem Identifier.names_append {a : List Char} (hcomma : ',' ∉ a) (hinked : a.any (! isBlank ·) = true) (b : List Char) :
    names (a ++ ',' :: b) = String.ofList (bareName a) :: names b := by
  have hfilter : ∀ pieces : List (List Char), (a :: pieces).filter (·.any (! isBlank ·)) =
      a :: pieces.filter (·.any (! isBlank ·)) := fun pieces => List.filter_cons_of_pos hinked
  rw [names, splitAtChar_append hcomma, hfilter]
  rfl

theorem Identifier.isBareChar_of_isNameChar {c : Char} (hc : isNameChar c = true) : isBareChar c = true := by
  rw [isBareChar, isWord_of_isNameChar hc]
  rfl

namespace PlainName

theorem ne_nil (n : PlainName) : n.text ≠ [] := by
  obtain ⟨c, rest, h, -⟩ := n.begins
  rw [h]
  exact List.cons_ne_nil c rest

theorem isBareChar (n : PlainName) : ∀ c ∈ n.text, Identifier.isBareChar c = true := fun c hc =>
  Identifier.isBareChar_of_isNameChar (n.chars c hc)

/-- What is no character of names is in no name. -/
theorem not_mem (n : PlainName) {c : Char} (hc : isNameChar c = false) : c ∉ n.text := fun h => by
  rw [n.chars c h] at hc
  cases hc

theorem isBlank (n : PlainName) : ∀ c ∈ n.text, Text.isBlank c = false := fun c hc =>
  isBlank_of_isNameChar (n.chars c hc)

theorem isBlank_head? (n : PlainName) (rest : List Char) : ∀ c ∈ (n.text ++ rest).head?, Text.isBlank c = false := by
  obtain ⟨c, more, h, -⟩ := n.begins
  rw [h]
  rintro c ⟨⟩
  exact n.isBlank _ (h ▸ List.mem_cons_self ..)

/-- A plain name stands for itself. -/
theorem bareName_eq_self (n : PlainName) : Identifier.bareName n.text = n.text :=
  Identifier.bareName_eq_self n.ne_nil n.isBareChar

/-! ## Lists -/

/-- Names with commas between them, and blanks behind each comma. -/
def listed (gap : List Char) : List PlainName → List Char
  | [] => []
  | [n] => n.text
  | n :: m :: rest => n.text ++ ',' :: (gap ++ listed gap (m :: rest))

variable {gap : List Char}

theorem listed_ne_nil {ns : List PlainName} (hne : ns ≠ []) : listed gap ns ≠ [] := by
  match ns with
  | [] => exact absurd rfl hne
  | [n] => exact n.ne_nil
  | n :: m :: rest => exact List.append_ne_nil_of_left_ne_nil n.ne_nil _

theorem not_mem_listed {c : Char} (hc : isNameChar c = false) (hcomma : c ≠ ',') (hgap : c ∉ gap) (ns : List PlainName) :
    c ∉ listed gap ns := by
  induction ns with
  | nil => exact List.not_mem_nil
  | cons n rest ih =>
    cases rest with
    | nil => exact n.not_mem hc
    | cons m rest =>
      rw [listed, List.mem_append, List.mem_cons, List.mem_append]
      rintro (h | h | h | h)
      · exact n.not_mem hc h
      · exact hcomma h
      · exact hgap h
      · exact ih h

variable (hgap : Blank gap)

include hgap

/-- **A list of names is read back whole.** -/
theorem names_listed (ns : List PlainName) : Identifier.names (listed gap ns) = ns.map fun n => String.ofList n.text := by
  -- behind a comma there are blanks in front of the rest of the list
  have hfront : ∀ {front : List Char}, Blank front → ∀ ns : List PlainName,
      Identifier.names (front ++ listed gap ns) = ns.map fun n => String.ofList n.text := by
    intro front hblank ns
    induction ns generalizing front with
    | nil =>
      have hfree : ',' ∉ front := fun h => absurd (hblank _ h) (by decide)
      have hnone : front.any (! Text.isBlank ·) = false := List.any_eq_false.2 fun c hc => by simp [hblank c hc]
      have hfilter : [front].filter (·.any (! Text.isBlank ·)) = [] := List.filter_cons_of_neg (by simp [hnone])
      rw [listed, List.append_nil, Identifier.names, splitAtChar_of_not_mem hfree, hfilter]
      rfl
    | cons n rest ih =>
      have hcomma : ',' ∉ front ++ n.text := fun h => (List.mem_append.1 h).elim
        (fun h => absurd (hblank _ h) (by decide)) (n.not_mem (by decide))
      have hinked : (front ++ n.text).any (! Text.isBlank ·) = true := by
        obtain ⟨c, more, h, -⟩ := n.begins
        rw [List.any_append, h, List.any_cons, n.isBlank c (h ▸ List.mem_cons_self ..)]
        exact Bool.or_true _
      have hbare : Identifier.bareName (front ++ n.text) = n.text :=
        (Identifier.bareName_blank_append hblank n.text).trans n.bareName_eq_self
      cases rest with
      | nil => rw [listed, Identifier.names_of_not_mem hcomma hinked, hbare, List.map_singleton]
      | cons m rest =>
        rw [listed, ← List.append_assoc, Identifier.names_append hcomma hinked, hbare, ih hgap]
        rfl
  exact hfront (fun c hc => absurd hc List.not_mem_nil) ns

/-- A list lacks the keywords that no name of it spells. -/
theorem lacks_listed {k : String} (hk : isKeyword k = true) {ns : List PlainName} (hns : ∀ n ∈ ns, ¬ Spells n.text k) :
    Lacks k (listed gap ns) := by
  induction ns with
  | nil => exact lacks_nil hk
  | cons n rest ih =>
    obtain ⟨hn, hrest⟩ := List.forall_mem_cons.1 hns
    cases rest with
    | nil => exact lacks_name hk n.chars hn
    | cons m rest =>
      rw [listed, lacks_append hk (by decide), lacks_blank_append hk hgap]
      exact ⟨lacks_name hk n.chars hn, ih hrest⟩

end PlainName
end SchemaSketch
