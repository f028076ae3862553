import Mathlib
import SchemaSketch.Json.Printer
import SchemaSketch.Json.Reader

/-!
# Strings that are written and read

A string is written character by character, and each escape is long enough to be told from what follows.
So the reader takes one round for each character that was written, whatever its escape, and one for the
closing quote: `readString_escaped`. All that is written is ASCII (`isWritten_of_mem_stringText`).
-/

namespace SchemaSketch.Json

open Text

/-! ## Escapes by number -/

/-- The last figure of a number can be taken off while another one is due. -/
theorem hexDigits_add_two (width n : Nat) :
    hexDigits (width + 2) n = hexDigits (width + 1) (n / 16) ++ [(n % 16).digitChar] := by
  rw [hexDigits, hexDigits]
  by_cases h : n < 16
  · rw [Nat.toDigits_of_lt_base h, Nat.div_eq_of_lt h, Nat.mod_eq_of_lt h, Nat.toDigits_zero]
    change List.replicate (width + 1) '0' ++ _ = List.replicate width '0' ++ ['0'] ++ _
    rw [List.replicate_succ']
  · rw [Nat.toDigits_of_base_le (by omega) (by omega), List.length_append, List.length_singleton,
      List.append_assoc, show width + 2 - ((Nat.toDigits 16 (n / 16)).length + 1)
        = width + 1 - (Nat.toDigits 16 (n / 16)).length by omega]

theorem hexDigits_one {n : Nat} (hn : n < 16) : hexDigits 1 n = [n.digitChar] := by
  rw [hexDigits, Nat.toDigits_of_lt_base hn]
  rfl

/-- Four figures are written for a number that four are enough for. -/
theorem hexDigits_four {n : Nat} (hn : n < 0x10000) :
    hexDigits 4 n = [(n / 16 / 16 / 16).digitChar, (n / 16 / 16 % 16).digitChar, (n / 16 % 16).digitChar,
      (n % 16).digitChar] := by
  rw [hexDigits_add_two, hexDigits_add_two, hexDigits_add_two, hexDigits_one (by omega)]
  rfl

theorem hexValue?_digitChar {d : Nat} (hd : d < 16) : hexValue? d.digitChar = some d := by
  revert d
  decide

theorem hex4?_figures {n : Nat} (hn : n < 0x10000) :
    hex4? (n / 16 / 16 / 16).digitChar (n / 16 / 16 % 16).digitChar (n / 16 % 16).digitChar
      (n % 16).digitChar = some n := by
  rw [hex4?, hexValue?_digitChar (by omega), hexValue?_digitChar (by omega),
    hexValue?_digitChar (by omega), hexValue?_digitChar (by omega)]
  exact congrArg some (by omega)

/-- A unit that is no half of a pair is read as its character. -/
theorem unicodeEscape_unit {n : Nat} (hn : n < 0x10000) (hhigh : isHighHalf n = false)
    (hlow : isLowHalf n = false) (left : Nat) (next : Char) (rest : List Char) :
    unicodeEscape left (hexDigits 4 n ++ next :: rest) = .ok (Char.ofNat n, next :: rest) := by
  rw [hexDigits_four hn]
  simp [unicodeEscape, hex4?_figures hn, hhigh, charOfUnit, hlow]

/-- Two halves are read as one character. -/
theorem unicodeEscape_pair {high low : Nat} (hhigh : isHighHalf high = true) (hlow : isLowHalf low = true)
    (left : Nat) (next : Char) (rest : List Char) :
    unicodeEscape left (hexDigits 4 high ++ (escapeUnit low ++ next :: rest))
      = .ok (Char.ofNat (0x10000 + (high - 0xD800) * 0x400 + (low - 0xDC00)), next :: rest) := by
  have hh : high < 0x10000 := by simp [isHighHalf] at hhigh; omega
  have hl : low < 0x10000 := by simp [isLowHalf] at hlow; omega
  rw [escapeUnit, hexDigits_four hh, hexDigits_four hl]
  simp [unicodeEscape, hex4?_figures hh, hex4?_figures hl, hhigh, hlow]

/-! ## Strings -/

section

variable (opened rounds : Nat)

theorem readChars_shortEscape {e c : Char} (he : shortEscape? e = some c) (rest : List Char) :
    readChars opened (rounds + 1) ('\\' :: e :: rest)
      = (readChars opened rounds rest).map fun (cs, others) => (c :: cs, others) := by
  have hu : (e == 'u') = false := by
    rw [beq_eq_false_iff_ne]
    rintro rfl
    cases he
  simp [readChars, hu, he]

theorem readChars_unicodeEscape {c : Char} {text after : List Char}
    (h : unicodeEscape (text.length + 1) text = .ok (c, after)) :
    readChars opened (rounds + 1) ('\\' :: 'u' :: text)
      = (readChars opened rounds after).map fun (cs, others) => (c :: cs, others) := by
  simp [readChars, h]

theorem readChars_pair {high low : Nat} (hhigh : isHighHalf high = true) (hlow : isLowHalf low = true)
    (next : Char) (rest : List Char) :
    readChars opened (rounds + 1) (escapeUnit high ++ escapeUnit low ++ next :: rest)
      = (readChars opened rounds (next :: rest)).map fun (cs, others) =>
        (Char.ofNat (0x10000 + (high - 0xD800) * 0x400 + (low - 0xDC00)) :: cs, others) := by
  rw [List.append_assoc]
  exact readChars_unicodeEscape opened rounds (unicodeEscape_pair hhigh hlow _ next rest)

theorem readChars_plain {c : Char} (hquote : c ≠ '"') (hbackslash : c ≠ '\\') (hcontrol : 0x20 ≤ c.toNat)
    (rest : List Char) :
    readChars opened (rounds + 1) (c :: rest)
      = (readChars opened rounds rest).map fun (cs, others) => (c :: cs, others) := by
  simp [readChars, hquote, hbackslash, Nat.not_lt.2 hcontrol]

/-- An escaped character is read back in one round. -/
theorem readChars_escapeChar (c next : Char) (rest : List Char) :
    readChars opened (rounds + 1) (escapeChar c ++ next :: rest)
      = (readChars opened rounds (next :: rest)).map fun (cs, others) => (c :: cs, others) := by
  have hvalid : c.toNat < 0xD800 ∨ 0xDFFF < c.toNat ∧ c.toNat < 0x110000 := c.valid
  have hself : Char.ofNat c.toNat = c := Char.ofNat_toNat c
  -- the escapes by a letter come first, each with the letter that is read as the character
  have short {e : Char} (he : shortEscape? e = some c) := readChars_shortEscape opened rounds he (next :: rest)
  unfold escapeChar
  split_ifs with hquote hbackslash hline hreturn htab hfeed hback hplain hunit
  · exact short (by rw [beq_iff_eq.1 hquote]; rfl)
  · exact short (by rw [beq_iff_eq.1 hbackslash]; rfl)
  · exact short (by rw [beq_iff_eq.1 hline]; rfl)
  · exact short (by rw [beq_iff_eq.1 hreturn]; rfl)
  · exact short (by rw [beq_iff_eq.1 htab]; rfl)
  · exact short (by rw [← hself, beq_iff_eq.1 hfeed]; rfl)
  · exact short (by rw [← hself, beq_iff_eq.1 hback]; rfl)
  · exact readChars_plain opened rounds (by simpa using hquote) (by simpa using hbackslash)
      (by simp at hplain; omega) (next :: rest)
  · have hread := unicodeEscape_unit hunit (by simp [isHighHalf]; omega) (by simp [isLowHalf]; omega)
      ((hexDigits 4 c.toNat ++ next :: rest).length + 1) next rest
    rw [hself] at hread
    exact readChars_unicodeEscape opened rounds hread
  · -- the two halves hold ten bits each of what lies beyond the first plane
    have hhigh : isHighHalf (0xD800 + (c.toNat - 0x10000) / 0x400) = true := by simp [isHighHalf]; omega
    have hlow : isLowHalf (0xDC00 + (c.toNat - 0x10000) % 0x400) = true := by simp [isLowHalf]; omega
    have hread := readChars_pair opened rounds hhigh hlow next rest
    rwa [show 0x10000 + (0xD800 + (c.toNat - 0x10000) / 0x400 - 0xD800) * 0x400
      + (0xDC00 + (c.toNat - 0x10000) % 0x400 - 0xDC00) = c.toNat by omega, hself] at hread

end

/-- What stands between the quotes of a written string is read back, in as many rounds as the string has
characters and one more for the closing quote. -/
theorem readChars_escaped (opened : Nat) (cs : List Char) {rounds : Nat} (hrounds : cs.length < rounds)
    (rest : List Char) :
    readChars opened rounds (cs.flatMap escapeChar ++ '"' :: rest) = .ok (cs, rest) := by
  induction cs generalizing rounds with
  | nil =>
    obtain ⟨more, rfl⟩ := Nat.exists_eq_add_of_lt hrounds
    simp [readChars]
  | cons c cs ih =>
    obtain ⟨more, rfl⟩ : ∃ more, rounds = more + 1 := ⟨rounds - 1, by simp at hrounds; omega⟩
    have hmore : cs.length < more := by simp at hrounds; omega
    -- something follows every escape: the next one, or the closing quote
    obtain ⟨next, others, hnext⟩ : ∃ next others, cs.flatMap escapeChar ++ '"' :: rest = next :: others :=
      List.exists_cons_of_ne_nil (by simp)
    rw [List.flatMap_cons, List.append_assoc, hnext, readChars_escapeChar, ← hnext, ih hmore]
    rfl

theorem escapeChar_ne_nil (c : Char) : escapeChar c ≠ [] := by
  unfold escapeChar
  split_ifs <;> exact List.cons_ne_nil _ _

theorem length_le_length_escaped (cs : List Char) : cs.length ≤ (cs.flatMap escapeChar).length := by
  induction cs with
  | nil => exact le_refl _
  | cons c cs ih =>
    have := List.length_pos_iff.2 (escapeChar_ne_nil c)
    simp only [List.flatMap_cons, List.length_append, List.length_cons]
    omega

/-- A written string is read back from behind its opening quote. -/
theorem readString_escaped (s : String) (rest : List Char) :
    readString (s.toList.flatMap escapeChar ++ '"' :: rest) = .ok (s, rest) := by
  have := length_le_length_escaped s.toList
  rw [readString, readChars_escaped _ _ (by simp only [List.length_append, List.length_cons]; omega)]
  simp only [Except.map, String.ofList_toList]

/-! ## The characters of written text -/

/-- A character that may stand in written text: a line end, or printable ASCII. -/
def isWritten (c : Char) : Bool := c == '\n' || (32 ≤ c.toNat && c.toNat < 127)

theorem isWritten_digitChar {d : Nat} (hd : d < 16) : isWritten d.digitChar = true := by
  revert d
  decide

theorem isWritten_of_mem_escapeUnit {n : Nat} (hn : n < 0x10000) {c : Char} (hc : c ∈ escapeUnit n) :
    isWritten c = true := by
  rw [escapeUnit, hexDigits_four hn] at hc
  simp only [List.mem_cons, List.not_mem_nil, or_false] at hc
  obtain rfl | rfl | rfl | rfl | rfl | rfl := hc
  · rfl
  · rfl
  all_goals exact isWritten_digitChar (by omega)

theorem isWritten_of_mem_shortEscape {e c : Char} (he : isWritten e = true) (hc : c ∈ ['\\', e]) :
    isWritten c = true := by
  obtain rfl | hc := List.mem_cons.1 hc
  · rfl
  · rwa [List.mem_singleton.1 hc]

/-- An escaped character is written in ASCII. -/
theorem isWritten_of_mem_escapeChar {c d : Char} (hd : d ∈ escapeChar c) : isWritten d = true := by
  have hvalid : c.toNat < 0xD800 ∨ 0xDFFF < c.toNat ∧ c.toNat < 0x110000 := c.valid
  unfold escapeChar at hd
  split_ifs at hd with hquote hbackslash hline hreturn htab hfeed hback hplain hunit
  · exact isWritten_of_mem_shortEscape rfl hd
  · exact isWritten_of_mem_shortEscape rfl hd
  · exact isWritten_of_mem_shortEscape rfl hd
  · exact isWritten_of_mem_shortEscape rfl hd
  · exact isWritten_of_mem_shortEscape rfl hd
  · exact isWritten_of_mem_shortEscape rfl hd
  · exact isWritten_of_mem_shortEscape rfl hd
  · rw [List.mem_singleton.1 hd, isWritten, hplain, Bool.or_true]
  · exact isWritten_of_mem_escapeUnit hunit hd
  · obtain hd | hd := List.mem_append.1 hd
    · exact isWritten_of_mem_escapeUnit (by omega) hd
    · exact isWritten_of_mem_escapeUnit (by omega) hd

/-- A string between its quotes is written in ASCII. -/
theorem isWritten_of_mem_stringText {s : String} {c : Char} (hc : c ∈ (stringText s).toList) :
    isWritten c = true := by
  rw [stringText, String.toList_ofList] at hc
  obtain rfl | hc := List.mem_cons.1 hc
  · rfl
  obtain hc | hc := List.mem_append.1 hc
  · obtain ⟨d, -, hc⟩ := List.mem_flatMap.1 hc
    exact isWritten_of_mem_escapeChar hc
  · rw [List.mem_singleton.1 hc]
    rfl

end SchemaSketch.Json
