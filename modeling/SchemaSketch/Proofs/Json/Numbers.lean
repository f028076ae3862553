import Mathlib
import SchemaSketch.Proofs.Json.Strings

/-!
# Whole numbers that are written and read

The text of a whole number is a sign, if it is negative, and its figures in the decimal system. The reader
takes digits as long as there are any, so a number is read back in front of a text only if that text
carries it on neither with digits nor with a fraction or a power of ten (`Stops`).

Only the number zero begins with the figure zero (`head_toDigits`): a reader stops behind that figure when
it comes first.
-/

namespace SchemaSketch.Json

/-- What carries no number on, when it stands behind one. -/
def Stops (rest : List Char) : Prop :=
  ∀ c ∈ rest.head?, c.isDigit = false ∧ c ≠ '.' ∧ c ≠ 'e' ∧ c ≠ 'E'

theorem stops_nil : Stops [] := by simp [Stops]

theorem stops_cons {c : Char} (hc : c = ',' ∨ c = '\n') (rest : List Char) : Stops (c :: rest) := by
  intro d hd
  obtain rfl : c = d := by simpa using hd
  obtain rfl | rfl := hc <;> decide

theorem toList_toString_of_nonneg {i : Int} (hi : 0 ≤ i) : (toString i).toList = Nat.toDigits 10 i.natAbs := by
  rw [Int.toString_eq_repr, Int.repr_eq_if, if_pos hi, Nat.toList_repr,
    show i.toNat = i.natAbs by omega]

theorem toList_toString_of_neg {i : Int} (hi : i < 0) :
    (toString i).toList = '-' :: Nat.toDigits 10 i.natAbs := by
  rw [Int.toString_eq_repr, Int.repr_eq_if, if_neg (by omega), String.toList_append, Nat.toList_repr,
    show (-i).toNat = i.natAbs by omega]
  rfl

theorem digitsValue_toDigits (n : Nat) : digitsValue (Nat.toDigits 10 n) = n :=
  Nat.ofDigitChars_ten_toDigits

/-- Only the number zero begins with the figure zero. -/
theorem head_toDigits {n : Nat} (hn : 0 < n) :
    ∃ d ds, Nat.toDigits 10 n = d :: ds ∧ d ≠ '0' := by
  induction n using Nat.strongRecOn with
  | _ n ih =>
    by_cases hsmall : n < 10
    · refine ⟨n.digitChar, [], Nat.toDigits_of_lt_base hsmall, ?_⟩
      interval_cases n <;> decide
    · obtain ⟨d, ds, hds, hd⟩ := ih (n / 10) (by omega) (by omega)
      exact ⟨d, ds ++ [(n % 10).digitChar], by rw [Nat.toDigits_of_base_le (by omega) (by omega), hds]; rfl, hd⟩

theorem exists_toDigits (n : Nat) : ∃ d ds, Nat.toDigits 10 n = d :: ds :=
  List.exists_cons_of_length_pos Nat.length_toDigits_pos

theorem isDigit_of_toDigits {n : Nat} {d : Char} {ds : List Char} (h : Nat.toDigits 10 n = d :: ds) :
    d.isDigit = true ∧ ∀ c ∈ ds, c.isDigit = true := by
  have hall (c : Char) (hc : c ∈ Nat.toDigits 10 n) := Nat.isDigit_of_mem_toDigits (by omega) (by omega) hc
  rw [h] at hall
  exact List.forall_mem_cons.1 hall

theorem fraction_of_stops {rest : List Char} (hrest : Stops rest) : fraction rest = ([], rest) := by
  unfold fraction
  split
  · next d rest => exact absurd rfl (hrest '.' rfl).2.1
  · rfl

theorem power_of_stops {rest : List Char} (hrest : Stops rest) : power rest = (none, rest) := by
  cases rest with
  | nil => rfl
  | cons c rest =>
    obtain ⟨-, -, he, hE⟩ := hrest c rfl
    simp [power, he, hE]

/-- The digits of a number are read as the number, in front of anything that does not carry it on. -/
theorem numberOf_toDigits (negative : Bool) {n : Nat} (hn : (Nat.toDigits 10 n).length ≤ maxDigits)
    {rest : List Char} (hrest : Stops rest) :
    numberOf negative (Nat.toDigits 10 n) rest = .ok (int (if negative then -(n : Int) else n), rest) := by
  simp [numberOf, fraction_of_stops hrest, power_of_stops hrest, Nat.not_lt.2 hn, digitsValue_toDigits]

theorem takeWhile_isDigit_append {ds rest : List Char} (hds : ∀ c ∈ ds, c.isDigit = true) (hrest : Stops rest) :
    (ds ++ rest).takeWhile Char.isDigit = ds := by
  rw [List.takeWhile_append_of_pos hds]
  cases rest with
  | nil => simp
  | cons c rest => simp [(hrest c rfl).1]

theorem dropWhile_isDigit_append {ds rest : List Char} (hds : ∀ c ∈ ds, c.isDigit = true) (hrest : Stops rest) :
    (ds ++ rest).dropWhile Char.isDigit = rest := by
  rw [List.dropWhile_append_of_pos hds]
  cases rest with
  | nil => simp
  | cons c rest => simp [(hrest c rfl).1]

/-- Digits, with a sign in front of them or none, are read as their number. -/
theorem readNumber_toDigits {n : Nat} (hn : (Nat.toDigits 10 n).length ≤ maxDigits) {rest : List Char}
    (hrest : Stops rest) : readNumber (Nat.toDigits 10 n ++ rest) = .ok (int n, rest) := by
  rcases Nat.eq_zero_or_pos n with rfl | hpos
  · exact numberOf_toDigits false hn hrest
  obtain ⟨d, ds, hds, hzero⟩ := head_toDigits hpos
  obtain ⟨hd, hall⟩ := isDigit_of_toDigits hds
  have hminus : d ≠ '-' := by
    rintro rfl
    cases hd
  have hread := numberOf_toDigits false hn hrest
  rw [hds] at hread ⊢
  simpa [readNumber, hminus, hzero, hd, takeWhile_isDigit_append hall hrest, dropWhile_isDigit_append hall hrest]
    using hread

theorem readNumber_minus_toDigits {n : Nat} (hpos : 0 < n) (hn : (Nat.toDigits 10 n).length ≤ maxDigits)
    {rest : List Char} (hrest : Stops rest) :
    readNumber ('-' :: (Nat.toDigits 10 n ++ rest)) = .ok (int (-n), rest) := by
  obtain ⟨d, ds, hds, hzero⟩ := head_toDigits hpos
  obtain ⟨hd, hall⟩ := isDigit_of_toDigits hds
  have hread := numberOf_toDigits true hn hrest
  rw [hds] at hread ⊢
  simpa [readNumber, hzero, hd, takeWhile_isDigit_append hall hrest, dropWhile_isDigit_append hall hrest]
    using hread

/-- What begins with a digit, or with a sign and a digit, is no word. -/
theorem readScalar_of_digit {d : Char} (hd : d.isDigit = true) (cs : List Char) :
    readScalar (d :: cs) = readNumber (d :: cs) ∧ readScalar ('-' :: d :: cs) = readNumber ('-' :: d :: cs) := by
  have hne (c : Char) (hc : c.isDigit = false) : (c == d) = false := by
    rw [beq_eq_false_iff_ne]
    rintro rfl
    exact absurd hd (by simp [hc])
  constructor
  · simp [readScalar, wordValues, List.isPrefixOf, hne]
  · simp [readScalar, wordValues, List.isPrefixOf, hne]

/-- A whole number that is written is read back. -/
theorem readScalar_int {i : Int} (hi : (Nat.toDigits 10 i.natAbs).length ≤ maxDigits) {rest : List Char}
    (hrest : Stops rest) : readScalar ((toString i).toList ++ rest) = .ok (int i, rest) := by
  obtain ⟨d, ds, hds⟩ := exists_toDigits i.natAbs
  have hword := readScalar_of_digit (isDigit_of_toDigits hds).1 (ds ++ rest)
  rw [← List.cons_append, ← hds] at hword
  obtain hneg | hpos := lt_or_ge i 0
  · rw [toList_toString_of_neg hneg, List.cons_append, hword.2, readNumber_minus_toDigits (by omega) hi hrest,
      show -(i.natAbs : Int) = i by omega]
  · rw [toList_toString_of_nonneg hpos, hword.1, readNumber_toDigits hi hrest, show (i.natAbs : Int) = i by omega]

/-- A whole number is written in ASCII. -/
theorem isWritten_of_mem_toString {i : Int} {c : Char} (hc : c ∈ (toString i).toList) : isWritten c = true := by
  have hdigit (h : c ∈ Nat.toDigits 10 i.natAbs) : isWritten c = true := by
    have := Nat.isDigit_of_mem_toDigits (by omega) (by omega) h
    have hbounds : 48 ≤ c.toNat ∧ c.toNat ≤ 57 := by simpa [Char.isDigit, UInt32.le_iff_toNat_le] using this
    simp only [isWritten, Bool.or_eq_true, Bool.and_eq_true, decide_eq_true_eq]
    omega
  obtain hneg | hpos := lt_or_ge i 0
  · rw [toList_toString_of_neg hneg] at hc
    obtain rfl | hc := List.mem_cons.1 hc
    · rfl
    · exact hdigit hc
  · rw [toList_toString_of_nonneg hpos] at hc
    exact hdigit hc

end SchemaSketch.Json
