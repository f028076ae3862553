import Mathlib
import SchemaSketch.Text.Utf8

/-!
# What is written as bytes is read back

The bytes of a text are read back as that text, but for its line ends: every way to end a line is read as
a line feed (`Utf8.read_write`). A character is read piece by piece. Its first byte announces how many
bytes are owed (`piece_ofNat`), and each of them adds six bits (`follow_cons`), so that the bits of the
whole are the number of the character (`pieces_encode_append`).
-/

namespace SchemaSketch.Utf8

/-! ## One character -/

/-- A byte that goes on with a character adds its six bits. -/
theorem follow_cons {first least greatest bits covered owed n : Nat} (hn : n < 64)
    (hleast : least ≤ n + 0x80) (hgreatest : n + 0x80 ≤ greatest) (rest : List UInt8) :
    follow first least greatest bits covered (owed + 1) (UInt8.ofNat (n + 0x80) :: rest)
      = follow first 0x80 0xBF (64 * bits + n) (covered + 1) owed rest := by
  have hb : (UInt8.ofNat (n + 0x80)).toNat = n + 0x80 := by
    rw [UInt8.toNat_ofNat', Nat.mod_eq_of_lt (by omega)]
  rw [follow, hb, if_pos (by simp [hleast, hgreatest]), Nat.add_sub_cancel]

/-- A first byte is followed by what it announces. -/
theorem piece_ofNat {n : Nat} (hn : n < 256) {l : Lead} (hl : lead? n = some l) (rest : List UInt8) :
    piece (UInt8.ofNat n) rest = follow n l.least l.greatest l.bits 1 l.owed rest := by
  have hb : (UInt8.ofNat n).toNat = n := by
    rw [UInt8.toNat_ofNat', Nat.mod_eq_of_lt hn]
  rw [piece, hb, hl]

/-- A character is the first piece of its bytes, whatever stands behind them. -/
theorem pieces_encode_append (c : Char) (rest : List UInt8) :
    pieces (String.utf8EncodeChar c ++ rest) = .char c :: pieces rest := by
  have hvalid : c.toNat < 0xD800 ∨ 0xDFFF < c.toNat ∧ c.toNat < 0x110000 := c.valid
  have hchar : ∀ {bits : Nat}, bits = c.toNat → Char.ofNat bits = c := by
    rintro _ rfl
    exact Char.ofNat_toNat c
  -- the cases are those of the number of bytes; `hvalid` keeps the second byte within its bounds
  rw [String.utf8EncodeChar, show c.val.toNat = c.toNat from rfl]
  split
  · next h1 =>
    have hlead : lead? c.toNat = some ⟨0, 0x80, 0xBF, c.toNat⟩ := by rw [lead?, if_pos h1]
    rw [List.singleton_append, pieces, piece_ofNat (by omega) hlead]
    dsimp only [follow]
    rw [hchar rfl]
  split
  · next h1 h2 =>
    have hlead : lead? (c.toNat / 64 % 0x20 + 0xc0) = some ⟨1, 0x80, 0xBF, c.toNat / 64 % 0x20⟩ := by
      rw [lead?, if_neg (by omega), if_neg (by omega), if_pos (by omega), Nat.add_sub_cancel]
    rw [List.cons_append, pieces, piece_ofNat (by omega) hlead]
    dsimp only [List.cons_append, List.nil_append]
    rw [follow_cons (by omega) (by omega) (by omega)]
    dsimp only [follow]
    rw [hchar (by omega)]
  split
  · next h1 h2 h3 =>
    have hlead : lead? (c.toNat / 4096 % 0x10 + 0xe0) = some ⟨2,
        if c.toNat / 4096 % 0x10 = 0 then 0xA0 else 0x80,
        if c.toNat / 4096 % 0x10 = 13 then 0x9F else 0xBF, c.toNat / 4096 % 0x10⟩ := by
      rw [lead?, if_neg (by omega), if_neg (by omega), if_neg (by omega), if_pos (by omega),
        Nat.add_sub_cancel]
      congr 2 <;> simp only [Nat.reduceEqDiff]
    rw [List.cons_append, pieces, piece_ofNat (by omega) hlead]
    dsimp only [List.cons_append, List.nil_append]
    rw [follow_cons (by omega) (by split <;> omega) (by split <;> omega),
      follow_cons (by omega) (by omega) (by omega)]
    dsimp only [follow]
    rw [hchar (by omega)]
  · next h1 h2 h3 =>
    have hlead : lead? (c.toNat / 262144 % 0x08 + 0xf0) = some ⟨3,
        if c.toNat / 262144 % 0x08 = 0 then 0x90 else 0x80,
        if c.toNat / 262144 % 0x08 = 4 then 0x8F else 0xBF, c.toNat / 262144 % 0x08⟩ := by
      rw [lead?, if_neg (by omega), if_neg (by omega), if_neg (by omega), if_neg (by omega),
        if_pos (by omega), Nat.add_sub_cancel]
      congr 2 <;> simp only [Nat.reduceEqDiff]
    rw [List.cons_append, pieces, piece_ofNat (by omega) hlead]
    dsimp only [List.cons_append, List.nil_append]
    rw [follow_cons (by omega) (by split <;> omega) (by split <;> omega),
      follow_cons (by omega) (by omega) (by omega), follow_cons (by omega) (by omega) (by omega)]
    dsimp only [follow]
    rw [hchar (by omega)]

/-! ## A text -/

theorem pieces_write (cs : List Char) : pieces (write cs) = cs.map .char := by
  induction cs with
  | nil => rw [write, List.flatMap_nil, pieces, List.map_nil]
  | cons c rest ih =>
    rw [write, List.flatMap_cons, pieces_encode_append, List.map_cons]
    exact congrArg _ ih

theorem strict_map_char (position : Nat) (cs : List Char) : strict position (cs.map .char) = .ok cs := by
  induction cs generalizing position with
  | nil => rfl
  | cons c rest ih =>
    rw [List.map_cons, strict, ih]
    rfl

/-- **The bytes of a text are read back as the text, with plain line ends.** -/
theorem read_write (cs : List Char) : read (write cs) = .ok (plainLines cs) := by
  rw [read, pieces_write, strict_map_char]
  rfl

/-- The line ends of a text without carriage returns are plain. -/
theorem plainLines_of_not_mem {cs : List Char} (h : '\r' ∉ cs) : plainLines cs = cs := by
  fun_induction plainLines cs with
  | case1 rest ih => exact absurd (List.mem_cons_self ..) h
  | case2 rest _ ih => exact absurd (List.mem_cons_self ..) h
  | case3 c rest _ _ ih => rw [ih fun hmem => h (List.mem_cons_of_mem _ hmem)]
  | case4 => rfl

end SchemaSketch.Utf8
