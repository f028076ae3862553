import SchemaSketch.Text.Quoted

/-!
# Texts as bytes

A file holds bytes, and they are read as UTF-8. The reading goes piece by piece: a *piece* is a character
with all its bytes, or a run of bytes that is none. What a first byte announces is its `Lead`: how many bytes
are owed, and between which bounds the next one lies; after that one any byte of the form `10xxxxxx` will do.
A bad run ends before the first byte that cannot follow, so that no byte of a later character is lost.

* `Utf8.read` refuses a text with a bad run and says where the first one is.
* `Utf8.readLenient` puts the replacement character in the place of each bad run.

Both take every way to end a line for a line feed.
-/

namespace SchemaSketch.Utf8
open Text

/-- What a first byte announces. -/
structure Lead where
  /-- how many bytes are owed -/
  owed : Nat
  /-- the least that the next one can be -/
  least : Nat
  /-- the greatest that the next one can be -/
  greatest : Nat
  /-- the bits of the character that the first byte gives -/
  bits : Nat
  deriving DecidableEq, Repr

/-- What a byte announces, if it can be a first one. The bounds leave out longer forms of what has a
shorter one, the surrogates, and what lies beyond the last character. -/
def lead? (b : Nat) : Option Lead :=
  if b ≤ 0x7F then some ⟨0, 0x80, 0xBF, b⟩
  else if b < 0xC2 then none
  else if b ≤ 0xDF then some ⟨1, 0x80, 0xBF, b - 0xC0⟩
  else if b ≤ 0xEF then
    some ⟨2, if b = 0xE0 then 0xA0 else 0x80, if b = 0xED then 0x9F else 0xBF, b - 0xE0⟩
  else if b ≤ 0xF4 then
    some ⟨3, if b = 0xF0 then 0x90 else 0x80, if b = 0xF4 then 0x8F else 0xBF, b - 0xF0⟩
  else none

/-- Why a run of bytes is no character. -/
inductive Cause where
  /-- its first byte cannot be one -/
  | badStart
  /-- a byte that is no continuation comes too early -/
  | badContinuation
  /-- the bytes come to an end -/
  | cutShort
  deriving DecidableEq, Repr

/-- A cause in words. -/
def Cause.message : Cause → String
  | badStart => "invalid start byte"
  | badContinuation => "invalid continuation byte"
  | cutShort => "unexpected end of data"

/-- A part of what is read. -/
inductive Piece where
  /-- a character -/
  | char (c : Char)
  /-- a run of bytes that is none, by its first byte and its length -/
  | bad (cause : Cause) (first length : Nat)
  deriving DecidableEq, Repr

/-- The piece that began with the byte `first`, when `owed` more bytes are due, the next one within
bounds; `bits` and `covered` say what the bytes so far gave and how many they are. With it comes what is
left of the bytes. -/
def follow (first least greatest bits covered : Nat) : Nat → List UInt8 → Piece × List UInt8
  | 0, rest => (.char (Char.ofNat bits), rest)
  | _ + 1, [] => (.bad .cutShort first covered, [])
  | owed + 1, b :: rest =>
    if least ≤ b.toNat && b.toNat ≤ greatest then
      follow first 0x80 0xBF (64 * bits + (b.toNat - 0x80)) (covered + 1) owed rest
    else (.bad .badContinuation first covered, b :: rest)

theorem length_follow_le (first least greatest bits covered owed : Nat) (bytes : List UInt8) :
    (follow first least greatest bits covered owed bytes).2.length ≤ bytes.length := by
  induction owed generalizing least greatest bits covered bytes with
  | zero => simp [follow]
  | succ owed ih =>
    cases bytes with
    | nil => simp [follow]
    | cons b rest =>
      simp only [follow]
      split
      · exact Nat.le_succ_of_le (ih ..)
      · exact Nat.le_refl _

/-- The piece that begins with a byte, and what is left. -/
def piece (b : UInt8) (rest : List UInt8) : Piece × List UInt8 :=
  match lead? b.toNat with
  | none => (.bad .badStart b.toNat 1, rest)
  | some l => follow b.toNat l.least l.greatest l.bits 1 l.owed rest

theorem length_piece_le (b : UInt8) (rest : List UInt8) : (piece b rest).2.length ≤ rest.length := by
  unfold piece
  split
  · exact Nat.le_refl _
  · exact length_follow_le ..

/-- The pieces of a list of bytes. -/
def pieces : List UInt8 → List Piece
  | [] => []
  | b :: rest => (piece b rest).1 :: pieces (piece b rest).2
  termination_by bytes => bytes.length
  decreasing_by
    have := length_piece_le b rest
    simp only [List.length_cons]
    omega

/-! ## Strict and lenient -/

/-- A bad run and where it is. -/
structure Fault where
  /-- why it is no character -/
  cause : Cause
  /-- its first byte -/
  first : Nat
  /-- how many bytes are before it -/
  position : Nat
  /-- how many bytes it has -/
  length : Nat
  deriving DecidableEq, Repr

/-- A fault in words. -/
def Fault.message (f : Fault) : String :=
  "'utf-8' codec can't decode "
    ++ (if f.length ≤ 1 then
        "byte 0x" ++ String.ofList (hexDigits 2 f.first) ++ s!" in position {f.position}"
      else "bytes in position " ++ toString f.position ++ "-" ++ toString (f.position + f.length - 1))
    ++ ": " ++ f.cause.message

/-- The characters of pieces that are all characters, the first of which begins at a position. -/
def strict (position : Nat) : List Piece → Except Fault (List Char)
  | [] => .ok []
  | .char c :: rest => (strict (position + c.utf8Size) rest).map (c :: ·)
  | .bad cause first length :: _ => .error ⟨cause, first, position, length⟩

/-- The character of a piece, or the one that stands for it. -/
def Piece.lenient : Piece → Char
  | char c => c
  | bad _ _ _ => replacement

/-! ## Lines -/

/-- A text in which every line ends with a line feed. -/
def plainLines : List Char → List Char
  | '\r' :: '\n' :: rest => '\n' :: plainLines rest
  | '\r' :: rest => '\n' :: plainLines rest
  | c :: rest => c :: plainLines rest
  | [] => []

/-- No carriage return is left. -/
theorem return_not_mem_plainLines (cs : List Char) : '\r' ∉ plainLines cs := by
  fun_induction plainLines cs with
  | case1 rest ih => simp [ih]
  | case2 rest _ ih => simp [ih]
  | case3 c rest _ hc ih =>
    have hne : '\r' ≠ c := fun e => hc e.symm
    simp [hne, ih]
  | case4 => simp

/-- The text that bytes hold. -/
def read (bytes : List UInt8) : Except Fault (List Char) := (strict 0 (pieces bytes)).map plainLines

/-- The text that bytes hold, as far as they hold one. -/
def readLenient (bytes : List UInt8) : List Char := plainLines ((pieces bytes).map Piece.lenient)

/-- The bytes of a text. -/
def write (text : List Char) : List UInt8 := text.flatMap String.utf8EncodeChar

end SchemaSketch.Utf8
