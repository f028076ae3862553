/-!
# Numbers in binary floating point

The numbers of a document that are not whole are held in 64-bit binary floating point. Here such a
number is its value: a sign, a mantissa of at most 53 bits and a power of two, or infinity, or no number
at all. Two functions connect it with decimal text.

* `ofDecimal` is the nearest such number to `digits · 10^exponent`; a tie goes to the even mantissa.
* `shortest` is the shortest decimal that lies nearer to the number than to any other; of two of the same
  length the nearer one, and of two equally near the even one.

Both count in whole numbers only.
-/

namespace SchemaSketch

/-- A 64-bit binary floating-point number by its value. -/
inductive Binary64 where
  /-- no number -/
  | nan
  /-- beyond all numbers -/
  | infinite (negative : Bool)
  /-- `mantissa · 2^exponent` -/
  | finite (negative : Bool) (mantissa : Nat) (exponent : Int)
  deriving DecidableEq, Repr

namespace Binary64

/-- The least power of two. -/
def minExponent : Int := -1074

/-- The greatest power of two. -/
def maxExponent : Int := 971

/-- `2^52`, the least mantissa of full length. -/
def fullMantissa : Nat := Nat.pow 2 52

/-- The quotient rounded to the nearest whole number, a tie to the even one. -/
def roundDiv (num den : Nat) : Nat :=
  let q := num / den
  let twice := 2 * (num % den)
  if twice < den then q else if twice > den then q + 1 else if q % 2 == 0 then q else q + 1

/-- `num / den` as a numerator and a denominator after division by `base^e`. -/
def scaled (base num den : Nat) (e : Int) : Nat × Nat :=
  match e with
  | .ofNat k => (num, den * base.pow k)
  | .negSucc k => (num * base.pow (k + 1), den)

/-- The nearest number to a positive fraction. -/
def ofFraction (negative : Bool) (num den : Nat) : Binary64 :=
  let guess : Int := max ((num.log2 : Int) - den.log2 - 53) minExponent
  let (n, d) := scaled 2 num den guess
  let exponent := if n / d ≥ 2 * fullMantissa then guess + 1 else guess
  let (n, d) := scaled 2 num den exponent
  let mantissa := roundDiv n d
  let (mantissa, exponent) :=
    if mantissa == 2 * fullMantissa then (fullMantissa, exponent + 1) else (mantissa, exponent)
  if exponent > maxExponent then .infinite negative else .finite negative mantissa exponent

/-- Zero. -/
def zero (negative : Bool) : Binary64 := .finite negative 0 minExponent

/-- The nearest number to `digits · 10^exponent`. Exponents far out of reach are not computed with. -/
def ofDecimal (negative : Bool) (digits : Nat) (exponent : Int) : Binary64 :=
  if digits == 0 then zero negative
  else
    let places : Int := (Nat.toDigits 10 digits).length
    if exponent + places > 400 then .infinite negative
    else if exponent + places < -400 then zero negative
    else match exponent with
      | .ofNat k => ofFraction negative (digits * Nat.pow 10 k) 1
      | .negSucc k => ofFraction negative digits (Nat.pow 10 (k + 1))

/-! ## Shortest decimals -/

/-- A decimal `digits · 10^exponent`. -/
structure Decimal where
  /-- the digits as a whole number -/
  digits : Nat
  /-- the power of ten -/
  exponent : Int
  deriving DecidableEq, Repr

/-- The greatest `e` with `10^e ≤ num / den`, looked for downwards from `start`. -/
def log10From (num den : Nat) (start : Int) : Nat → Int
  | 0 => start
  | rounds + 1 =>
    let (n, d) := scaled 10 num den start
    if n ≥ d then start else log10From num den (start - 1) rounds

/-- The decimal with `10^exponent` as its unit that stands for `num / den` between the bounds, if one
does: of the two neighbours the nearer one within the bounds. All three fractions have the denominator
`den`; `closed` says whether the bounds themselves count. -/
def onGrid? (num lower upper den : Nat) (closed : Bool) (exponent : Int) : Option Decimal :=
  let (n, d) := scaled 10 num den exponent
  let below := n / d
  let fits (candidate : Nat) : Bool :=
    let (lo, ld) := scaled 10 lower den exponent
    let (hi, hd) := scaled 10 upper den exponent
    if closed then lo ≤ candidate * ld && candidate * hd ≤ hi
    else lo < candidate * ld && candidate * hd < hi
  let twice := 2 * (n % d)
  let nearer := if twice < d then below else if twice > d then below + 1
    else if below % 2 == 0 then below else below + 1
  let other := if nearer == below then below + 1 else below
  if fits nearer then some ⟨nearer, exponent⟩
  else if fits other then some ⟨other, exponent⟩
  else none

/-- The first grid with a hit, from coarse to fine. -/
def firstGrid (num lower upper den : Nat) (closed : Bool) (exponent : Int) : Nat → Decimal
  | 0 => ⟨(scaled 10 num den exponent).1 / (scaled 10 num den exponent).2, exponent⟩
  | rounds + 1 =>
    match onGrid? num lower upper den closed exponent with
    | some found => found
    | none => firstGrid num lower upper den closed (exponent - 1) rounds

/-- A decimal without zeros at the end of its digits. -/
def stripZeros (digits : Nat) (exponent : Int) : Nat → Decimal
  | 0 => ⟨digits, exponent⟩
  | rounds + 1 =>
    if digits != 0 && digits % 10 == 0 then stripZeros (digits / 10) (exponent + 1) rounds
    else ⟨digits, exponent⟩

/-- The shortest decimal for a positive number `mantissa · 2^exponent`. -/
def shortest (mantissa : Nat) (exponent : Int) : Decimal :=
  -- the number and its bounds in quarters of the last place
  let narrow := mantissa == fullMantissa && exponent > minExponent
  let (num, den) := scaled 2 (4 * mantissa) 4 (-exponent)
  let (num, den) := if den == 0 then (num, 1) else (num, den)
  let quarter := num / (4 * mantissa)
  let lower := num - (if narrow then quarter else 2 * quarter)
  let upper := num + 2 * quarter
  let top : Int := ((num.log2 : Int) - den.log2) * 30103 / 100000 + 2
  let leading := log10From num den top 8
  let found := firstGrid num lower upper den (mantissa % 2 == 0) leading 18
  stripZeros found.digits found.exponent 400

/-! ## Text -/

/-- The positions at which a number is still written without a power of ten: the point may stand up to
three places before the first digit and up to sixteen after it. -/
def isPositional (point : Int) : Bool := -4 < point && point ≤ 16

/-- A power of ten with a sign and at least two digits. -/
def powerText (e : Int) : String :=
  let digits := toString e.natAbs
  (if e < 0 then "e-" else "e+") ++ (if digits.length < 2 then "0" ++ digits else digits)

/-- Digits with the point after the first `point` of them, or a power of ten where that is too far. -/
def decimalText (found : Decimal) : String :=
  let digits := Nat.toDigits 10 found.digits
  let point : Int := found.exponent + digits.length
  if isPositional point then
    if point ≤ 0 then "0." ++ String.ofList (List.replicate point.natAbs '0' ++ digits)
    else
      let whole := point.natAbs
      if digits.length ≤ whole then
        String.ofList (digits ++ List.replicate (whole - digits.length) '0') ++ ".0"
      else String.ofList (digits.take whole) ++ "." ++ String.ofList (digits.drop whole)
  else
    String.ofList (digits.take 1)
      ++ (if digits.length > 1 then "." ++ String.ofList (digits.drop 1) else "")
      ++ powerText (point - 1)

/-- The shortest text of a finite number. -/
def finiteText (negative : Bool) (mantissa : Nat) (exponent : Int) : String :=
  (if negative then "-" else "")
    ++ (if mantissa == 0 then "0.0" else decimalText (shortest mantissa exponent))

/-! ## Comparison -/

/-- Whether two numbers are equal as numbers: the two zeros are, and no number is equal to `nan`. -/
def sameValue : Binary64 → Binary64 → Bool
  | .infinite a, .infinite b => a == b
  | .finite a m e, .finite b n f => (m == 0 && n == 0) || (a == b && m == n && e == f)
  | _, _ => false

/-- Whether a number is equal to a whole number. -/
def isWhole (x : Binary64) (i : Int) : Bool :=
  match x with
  | .finite negative mantissa exponent =>
    let (num, den) := scaled 2 mantissa 1 (-exponent)
    num == i.natAbs * den && (i == 0 || negative == decide (i < 0))
  | _ => false

end Binary64
end SchemaSketch
