/-!
# Numerals

The text of numbers: natural numbers in hexadecimal, and binary floating-point values as the
shortest decimals that read back as them. All arithmetic is exact, on natural numbers.

* `Text.hex`, `Text.hexPadded`, `Text.hexUpper`: hexadecimal digits, with an optional least width.
* `BinaryFormat`: the widths of the fields of a floating-point format.
* `Binary.readsBack`: whether a decimal lies among the reals that round to a value.
* `Binary.shortest`: with the fewest digits of all decimals that do, and nearest of those; of two
  equally near the larger.
* `BinaryFormat.text`: the text of a value, without an exponent.
-/

namespace WasmDecode

/-! ## Hexadecimal -/

namespace Text

/-- The lower-case hexadecimal digits of `n`, without a leading zero. -/
def hex (n : Nat) : String := String.ofList (Nat.toDigits 16 n)

/-- Puts zeros in front, as many as it takes to reach `width` characters. -/
def zeroPad (width : Nat) (s : String) : String :=
  String.ofList (List.replicate (width - s.length) '0') ++ s

/-- The lower-case hexadecimal digits of `n`, at least `width` of them. -/
def hexPadded (width n : Nat) : String := zeroPad width (hex n)

/-- The upper-case hexadecimal digits of `n`, at least `width` of them. -/
def hexUpper (width n : Nat) : String := zeroPad width ((hex n).map Char.toUpper)

end Text

/-! ## Floating-point formats -/

/-- A binary floating-point format: a sign bit, an exponent and a fraction. -/
structure BinaryFormat where
  exponentBits : Nat
  fractionBits : Nat
  deriving DecidableEq, Repr

namespace BinaryFormat

/-- The 32-bit format. -/
def single : BinaryFormat := ⟨8, 23⟩

/-- The 64-bit format. -/
def double : BinaryFormat := ⟨11, 52⟩

end BinaryFormat

/-! ## Values -/

/-- The magnitude of a finite value that is not zero: `significand * 2 ^ exponent`. -/
structure Binary where
  significand : Nat
  exponent : Int
  /-- The gap to the value below is half the gap to the value above. -/
  narrowBelow : Bool
  deriving DecidableEq, Repr

/-- A value of a floating-point format, its sign apart. -/
inductive Magnitude where
  | nan
  | infinity
  | zero
  | finite (value : Binary)
  deriving DecidableEq, Repr

namespace BinaryFormat

/-- Whether the sign bit is set. -/
def isNegative (f : BinaryFormat) (bits : Nat) : Bool :=
  bits >>> (f.exponentBits + f.fractionBits) % 2 == 1

/-- The magnitude that some bits stand for. The least exponent has no implicit leading one; the
greatest marks infinities and values that are no numbers. -/
def magnitude (f : BinaryFormat) (bits : Nat) : Magnitude :=
  let fraction := bits % 1 <<< f.fractionBits
  let exponent := bits >>> f.fractionBits % 1 <<< f.exponentBits
  let bias : Int := (1 <<< (f.exponentBits - 1) : Nat) - 1 + f.fractionBits
  if exponent = 1 <<< f.exponentBits - 1 then
    if fraction = 0 then .infinity else .nan
  else if exponent = 0 then
    if fraction = 0 then .zero else .finite ⟨fraction, 1 - bias, false⟩
  else
    .finite ⟨1 <<< f.fractionBits + fraction, exponent - bias, fraction = 0 ∧ 1 < exponent⟩

end BinaryFormat

/-! ## Decimals -/

/-- The number `digits * 10 ^ exponent`. -/
structure Decimal where
  digits : Nat
  exponent : Int
  deriving DecidableEq, Repr

namespace Decimal

/-- Compares a decimal with `n * 2 ^ e`. -/
def cmpBinary (d : Decimal) (n : Nat) (e : Int) : Ordering :=
  compare ((d.digits * Nat.pow 10 d.exponent.toNat) <<< (-e).toNat)
    (n <<< e.toNat * Nat.pow 10 (-d.exponent).toNat)

/-- The text of a decimal without an exponent: no leading zero but the one before the point, and no
trailing zero behind it. -/
def text (d : Decimal) : String :=
  let digits := toString d.digits
  if 0 ≤ d.exponent then
    digits ++ String.ofList (List.replicate d.exponent.toNat '0')
  else
    let places := (-d.exponent).toNat
    let padded := (List.replicate (places + 1 - digits.length) '0' ++ digits.toList)
    let whole := padded.take (padded.length - places)
    let part := (padded.drop (padded.length - places)).reverse.dropWhile (· == '0')
    String.ofList (if part.isEmpty then whole else whole ++ '.' :: part.reverse)

end Decimal

/-! ## Selection -/

namespace Binary

/-- The value as a quotient of natural numbers. -/
def quotient (x : Binary) : Nat × Nat :=
  (x.significand <<< x.exponent.toNat, 1 <<< (-x.exponent).toNat)

/-- Whether a decimal lies among the reals that round to the value: from halfway to the value below
to halfway to the value above, ends included if the significand is even. -/
def readsBack (x : Binary) (d : Decimal) : Bool :=
  let low := 4 * x.significand - if x.narrowBelow then 1 else 2
  let high := 4 * x.significand + 2
  let ends := x.significand % 2 == 0
  let fromLow := d.cmpBinary low (x.exponent - 2)
  let fromHigh := d.cmpBinary high (x.exponent - 2)
  (fromLow == .gt || ends && fromLow == .eq) && (fromHigh == .lt || ends && fromHigh == .eq)

/-- How many decimal digits the value has in front of the point; negative for zeros behind it. With
`k` for the answer, the value is at least `10 ^ (k - 1)` and less than `10 ^ k`. -/
def scale (x : Binary) : Int :=
  let (num, den) := x.quotient
  if den ≤ num then
    (Nat.toDigits 10 (num / den)).length
  else
    -- The quotient is less than one: its inverse, rounded up, tells the zeros behind the point.
    1 - (Nat.toDigits 10 ((den - 1) / num)).length

/-- The largest decimal with exponent `e` that does not exceed the value. -/
def floorAt (x : Binary) (e : Int) : Decimal :=
  let (num, den) := x.quotient
  ⟨num * Nat.pow 10 (-e).toNat / (den * Nat.pow 10 e.toNat), e⟩

/-- The one of the two neighbours of the value among the decimals with exponent `e` that reads back,
the nearer if both do, the upper if both are equally near. -/
def nearestAt? (x : Binary) (e : Int) : Option Decimal :=
  let below := x.floorAt e
  let above : Decimal := ⟨below.digits + 1, e⟩
  match x.readsBack below, x.readsBack above with
  | true, true =>
    let middle : Decimal := ⟨5 * (below.digits + above.digits), e - 1⟩
    some (if middle.cmpBinary x.significand x.exponent == .gt then below else above)
  | true, false => some below
  | false, true => some above
  | false, false => none

/-- How many digits the search tries. Seventeen suffice for 64 bits. -/
def maxDigits : Nat := 17

/-- The shortest decimal that reads back, searched from one digit upwards. -/
def shortest (x : Binary) : Decimal :=
  ((List.range maxDigits).findSome? fun (n : Nat) => x.nearestAt? (x.scale - (n + 1))).getD
    (x.floorAt (x.scale - maxDigits))

end Binary

/-- The text of the value that some bits stand for: the shortest decimal that reads back, without an
exponent. Zero keeps its sign; a value that is no number has none. -/
def BinaryFormat.text (f : BinaryFormat) (bits : Nat) : String :=
  let sign := if f.isNegative bits then "-" else ""
  match f.magnitude bits with
  | .nan => "NaN"
  | .infinity => sign ++ "inf"
  | .zero => sign ++ "0"
  | .finite x => sign ++ x.shortest.text

end WasmDecode
