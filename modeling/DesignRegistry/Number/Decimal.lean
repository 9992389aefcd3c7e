/-
**Decimal notation for numbers.**

A decimal literal is an integer of digits and a power of ten.  Reading one rounds it to the nearest
binary number.  Writing a binary number gives the decimal with the fewest digits that reads back as
the same number, and of those the nearest to it: for each count of digits the two neighbours of the
number on that decimal grid are tested in exact arithmetic.

Main definitions

* `Decimal`, `Decimal.toBinary64` — a literal and the number it denotes;
* `Binary64.shortest?` — the shortest decimal of a positive number;
* `Binary64.text` — its notation, positional for exponents from -4 to 15.
-/
import DesignRegistry.Number.Binary64

namespace DesignRegistry

/-- The value of an ASCII digit. -/
def digitValue (c : Char) : Nat := c.toNat - 48

/-- The number that a run of ASCII digits denotes. -/
def natOfDigits (cs : List Char) : Nat :=
  cs.foldl (fun n c => 10 * n + digitValue c) 0

/-- The most digits of an integer that is read or written. -/
def maxIntegerDigits : Nat := 4300

/-- The decimal digits of a natural number. -/
def natDigits (n : Nat) : List Char := Nat.toDigits 10 n

/-- The decimal digits of an integer, with a minus sign before a negative one. -/
def intDigits (n : Int) : List Char :=
  if n < 0 then '-' :: natDigits n.natAbs else natDigits n.natAbs

/-- The decimal notation of a natural number. -/
def natText (n : Nat) : String := String.ofList (natDigits n)

/-- The decimal notation of an integer. -/
def intText (n : Int) : String := String.ofList (intDigits n)

/-- A decimal literal: the number `± digits * 10 ^ exponent`. -/
structure Decimal where
  /-- Whether a minus sign stands before it. -/
  negative : Bool
  /-- Its digits, read as one integer. -/
  digits : Nat
  /-- The power of ten they are multiplied with. -/
  exponent : Int
deriving DecidableEq, Repr

namespace Decimal

/-- The binary number nearest to a literal.  A literal far outside the range of binary numbers is
decided by its magnitude alone. -/
def toBinary64 (d : Decimal) : Binary64 :=
  if d.digits = 0 then Binary64.zero d.negative
  else
    let magnitude : Int := (natDigits d.digits).length + d.exponent
    if magnitude > 400 then .infinite d.negative
    else if magnitude < -400 then Binary64.zero d.negative
    else if d.exponent < 0 then Binary64.ofRatio d.negative d.digits (tenTo (-d.exponent).toNat)
    else Binary64.ofRatio d.negative (d.digits * tenTo d.exponent.toNat) 1

end Decimal

namespace Binary64

/-- A positive number with the reals that round to it, over one denominator. -/
structure Neighbourhood where
  /-- The number itself. -/
  value : Nat
  /-- The midpoint to the next smaller member. -/
  lower : Nat
  /-- The midpoint to the next greater member. -/
  upper : Nat
  /-- The common denominator. -/
  den : Nat
  /-- Whether the midpoints round to the number too. -/
  closed : Bool

namespace Neighbourhood

/-- The neighbourhood of `mantissa * 2 ^ exponent`.  Below a power of two the next smaller member
lies at half the distance. -/
def of (mantissa : Nat) (exponent : Int) : Neighbourhood :=
  let below := if mantissa = twoTo 52 ∧ exponent > minExponent then 1 else 2
  let scale := exponent - 2
  let up (n : Nat) := if scale < 0 then n else n * twoTo scale.toNat
  { value := up (4 * mantissa)
    lower := up (4 * mantissa - below)
    upper := up (4 * mantissa + 2)
    den := if scale < 0 then twoTo (-scale).toNat else 1
    closed := mantissa % 2 = 0 }

/-- Whether `n * 10 ^ k` rounds to the number. -/
def holds (b : Neighbourhood) (n : Nat) (k : Int) : Bool :=
  let point := if k < 0 then n else n * tenTo k.toNat
  let scale := if k < 0 then tenTo (-k).toNat else 1
  let left := compare (b.lower * scale) (point * b.den)
  let right := compare (point * b.den) (b.upper * scale)
  (left == .lt || (b.closed && left == .eq)) && (right == .lt || (b.closed && right == .eq))

/-- The quotient and remainder of the number by `10 ^ k`, with the divisor. -/
def onGrid (b : Neighbourhood) (k : Int) : Nat × Nat × Nat :=
  let num := if k < 0 then b.value * tenTo (-k).toNat else b.value
  let den := if k < 0 then b.den else b.den * tenTo k.toNat
  (num / den, num % den, den)

/-- The multiple of `10 ^ k` that rounds to the number and lies nearest to it, if one does; of two
at one distance the even one. -/
def nearest? (b : Neighbourhood) (k : Int) : Option Nat :=
  let (low, rest, den) := b.onGrid k
  match b.holds low k, b.holds (low + 1) k with
  | true, true =>
    if 2 * rest < den then some low
    else if den < 2 * rest then some (low + 1)
    else some (if low % 2 = 0 then low else low + 1)
  | true, false => some low
  | false, true => some (low + 1)
  | false, false => none

/-- Whether `10 ^ k` is at most the number. -/
def reaches (b : Neighbourhood) (k : Int) : Bool := 0 < (b.onGrid k).1

/-- The first of `k`, `k - 1` and so on whose power of ten is at most the number. -/
def firstReached (b : Neighbourhood) (k : Int) : Nat → Int
  | 0 => k
  | tries + 1 => if b.reaches k then k else firstReached b (k - 1) tries

/-- The greatest `k` with `10 ^ k` at most the number: a guess from the powers of two, mended. -/
def leadingExponent (b : Neighbourhood) : Int :=
  let guess : Int := ((b.value.log2 : Int) - b.den.log2) * 30103 / 100000
  b.firstReached (guess + 1) (guess + b.den.log2 + 2).toNat

/-- The first grid with a hit, from one digit to `tries` digits. -/
def search (b : Neighbourhood) (k : Int) : Nat → Option (Nat × Int)
  | 0 => none
  | tries + 1 =>
    match b.nearest? k with
    | some n => some (n, k)
    | none => search b (k - 1) tries

end Neighbourhood

/-- The decimal digits and power of ten of the shortest decimal that reads back as
`mantissa * 2 ^ exponent`; of those the nearest. -/
def shortest? (mantissa : Nat) (exponent : Int) : Option (Nat × Int) :=
  let b := Neighbourhood.of mantissa exponent
  b.search b.leadingExponent 18

/-- Digits without the zeros at their end, and how many there were. -/
def dropTrailingZeros (digits : List Char) : List Char × Nat :=
  let kept := digits.reverse.dropWhile (· == '0')
  (kept.reverse, digits.length - kept.length)

/-- The notation of `0.digits * 10 ^ point`: positional when the leading digit's exponent lies from
-4 to 15, with a mark and at least two exponent digits otherwise. -/
def layout (digits : List Char) (point : Int) : List Char :=
  let lead := point - 1
  if lead < -4 ∨ 16 ≤ lead then
    let fraction := digits.drop 1
    let power := natDigits lead.natAbs
    digits.take 1 ++ (if fraction.isEmpty then [] else '.' :: fraction)
      ++ ['e', if lead < 0 then '-' else '+']
      ++ (if power.length < 2 then '0' :: power else power)
  else if point ≤ 0 then
    '0' :: '.' :: List.replicate (-point).toNat '0' ++ digits
  else if digits.length ≤ point.toNat then
    digits ++ List.replicate (point.toNat - digits.length) '0' ++ ['.', '0']
  else
    digits.take point.toNat ++ '.' :: digits.drop point.toNat

/-- The notation of a finite number. -/
def finiteText (negative : Bool) (mantissa : Nat) (exponent : Int) : List Char :=
  (if negative then ['-'] else []) ++
    match mantissa, shortest? mantissa exponent with
    | 0, _ => ['0', '.', '0']
    | _, none => ['0', '.', '0']
    | _, some (n, k) =>
      let all := natDigits n
      layout (dropTrailingZeros all).1 (all.length + k)

/-- The notation of a number: the shortest decimal that reads back, and words for the values
without magnitude. -/
def text : Binary64 → List Char
  | .finite s m e => finiteText s m e
  | .infinite negative => if negative then "-inf".toList else "inf".toList
  | .nan => "nan".toList

end Binary64

end DesignRegistry
