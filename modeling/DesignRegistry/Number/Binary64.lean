/-
**Binary floating-point numbers.**

A 64-bit binary number is a sign, a mantissa below `2 ^ 53` and a power of two, or one of the
values without magnitude.  The arithmetic here is exact: a rational number is rounded to the
nearest member, ties going to the even mantissa, and members are compared as rational numbers.

Main definitions

* `Binary64` — the numbers; two equal finite numbers other than the zeros have equal fields;
* `Binary64.ofRatio`, `Binary64.ofInt?` — rounding to the nearest member;
* `Binary64.scaledCompare`, `Binary64.compare?` — order on scaled integers and on members;
* `Binary64.truncate?` — the integer part.
-/
import DesignRegistry.Number.Power

namespace DesignRegistry

/-- A binary floating-point number of 64 bits. -/
inductive Binary64 where
  /-- The number `± mantissa * 2 ^ exponent`. -/
  | finite (negative : Bool) (mantissa : Nat) (exponent : Int)
  /-- An infinity of the given sign. -/
  | infinite (negative : Bool)
  /-- The value that is not a number. -/
  | nan
deriving DecidableEq, Inhabited, Repr

namespace Binary64

/-- The least exponent of a member. -/
def minExponent : Int := -1074

/-- The greatest exponent of a finite member. -/
def maxExponent : Int := 971

/-- The zero of the given sign. -/
def zero (negative : Bool) : Binary64 := .finite negative 0 minExponent

/-- The integer nearest to `num / den`, ties going to the even one. -/
def roundHalfEven (num den : Nat) : Nat :=
  let quotient := num / den
  let twice := 2 * (num % den)
  if twice < den then quotient
  else if den < twice then quotient + 1
  else if quotient % 2 = 0 then quotient else quotient + 1

/-- The ratio `num / den` divided by `2 ^ exponent`, as a ratio. -/
def unscale (num den : Nat) (exponent : Int) : Nat × Nat :=
  if exponent < 0 then (num * twoTo (-exponent).toNat, den) else (num, den * twoTo exponent.toNat)

/-- The exponent that gives `num / den` a mantissa of 53 bits, or the least one. -/
def exponentFor (num den : Nat) : Int :=
  let guess : Int := (num.log2 : Int) - (den.log2 : Int) - 52
  let (n, d) := unscale num den guess
  max minExponent (if n < d * twoTo 52 then guess - 1 else guess)

/-- The number `± mantissa * 2 ^ exponent`, which beyond the greatest member is an infinity. -/
def bounded (negative : Bool) (mantissa : Nat) (exponent : Int) : Binary64 :=
  if exponent > maxExponent then .infinite negative else .finite negative mantissa exponent

/-- The number of a rounded mantissa, which may have reached the next power of two. -/
def carried (negative : Bool) (mantissa : Nat) (exponent : Int) : Binary64 :=
  if mantissa = twoTo 53 then bounded negative (twoTo 52) (exponent + 1)
  else bounded negative mantissa exponent

/-- The mantissa of `num / den` for an exponent. -/
def roundedFor (num den : Nat) (exponent : Int) : Nat :=
  roundHalfEven (unscale num den exponent).1 (unscale num den exponent).2

/-- The member nearest to `± num / den`; beyond the greatest one it is an infinity. -/
def ofRatio (negative : Bool) (num den : Nat) : Binary64 :=
  if num = 0 then zero negative
  else carried negative (roundedFor num den (exponentFor num den)) (exponentFor num den)

/-- The member nearest to an integer, when it does not lie beyond all of them. -/
def ofInt? (n : Int) : Option Binary64 :=
  match ofRatio (n < 0) n.natAbs 1 with
  | .infinite _ => none
  | x => some x

/-- The signed mantissa. -/
def signedMantissa (negative : Bool) (mantissa : Nat) : Int :=
  if negative then -(mantissa : Int) else mantissa

/-- The order of `a * 2 ^ i` and `b * 2 ^ j`. -/
def scaledCompare (a : Int) (i : Int) (b : Int) (j : Int) : Ordering :=
  let low := min i j
  compare (a * twoTo (i - low).toNat) (b * twoTo (j - low).toNat)

/-- The order of two members; a value that is not a number has none. -/
def compare? : Binary64 → Binary64 → Option Ordering
  | .nan, _ => none
  | _, .nan => none
  | .infinite a, .infinite b => some (compare b.toNat a.toNat)
  | .infinite negative, .finite .. => some (if negative then .lt else .gt)
  | .finite .., .infinite negative => some (if negative then .gt else .lt)
  | .finite s m i, .finite t n j =>
    some (scaledCompare (signedMantissa s m) i (signedMantissa t n) j)

/-- Numeric equality: the zeros are equal, and the value that is not a number equals nothing. -/
def numEq (x y : Binary64) : Bool := compare? x y == some .eq

/-- The strict order. -/
def lt (x y : Binary64) : Bool := compare? x y == some .lt

/-- Exact equality of a member and an integer. -/
def equalsInt (x : Binary64) (n : Int) : Bool :=
  match x with
  | .finite s m i => scaledCompare (signedMantissa s m) i n 0 == .eq
  | _ => false

/-- The integer part of a finite member, rounded toward zero. -/
def truncate? : Binary64 → Option Int
  | .finite negative mantissa exponent =>
    let magnitude :=
      if exponent < 0 then mantissa / twoTo (-exponent).toNat else mantissa * twoTo exponent.toNat
    some (signedMantissa negative magnitude)
  | _ => none

/-- The member nearest to the product of two members with finite value. -/
def mulFinite : Binary64 → Binary64 → Binary64
  | .finite s m i, .finite t n j =>
    let exponent := i + j
    if exponent < 0 then ofRatio (s != t) (m * n) (twoTo (-exponent).toNat)
    else ofRatio (s != t) (m * n * twoTo exponent.toNat) 1
  | _, _ => .nan

end Binary64

end DesignRegistry
