/-
**Numbers in free text.**

A number that a person typed may have blanks around it, a sign, digits of any script, and single
underscores between digits.  `integerOfText?` and `binaryOfText?` read such texts as an integer and
as a binary floating-point number; the latter also knows the infinities and the value that is not a
number by name.
-/
import DesignRegistry.Number.Decimal
import DesignRegistry.Text.Category

namespace DesignRegistry

/-! ### Normal form -/

/-- A character with digits of other scripts read as ASCII digits and other blanks as a space. -/
def plainChar (c : Char) : Char :=
  if c.toNat < 128 then c
  else
    match decimalValue? c with
    | some d => Char.ofNat (48 + d)
    | none => if isBlank c then ' ' else c

/-- Whether a character may surround a number: the space and the controls that lay out text. -/
def isPadding (c : Char) : Bool := c == ' ' || (9 ≤ c.toNat && c.toNat ≤ 13)

/-- The text without the padding around it. -/
def trimPadding (s : List Char) : List Char :=
  ((s.dropWhile isPadding).reverse.dropWhile isPadding).reverse

/-- The sign in front of a number, and the rest. -/
def signPart (s : List Char) : Bool × List Char :=
  match s with
  | '+' :: rest => (false, rest)
  | '-' :: rest => (true, rest)
  | _ => (false, s)

/-- The text without its underscores, if each stands between two digits. -/
def dropUnderscores? (previous : Bool) : List Char → Option (List Char)
  | [] => some []
  | '_' :: c :: rest =>
    if previous && c.isDigit then (dropUnderscores? true rest).map (c :: ·) else none
  | '_' :: [] => none
  | c :: rest => (dropUnderscores? c.isDigit rest).map (c :: ·)

/-! ### Integers -/

/-- The integer that a text denotes. -/
def integerOfText? (text : String) : Option Int := do
  let (negative, body) := signPart (trimPadding (text.toList.map plainChar))
  let digits ← dropUnderscores? false body
  if digits.isEmpty || !digits.all Char.isDigit then none
  else
    let n : Int := natOfDigits digits
    some (if negative then -n else n)

/-! ### Binary numbers -/

/-- A decimal literal without its sign: digits, a fraction and an exponent, of which at least one
digit stands before the exponent. -/
def decimalOf? (negative : Bool) (s : List Char) : Option Decimal :=
  let whole := s.takeWhile Char.isDigit
  let rest := s.dropWhile Char.isDigit
  let (fraction, rest) :=
    match rest with
    | '.' :: more => (more.takeWhile Char.isDigit, more.dropWhile Char.isDigit)
    | _ => ([], rest)
  let digits := whole ++ fraction
  let literal (exponent : Int) : Option Decimal :=
    some ⟨negative, natOfDigits digits, exponent - fraction.length⟩
  if digits.isEmpty then none
  else
    match rest with
    | [] => literal 0
    | e :: more =>
      let (down, power) := signPart more
      if (e == 'e' || e == 'E') && !power.isEmpty && power.all Char.isDigit then
        let n : Int := natOfDigits power
        literal (if down then -n else n)
      else none

/-- The binary number that a text denotes. -/
def binaryOfText? (text : String) : Option Binary64 :=
  let (negative, body) := signPart (trimPadding (text.toList.map plainChar))
  let word := String.ofList (body.map Char.toLower)
  if word = "inf" ∨ word = "infinity" then some (.infinite negative)
  else if word = "nan" then some .nan
  else do
    let digits ← dropUnderscores? false body
    let d ← decimalOf? negative digits
    return d.toBinary64

end DesignRegistry
