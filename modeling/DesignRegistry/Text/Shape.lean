/-
**Shapes of short texts.**

Names and style values are recognised by their shape: a hexadecimal colour, a colour function, a
measure with a unit, a name in one of two cases.  A single line feed at the end of a text does not
count against its shape.

Main definitions

* `isLineEnd`, `isWholly` — the end of a text;
* `isHexColour`, `isColourFunction`, `isRgbColour`, `isMeasure`, `isWholeNumber` — style values;
* `isPascalCase`, `isCamelCase` — names.
-/
import DesignRegistry.Number.Radix
import DesignRegistry.Text.Pieces

namespace DesignRegistry

/-! ### Ends -/

/-- Whether nothing is left of a text but a line feed at most. -/
def isLineEnd (rest : List Char) : Bool := rest == [] || rest == ['\n']

/-- Whether a text is another one, up to a line feed at its end. -/
def isWholly (word s : List Char) : Bool :=
  match afterFront? word s with
  | some rest => isLineEnd rest
  | none => false

/-- Whether a text is one character of a class and then characters of another, up to a line feed at
its end. -/
def isNameOf (first others : Char → Bool) : List Char → Bool
  | [] => false
  | c :: cs => first c && isLineEnd (cs.dropWhile others)

/-! ### Numbers -/

/-- What follows the digits in front of a text, if there are any. -/
def afterDigits? (s : List Char) : Option (List Char) :=
  match s with
  | c :: cs => if isDecimal c then some (cs.dropWhile isDecimal) else none
  | [] => none

/-- Whether a text is a whole number with a unit. -/
def isMeasure (unit s : List Char) : Bool :=
  match afterDigits? s with
  | some rest => isWholly unit rest
  | none => false

/-- Whether a text is a whole number. -/
def isWholeNumber (s : List Char) : Bool := isMeasure [] s

/-- Whether a text is a whole number with a unit of length. -/
def isLength (s : List Char) : Bool :=
  isMeasure "px".toList s || isMeasure "rem".toList s || isMeasure "em".toList s

/-! ### Colours -/

/-- Whether a text is a hash and between `least` and `most` hexadecimal digits. -/
def isHexColour (least most : Nat) (s : List Char) : Bool :=
  match s with
  | '#' :: digits =>
    let count := (digits.takeWhile isHex).length
    least ≤ count && count ≤ most && isLineEnd (digits.dropWhile isHex)
  | _ => false

/-- Whether a text starts with a call of a colour function, with or without transparency. -/
def isColourFunction (name s : List Char) : Bool :=
  startsWith (name ++ ['(']) s || startsWith (name ++ ['a', '(']) s

/-- What follows a comma and blanks. -/
def afterComma? (s : List Char) : Option (List Char) :=
  match s with
  | ',' :: rest => some (rest.dropWhile isBlank)
  | _ => none

/-- Whether a text is a call of `rgb` with three whole numbers. -/
def isRgbColour (s : List Char) : Bool :=
  let rest? := do
    let s ← afterFront? "rgb(".toList s
    let s ← afterDigits? s
    let s ← afterComma? s
    let s ← afterDigits? s
    let s ← afterComma? s
    afterDigits? s
  match rest? with
  | some rest => isWholly [')'] rest
  | none => false

/-! ### Names -/

/-- Whether a character is an ASCII capital. -/
def isAsciiUpper (c : Char) : Bool := 'A' ≤ c && c ≤ 'Z'

/-- Whether a character is a small ASCII letter. -/
def isAsciiLower (c : Char) : Bool := 'a' ≤ c && c ≤ 'z'

/-- Whether a character is an ASCII letter. -/
def isAsciiLetter (c : Char) : Bool := isAsciiUpper c || isAsciiLower c

/-- Whether a character is an ASCII letter or digit. -/
def isAsciiAlphanumeric (c : Char) : Bool := isAsciiLetter c || c.isDigit

/-- Whether a name is of ASCII letters and digits and starts with a capital. -/
def isPascalCase (s : String) : Bool := isNameOf isAsciiUpper isAsciiAlphanumeric s.toList

/-- Whether a name is of ASCII letters and digits and starts with a small letter. -/
def isCamelCase (s : String) : Bool := isNameOf isAsciiLower isAsciiAlphanumeric s.toList

end DesignRegistry
