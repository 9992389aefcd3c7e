/-
**Writing JSON.**

A document is written in one of a few layouts: indented for people, on one line for logs, with or
without characters outside ASCII.  All layouts share one recursion; a layout says what stands
between items, after keys and around the members of a container.  An integer with more digits than
are read has no text, and neither has a document that holds one; `Json.render` gives the text of
those that have one.

Main definitions

* `Json.Layout` — what a layout decides;
* `Json.render` — the text of a document in a layout;
* `Json.pretty` — the layout of files: two columns per level and a line feed at the end;
* `Json.hasText`, `Json.TextFault` — whether a document has a text, and why not;
* `Json.sortKeys` — the document with the members of every object ordered by key.
-/
import DesignRegistry.Json.Basic
import DesignRegistry.Number.Decimal

namespace DesignRegistry

namespace Json

/-! ### Strings -/

/-- A hexadecimal digit in lower case. -/
def hexDigit (n : Nat) : Char := if n < 10 then Char.ofNat (48 + n) else Char.ofNat (87 + n)

/-- The last `width` hexadecimal digits of a number. -/
def hexDigits : Nat → Nat → List Char
  | 0, _ => []
  | width + 1, n => hexDigits width (n / 16) ++ [hexDigit (n % 16)]

/-- The escape of one unit of sixteen bits. -/
def unitEscape (unit : Nat) : List Char := '\\' :: 'u' :: hexDigits 4 unit

/-- The escape of a character by its units of sixteen bits: a pair beyond the basic plane. -/
def unitEscapes (c : Char) : List Char :=
  let code := c.toNat
  if code < 0x10000 then unitEscape code
  else
    unitEscape (0xD800 + (code - 0x10000) / 0x400) ++ unitEscape (0xDC00 + (code - 0x10000) % 0x400)

/-- The two-character escape of a character that has one. -/
def shortEscape? (c : Char) : Option Char :=
  if c = '"' then some '"'
  else if c = '\\' then some '\\'
  else if c = '\n' then some 'n'
  else if c = '\r' then some 'r'
  else if c = '\t' then some 't'
  else if c = '\x0c' then some 'f'
  else if c = '\x08' then some 'b'
  else none

/-- A character inside a string literal. -/
def escapeChar (asciiOnly : Bool) (c : Char) : List Char :=
  match shortEscape? c with
  | some e => ['\\', e]
  | none =>
    if c.toNat < 32 ∨ (asciiOnly ∧ 127 ≤ c.toNat) then unitEscapes c else [c]

/-- A string literal. -/
def stringLiteral (asciiOnly : Bool) (s : String) : List Char :=
  '"' :: s.toList.flatMap (escapeChar asciiOnly) ++ ['"']

/-! ### Scalars -/

/-- The literal of a number that is not an integer. -/
def floatLiteral : Binary64 → List Char
  | .nan => "NaN".toList
  | .infinite negative => if negative then "-Infinity".toList else "Infinity".toList
  | x => x.text

/-! ### Layouts -/

/-- How a document is laid out. -/
structure Layout where
  /-- The columns per level; without them all stands on one line. -/
  indent : Option Nat
  /-- What stands between two items. -/
  separator : List Char
  /-- What stands between a key and its value. -/
  colon : List Char
  /-- Whether characters outside ASCII are escaped. -/
  asciiOnly : Bool

namespace Layout

/-- The layout of files: one item a line, two columns per level. -/
def pretty : Layout := ⟨some 2, [','], [':', ' '], false⟩

/-- The layout of files in ASCII. -/
def prettyAscii : Layout := { pretty with asciiOnly := true }

/-- One line in ASCII, with a space after commas and colons. -/
def lineAscii : Layout := ⟨none, [',', ' '], [':', ' '], true⟩

/-- One line without spaces. -/
def compact : Layout := ⟨none, [','], [':'], false⟩

/-- The break before an item or a closing bracket at a level. -/
def lineBreak (f : Layout) (level : Nat) : List Char :=
  match f.indent with
  | none => []
  | some width => '\n' :: List.replicate (width * level) ' '

end Layout

mutual

/-- The text of a document that stands at a level of nesting. -/
def renderAt (f : Layout) (level : Nat) : Json → List Char
  | .null => "null".toList
  | .bool b => if b then "true".toList else "false".toList
  | .int n => intDigits n
  | .float x => floatLiteral x
  | .str s => stringLiteral f.asciiOnly s
  | .arr [] => "[]".toList
  | .arr (x :: xs) =>
    '[' :: f.lineBreak (level + 1) ++ renderAt f (level + 1) x ++ renderItems f (level + 1) xs
      ++ f.lineBreak level ++ [']']
  | .obj [] => "\x7b\x7d".toList
  | .obj ((k, v) :: ms) =>
    '{' :: f.lineBreak (level + 1) ++ stringLiteral f.asciiOnly k ++ f.colon
      ++ renderAt f (level + 1) v ++ renderMembers f (level + 1) ms ++ f.lineBreak level ++ ['}']

/-- The items of an array after the first. -/
def renderItems (f : Layout) (level : Nat) : List Json → List Char
  | [] => []
  | x :: xs => f.separator ++ f.lineBreak level ++ renderAt f level x ++ renderItems f level xs

/-- The members of an object after the first. -/
def renderMembers (f : Layout) (level : Nat) : List (String × Json) → List Char
  | [] => []
  | (k, v) :: ms =>
    f.separator ++ f.lineBreak level ++ stringLiteral f.asciiOnly k ++ f.colon
      ++ renderAt f level v ++ renderMembers f level ms

end

/-- The text of a document in a layout. -/
def render (f : Layout) (v : Json) : String := String.ofList (renderAt f 0 v)

/-- The text of a file that holds a document: indented, with a line feed at the end. -/
def pretty (v : Json) : String := String.ofList (renderAt .pretty 0 v ++ ['\n'])

/-! ### Documents without a text -/

/-- Why a document has no text. -/
inductive TextFault where
  /-- An integer has more digits than are written. -/
  | tooManyDigits
deriving DecidableEq, Repr

namespace TextFault

/-- The wording of a fault. -/
def message : TextFault → String
  | .tooManyDigits =>
    "Exceeds the limit (" ++ natText maxIntegerDigits ++ " digits) for integer string conversion; "
      ++ "use sys.set_int_max_str_digits() to increase the limit"

end TextFault

mutual

/-- Whether all integers of a document have few enough digits to be written. -/
def hasText : Json → Bool
  | .int n => decide ((natDigits n.natAbs).length ≤ maxIntegerDigits)
  | .arr xs => hasTextItems xs
  | .obj ms => hasTextMembers ms
  | _ => true

/-- Whether all items have a text. -/
def hasTextItems : List Json → Bool
  | [] => true
  | x :: xs => hasText x && hasTextItems xs

/-- Whether the values of all members have a text. -/
def hasTextMembers : List (String × Json) → Bool
  | [] => true
  | (_, v) :: ms => hasText v && hasTextMembers ms

end

/-- A text that shows values, unless one of them has no text itself: then the fault is told. -/
def showing (values : List Json) (text : String) : String :=
  if values.all hasText then text else TextFault.tooManyDigits.message

/-! ### Order of keys -/

mutual

/-- The document with the members of every object ordered by key. -/
def sortKeys : Json → Json
  | .arr xs => .arr (sortKeysItems xs)
  | .obj ms => .obj ((sortKeysMembers ms).mergeSort fun a b => decide (a.1 ≤ b.1))
  | v => v

/-- The items with their keys ordered. -/
def sortKeysItems : List Json → List Json
  | [] => []
  | x :: xs => sortKeys x :: sortKeysItems xs

/-- The members with the keys inside their values ordered. -/
def sortKeysMembers : List (String × Json) → List (String × Json)
  | [] => []
  | (k, v) :: ms => (k, sortKeys v) :: sortKeysMembers ms

end

end Json

end DesignRegistry
