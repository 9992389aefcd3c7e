/-
**Values in messages.**

Messages show values in a display of their own: the constants are `None`, `True` and `False`, and
texts stand in single quotes unless double quotes save an escape.  `Json.display` is that form;
`Json.plain` is the form of a value that stands in a sentence, where a text is shown as it is.

Main definitions

* `quoted` — a text in quotes with what cannot be printed escaped;
* `Json.display`, `Json.plain` — a value quoted, and a value in a sentence;
* `Json.typeLabel` — the label of a value's type.
-/
import DesignRegistry.Json.Printer
import DesignRegistry.Text.Category

namespace DesignRegistry

/-! ### Quoted texts -/

/-- The quote for a text: double if that spares an escape, single otherwise. -/
def quoteFor (s : List Char) : Char :=
  if s.contains '\'' && !s.contains '"' then '"' else '\''

/-- The escape of a character that cannot be printed, as short as its code point allows. -/
def codeEscape (c : Char) : List Char :=
  if c.toNat < 0x100 then '\\' :: 'x' :: Json.hexDigits 2 c.toNat
  else if c.toNat < 0x10000 then '\\' :: 'u' :: Json.hexDigits 4 c.toNat
  else '\\' :: 'U' :: Json.hexDigits 8 c.toNat

/-- A character inside quotes. -/
def quotedChar (quote : Char) (c : Char) : List Char :=
  if c = quote ∨ c = '\\' then ['\\', c]
  else if c = '\n' then ['\\', 'n']
  else if c = '\r' then ['\\', 'r']
  else if c = '\t' then ['\\', 't']
  else if isPrintable c then [c]
  else codeEscape c

/-- A text in quotes. -/
def quotedChars (s : List Char) : List Char :=
  let quote := quoteFor s
  quote :: s.flatMap (quotedChar quote) ++ [quote]

/-- A text in quotes, as messages show it. -/
def quoted (s : String) : String := String.ofList (quotedChars s.toList)

/-! ### Values -/

namespace Json

mutual

/-- A value as messages show it. -/
def displayChars : Json → List Char
  | .null => "None".toList
  | .bool b => if b then "True".toList else "False".toList
  | .int n => intDigits n
  | .float x => x.text
  | .str s => quotedChars s.toList
  | .arr [] => "[]".toList
  | .arr (x :: xs) => '[' :: displayChars x ++ displayItems xs ++ [']']
  | .obj [] => "\x7b\x7d".toList
  | .obj ((k, v) :: ms) =>
    '{' :: quotedChars k.toList ++ ':' :: ' ' :: displayChars v ++ displayMembers ms ++ ['}']

/-- The items of an array after the first. -/
def displayItems : List Json → List Char
  | [] => []
  | x :: xs => ',' :: ' ' :: displayChars x ++ displayItems xs

/-- The members of an object after the first. -/
def displayMembers : List (String × Json) → List Char
  | [] => []
  | (k, v) :: ms =>
    ',' :: ' ' :: quotedChars k.toList ++ ':' :: ' ' :: displayChars v ++ displayMembers ms

end

/-- A value as messages show it, texts in quotes. -/
def display (v : Json) : String := String.ofList (displayChars v)

/-- A value in a sentence: a text stands without quotes. -/
def plain : Json → String
  | .str s => s
  | v => v.display

/-- The label of a value's type in messages. -/
def typeLabel : Json → String
  | .null => "NoneType"
  | .bool _ => "bool"
  | .int _ => "int"
  | .float _ => "float"
  | .str _ => "str"
  | .arr _ => "list"
  | .obj _ => "dict"

end Json

/-- Texts as a message lists them, in brackets and quotes. -/
def quotedList (texts : List String) : String := (Json.arr (texts.map .str)).display

end DesignRegistry
