/-
**Texts in markup.**

In the text of an element three characters are written as references.  In the value of an
attribute line ends and tabs are too, and the value stands in the quotes that need no reference if
there are such.

Main definitions

* `Markup.escaped` — a text inside an element;
* `Markup.attributeText` — the value of an attribute with its quotes.
-/

namespace DesignRegistry

namespace Markup

/-- A character in the text of an element. -/
def textChar (c : Char) : List Char :=
  if c = '&' then "&amp;".toList
  else if c = '<' then "&lt;".toList
  else if c = '>' then "&gt;".toList
  else [c]

/-- A text inside an element. -/
def escaped (s : String) : String := String.ofList (s.toList.flatMap textChar)

/-- A character in the value of an attribute, quotes apart. -/
def attributeChar (c : Char) : List Char :=
  if c = '\n' then "&#10;".toList
  else if c = '\r' then "&#13;".toList
  else if c = '\t' then "&#9;".toList
  else textChar c

/-- A character in the value of an attribute in double quotes. -/
def doubleQuotedChar (c : Char) : List Char :=
  if c = '"' then "&quot;".toList else attributeChar c

/-- The value of an attribute with its quotes. -/
def attributeChars (s : List Char) : List Char :=
  if s.contains '"' && !s.contains '\'' then '\'' :: s.flatMap attributeChar ++ ['\'']
  else '"' :: s.flatMap doubleQuotedChar ++ ['"']

/-- The value of an attribute with its quotes. -/
def attributeText (s : String) : String := String.ofList (attributeChars s.toList)

end Markup

end DesignRegistry
