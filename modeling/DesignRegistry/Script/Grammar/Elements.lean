/-
**The grammar of scripts: elements.**

An element is written with tags: an opening tag, what stands inside, and a closing tag, or one tag
that closes itself.  A closing tag need not repeat the name.  Inside an element stand plain text,
other elements and expressions in braces; an attribute has a name and possibly a value.
-/
import DesignRegistry.Script.Grammar.Types

namespace DesignRegistry

namespace Script

open Reader

/-! ### Names -/

/-- Whether a character can continue the name of an element or attribute. -/
def isTagNamePart (c : Char) : Bool := isNamePart c || c == '-'

/-- A part of the name of an element or attribute. -/
def tagWord : Reader Tree := do
  let start ← tokenStart
  match ← rest with
  | c :: s =>
    guardThat (isNameStart c)
    advance (1 + (s.takeWhile isTagNamePart).length)
    finish .identifier start []
  | [] => failure

/-- The name of an attribute, possibly in a name space. -/
def attributeName : Reader Tree := do
  let start ← tokenStart
  let first ← tagWord
  if ← takeSymbol ":" then
    let second ← tagWord
    finish .plain start [first, second]
  else return first

/-- The name of an element: a word, words with dots, or a word in a name space. -/
def elementName : Reader Tree := do
  let start ← tokenStart
  let first ← tagWord
  if ← takeSymbol ":" then
    let second ← tagWord
    finish .plain start [first, second]
  else
    let others ← manyOf (do symbol "."; tagWord)
    if others.isEmpty then return first else finish .member start (first :: others)

/-! ### Embedded expressions and attributes -/

/-- An expression in braces; comments before it count as parts. -/
def embedded (R : Rules) : Reader Tree := do
  let start ← tokenStart
  symbol "\x7b"
  let before ← trivia
  let inner ←
    if ← nextIs "\x7d" then pure []
    else if ← nextIs "..." then do
      let s ← tokenStart
      symbol "..."
      let t ← R.assignment {}
      pure [← finish .spread s [t]]
    else pure [← R.expression {}]
  let after ← trivia
  symbol "\x7d"
  finish .embedded start (before.comments ++ inner ++ after.comments)

/-- An attribute, with comments between its parts. -/
def tagAttribute (R : Rules) : Reader Tree := do
  let start ← tokenStart
  let n ← attributeName
  let found ← optionally (do
    let before ← trivia
    exactly "="
    let after ← trivia
    let value ←
      match (← rest).head? with
      | some '{' => embedded R
      | some '<' => R.element
      | _ => attributeString
    return before.comments ++ after.comments ++ [value])
  match found with
  | some parts => finish .attr start (n :: parts)
  | none => return .make .attr start n.stop [n]

/-- The attributes of a tag. -/
def tagAttributes (R : Rules) : Reader (List Tree) :=
  manyOf do
    match ← peek with
    | some '{' => embedded R
    | _ => tagAttribute R

/-! ### Elements -/

/-- Plain text inside an element; brackets and braces must be escaped. -/
def elementText : Reader Unit := do
  let s ← rest
  let text := s.takeWhile fun c => !(['{', '}', '<', '>'].contains c)
  guardThat (!text.isEmpty)
  advance text.length

/-- What stands inside an element: text gives no part. -/
def elementChild (R : Rules) : Reader (List Tree) := do
  match (← rest).head? with
  | some '{' => return [← embedded R]
  | some '<' =>
    guardThat !(startsWith ['<', '/'] (← rest))
    return [← R.element]
  | _ =>
    elementText
    return []

/-- A closing tag; its name need not be the one of the opening tag. -/
def closingTag : Reader Tree := do
  let start ← tokenStart
  symbol "</"
  let n ← (return (← optionally elementName).toList)
  symbol ">"
  finish .plain start n

/-- An element. -/
def element (R : Rules) : Reader Tree := do
  let start ← tokenStart
  symbol "<"
  let inside : Reader Tree := do
    let opening ← finish .openingTag start []
    let children ← manyOf (elementChild R)
    let closing ← closingTag
    finish .element start (opening :: children.flatten ++ [closing])
  if ← takeSymbol ">" then inside
  else
    let n ← elementName
    let given ← whenTyped (typeArguments R)
    let attrs ← tagAttributes R
    let parts := n.withRole .name :: given ++ attrs
    if ← takeSymbol "/>" then finish .selfClosingElement start parts
    else
      symbol ">"
      let opening ← finish .openingTag start parts
      let children ← manyOf (elementChild R)
      let closing ← closingTag
      finish .element start (opening :: children.flatten ++ [closing])

end Script

end DesignRegistry
