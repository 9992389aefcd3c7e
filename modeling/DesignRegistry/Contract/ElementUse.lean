/-
**Elements, calls and spacing.**

Four rules need no registry: styles and class names, accessibility, performance, and spacing on a
grid.

Main definitions

* `Rule.propDiagnostics`, `Rule.accessibilityDiagnostics`, `Rule.performanceDiagnostics`,
  `Rule.patternDiagnostics` — what the rules say about a script.
-/
import DesignRegistry.Contract.Rule
import DesignRegistry.Text.Occurrence

namespace DesignRegistry

/-! ### Styles and class names -/

/-- Whether a text starts with another and then a decimal digit. -/
def hasFrontAndDigit (front s : String) : Bool :=
  match afterFront? front.toList s.toList with
  | some (c :: _) => isDecimal c
  | _ => false

/-- Whether a class stands for one fixed colour or spacing. -/
def isFixedClass (name : String) : Bool :=
  ["color-", "bg-", "text-"].any (Text.hasFront name)
    || ["p-", "m-"].any fun front => hasFrontAndDigit front name

/-- The suggestions about the classes that an element names. -/
def classSuggestions (e : Script.Element) : List Diagnostic :=
  match e.attribute? "className" with
  | none => []
  | some a =>
    if a.isString then
      ((wordsOf a.textValue).filter isFixedClass).map fun n =>
        Rule.props.suggestion e.position
          ("Consider using a design token instead of hard-coded class '" ++ n ++ "'")
    else []

/-- What there is to say about the style of an element. -/
def styleDiagnostics (e : Script.Element) : List Diagnostic :=
  (if e.hasAttribute "style" then
    [Rule.props.warning e.position
      "Avoid inline styles. Use design tokens or className instead."]
    else [])
  ++ classSuggestions e

/-! ### Accessibility -/

/-- The elements that are not made for clicks. -/
def plainElements : List String := ["div", "span"]

/-- The warnings about an element that is made for no clicks and takes them. -/
def clickWarnings (e : Script.Element) : List Diagnostic :=
  if plainElements.contains e.name && e.hasAttribute "onClick" then
    (if e.hasAttribute "role" then []
      else
        [Rule.accessibility.warning e.position
          ("Clickable " ++ e.name ++ " should have a role attribute")])
    ++ (if e.hasAttribute "tabIndex" then []
      else
        [Rule.accessibility.warning e.position
          ("Clickable " ++ e.name ++ " should be keyboard accessible (tabIndex)")])
  else []

/-- What there is to say about the accessibility of an element. -/
def accessDiagnostics (e : Script.Element) : List Diagnostic :=
  (if e.name == "img" && !e.hasAttribute "alt" then
    [Rule.accessibility.error e.position "img elements must have an alt attribute"]
    else [])
  ++ clickWarnings e

/-! ### Performance -/

/-- The calls whose results are worth keeping. -/
def costlyCalls : List String := ["sort", "filter", "map"]

/-- What there is to say about the performance of a node. -/
def costDiagnostics : Script.Node → List Diagnostic
  | .element e =>
    if e.isMapItem && !e.hasAttribute "key" then
      [Rule.performance.warning e.position "Missing key prop in list element"]
    else []
  | .call c =>
    if c.inComponentBody && costlyCalls.contains c.callee then
      [Rule.performance.suggestion c.position
        ("Consider memoizing " ++ c.callee ++ " operation with useMemo")]
    else []
  | _ => []

/-! ### Spacing -/

/-- The unit of the grid in pixels. -/
def gridUnit : Nat := 4

/-- The number that decimal digits of any script denote. -/
def numberOf (digits : List Char) : Nat :=
  digits.foldl (fun n c => 10 * n + (decimalValue? c).getD 0) 0

/-- The pixels that `padding`, `margin` or `gap` is set to, and the length of the setting. -/
def spacingNamed? (name s : List Char) : Option (Nat × Nat) := do
  let rest ← afterFront? (name ++ [':']) s
  let blanks := rest.takeWhile isBlank
  let (digits, rest) ← spanIn? isDecimal (rest.dropWhile isBlank)
  let _ ← afterFront? "px".toList rest
  return (numberOf digits, name.length + blanks.length + digits.length + 3)

/-- The pixels of a spacing in front of a text, and the length of the setting. -/
def spacingIn? (s : List Char) : Option (Nat × Nat) :=
  spacingNamed? "padding".toList s <|> spacingNamed? "margin".toList s
    <|> spacingNamed? "gap".toList s

/-- The suggestions about spacing in a line. -/
def spacingSuggestions (line : Nat) (text : String) : List Diagnostic :=
  ((occurrences spacingIn? text).filter fun found => found.2 % gridUnit != 0).map fun found =>
    Rule.patterns.suggestion ⟨line, found.1⟩
      ("Spacing value " ++ natText found.2 ++ "px is not aligned to " ++ natText gridUnit
        ++ "px grid. Consider using a spacing token.")

namespace Rule

/-! ### The rules -/

/-- What the rule about props says about a script. -/
def propDiagnostics (s : Script.Source) : List Diagnostic := s.elements.flatMap styleDiagnostics

/-- What the rule about accessibility says about a script. -/
def accessibilityDiagnostics (s : Script.Source) : List Diagnostic :=
  s.elements.flatMap accessDiagnostics

/-- What the rule about performance says about a script. -/
def performanceDiagnostics (s : Script.Source) : List Diagnostic := s.nodes.flatMap costDiagnostics

/-- What the rule about spacing says about a script. -/
def patternDiagnostics (s : Script.Source) : List Diagnostic :=
  s.lines.zipIdx.flatMap fun (text, i) => spacingSuggestions (i + 1) text

end Rule

end DesignRegistry
