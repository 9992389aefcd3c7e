/-
**The use of tokens.**

Scripts are read line by line.  A value that a token commonly stands for should be given by the
token; a reference, `var(--name)` or `token('name')`, must name a token of the registry.  A token is
named as the registry names it or with dashes for dots.

Main definitions

* `Token.standIn?` — the token that commonly stands for a value;
* `Token.referenceIn?` — a reference in front of a text;
* `Rule.tokenDiagnostics` — what the rule says about a script.
-/
import DesignRegistry.Contract.Rule
import DesignRegistry.Text.Occurrence

namespace DesignRegistry

namespace Token

/-! ### Values that stand for tokens -/

/-- Values with the tokens that commonly stand for them. -/
def standIns : List (String × String) :=
  [("#ffffff", "color.white"), ("#000000", "color.black"), ("16px", "spacing.md"),
    ("8px", "spacing.sm"), ("24px", "spacing.lg"), ("1rem", "spacing.md")]

/-- The token that commonly stands for a value; of a colour, capitals do not count. -/
def standIn? (value : String) : Option String :=
  standIns.lookup (if Text.hasFront value "#" then lowerAscii value else value)

/-- What finds the values that a token may stand for, in the order in which a line is searched. -/
def valueFinders : List (List Char → Option (String × Nat)) :=
  [hexColourIn?, measureIn? "px".toList, colourCallIn?, measureIn? "rem".toList]

/-- The warning about a value at a place, if a token stands for it. -/
def valueWarning? (line : Nat) (found : Nat × String) : Option Diagnostic :=
  (standIn? found.2).map fun t =>
    Rule.tokens.warning ⟨line, found.1⟩
      ("Hard-coded value '" ++ found.2 ++ "' should use token '" ++ t ++ "'") (some t)

/-- The warnings about values in a line. -/
def valueWarnings (line : Nat) (text : String) : List Diagnostic :=
  valueFinders.flatMap fun find => (occurrences find text).filterMap (valueWarning? line)

/-! ### References -/

/-- The name in `var(--name)`, and the length of the reference. -/
def variableIn? (s : List Char) : Option (String × Nat) := do
  let rest ← afterFront? "var(--".toList s
  let (name, rest) ← spanIn? (· != ')') rest
  let _ ← afterFront? [')'] rest
  return (String.ofList name, name.length + 7)

/-- The text in quotes of either kind in front of a text, and what follows. -/
def inQuotes? : List Char → Option (List Char × List Char)
  | [] => none
  | q :: s =>
    if Example.isQuote q then
      match spanIn? (fun c => !Example.isQuote c) s with
      | some (text, _ :: rest) => some (text, rest)
      | _ => none
    else none

/-- The name in `token('name')`, and the length of the reference. -/
def callIn? (s : List Char) : Option (String × Nat) := do
  let rest ← afterFront? "token(".toList s
  let (name, rest) ← inQuotes? rest
  let _ ← afterFront? [')'] rest
  return (String.ofList name, name.length + 9)

/-- The name in a reference in front of a text, and the length of the reference. -/
def referenceIn? (s : List Char) : Option (String × Nat) := variableIn? s <|> callIn? s

/-- Whether a reference names one of the tokens, given by all their spellings. -/
def isKnown (spellings : List String) (name : String) : Bool :=
  spellings.contains name || spellings.contains (dotted name)

/-- The error about a reference at a place, if it names no token. -/
def referenceError? (spellings : List String) (line : Nat) (found : Nat × String) :
    Option Diagnostic :=
  if isKnown spellings found.2 then none
  else
    some (Rule.tokens.error ⟨line, found.1⟩ ("Token '" ++ found.2 ++ "' not found in registry"))

/-- The errors about references in a line. -/
def referenceErrors (spellings : List String) (line : Nat) (text : String) : List Diagnostic :=
  (occurrences referenceIn? text).filterMap (referenceError? spellings line)

end Token

namespace Rule

/-- What the rule about tokens says about a script. -/
def tokenDiagnostics (registry : Json) (s : Script.Source) : List Diagnostic :=
  let spellings := Token.spellings registry
  s.lines.zipIdx.flatMap fun (text, i) =>
    Token.valueWarnings (i + 1) text ++ Token.referenceErrors spellings (i + 1) text

end Rule

end DesignRegistry
