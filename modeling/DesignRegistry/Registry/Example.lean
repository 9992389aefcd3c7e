/-
**Examples of components.**

An example is a piece of markup.  What it uses is read off its text: the names that are followed by
an equals sign and an opening quote or brace, and the first quoted value of `variant`.  Style texts
are read as words, which may have dashes inside.

Main definitions

* `Example.propNames` — the names of the props that a text gives;
* `Example.variant?` — the variant that a text chooses;
* `styleWords` — the words of a style.
-/
import DesignRegistry.Text.Pieces

namespace DesignRegistry

namespace Example

/-- Whether a character opens the value of a prop. -/
def opensValue (c : Char) : Bool := c == '{' || c == '"' || c == '\''

/-- Whether a character is a quote. -/
def isQuote (c : Char) : Bool := c == '"' || c == '\''

/-- The names of the props that a text gives; `word` holds the word characters just read, the last
first. -/
def propNamesFrom (word : List Char) : List Char → List (List Char)
  | [] => []
  | c :: cs =>
    if isWord c then propNamesFrom (c :: word) cs
    else if c = '=' ∧ word ≠ [] then
      match cs with
      | q :: rest =>
        if opensValue q then word.reverse :: propNamesFrom [] rest
        else propNamesFrom [] (q :: rest)
      | [] => []
    else propNamesFrom [] cs

/-- The names of the props that a text gives, in order. -/
def propNames (text : String) : List String :=
  (propNamesFrom [] text.toList).map String.ofList

/-- The word in quotes at the start of a text. -/
def quotedWord? (s : List Char) : Option (List Char) :=
  match s with
  | q :: rest =>
    let word := rest.takeWhile isWord
    match rest.dropWhile isWord with
    | r :: _ => if isQuote q && isQuote r && !word.isEmpty then some word else none
    | [] => none
  | [] => none

/-- The first word in quotes that is given for `variant`. -/
def variantIn? : List Char → Option (List Char)
  | [] => none
  | c :: cs =>
    match (afterFront? "variant=".toList (c :: cs)).bind quotedWord? with
    | some word => some word
    | none => variantIn? cs

/-- The variant that a text chooses. -/
def variant? (text : String) : Option String := (variantIn? text.toList).map String.ofList

end Example

/-! ### Words of styles -/

/-- Whether a character may stand in a word of a style. -/
def isStyleChar (c : Char) : Bool := isWord c || c == '-'

/-- The runs of characters that pass a test; `run` holds the run so far, the last first. -/
def runsFrom (test : Char → Bool) (run : List Char) : List Char → List (List Char)
  | [] => if run.isEmpty then [] else [run.reverse]
  | c :: cs =>
    if test c then runsFrom test (c :: run) cs
    else (if run.isEmpty then [] else [run.reverse]) ++ runsFrom test [] cs

/-- A run without the dashes around it. -/
def trimDashes (s : List Char) : List Char :=
  ((s.dropWhile (· == '-')).reverse.dropWhile (· == '-')).reverse

/-- The words of a style: runs of word characters and dashes, without dashes around them. -/
def styleWords (text : String) : List String :=
  (((runsFrom isStyleChar [] text.toList).map trimDashes).filter (!·.isEmpty)).map String.ofList

end DesignRegistry
