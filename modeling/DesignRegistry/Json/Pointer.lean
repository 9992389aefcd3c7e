/-
**Pointers into a document.**

A pointer is a list of tokens, each with a slash in front; the empty pointer is the whole document.
A token is a key of an object or, in decimal without a sign or zeros in front, an index of an array.
The token `-` stands for the place after the last item.  `/` and `~` inside a token are written `~1`
and `~0`.

Main definitions

* `Json.Pointer.read`, `Json.Pointer.text` — the tokens of a pointer, and its text;
* `Json.StepFault` — why a token leads nowhere;
* `Json.step` — the value that a token leads to;
* `Json.editAt` — the document with the container at a pointer's last token replaced.
-/
import DesignRegistry.Json.Reference

namespace DesignRegistry

namespace Json

/-! ### Text of pointers -/

/-- Why a text is no pointer. -/
inductive PointerFault where
  /-- A tilde that starts no escape, with the character after it. -/
  | invalidEscape (text : String)
  /-- The text does not start with a slash. -/
  | noSlash
deriving DecidableEq, Repr

namespace PointerFault

/-- The wording of a fault. -/
def message : PointerFault → String
  | .invalidEscape text => "Found invalid escape " ++ text
  | .noSlash => "Location must start with /"

end PointerFault

/-- The first tilde that starts no escape, with the character after it. -/
def invalidEscape? : List Char → Option (List Char)
  | [] => none
  | [c] => if c = '~' then some ['~'] else none
  | c :: d :: rest =>
    if c = '~' then
      if d = '0' ∨ d = '1' then invalidEscape? (d :: rest) else some ['~', d]
    else invalidEscape? (d :: rest)

namespace Pointer

/-- The tokens of a pointer. -/
def read (text : String) : Except PointerFault (List String) :=
  match invalidEscape? text.toList with
  | some e => .error (.invalidEscape (String.ofList e))
  | none =>
    match pieces '/' text.toList with
    | [] :: tokens => .ok (tokens.map unescapeToken)
    | _ => .error .noSlash

/-- The text of a pointer. -/
def text (tokens : List String) : String :=
  String.ofList (tokens.flatMap fun t => '/' :: (escapeToken t).toList)

end Pointer

/-- The index that a token denotes. -/
def arrayIndex? (token : String) : Option Nat :=
  match token.toList with
  | [] => none
  | ['0'] => some 0
  | '0' :: _ => none
  | digits => if digits.all Char.isDigit then some (natOfDigits digits) else none

/-- The token of a step. -/
def PathStep.token : PathStep → String
  | .key name => name
  | .index i => natText i

/-! ### Steps -/

/-- Why a token leads nowhere. -/
inductive StepFault where
  | missingMember (key : String) (members : Members)
  | notIndex (token : String)
  | outOfBounds (index : Nat)
  /-- A step into a text. -/
  | insideText (token : String)
  /-- A step into a value that holds no others, by the label of its type. -/
  | insideScalar (label : String)

/-- The label of the place after the last item of an array. -/
def endLabel : String := "jsonpointer.EndOfList"

namespace StepFault

/-- The wording of a fault. -/
def message : StepFault → String
  | .missingMember key ms =>
    showing [.obj ms] ("member '" ++ key ++ "' not found in " ++ (Json.obj ms).display)
  | .notIndex token => "'" ++ token ++ "' is not a valid sequence index"
  | .outOfBounds index => "index '" ++ natText index ++ "' is out of bounds"
  | .insideText token =>
    "Cannot apply token '" ++ token ++ "' to non-container type <class 'str'>"
  | .insideScalar label =>
    "Document '<class '" ++ label ++ "'>' does not support indexing, must be mapping/sequence or "
      ++ "support __getitem__"

end StepFault

/-- The fault of a step into a value that is neither object nor array. -/
def scalarFault (token : String) : Json → StepFault
  | .str _ => .insideText token
  | v => .insideScalar v.typeLabel

/-- The value that a token leads to, other than the place after the last item. -/
def step (token : String) : Json → Except StepFault Json
  | .obj ms =>
    match Members.get? token ms with
    | some v => .ok v
    | none => .error (.missingMember token ms)
  | .arr xs =>
    if token = "-" then .error (.insideScalar endLabel)
    else
      match arrayIndex? token with
      | none => .error (.notIndex token)
      | some i =>
        match xs[i]? with
        | some v => .ok v
        | none => .error (.outOfBounds i)
  | v => .error (scalarFault token v)

/-- The value with the part that a token leads to replaced; a token that leads nowhere changes
nothing. -/
def withStep (v : Json) (token : String) (part : Json) : Json :=
  match v with
  | .obj ms => .obj (Members.put token part ms)
  | .arr xs =>
    match arrayIndex? token with
    | some i => .arr (xs.set i part)
    | none => .arr xs
  | v => v

/-- The container that the tokens lead to. -/
def walkTokens : List String → Json → Except StepFault Json
  | [], v => .ok v
  | t :: ts, v =>
    match v.step t with
    | .ok w => walkTokens ts w
    | .error e => .error e

/-- The document with the value that the tokens lead to replaced by an edit of it. -/
def editAt {ε : Type} (fault : StepFault → ε) (edit : Json → Except ε Json) :
    List String → Json → Except ε Json
  | [], v => edit v
  | t :: ts, v =>
    match v.step t with
    | .error e => .error (fault e)
    | .ok w =>
      match editAt fault edit ts w with
      | .error e => .error e
      | .ok w => .ok (v.withStep t w)

end Json

end DesignRegistry
