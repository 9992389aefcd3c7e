/-
**References inside a document.**

A reference `#/a/b` names a value by the keys and indexes that lead to it from the root.  `/` and
`~` inside a key are written `~1` and `~0`.  An index may be any integer; a negative one counts from
the end.

Main definitions

* `Json.PathStep`, `Json.walk?` — a way into a document, and where it leads;
* `Json.escapeToken`, `Json.unescapeToken` — keys inside a reference;
* `Json.resolve` — the value that a reference names.
-/
import DesignRegistry.Json.Display
import DesignRegistry.Number.Literal
import DesignRegistry.Text.Pieces

namespace DesignRegistry

namespace Json

/-! ### Ways into a document -/

/-- One step into a document. -/
inductive PathStep where
  | key (name : String)
  | index (i : Nat)
deriving DecidableEq, Repr

/-- The value that one step leads to. -/
def child? : PathStep → Json → Option Json
  | .key name, .obj ms => Members.get? name ms
  | .index i, .arr xs => xs[i]?
  | _, _ => none

/-- The value that steps lead to. -/
def walk? : List PathStep → Json → Option Json
  | [], v => some v
  | s :: steps, v => (v.child? s).bind (walk? steps)

/-! ### Tokens -/

/-- A key inside a reference. -/
def escapeToken (s : String) : String :=
  String.ofList (s.toList.flatMap fun c =>
    if c = '~' then ['~', '0'] else if c = '/' then ['~', '1'] else [c])

/-- The key that a token denotes: `~1` is read first, `~0` after it. -/
def unescapeToken (s : List Char) : String :=
  String.ofList (replaceAll ['~', '0'] ['~'] (replaceAll ['~', '1'] ['/'] s))

/-! ### Resolution -/

/-- Why a reference names nothing. -/
inductive ReferenceProblem where
  /-- The reference does not start at the root of the document. -/
  | unsupported (reference : String)
  | missingKey (key : String)
  /-- A step into an array that is no integer. -/
  | badIndex (token : String)
  | indexOutOfRange
  /-- A step into a value that holds no others. -/
  | notContainer
deriving DecidableEq, Repr

namespace ReferenceProblem

/-- The wording of a problem. -/
def message : ReferenceProblem → String
  | .unsupported r => "Unsupported $ref (only internal refs supported): " ++ r
  | .missingKey k => quoted ("Missing ref path segment: " ++ k)
  | .badIndex t => "invalid literal for int() with base 10: " ++ quoted t
  | .indexOutOfRange => "list index out of range"
  | .notContainer => "Cannot traverse non-container"

end ReferenceProblem

/-- An item by an index that may count from the end. -/
def itemAt? (xs : List Json) (i : Int) : Option Json :=
  if 0 ≤ i then xs[i.toNat]?
  else if i.natAbs ≤ xs.length then xs[xs.length - i.natAbs]? else none

/-- The value that one token of a reference leads to. -/
def resolveToken (token : List Char) (v : Json) : Except ReferenceProblem Json :=
  let key := unescapeToken token
  match v with
  | .obj ms =>
    match Members.get? key ms with
    | some w => .ok w
    | none => .error (.missingKey key)
  | .arr xs =>
    match integerOfText? key with
    | none => .error (.badIndex key)
    | some i =>
      match itemAt? xs i with
      | some w => .ok w
      | none => .error .indexOutOfRange
  | _ => .error .notContainer

/-- The value that the tokens of a reference lead to. -/
def resolveTokens : List (List Char) → Json → Except ReferenceProblem Json
  | [], v => .ok v
  | t :: ts, v =>
    match resolveToken t v with
    | .ok w => resolveTokens ts w
    | .error e => .error e

/-- The value that a reference names. -/
def resolve (root : Json) (reference : String) : Except ReferenceProblem Json :=
  match reference.toList with
  | ['#'] => .ok root
  | '#' :: '/' :: rest => resolveTokens (pieces '/' rest) root
  | _ => .error (.unsupported reference)

end Json

end DesignRegistry
