/-
**Checking values against schemas.**

A schema is a JSON document whose members say what a value must be like.  The check collects every
violation it meets; a condition of `anyOf`, `oneOf` or `if` is a check of its own whose violations
are counted and not kept.

Every keyword is a function that takes the check of smaller parts as a parameter; `Schema.checkAt`
ties them together.  A chain of references can return to the schema it started from without looking
at a smaller part of the value; such a check has no end.  The depth of a check that does end is
bounded by the depth of the value times the number of schemas that there are, and this bound is the
fuel of the recursion.  A run whose stack has room for fewer steps stops the check as if it had no end.

Main definitions

* `Schema.Violation`, `Schema.Fault` — what is reported, and what stops a check;
* `Schema.checkAt` — the check at one place;
* `Schema.validate`, `Schema.validateWithin` — all violations, ordered by path, keyword and message,
  and those that are found with a bounded stack.
-/
import DesignRegistry.Json.Reference
import DesignRegistry.Pattern.Reader
import DesignRegistry.Time.Rfc3339

namespace DesignRegistry

namespace Schema

open Json

/-! ### Reports -/

/-- A violation of a schema. -/
structure Violation where
  /-- The place of the value, such as `$.a[0]`. -/
  path : String
  /-- What is wrong. -/
  message : String
  /-- The keyword that is violated. -/
  keyword : String
  /-- The value, where the keyword shows it. -/
  value : Option Json := none

/-- The order of violations in a report. -/
def Violation.le (a b : Violation) : Bool :=
  if a.path ≠ b.path then decide (a.path < b.path)
  else if a.keyword ≠ b.keyword then decide (a.keyword < b.keyword)
  else decide (a.message ≤ b.message)

/-- Why a keyword's value cannot be used. -/
inductive Fault where
  /-- A text that denotes no integer. -/
  | badInteger (text : String)
  /-- A value of a kind that is no integer. -/
  | notInteger (kind : Kind)
  /-- The value that is not a number, where an integer is needed. -/
  | nanAsInteger
  /-- An infinity where an integer is needed. -/
  | infinityAsInteger
  /-- A text that denotes no number. -/
  | badNumber (text : String)
  /-- A value of a kind that is no number. -/
  | notNumber (kind : Kind)
  /-- An integer beyond the binary numbers. -/
  | tooLarge
  /-- A required key that is an array or an object. -/
  | unusableKey (kind : Kind)
  /-- A text that denotes no pattern. -/
  | badPattern (defect : Pattern.Defect)
  /-- References that lead back to where they started, or more steps than the stack has room for. -/
  | endless
  /-- A value that a message shows has no text. -/
  | noText (fault : TextFault)
deriving DecidableEq, Repr

/-- The word that messages use for a kind of container. -/
def containerWord : Kind → String
  | .array => "list"
  | .object => "dict"
  | k => k.name

namespace Fault

/-- The wording of a fault. -/
def message : Fault → String
  | .badInteger t => "invalid literal for int() with base 10: " ++ quoted t
  | .notInteger k =>
    "int() argument must be a string, a bytes-like object or a real number, not '"
      ++ containerWord k ++ "'"
  | .nanAsInteger => "cannot convert float NaN to integer"
  | .infinityAsInteger => "cannot convert float infinity to integer"
  | .badNumber t => "could not convert string to float: " ++ quoted t
  | .notNumber k =>
    "float() argument must be a string or a real number, not '" ++ containerWord k ++ "'"
  | .tooLarge => "int too large to convert to float"
  | .unusableKey k => "unhashable type: '" ++ containerWord k ++ "'"
  | .badPattern .malformed => "invalid pattern"
  | .badPattern .countTooLarge => "the repetition number is too large"
  | .badPattern .flagsClash => "ASCII and UNICODE flags are incompatible"
  | .endless => "maximum recursion depth exceeded"
  | .noText fault => fault.message

end Fault

/-- The outcome of a check: violations in the order in which they were met. -/
abbrev Outcome := Except Fault (List Violation)

/-! ### Numbers of keywords -/

/-- A keyword's value as an integer; a fraction is cut off. -/
def integerOf : Json → Except Fault Int
  | .bool b => .ok b.toNat
  | .int n => .ok n
  | .float x =>
    match x with
    | .nan => .error .nanAsInteger
    | .infinite _ => .error .infinityAsInteger
    | .finite .. => .ok (x.truncate?.getD 0)
  | .str s =>
    match integerOfText? s with
    | some n => .ok n
    | none => .error (.badInteger s)
  | v => .error (.notInteger v.kind)

/-- A value as a binary number. -/
def binaryOf : Json → Except Fault Binary64
  | .bool b => .ok (if b then .finite false (twoTo 52) (-52) else .zero false)
  | .int n =>
    match Binary64.ofInt? n with
    | some x => .ok x
    | none => .error .tooLarge
  | .float x => .ok x
  | .str s =>
    match binaryOfText? s with
    | some x => .ok x
    | none => .error (.badNumber s)
  | v => .error (.notNumber v.kind)

/-! ### Parts of a report -/

/-- A report of one violation when a condition holds. -/
def reportIf (condition : Bool) (violation : Violation) : List Violation :=
  if condition then [violation] else []

/-- A keyword that is present and not null. -/
def keyword? (schema : Members) (name : String) : Option Json :=
  match Members.get? name schema with
  | some .null => none
  | found => found

/-- The violations of a list of checks, one after the other. -/
def gather {α : Type} (check : α → Outcome) : List α → Outcome
  | [] => .ok []
  | x :: xs =>
    match check x with
    | .error e => .error e
    | .ok found =>
      match gather check xs with
      | .error e => .error e
      | .ok more => .ok (found ++ more)

/-- The violations of a list of checks that know their position. -/
def gatherFrom (check : Nat → Json → Outcome) : Nat → List Json → Outcome
  | _, [] => .ok []
  | i, x :: xs =>
    match check i x with
    | .error e => .error e
    | .ok found =>
      match gatherFrom check (i + 1) xs with
      | .error e => .error e
      | .ok more => .ok (found ++ more)

/-- A check of a value against a schema at a path. -/
abbrev Checker := Json → Json → String → Outcome

/-! ### Combinations of schemas -/

/-- Whether a value satisfies a schema. -/
def satisfies (check : Checker) (v : Json) (path : String) (schema : Json) : Except Fault Bool :=
  (check v schema path).map List.isEmpty

/-- Whether some schema is satisfied; the first one ends the search. -/
def satisfiesSome (check : Checker) (v : Json) (path : String) : List Json → Except Fault Bool
  | [] => .ok false
  | s :: schemas =>
    match satisfies check v path s with
    | .error e => .error e
    | .ok true => .ok true
    | .ok false => satisfiesSome check v path schemas

/-- How many schemas are satisfied. -/
def countSatisfied (check : Checker) (v : Json) (path : String) : List Json → Except Fault Nat
  | [] => .ok 0
  | s :: schemas => do
    let first ← satisfies check v path s
    let others ← countSatisfied check v path schemas
    return first.toNat + others

/-- The keyword `allOf`. -/
def checkAllOf (check : Checker) (schema : Members) (v : Json) (path : String) : Outcome :=
  match Members.get? "allOf" schema with
  | some (.arr schemas) => gather (fun s => check v s path) schemas
  | _ => .ok []

/-- The keyword `anyOf`; an empty list asks for nothing. -/
def checkAnyOf (check : Checker) (schema : Members) (v : Json) (path : String) : Outcome :=
  match Members.get? "anyOf" schema with
  | some (.arr (s :: schemas)) => do
    let found ← satisfiesSome check v path (s :: schemas)
    return reportIf (!found)
      ⟨path, "must match at least one schema in anyOf", "anyOf", some v⟩
  | _ => .ok []

/-- The keyword `oneOf`. -/
def checkOneOf (check : Checker) (schema : Members) (v : Json) (path : String) : Outcome :=
  match Members.get? "oneOf" schema with
  | some (.arr schemas) => do
    let count ← countSatisfied check v path schemas
    return reportIf (count != 1)
      ⟨path, "must match exactly one schema in oneOf (matched " ++ natText count ++ ")", "oneOf",
        some v⟩
  | _ => .ok []

/-- The keywords `if`, `then` and `else`; only an object is a condition. -/
def checkCondition (check : Checker) (schema : Members) (v : Json) (path : String) : Outcome :=
  match Members.get? "if" schema with
  | some (.obj condition) => do
    let branch := if ← satisfies check v path (.obj condition) then "then" else "else"
    match Members.get? branch schema with
    | some s => check v s path
    | none => return []
  | _ => .ok []

/-! ### Type, constant and enumeration -/

/-- Whether a value has the type of a name; a number may be an integer. -/
def hasType (v : Json) (name : String) : Bool :=
  if name = "number" then v.kind == .number || v.kind == .integer else v.kind.name == name

/-- The violation of the keyword `type`, if there is one. -/
def typeViolation? (schema : Members) (v : Json) (path : String) : Option Violation :=
  match Members.get? "type" schema with
  | some (.arr names) =>
    let allowed := names.map Json.plain
    if allowed.any (hasType v) then none
    else
      some ⟨path, "must be one of types " ++ quotedList allowed ++ ", got " ++ v.kind.name, "type",
        some v⟩
  | some (.str name) =>
    if hasType v name then none
    else some ⟨path, "must be " ++ name ++ ", got " ++ v.kind.name, "type", some v⟩
  | _ => none

/-- The violation of the keyword `const`, if there is one. -/
def constViolation? (schema : Members) (v : Json) (path : String) : Option Violation :=
  match Members.get? "const" schema with
  | some c =>
    if v.equivalent c then none
    else some ⟨path, "must be equal to constant " ++ c.display, "const", some v⟩
  | none => none

/-- The violation of the keyword `enum`, if there is one. -/
def enumViolation? (schema : Members) (v : Json) (path : String) : Option Violation :=
  match Members.get? "enum" schema with
  | some (.arr values) =>
    if v.memberOf values then none
    else some ⟨path, "must be one of " ++ (Json.arr values).display, "enum", some v⟩
  | _ => none

/-! ### Texts and numbers -/

/-- A keyword that bounds a count from below. -/
def checkLeast (schema : Members) (name unit path : String) (v : Json) (count : Nat) : Outcome :=
  match keyword? schema name with
  | none => .ok []
  | some bound => do
    let least ← integerOf bound
    return reportIf ((count : Int) < least)
      ⟨path, "must NOT have fewer than " ++ bound.plain ++ " " ++ unit, name, some v⟩

/-- A keyword that bounds a count from above. -/
def checkMost (schema : Members) (name unit path : String) (v : Json) (count : Nat) : Outcome :=
  match keyword? schema name with
  | none => .ok []
  | some bound => do
    let most ← integerOf bound
    return reportIf (most < (count : Int))
      ⟨path, "must NOT have more than " ++ bound.plain ++ " " ++ unit, name, some v⟩

/-- The pattern of a text, which must denote one. -/
def patternOf (text : String) : Except Fault Pattern :=
  (Pattern.parse text).mapError .badPattern

/-- The keyword `pattern`. -/
def checkPattern (schema : Members) (path : String) (text : String) : Outcome :=
  match Members.get? "pattern" schema with
  | some (.str written) => do
    let p ← patternOf written
    return reportIf (!p.occursIn text)
      ⟨path, "must match pattern \"" ++ written ++ "\"", "pattern", some (.str text)⟩
  | _ => .ok []

/-- The keyword `format`, of which only timestamps are checked. -/
def checkFormat (schema : Members) (path : String) (text : String) : Outcome :=
  match Members.get? "format" schema with
  | some (.str "date-time") =>
    match checkDateTimeText text with
    | .ok _ => .ok []
    | .error _ =>
      .ok [⟨path, "must match format \"date-time\"", "format", some (.str text)⟩]
  | _ => .ok []

/-- The keywords for texts. -/
def checkText (schema : Members) (path : String) (text : String) : Outcome := do
  let short ← checkLeast schema "minLength" "characters" path (.str text) text.length
  let long ← checkMost schema "maxLength" "characters" path (.str text) text.length
  let pattern ← checkPattern schema path text
  let format ← checkFormat schema path text
  return short ++ long ++ pattern ++ format

/-- The keyword `minimum`; both sides are compared as binary numbers. -/
def checkMinimum (schema : Members) (path : String) (v : Json) : Outcome :=
  match keyword? schema "minimum" with
  | none => .ok []
  | some bound => do
    let x ← binaryOf v
    let least ← binaryOf bound
    return reportIf (x.lt least) ⟨path, "must be >= " ++ bound.plain, "minimum", some v⟩

/-- The keyword `maximum`; both sides are compared as binary numbers. -/
def checkMaximum (schema : Members) (path : String) (v : Json) : Outcome :=
  match keyword? schema "maximum" with
  | none => .ok []
  | some bound => do
    let x ← binaryOf v
    let most ← binaryOf bound
    return reportIf (most.lt x) ⟨path, "must be <= " ++ bound.plain, "maximum", some v⟩

/-- The keywords for numbers. -/
def checkNumber (schema : Members) (path : String) (v : Json) : Outcome := do
  let below ← checkMinimum schema path v
  let above ← checkMaximum schema path v
  return below ++ above

/-! ### Objects -/

/-- A required key as a text, if it can be a key at all. -/
def requiredKey (k : Json) : Except Fault (Option String) :=
  match k with
  | .str s => .ok (some s)
  | .arr _ => .error (.unusableKey .array)
  | .obj _ => .error (.unusableKey .object)
  | _ => .ok none

/-- The keyword `required`. -/
def checkRequired (schema : Members) (path : String) (ms : Members) : Outcome :=
  match Members.get? "required" schema with
  | some (.arr keys) =>
    gather (fun k => do
      let present :=
        match ← requiredKey k with
        | some s => Members.has s ms
        | none => false
      return reportIf (!present)
        ⟨path, "must have required property '" ++ k.plain ++ "'", "required", none⟩) keys
  | _ => .ok []

/-- The members of a keyword whose value is an object. -/
def memberSchemas (schema : Members) (name : String) : Members :=
  match Members.get? name schema with
  | some (.obj ms) => ms
  | _ => []

/-- A list with one more item, in front of the first one that it does not have to follow. -/
def placed {α : Type} (le : α → α → Bool) (x : α) : List α → List α
  | [] => [x]
  | y :: ys => if le x y then x :: y :: ys else y :: placed le x ys

/-- Items in order; items of the same rank stay as they follow each other. -/
def ordered {α : Type} (le : α → α → Bool) (xs : List α) : List α := xs.foldr (placed le) []

/-- Texts in the order of their code points. -/
def inOrder (keys : List String) : List String := ordered (fun a b => decide (a ≤ b)) keys

/-- The path of a member. -/
def memberPath (path key : String) : String := path ++ "." ++ key

/-- The keyword `properties`, in the order of the keys. -/
def checkProperties (check : Checker) (schema : Members) (path : String) (ms : Members) :
    Outcome :=
  let properties := memberSchemas schema "properties"
  gather (fun k =>
    match Members.get? k ms, Members.get? k properties with
    | some v, some s => check v s (memberPath path k)
    | _, _ => .ok []) (inOrder (Members.keys properties))

/-- The keys of an object that a pattern covers, in order.  A pattern is read once a key is to be
tested. -/
def coveredBy (pattern : String) (keys : List String) : Except Fault (List String) :=
  match keys with
  | [] => .ok []
  | _ => do
    let p ← patternOf pattern
    return keys.filter p.occursIn

/-- The keyword `patternProperties`: the violations, and the keys that a pattern covers. -/
def checkPatterns (check : Checker) (path : String) (ms : Members) (keys : List String) :
    List (String × Json) → Except Fault (List Violation × List String)
  | [] => .ok ([], [])
  | (pattern, s) :: rest => do
    let covered ← coveredBy pattern keys
    let found ← gather (fun k =>
      match Members.get? k ms with
      | some v => check v s (memberPath path k)
      | none => .ok []) covered
    let (more, others) ← checkPatterns check path ms keys rest
    return (found ++ more, covered ++ others)

/-- The keyword `additionalProperties`, for the keys that are neither named nor covered. -/
def checkAdditional (check : Checker) (schema : Members) (path : String) (ms : Members)
    (extra : List String) : Outcome :=
  match Members.get? "additionalProperties" schema with
  | some (.bool false) =>
    .ok (extra.map fun k =>
      ⟨memberPath path k, "must NOT have additional properties", "additionalProperties",
        Members.get? k ms⟩)
  | some (.obj s) =>
    gather (fun k =>
      match Members.get? k ms with
      | some v => check v (.obj s) (memberPath path k)
      | none => .ok []) extra
  | _ => .ok []

/-- The keywords for objects. -/
def checkObject (check : Checker) (schema : Members) (path : String) (ms : Members) : Outcome := do
  let missing ← checkRequired schema path ms
  let named ← checkProperties check schema path ms
  let keys := inOrder (Members.keys ms)
  let patterns := ordered (fun a b => decide (a.1 ≤ b.1)) (memberSchemas schema "patternProperties")
  let (matched, covered) ← checkPatterns check path ms keys patterns
  let properties := memberSchemas schema "properties"
  let extra := keys.filter fun k => !Members.has k properties && !covered.contains k
  let additional ← checkAdditional check schema path ms extra
  return missing ++ named ++ matched ++ additional

/-! ### Arrays -/

/-- The path of an item. -/
def itemPath (path : String) (i : Nat) : String := path ++ "[" ++ natText i ++ "]"

/-- The items that equal an earlier one, as violations. -/
def duplicates (path : String) (seen : List Json) : Nat → List Json → List Violation
  | _, [] => []
  | i, x :: xs =>
    if x.memberOf seen then
      ⟨itemPath path i, "must NOT have duplicate items", "uniqueItems", some x⟩
        :: duplicates path seen (i + 1) xs
    else duplicates path (seen ++ [x]) (i + 1) xs

/-- The keyword `uniqueItems`. -/
def checkUnique (schema : Members) (path : String) (xs : List Json) : List Violation :=
  match Members.get? "uniqueItems" schema with
  | some (.bool true) => duplicates path [] 0 xs
  | _ => []

/-- The keyword `items`. -/
def checkItems (check : Checker) (schema : Members) (path : String) (xs : List Json) : Outcome :=
  match Members.get? "items" schema with
  | some (.obj s) => gatherFrom (fun i x => check x (.obj s) (itemPath path i)) 0 xs
  | some (.bool b) => gatherFrom (fun i x => check x (.bool b) (itemPath path i)) 0 xs
  | _ => .ok []

/-- The keywords for arrays. -/
def checkArray (check : Checker) (schema : Members) (path : String) (xs : List Json) :
    Outcome := do
  let few ← checkLeast schema "minItems" "items" path (.arr xs) xs.length
  let many ← checkMost schema "maxItems" "items" path (.arr xs) xs.length
  let items ← checkItems check schema path xs
  return few ++ many ++ checkUnique schema path xs ++ items

/-! ### The check -/

/-- The keywords for the kind of a value. -/
def checkByKind (check : Checker) (schema : Members) (v : Json) (path : String) : Outcome :=
  match v with
  | .str s => checkText schema path s
  | .int _ | .float _ => checkNumber schema path v
  | .obj ms => checkObject check schema path ms
  | .arr xs => checkArray check schema path xs
  | _ => .ok []

/-- The keywords of a schema without a reference.  A violation of type, constant or enumeration
ends the check. -/
def checkKeywords (check : Checker) (schema : Members) (v : Json) (path : String) : Outcome := do
  let all ← checkAllOf check schema v path
  let any ← checkAnyOf check schema v path
  let one ← checkOneOf check schema v path
  let condition ← checkCondition check schema v path
  let combined := all ++ any ++ one ++ condition
  match (typeViolation? schema v path).or
      ((constViolation? schema v path).or (enumViolation? schema v path)) with
  | some violation => return combined ++ [violation]
  | none => return combined ++ (← checkByKind check schema v path)

/-- The keyword `$ref`: the value must satisfy the schema that it names, and nothing else. -/
def checkReference (check : Checker) (root reference v : Json) (path : String) : Outcome :=
  match reference with
  | .str r =>
    match root.resolve r with
    | .ok target => check v target path
    | .error e => .ok [⟨path, "unresolvable $ref: " ++ e.message, "$ref", none⟩]
  | _ => .ok [⟨path, "$ref must be string", "$ref", none⟩]

/-- The check of a value against a schema, given the check for what lies below. -/
def checkNode (check : Checker) (root v schema : Json) (path : String) : Outcome :=
  match schema with
  | .bool true => .ok []
  | .bool false => .ok [⟨path, "no value is allowed here", "schema", some v⟩]
  | .obj ms =>
    match Members.get? "$ref" ms with
    | some reference => checkReference check root reference v path
    | none => checkKeywords check ms v path
  | _ => .ok [⟨path, "schema node is not an object", "schema", none⟩]

/-- The check to a depth; a check that goes deeper has no end. -/
def checkAt (root : Json) : Nat → Json → Json → String → Outcome
  | 0, _, _, _ => .error .endless
  | fuel + 1, v, schema, path => checkNode (checkAt root fuel) root v schema path

/-! ### Bounds -/

mutual

/-- The number of values in a document. -/
def nodeCount : Json → Nat
  | .arr xs => nodeCountItems xs + 1
  | .obj ms => nodeCountMembers ms + 1
  | _ => 1

/-- The number of values in the items. -/
def nodeCountItems : List Json → Nat
  | [] => 0
  | x :: xs => nodeCount x + nodeCountItems xs

/-- The number of values in the members. -/
def nodeCountMembers : List (String × Json) → Nat
  | [] => 0
  | (_, v) :: ms => nodeCount v + nodeCountMembers ms

end

mutual

/-- The number of levels of a document. -/
def depth : Json → Nat
  | .arr xs => depthItems xs + 1
  | .obj ms => depthMembers ms + 1
  | _ => 1

/-- The greatest number of levels among the items. -/
def depthItems : List Json → Nat
  | [] => 0
  | x :: xs => max (depth x) (depthItems xs)

/-- The greatest number of levels among the members. -/
def depthMembers : List (String × Json) → Nat
  | [] => 0
  | (_, v) :: ms => max (depth v) (depthMembers ms)

end

/-- A depth that no check with an end exceeds: at each level of the value every schema is met at
most once. -/
def fuelFor (root schema v : Json) : Nat :=
  depth v * (nodeCount root + nodeCount schema) + 1

/-- All violations of a schema by a value, in the order of a report. -/
def validate (root schema v : Json) (path : String) : Outcome :=
  (checkAt root (fuelFor root schema v) v schema path).map (ordered Violation.le)

/-- All violations of a schema by a value if the stack has room for `room` steps from schema to schema. -/
def validateWithin (room : Nat) (root schema v : Json) (path : String) : Outcome :=
  (checkAt root room v schema path).map (ordered Violation.le)

end Schema

end DesignRegistry
