/-
**Patch operations.**

A patch is an object that names an operation, the place it works at and what it needs besides.
Reading one reports the first thing that is wrong with it; only a patch that has a string for each
place and a value where one is due becomes an operation.

Main definitions

* `Operation` — the six operations;
* `PatchProblem` — what is wrong with a patch;
* `Operation.read`, `Operation.toJson` — operations from documents and back.
-/
import DesignRegistry.Json.Display
import DesignRegistry.Text.Pieces

namespace DesignRegistry

/-- A patch operation; places are pointers as they are written. -/
inductive Operation where
  | add (path : String) (value : Json)
  | remove (path : String)
  | replace (path : String) (value : Json)
  | move (source path : String)
  | copy (source path : String)
  /-- Succeeds where the place holds the value, and changes nothing. -/
  | test (path : String) (value : Json)

/-- What is wrong with a patch. -/
inductive PatchProblem where
  | notObject
  /-- The operation, null where none is named, is none of the six. -/
  | unknownOperation (name : Json)
  | pathNotText
  | valueMissing (name : String)
  | sourceNotText (name : String)

namespace Operation

/-- The names of the operations. -/
def names : List String := ["add", "remove", "replace", "move", "copy", "test"]

/-- The name of an operation. -/
def name : Operation → String
  | .add .. => "add"
  | .remove .. => "remove"
  | .replace .. => "replace"
  | .move .. => "move"
  | .copy .. => "copy"
  | .test .. => "test"

/-- The place an operation works at. -/
def path : Operation → String
  | .add p _ => p
  | .remove p => p
  | .replace p _ => p
  | .move _ p => p
  | .copy _ p => p
  | .test p _ => p

end Operation

namespace PatchProblem

/-- The wording of a problem. -/
def message : PatchProblem → String
  | .notObject => "patch must be an object"
  | .unknownOperation op =>
    "invalid op " ++ op.display ++ " (expected one of " ++ joined ", " Operation.names ++ ")"
  | .pathNotText => "path must be a string"
  | .valueMissing name => "'" ++ name ++ "' requires a value"
  | .sourceNotText name => "'" ++ name ++ "' requires a string 'from'"

end PatchProblem

namespace Operation

/-- The value of a patch. -/
def valueOf (name : String) (ms : Json.Members) : Except PatchProblem Json :=
  match Json.Members.get? "value" ms with
  | some v => .ok v
  | none => .error (.valueMissing name)

/-- The place that a patch takes from. -/
def sourceOf (name : String) (ms : Json.Members) : Except PatchProblem String :=
  match (Json.Members.get? "from" ms).bind Json.text? with
  | some s => .ok s
  | none => .error (.sourceNotText name)

/-- The place that a patch works at. -/
def pathOf (ms : Json.Members) : Except PatchProblem String :=
  match (Json.Members.get? "path" ms).bind Json.text? with
  | some p => .ok p
  | none => .error .pathNotText

/-- The operation that a document describes. -/
def read : Json → Except PatchProblem Operation
  | .obj ms =>
    match Json.Members.get? "op" ms with
    | some (.str "add") => do return .add (← pathOf ms) (← valueOf "add" ms)
    | some (.str "remove") => do return .remove (← pathOf ms)
    | some (.str "replace") => do return .replace (← pathOf ms) (← valueOf "replace" ms)
    | some (.str "move") => do
      let p ← pathOf ms
      return .move (← sourceOf "move" ms) p
    | some (.str "copy") => do
      let p ← pathOf ms
      return .copy (← sourceOf "copy" ms) p
    | some (.str "test") => do return .test (← pathOf ms) (← valueOf "test" ms)
    | op => .error (.unknownOperation (op.getD .null))
  | _ => .error .notObject

/-- The document that describes an operation. -/
def toJson (o : Operation) : Json :=
  .obj (("op", .str o.name) ::
    match o with
    | .add p v => [("path", .str p), ("value", v)]
    | .remove p => [("path", .str p)]
    | .replace p v => [("path", .str p), ("value", v)]
    | .move s p => [("from", .str s), ("path", .str p)]
    | .copy s p => [("from", .str s), ("path", .str p)]
    | .test p v => [("path", .str p), ("value", v)])

end Operation

/-- What is wrong with a patch, if anything is. -/
def patchProblem? (patch : Json) : Option PatchProblem :=
  match Operation.read patch with
  | .error p => some p
  | .ok _ => none

end DesignRegistry
