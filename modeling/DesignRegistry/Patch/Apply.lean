/-
**Applying patches.**

An operation finds the container that its pointer's last token is about and edits it.  All steps but
the last must lead somewhere; the last may name a place that is still empty.  An operation that
fails leaves no trace, since it works on a value.

Main definitions

* `PatchError` — why a patch fails, with its wording;
* `Operation.apply` — the document after an operation;
* `applyPatch` — the document after a patch that is itself a document;
* `applyAll` — the document after patches that all succeed.
-/
import DesignRegistry.Json.Pointer
import DesignRegistry.Patch.Operation

namespace DesignRegistry

/-! ### Errors -/

/-- Why a patch fails. -/
inductive PatchError where
  /-- The patch is no operation. -/
  | malformed (problem : PatchProblem) (patch : Json)
  | badPointer (fault : Json.PointerFault)
  | unreachable (fault : Json.StepFault)
  /-- The place after the last item holds nothing to take. -/
  | takesEnd
  | movesIntoItself
  | insertsBeyondEnd
  | removesDocument
  | removesMissing (token : String)
  | replacesEnd
  | replacesBeyondEnd
  | replacesMissing (token : String)
  | takesMissingKey (key : String)
  | takesMissingIndex
  /-- The place that a test looks at cannot be reached. -/
  | testUnreachable (fault : Json.StepFault)
  | testDiffers (found expected : Json)
  /-- A test of the place after the last item of an array. -/
  | testAtEnd (items : List Json) (expected : Json)

namespace PatchError

/-- A value in the report of a test. -/
def labelled (v : Json) : String := v.plain ++ " (<class '" ++ v.typeLabel ++ "'>)"

/-- The wording of an error. -/
def message : PatchError → String
  | .malformed problem patch =>
    Json.showing [patch] ("Invalid patch structure: " ++ problem.message ++ ": "
      ++ patch.sortKeys.render .lineAscii)
  | .badPointer fault => fault.message
  | .unreachable fault => fault.message
  | .takesEnd => "invalid array index '-'"
  | .movesIntoItself => "Cannot move values into their own children"
  | .insertsBeyondEnd => "can't insert outside of list"
  | .removesDocument => "can't remove the whole document"
  | .removesMissing token => "can't remove a non-existent object '" ++ token ++ "'"
  | .replacesEnd => "'path' with '-' can't be applied to 'replace' operation"
  | .replacesBeyondEnd => "can't replace outside of list"
  | .replacesMissing token => "can't replace a non-existent object '" ++ token ++ "'"
  | .takesMissingKey key => quoted key
  | .takesMissingIndex => "list index out of range"
  | .testUnreachable fault => fault.message
  | .testDiffers found expected =>
    Json.showing [found, expected]
      (labelled found ++ " is not equal to tested value " ++ labelled expected)
  | .testAtEnd items expected =>
    Json.showing [.arr items, expected] ("EndOfList(" ++ (Json.arr items).display ++ ") (<class '"
      ++ Json.endLabel ++ "'>) is not equal to tested value " ++ labelled expected)

end PatchError

/-! ### Edits of a container -/

namespace Json

/-- The container with a value put in at a token. -/
def insertAt (value : Json) (token : String) : Json → Except PatchError Json
  | .obj ms => .ok (.obj (Members.put token value ms))
  | .arr xs =>
    if token = "-" then .ok (.arr (xs ++ [value]))
    else
      match arrayIndex? token with
      | none => .error (.unreachable (.notIndex token))
      | some i =>
        if i ≤ xs.length then .ok (.arr (xs.insertIdx i value)) else .error .insertsBeyondEnd
  | v => .error (.unreachable (scalarFault token v))

/-- The container without the value at a token. -/
def removeAt (token : String) : Json → Except PatchError Json
  | .obj ms =>
    if Members.has token ms then .ok (.obj (Members.erase token ms)) else .error (.removesMissing token)
  | .arr xs =>
    if token = "-" then .error .takesEnd
    else
      match arrayIndex? token with
      | none => .error (.unreachable (.notIndex token))
      | some i =>
        if i < xs.length then .ok (.arr (xs.eraseIdx i)) else .error (.removesMissing token)
  | v => .error (.unreachable (scalarFault token v))

/-- The container with the value at a token replaced. -/
def replaceAt (value : Json) (token : String) : Json → Except PatchError Json
  | .obj ms =>
    if Members.has token ms then .ok (.obj (Members.put token value ms))
    else .error (.replacesMissing token)
  | .arr xs =>
    if token = "-" then .error .replacesEnd
    else
      match arrayIndex? token with
      | none => .error (.unreachable (.notIndex token))
      | some i =>
        if i < xs.length then .ok (.arr (xs.set i value)) else .error .replacesBeyondEnd
  | v => .error (.unreachable (scalarFault token v))

/-- The value at a token of a container. -/
def takeAt (token : String) : Json → Except PatchError Json
  | .obj ms =>
    match Members.get? token ms with
    | some v => .ok v
    | none => .error (.takesMissingKey token)
  | .arr xs =>
    if token = "-" then .error .takesEnd
    else
      match arrayIndex? token with
      | none => .error (.unreachable (.notIndex token))
      | some i =>
        match xs[i]? with
        | some v => .ok v
        | none => .error .takesMissingIndex
  | v => .error (.unreachable (scalarFault token v))

/-! ### Operations at a place -/

/-- The tokens that lead to a container, and the token inside it; nothing for the whole document. -/
def lastToken? (tokens : List String) : Option (List String × String) :=
  tokens.getLast?.map fun t => (tokens.dropLast, t)

/-- The document with a value put in at a place. -/
def insert (doc : Json) (tokens : List String) (value : Json) : Except PatchError Json :=
  match lastToken? tokens with
  | none => .ok value
  | some (way, token) => editAt .unreachable (insertAt value token) way doc

/-- The document without the value at a place. -/
def remove (doc : Json) (tokens : List String) : Except PatchError Json :=
  match lastToken? tokens with
  | none => .error .removesDocument
  | some (way, token) => editAt .unreachable (removeAt token) way doc

/-- The document with the value at a place replaced. -/
def replace (doc : Json) (tokens : List String) (value : Json) : Except PatchError Json :=
  match lastToken? tokens with
  | none => .ok value
  | some (way, token) => editAt .unreachable (replaceAt value token) way doc

/-- The value at a place. -/
def take (doc : Json) (tokens : List String) : Except PatchError Json :=
  match lastToken? tokens with
  | none => .ok doc
  | some (way, token) =>
    match doc.walkTokens way with
    | .error e => .error (.unreachable e)
    | .ok container => container.takeAt token

/-- Checks that a place holds a value. -/
def expect (doc : Json) (tokens : List String) (value : Json) : Except PatchError Unit :=
  let compare (found : Json) : Except PatchError Unit :=
    if found.equalBy .numeric value then .ok () else .error (.testDiffers found value)
  match lastToken? tokens with
  | none => compare doc
  | some (way, token) =>
    match doc.walkTokens way with
    | .error e => .error (.testUnreachable e)
    | .ok (.arr xs) =>
      if token = "-" then .error (.testAtEnd xs value)
      else
        match (Json.arr xs).step token with
        | .ok found => compare found
        | .error e => .error (.testUnreachable e)
    | .ok container =>
      match container.step token with
      | .ok found => compare found
      | .error e => .error (.testUnreachable e)

/-- The document with the value at one place moved to another. -/
def relocate (doc : Json) (source target : List String) : Except PatchError Json :=
  if source.isPrefixOf target && source.length < target.length then .error .movesIntoItself
  else
    match doc.take source with
    | .error e => .error e
    | .ok value =>
      if source = target then .ok doc
      else
        match doc.remove source with
        | .error e => .error e
        | .ok doc => doc.insert target value

/-- The document with the value at one place put in at another too. -/
def duplicate (doc : Json) (source target : List String) : Except PatchError Json :=
  match doc.take source with
  | .error e => .error e
  | .ok value => doc.insert target value

end Json

/-! ### Operations -/

/-- The tokens of a pointer in a patch. -/
def pointerTokens (text : String) : Except PatchError (List String) :=
  match Json.Pointer.read text with
  | .ok tokens => .ok tokens
  | .error e => .error (.badPointer e)

/-- The document after an operation. -/
def Operation.apply (o : Operation) (doc : Json) : Except PatchError Json :=
  match pointerTokens o.path with
  | .error e => .error e
  | .ok target =>
    match o with
    | .add _ value => doc.insert target value
    | .remove _ => doc.remove target
    | .replace _ value => doc.replace target value
    | .test _ value =>
      match doc.expect target value with
      | .ok () => .ok doc
      | .error e => .error e
    | .move source _ =>
      match pointerTokens source with
      | .ok source => doc.relocate source target
      | .error e => .error e
    | .copy source _ =>
      match pointerTokens source with
      | .ok source => doc.duplicate source target
      | .error e => .error e

/-- The document after a patch. -/
def applyPatch (doc patch : Json) : Except PatchError Json :=
  match Operation.read patch with
  | .error problem => .error (.malformed problem patch)
  | .ok o => o.apply doc

/-- The document after operations, if all of them succeed. -/
def applyAll : List Operation → Json → Except PatchError Json
  | [], doc => .ok doc
  | o :: os, doc =>
    match o.apply doc with
    | .ok doc => applyAll os doc
    | .error e => .error e

end DesignRegistry
