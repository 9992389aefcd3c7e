/-
**Design tokens.**

Tokens form a tree.  An object with a member `value` is a token; other objects are groups; a scalar
in place of either is a token with that value; lists hold no tokens.  A token's name is the keys on
the way to it with dots between them.

Main definitions

* `Token.leaves` — the tokens of a tree in order, with their names;
* `Token.flatten` — the same as members: a name that occurs again replaces the earlier token;
* `Token.names`, `Token.spellings` — the names of a registry's tokens, and also with dashes.
-/
import DesignRegistry.Json.Basic
import DesignRegistry.Text.Pieces

namespace DesignRegistry

namespace Token

/-- The name of what a key leads to inside a group. -/
def pathName (group key : String) : String := if group = "" then key else group ++ "." ++ key

mutual

/-- The tokens that a value gives under a name. -/
def leaves (name : String) : Json → List (String × Json)
  | .obj ms => if Json.Members.has "value" ms then [(name, .obj ms)] else leavesOf name ms
  | .arr _ => []
  | v => [(name, .obj [("value", v)])]

/-- The tokens in the members of a group. -/
def leavesOf (group : String) : List (String × Json) → List (String × Json)
  | [] => []
  | (k, v) :: rest => leaves (pathName group k) v ++ leavesOf group rest

end

/-- The tokens of a tree, with their names. -/
def flatten (group : String) (tree : Json) : Json.Members :=
  match tree with
  | .obj ms => .ofPairs (leavesOf group ms)
  | _ => []

/-- The tokens of a registry. -/
def ofRegistry (registry : Json) : Json.Members :=
  flatten "" ((registry.field? "tokens").getD .null)

/-- The names of a registry's tokens in order. -/
def names (registry : Json) : List String := Json.Members.keys (ofRegistry registry)

/-- The spelling of a name with dashes in place of dots. -/
def dashed (name : String) : String :=
  String.ofList (name.toList.map fun c => if c = '.' then '-' else c)

/-- The spelling of a name with dots in place of dashes. -/
def dotted (name : String) : String :=
  String.ofList (name.toList.map fun c => if c = '-' then '.' else c)

/-- The names of a registry's tokens, each with its spelling with dashes. -/
def spellings (registry : Json) : List String :=
  ((names registry).flatMap fun n => [n, dashed n]).eraseDups

end Token

end DesignRegistry
