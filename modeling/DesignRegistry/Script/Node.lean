/-
**What checks see of a script.**

Of a script's syntax the checks see five kinds of node: elements with their attributes, imports,
calls, texts and templates, each with its position.  `Script.lower` takes the nodes from a syntax
tree in reading order.

Main definitions

* `Script.AttributeValue`, `Script.Attribute`, `Script.Element` — elements;
* `Script.Node` — nodes;
* `Script.isMapItem`, `Script.inComponentBody` — what surrounds a node;
* `Script.visitAll` — a walk through a tree with a stack;
* `Script.lower` — the nodes of a tree;
* `Script.Parser`, `Script.Source.read` — what makes trees, and a script with its nodes.
-/
import DesignRegistry.Script.Parse
import DesignRegistry.Number.Literal

namespace DesignRegistry

namespace Script

/-! ### Nodes -/

/-- The value of an attribute as far as the script shows it. -/
inductive AttributeValue where
  /-- A text, or the source of a value that is computed. -/
  | text (value : String)
  | integer (value : Int)
  | real (value : Binary64)
  | flag (value : Bool)
deriving DecidableEq, Repr

/-- An attribute of an element. -/
structure Attribute where
  /-- The name. -/
  name : String
  /-- The value; an attribute without one is true. -/
  value : AttributeValue
  /-- Whether the value is a literal. -/
  isStatic : Bool
  /-- Whether the value is a text in quotes. -/
  isString : Bool
  /-- Where the attribute starts. -/
  position : Position
deriving DecidableEq, Repr

namespace Attribute

/-- The text of an attribute whose value is one. -/
def textValue (a : Attribute) : String :=
  match a.value with
  | .text s => s
  | _ => ""

end Attribute

/-- An element. -/
structure Element where
  /-- The name as it is written. -/
  name : String
  /-- The attributes in order. -/
  attributes : List Attribute
  /-- Where the element starts. -/
  position : Position
  /-- Whether it is the outermost element in a call of `map`. -/
  isMapItem : Bool := false
  /-- Whether it carries the members of a value as attributes. -/
  hasSpread : Bool := false
deriving DecidableEq, Repr

namespace Element

/-- The first attribute of a name. -/
def attribute? (e : Element) (name : String) : Option Attribute :=
  e.attributes.find? (·.name == name)

/-- Whether an attribute is present. -/
def hasAttribute (e : Element) (name : String) : Bool := (e.attribute? name).isSome

/-- Whether an element is a component: its name starts with a capital. -/
def isComponent (e : Element) : Bool := (e.name.toList.head?.map isCapital).getD false

end Element

/-- How an import binds a name. -/
inductive ImportKind where
  | default | named | namespace
deriving DecidableEq, Repr

/-- A name that an import binds. -/
structure ImportSpecifier where
  /-- How the name is bound. -/
  kind : ImportKind
  /-- The name inside the script. -/
  localName : String
  /-- The name outside, where it is told. -/
  imported : Option String := none
deriving DecidableEq, Repr

/-- An import. -/
structure Import where
  /-- The script that is imported. -/
  source : String
  /-- The names that are bound. -/
  specifiers : List ImportSpecifier
  /-- Where the import starts. -/
  position : Position
deriving DecidableEq, Repr

/-- A call of a name or of a member. -/
structure Call where
  /-- The name, or the name of the member. -/
  callee : String
  /-- Whether a member is called. -/
  isMember : Bool
  /-- Where the call starts. -/
  position : Position
  /-- Whether the nearest function around it is a component. -/
  inComponentBody : Bool := false
deriving DecidableEq, Repr

/-- A text in quotes. -/
structure StringLiteral where
  /-- The text between the quotes, as it is written. -/
  value : String
  /-- Where the text starts. -/
  position : Position
  /-- Whether it is the value of an attribute. -/
  inAttribute : Bool := false
  /-- Whether it stands directly in an import or an export. -/
  inImport : Bool := false
deriving DecidableEq, Repr

/-- A template. -/
structure Template where
  /-- The text before the first expression, as it is written. -/
  head : String
  /-- Where the template starts. -/
  position : Position
deriving DecidableEq, Repr

/-- A node of a script. -/
inductive Node where
  | element (e : Element)
  | importDecl (i : Import)
  | call (c : Call)
  | string (s : StringLiteral)
  | template (t : Template)
deriving DecidableEq, Repr

/-! ### Literals -/

/-- The text between the first and the last character. -/
def unquote (s : List Char) : List Char :=
  if 2 ≤ s.length then (s.drop 1).dropLast else s

/-- The integer that a literal without underscores denotes; a zero in front of other digits denotes
none. -/
def integerLiteral? (s : List Char) : Option Int :=
  let inBase (base : Nat) (digits : List Char) : Option Int :=
    if !digits.isEmpty && digits.all (isDigitOf base) then
      some (valueInBase base digits)
    else none
  match s with
  | '0' :: b :: rest =>
    match b.toLower with
    | 'x' => inBase 16 rest
    | 'o' => inBase 8 rest
    | 'b' => inBase 2 rest
    | _ => if s.all (· == '0') then some 0 else none
  | _ => if s.length ≤ maxIntegerDigits then inBase 10 s else none

/-- The value of a number; one that is no number elsewhere stays as it is written. -/
def numberValue (s : List Char) : AttributeValue :=
  let raw := s.filter (· != '_')
  match integerLiteral? raw with
  | some n => .integer n
  | none =>
    match decimalOf? false raw with
    | some d => .real d.toBinary64
    | none => .text (String.ofList raw)

/-! ### Surroundings

What surrounds a part is the list of parts that contain it, the nearest first. -/

/-- The name of the member that a call calls, if it calls one. -/
def memberCallee? (source : List Char) (call : Tree) : Option String :=
  match call.child? .callee with
  | some f =>
    if f.kind = .member then (f.child? .property).map (·.text source) else none
  | none => none

/-- Whether a call of `map` is met before another element, going outwards. -/
def isMapItem (source : List Char) : List Tree → Bool
  | [] => false
  | t :: around =>
    if t.kind = .element then false
    else if t.kind = .call && memberCallee? source t == some "map" then true
    else isMapItem source around

/-- Whether a part may stand between a function and the variable that it is bound to. -/
def wrapsBinding (t : Tree) : Bool :=
  t.kind == .arguments || t.kind == .call || t.kind == .parenthesized

/-- The name of a function: its own, or that of the variable it is bound to. -/
def functionName (source : List Char) (f : Tree) (around : List Tree) : String :=
  match f.child? .name with
  | some n => n.text source
  | none =>
    match around.dropWhile wrapsBinding with
    | t :: _ =>
      if t.kind = .variable then ((t.child? .name).map (·.text source)).getD "" else ""
    | [] => ""

/-- Whether the nearest function around a part is a component: a method named `render`, or another
function whose name starts with a capital. -/
def inComponentBody (source : List Char) : List Tree → Bool
  | [] => false
  | t :: around =>
    if t.kind = .method then functionName source t around == "render"
    else if t.kind = .function then
      ((functionName source t around).toList.head?.map isCapital).getD false
    else inComponentBody source around

/-! ### Lowering -/

/-- The value of an attribute from the part that holds it. -/
def embeddedValue (source : List Char) (t : Tree) : AttributeValue × Bool × Bool :=
  match t.children with
  | [] => (.text "\x7b\x7d", false, false)
  | inner :: _ =>
    match inner.kind with
    | .string => (.text (String.ofList (unquote (inner.chars source))), true, true)
    | .number => (numberValue (inner.chars source), true, false)
    | .trueLiteral => (.flag true, true, false)
    | .falseLiteral => (.flag false, true, false)
    | _ => (.text (String.ofList ('{' :: inner.chars source ++ ['}'])), false, false)

/-- The value of an attribute, whether it is a literal, and whether it is a text. -/
def attributeValue (source : List Char) (t : Tree) : AttributeValue × Bool × Bool :=
  match t.kind with
  | .string => (.text (String.ofList (unquote (t.chars source))), true, true)
  | .embedded => embeddedValue source t
  | _ => (.text (t.text source), false, false)

/-- An attribute from its part. -/
def attributeOf (source : List Char) (t : Tree) : Option Attribute :=
  match t.children with
  | [] => none
  | [n] => some ⟨n.text source, .flag true, true, false, positionOf source t.start⟩
  | n :: v :: _ =>
    let (value, isStatic, isString) := attributeValue source v
    some ⟨n.text source, value, isStatic, isString, positionOf source t.start⟩

/-- Whether a part spreads the members of a value. -/
def isSpread (t : Tree) : Bool := t.kind == .embedded && t.children.any (·.kind == .spread)

/-- An element from its part and what surrounds it; one without a name is none. -/
def elementOf (source : List Char) (around : List Tree) (t : Tree) : Option Element := do
  let opening ←
    if t.kind = .element then t.children.find? (·.kind == .openingTag) else some t
  let n ← opening.child? .name
  return {
    name := n.text source
    attributes := (opening.children.filter (·.kind == .attr)).filterMap (attributeOf source)
    position := positionOf source t.start
    isMapItem := isMapItem source around
    hasSpread := opening.children.any isSpread }

/-- A name that an import binds, from its part. -/
def specifierOf (source : List Char) (t : Tree) : ImportSpecifier :=
  let imported := ((t.child? .name).map (·.text source)).getD ""
  { kind := .named
    localName := ((t.child? .newName).map (·.text source)).getD imported
    imported := some imported }

/-- The names that a part of an import's clause binds. -/
def clauseNames (source : List Char) (t : Tree) : List ImportSpecifier :=
  match t.kind with
  | .identifier => [{ kind := .default, localName := t.text source }]
  | .namespaceImport =>
    [{ kind := .namespace
       localName :=
        ((t.children.find? (·.kind == .identifier)).map (·.text source)).getD "" }]
  | .namedImports => (t.children.filter (·.kind == .importSpecifier)).map (specifierOf source)
  | _ => []

/-- An import from its part; one without a source is none. -/
def importOf (source : List Char) (t : Tree) : Option Import := do
  let s ← t.child? .source
  let clause := t.children.find? (·.kind == .importClause)
  return {
    source := String.ofList (unquote (s.chars source))
    specifiers := (clause.map fun c => c.children.flatMap (clauseNames source)).getD []
    position := positionOf source t.start }

/-- A call from its part, if it calls a name or a member. -/
def callOfTree (source : List Char) (around : List Tree) (t : Tree) : Option Call := do
  let f ← t.child? .callee
  let inComponent := inComponentBody source around
  if f.kind = .identifier then
    some ⟨f.text source, false, positionOf source t.start, inComponent⟩
  else if f.kind = .member then
    some ⟨((f.child? .property).map (·.text source)).getD "", true, positionOf source t.start,
      inComponent⟩
  else none

/-- Whether what surrounds a text is an attribute, or braces in one. -/
def inAttribute (around : List Tree) : Bool :=
  match around with
  | p :: rest =>
    p.kind == .attr
      || (p.kind == .embedded && (rest.head?.map fun q => q.kind == .attr).getD false)
  | [] => false

/-- A text from its part and what surrounds it. -/
def stringOf (source : List Char) (around : List Tree) (t : Tree) : StringLiteral :=
  { value := String.ofList (unquote (t.chars source))
    position := positionOf source t.start
    inAttribute := inAttribute around
    inImport :=
      (around.head?.map fun p => p.kind == .importStatement || p.kind == .exportStatement).getD
        false }

/-- A template from its part. -/
def templateOfTree (source : List Char) (t : Tree) : Template :=
  let body := ((t.chars source).drop 1).dropLast
  { head := String.ofList (((cutAt? ['$', '{'] body).map Prod.fst).getD body)
    position := positionOf source t.start }

/-- The node that a part gives, if it gives one. -/
def nodeOf (source : List Char) (around : List Tree) (t : Tree) : Option Node :=
  match t.kind with
  | .element => (elementOf source around t).map .element
  | .selfClosingElement => (elementOf source around t).map .element
  | .importStatement => (importOf source t).map .importDecl
  | .call => (callOfTree source around t).map .call
  | .string => some (.string (stringOf source around t))
  | .template => some (.template (templateOfTree source t))
  | _ => none

/-- A part and the parts that contain it, the nearest first. -/
structure Place where
  /-- The parts that contain the part. -/
  around : List Tree
  /-- The part. -/
  part : Tree

namespace Place

/-- The places of the parts inside, in order. -/
def inside (p : Place) : List Place := p.part.children.map fun c => ⟨p.part :: p.around, c⟩

theorem map_part_inside (p : Place) : p.inside.map part = p.part.children := by
  rw [inside, List.map_map]
  exact List.map_id' _

/-- The node that a place gives, if it gives one. -/
def node? (source : List Char) (p : Place) : Option Node := nodeOf source p.around p.part

end Place

/-- Takes places from a stack until none is left, and puts on it what is inside each; `act` is done
at each place in turn. -/
def visitAll {σ : Type} (act : σ → Place → σ) (state : σ) : List Place → σ
  | [] => state
  | p :: stack => visitAll act (act state p) (pushAll stack p.inside.reverse)
termination_by stack => Tree.partCount (stack.map Place.part)
decreasing_by
  rw [pushAll_reverse, List.map_append, Place.map_part_inside, Tree.partCount_append, List.map_cons,
    Tree.partCount_cons]
  omega

/-- The nodes of a script's tree. -/
def lower (source : List Char) (t : Tree) : List Node :=
  visitAll (fun nodes p => nodes ++ (p.node? source).toList) [] [⟨[], t⟩]

/-! ### Scripts -/

/-- A script with its nodes. -/
structure Source where
  /-- The path of the script. -/
  path : String
  /-- The text of the script. -/
  text : String
  /-- Whether the script is taken to have types. -/
  typed : Bool
  /-- The nodes in reading order. -/
  nodes : List Node

namespace Source

/-- The lines of a script. -/
def lines (s : Source) : List String := linesOf s.text

/-- The elements of a script in order. -/
def elements (s : Source) : List Element :=
  s.nodes.filterMap fun
    | .element e => some e
    | _ => none

end Source

/-- A place where a script does not follow the grammar. -/
structure SyntaxFault where
  /-- The place. -/
  position : Position
deriving DecidableEq, Repr

namespace SyntaxFault

/-- The wording of the fault. -/
def message (f : SyntaxFault) : String :=
  "Unexpected token at " ++ natText f.position.line ++ ":" ++ natText f.position.column

end SyntaxFault

/-- The outcome of reading a tree: its nodes, or the first place that is at fault. -/
def ofTree (path text : String) (t : Tree) : Except SyntaxFault Source :=
  let source := text.toList
  if t.flawed then
    let bad := t.firstError?.getD t
    .error ⟨positionOf source bad.start⟩
  else .ok ⟨path, text, isTyped path text, lower source t⟩

/-- What turns a text into a tree.  It is passed along implicitly, and nothing that is done with a
tree depends on how the tree was made. -/
class Parser where
  /-- The tree of a text in a dialect. -/
  tree : Dialect → String → Tree

instance : Parser := ⟨parse⟩

/-- A script from its path and its text. -/
def Source.read [Parser] (path text : String) : Except SyntaxFault Source :=
  ofTree path text (Parser.tree (.of path text) text)

end Script

end DesignRegistry
