/-
**Syntax trees of scripts.**

A syntax tree names, for each part of a script, what the part is, where it starts and ends, and
which role it plays in the part around it.  Only kinds that some check asks about have a name of
their own; all other syntax is `plain`.  Places are counted in bytes, as in the stored file.

Main definitions

* `Script.Point` — a place in a script;
* `Script.Kind`, `Script.Role` — what a part is, and its role;
* `Script.Tree` — trees;
* `Script.Tree.preorder` — the parts in reading order, each before those inside it;
* `Script.Tree.firstError?` — the first part that could not be read;
* `Script.positionOf` — the line and the column of a place.
-/
import DesignRegistry.Text.Encoded
import DesignRegistry.Text.Pieces

namespace DesignRegistry

namespace Script

/-! ### Places -/

/-- A place in a script: the bytes before it, the line feeds before it, and the bytes since the
last of them. -/
structure Point where
  /-- The number of bytes before the place. -/
  offset : Nat
  /-- The number of line feeds before the place. -/
  row : Nat
  /-- The number of bytes between the last line feed and the place. -/
  column : Nat
deriving DecidableEq, Repr, Inhabited

namespace Point

/-- The start of a script. -/
def origin : Point := ⟨0, 0, 0⟩

/-- The place after one more character. -/
def advance (p : Point) (c : Char) : Point :=
  if c = '\n' then ⟨p.offset + c.utf8Size, p.row + 1, 0⟩
  else ⟨p.offset + c.utf8Size, p.row, p.column + c.utf8Size⟩

/-- The place after a text. -/
def advanceBy (p : Point) (text : List Char) : Point := text.foldl advance p

end Point

/-! ### Kinds and roles -/

/-- What a part of a script is. -/
inductive Kind where
  /-- A part that could not be read. -/
  | error
  /-- Syntax that no check asks about. -/
  | plain
  | comment
  | identifier
  | number
  | trueLiteral
  | falseLiteral
  /-- A text in quotes, or the keyword of the type of texts. -/
  | string
  | template
  | importStatement
  | importClause
  | namespaceImport
  | namedImports
  | importSpecifier
  | exportStatement
  | variable
  /-- A function with a body of its own, named or not. -/
  | function
  | method
  | call
  | member
  | arguments
  | parenthesized
  | spread
  | element
  | openingTag
  | selfClosingElement
  | attr
  | embedded
deriving DecidableEq, Repr

/-- The role that a part plays in the part around it. -/
inductive Role where
  | name | newName | source | callee | property
deriving DecidableEq, Repr

/-! ### Trees -/

/-- A syntax tree. -/
inductive Tree where
  /-- A part with its role, its first and last place, and the parts inside it. -/
  | node (kind : Kind) (role : Option Role) (start : Point) (stop : Nat) (missing flawed : Bool)
      (children : List Tree)

instance : Inhabited Tree := ⟨.node .plain none .origin 0 false false []⟩

namespace Tree

/-- What the part is. -/
def kind : Tree → Kind
  | .node k .. => k

/-- The role of the part. -/
def role : Tree → Option Role
  | .node _ r .. => r

/-- Where the part starts. -/
def start : Tree → Point
  | .node _ _ s .. => s

/-- The number of bytes before the end of the part. -/
def stop : Tree → Nat
  | .node _ _ _ e .. => e

/-- Whether the part stands for something that the script lacks. -/
def missing : Tree → Bool
  | .node _ _ _ _ m .. => m

/-- Whether an error lies in the part. -/
def flawed : Tree → Bool
  | .node _ _ _ _ _ f _ => f

/-- The parts inside the part, in order. -/
def children : Tree → List Tree
  | .node _ _ _ _ _ _ cs => cs

/-- The part in another role. -/
def withRole (r : Role) : Tree → Tree
  | .node k _ s e m f cs => .node k (some r) s e m f cs

/-- The part inside that plays a role. -/
def child? (r : Role) (t : Tree) : Option Tree := t.children.find? fun c => c.role == some r

/-- A part without errors. -/
def make (kind : Kind) (start : Point) (stop : Nat) (children : List Tree) : Tree :=
  .node kind none start stop false false children

/-! ### Order -/

mutual

/-- The parts in reading order, each before those inside it. -/
def preorder : Tree → List Tree
  | t@(.node _ _ _ _ _ _ cs) => t :: preorderList cs

/-- The parts of several trees in reading order. -/
def preorderList : List Tree → List Tree
  | [] => []
  | t :: ts => preorder t ++ preorderList ts

end

theorem preorderList_eq (ts : List Tree) : preorderList ts = ts.flatMap preorder := by
  induction ts with
  | nil => rfl
  | cons t ts ih => rw [preorderList, ih, List.flatMap_cons]

theorem preorder_eq (t : Tree) : t.preorder = t :: t.children.flatMap preorder := by
  cases t with
  | node k r s e m f cs => rw [preorder, preorderList_eq, children]

/-! ### Walking with a stack -/

/-- The number of parts that trees have, themselves included. -/
def partCount (ts : List Tree) : Nat := (ts.flatMap preorder).length

theorem partCount_append (ts us : List Tree) :
    partCount (ts ++ us) = partCount ts + partCount us := by
  rw [partCount, partCount, partCount, List.flatMap_append, List.length_append]

/-- A tree has one part more than there are inside it. -/
theorem partCount_cons (t : Tree) (ts : List Tree) :
    partCount (t :: ts) = partCount t.children + 1 + partCount ts := by
  rw [partCount, List.flatMap_cons, List.length_append, preorder_eq, List.length_cons, partCount,
    partCount]

end Tree

/-- Puts items on a stack one after the other; the last one is on top. -/
def pushAll {α : Type} (stack items : List α) : List α :=
  items.foldl (fun stack item => item :: stack) stack

/-- Items that are put on a stack from the last to the first lie there in their order. -/
@[simp] theorem pushAll_reverse {α : Type} (stack items : List α) :
    pushAll stack items.reverse = items ++ stack := by
  rw [pushAll, List.foldl_reverse, List.foldr_cons_eq_append, List.map_id']

namespace Tree

/-- Whether the part could not be read or is missing. -/
def isFault (t : Tree) : Bool := t.kind == .error || t.missing

/-- The first fault that is met by taking parts from a stack; a part that is no fault is looked
into if it is flawed. -/
def firstFaultOn : List Tree → Option Tree
  | [] => none
  | t :: stack =>
    if t.isFault then some t
    else if t.flawed then firstFaultOn (pushAll stack t.children.reverse)
    else firstFaultOn stack
termination_by stack => partCount stack
decreasing_by
  · rw [pushAll_reverse, partCount_append, partCount_cons]
    omega
  · rw [partCount_cons]
    omega

/-- The first part in reading order that could not be read or is missing, among those reached
through flawed parts. -/
def firstError? (t : Tree) : Option Tree := firstFaultOn [t]

end Tree

/-! ### Source text -/

/-- The characters that begin within the first `bytes` bytes. -/
def takeBytes (bytes : Nat) : List Char → List Char
  | [] => []
  | c :: cs => if bytes = 0 then [] else c :: takeBytes (bytes - c.utf8Size) cs

/-- The characters that begin after the first `bytes` bytes. -/
def dropBytes (bytes : Nat) : List Char → List Char
  | [] => []
  | c :: cs => if bytes = 0 then c :: cs else dropBytes (bytes - c.utf8Size) cs

/-- The text of a script between two places given in bytes. -/
def slice (source : List Char) (start stop : Nat) : List Char :=
  takeBytes (stop - start) (dropBytes start source)

namespace Tree

/-- The text of a part. -/
def chars (source : List Char) (t : Tree) : List Char := slice source t.start.offset t.stop

/-- The text of a part. -/
def text (source : List Char) (t : Tree) : String := String.ofList (t.chars source)

end Tree

/-! ### Positions for readers -/

/-- A place as people count it: lines and characters from one. -/
structure Position where
  /-- The line, counted from one. -/
  line : Nat
  /-- The column in characters, counted from one. -/
  column : Nat
deriving DecidableEq, Repr, Inhabited

/-- The numbers of bytes before the lines: none before the first, and for each other line those up
to the line feed before it. -/
def lineStarts (bytes : List UInt8) : List Nat :=
  0 :: bytes.zipIdx.filterMap fun b => if b.1 = 0x0A then some (b.2 + 1) else none

/-- The place that people count, from the place in bytes: the bytes of the line before the place are
read as characters. -/
def positionOf (source : List Char) (p : Point) : Position :=
  let bytes := utf8Bytes source
  let start := (lineStarts bytes)[p.row]?.getD 0
  ⟨p.row + 1, (lossyChars 0 ((bytes.drop start).take p.column)).length + 1⟩

end Script

end DesignRegistry
