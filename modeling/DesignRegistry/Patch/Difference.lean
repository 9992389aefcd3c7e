/-
**Differences of documents as patches.**

The difference of two documents is a list of edits that lead from the one to the other.  Two objects
differ by the keys that only one of them has and by the values of the others; two arrays by their
items, pairwise from the front, and by what one has more of in front of a common tail.  Anything
else that differs is replaced.

A value that is removed in one place and put in at another is moved instead.  The edits in between
then run with the value still, or not yet, in the document, so their indexes shift.

Main definitions

* `Edit`, `Edit.toOperation` — edits at a way into a document;
* `edits` — the plain difference;
* `afterAddition`, `afterRemoval`, `additionBeside` — places after, or beside, an edit of an array;
* `withMoves` — a list of edits with pairs of a removal and an addition made moves;
* `undoOperations` — the operations that turn one document into another.
-/
import DesignRegistry.Patch.Apply

namespace DesignRegistry

/-! ### Edits -/

/-- A way into a document. -/
abbrev Place := List Json.PathStep

/-- An edit of a document; a removal knows the value that it removes. -/
inductive Edit where
  | add (place : Place) (value : Json)
  | remove (place : Place) (value : Json)
  | replace (place : Place) (value : Json)
  | move (source target : Place)

/-- The pointer to a place. -/
def pointerTo (place : Place) : String := Json.Pointer.text (place.map Json.PathStep.token)

/-- The operation that makes an edit. -/
def Edit.toOperation : Edit → Operation
  | .add p v => .add (pointerTo p) v
  | .remove p _ => .remove (pointerTo p)
  | .replace p v => .replace (pointerTo p) v
  | .move s t => .move (pointerTo s) (pointerTo t)

/-! ### The plain difference -/

/-- The number of leading items that two lists share. -/
def commonFront : List Json → List Json → Nat
  | x :: xs, y :: ys => if x.same y then commonFront xs ys + 1 else 0
  | _, _ => 0

/-- The number of items that are compared pairwise: all that the shorter list has in front of the
tail that both share. -/
def pairedCount (xs ys : List Json) : Nat :=
  let shorter := min xs.length ys.length
  let tail := commonFront xs.reverse ys.reverse
  shorter - min tail (shorter - commonFront xs ys)

/-- The removals of the keys that the other object lacks. -/
def removals (place : Place) (xs ys : Json.Members) : List Edit :=
  (xs.filter fun m => !Json.Members.has m.1 ys).map fun (k, v) => .remove (place ++ [.key k]) v

/-- The additions of the keys that the first object lacks. -/
def additions (place : Place) (xs ys : Json.Members) : List Edit :=
  (ys.filter fun m => !Json.Members.has m.1 xs).map fun (k, v) => .add (place ++ [.key k]) v

/-- The removals of the items from an index on, one after the other at the same index. -/
def itemRemovals (place : Place) (i : Nat) (xs : List Json) : List Edit :=
  xs.map fun v => .remove (place ++ [.index i]) v

/-- The additions of items from an index on. -/
def itemAdditions (place : Place) (i : Nat) : List Json → List Edit
  | [] => []
  | v :: vs => .add (place ++ [.index i]) v :: itemAdditions place (i + 1) vs

/-- What one array has more of than the other, after the items that are compared pairwise. -/
def surplus (place : Place) (paired : Nat) (xs ys : List Json) : List Edit :=
  if ys.length ≤ xs.length then
    itemRemovals place paired ((xs.drop paired).take (xs.length - ys.length))
  else itemAdditions place paired ((ys.drop paired).take (ys.length - xs.length))

mutual

/-- The edits that turn the value at a place into another. -/
def edits (place : Place) : Json → Json → List Edit
  | .obj xs, .obj ys =>
    removals place xs ys ++ additions place xs ys ++ memberEdits place xs ys
  | .arr xs, .arr ys =>
    itemEdits place 0 (pairedCount xs ys) xs ys ++ surplus place (pairedCount xs ys) xs ys
  | x, y => if x.same y then [] else [.replace place y]

/-- The edits inside the members that both objects have. -/
def memberEdits (place : Place) : List (String × Json) → Json.Members → List Edit
  | [], _ => []
  | (k, x) :: rest, ys =>
    (match Json.Members.get? k ys with
      | some y => edits (place ++ [.key k]) x y
      | none => []) ++ memberEdits place rest ys

/-- The edits inside the first `paired` items, the first of which stands at index `i`. -/
def itemEdits (place : Place) (i paired : Nat) : List Json → List Json → List Edit
  | x :: xs, y :: ys =>
    if paired = 0 then []
    else edits (place ++ [.index i]) x y ++ itemEdits place (i + 1) (paired - 1) xs ys
  | _, _ => []

end

/-! ### Shifted places -/

/-- A place beside an item: if it leads through the item's array, its index there is changed.  The
change is told the item's index, whether the place ends in the array, and the place's index. -/
def besideItem (change : Nat → Bool → Nat → Nat) : Place → Place → Place
  | [.index k], .index m :: rest => .index (change k rest.isEmpty m) :: rest
  | s :: item, t :: place => if s = t then t :: besideItem change item place else t :: place
  | _, place => place

/-- Where the value at `place` is after something was put in at `added`. -/
def afterAddition (added place : Place) : Place :=
  besideItem (fun k _ m => if k ≤ m then m + 1 else m) added place

/-- Where the value at `place` is after the value at `removed` was removed, or while it is not in
the document yet. -/
def afterRemoval (removed place : Place) : Place :=
  besideItem (fun k _ m => if k < m then m - 1 else m) removed place

/-- Where an addition goes if the value at `kept` is still in the document. -/
def additionBeside (kept place : Place) : Place :=
  besideItem (fun k atEnd m => if k < m ∨ (m = k ∧ !atEnd) then m + 1 else m) kept place

/-- An edit with the value at `kept` still in the document, and where the value is after it. -/
def Edit.keeping (kept : Place) : Edit → Edit × Place
  | .add p v =>
    let p := additionBeside kept p
    (.add p v, afterAddition p kept)
  | .remove p v =>
    let p := afterAddition kept p
    (.remove p v, afterRemoval p kept)
  | .replace p v => (.replace (afterAddition kept p) v, kept)
  | .move s t =>
    let s := afterAddition kept s
    let between := afterRemoval s kept
    let t := additionBeside between t
    (.move s t, afterAddition t between)

/-- An edit with the value at `absent` not yet in the document, and where the value is to be after
it. -/
def Edit.lacking (absent : Place) : Edit → Edit × Place
  | .add p v => (.add (afterRemoval absent p) v, afterAddition p absent)
  | .remove p v => (.remove (afterRemoval absent p) v, afterRemoval p absent)
  | .replace p v => (.replace (afterRemoval absent p) v, absent)
  | .move s t =>
    let between := afterRemoval s absent
    (.move (afterRemoval absent s) (afterRemoval between t), afterAddition t between)

/-- Edits one after the other, each of which is changed beside a place and moves the place on. -/
def besideAll (change : Place → Edit → Edit × Place) (place : Place) :
    List Edit → List Edit × Place
  | [] => ([], place)
  | e :: es =>
    let (e, place) := change place e
    let (es, place) := besideAll change place es
    (e :: es, place)

/-! ### Moves -/

/-- The last edit for which `pick` gives a place: the edits before it, the place, and the edits
after it. -/
def lastPick? (pick : Edit → Option Place) : List Edit → Option (List Edit × Place × List Edit)
  | [] => none
  | e :: es =>
    match lastPick? pick es with
    | some (before, p, after) => some (e :: before, p, after)
    | none => (pick e).map fun p => ([], p, es)

/-- The place of a removal of a value. -/
def Edit.removalOf? (value : Json) : Edit → Option Place
  | .remove p v => if v.same value then some p else none
  | _ => none

/-- The place of an addition of a value. -/
def Edit.additionOf? (value : Json) : Edit → Option Place
  | .add p v => if v.same value then some p else none
  | _ => none

/-- A move, unless it leads nowhere. -/
def moveBetween (source target : Place) : List Edit :=
  if source = target then [] else [.move source target]

/-- The edits with one more, which becomes a move if an earlier edit of the opposite kind has the
same value. -/
def joinEdit (done : List Edit) (e : Edit) : List Edit :=
  match e with
  | .add target value =>
    match lastPick? (Edit.removalOf? value) done with
    | some (before, p, after) =>
      let (after, p) := besideAll Edit.keeping p after
      before ++ after ++ moveBetween p target
    | none => done ++ [e]
  | .remove source value =>
    match lastPick? (Edit.additionOf? value) done with
    | some (before, p, after) =>
      let (after, p) := besideAll Edit.lacking p after
      before ++ after ++ moveBetween (afterRemoval p source) (afterRemoval source p)
    | none => done ++ [e]
  | e => done ++ [e]

/-- The edits with pairs of a removal and an addition of one value made moves. -/
def withMoves (es : List Edit) : List Edit := es.foldl joinEdit []

/-! ### Undoing -/

/-- The operations that turn one document into another. -/
def undoOperations (mutated earlier : Json) : List Operation :=
  (withMoves (edits [] mutated earlier)).map Edit.toOperation

/-- The patches that turn one document into another. -/
def undoPatches (mutated earlier : Json) : List Json :=
  (undoOperations mutated earlier).map Operation.toJson

/-! ### Summaries -/

/-- The sizes of two documents that differ, as files. -/
structure SizeChange where
  /-- The bytes of the first document. -/
  before : Nat
  /-- The bytes of the second document. -/
  after : Nat
deriving DecidableEq, Repr

/-- How two documents that have a text differ as files, if they do. -/
def sizeChange? (earlier later : Json) : Option SizeChange :=
  let before := earlier.pretty
  let after := later.pretty
  if before = after then none else some ⟨before.utf8ByteSize, after.utf8ByteSize⟩

/-- How two documents differ as files, if they do; a document without a text is not compared. -/
def sizeChange (earlier later : Json) : Except Json.TextFault (Option SizeChange) :=
  if earlier.hasText && later.hasText then .ok (sizeChange? earlier later)
  else .error .tooManyDigits

namespace SizeChange

/-- The document that describes a change. -/
def toJson (c : SizeChange) : Json :=
  .obj [("type", .str "modified"), ("description", .str "registry structure changed"),
    ("original", .int c.before), ("modified", .int c.after)]

end SizeChange

/-- The document that says whether and how two documents differ. -/
def diffSummary (change? : Option SizeChange) : Json :=
  let changes := change?.toList.map SizeChange.toJson
  .obj [("hasChanges", .bool !changes.isEmpty), ("changes", .arr changes),
    ("summary", .str (natText changes.length ++ " change(s) detected"))]

end DesignRegistry
