/-
**JSON documents.**

A document keeps what a text editor would show: members stay in the order in which they were
written, and an integer is told apart from a number with a fraction.  Its keys and strings are texts
of Unicode characters.  An escape can name half of a pair of units alone, which is no character;
documents with such a half are none here.

Main definitions

* `Json` — documents;
* `Json.Members` — the members of an object, with `get?`, `put` and `erase`;
* `Json.Kind`, `Json.kind` — the seven kinds of value;
* `Json.same` — identity, which minds the order of members and tells `1`, `1.0` and `true` apart;
* `Json.equalBy`, `Json.equivalent` — equality by value, which does neither;
* `Json.alike` — identity up to the order of members.
-/
import DesignRegistry.Keyed
import DesignRegistry.Number.Binary64

namespace DesignRegistry

/-- A JSON document. -/
inductive Json where
  | null
  | bool (value : Bool)
  /-- An integer of any size. -/
  | int (value : Int)
  /-- A number written with a fraction or an exponent. -/
  | float (value : Binary64)
  | str (text : String)
  | arr (items : List Json)
  /-- An object: its members in the order in which they were written. -/
  | obj (members : List (String × Json))
deriving Inhabited

namespace Json

/-- The members of an object in order. -/
abbrev Members := List (String × Json)

/-! ### Members -/

namespace Members

/-- The value of a key. -/
def get? (key : String) : Members → Option Json
  | [] => none
  | (k, v) :: rest => if k = key then some v else get? key rest

/-- Whether a key is present. -/
def has (key : String) (ms : Members) : Bool := (ms.get? key).isSome

/-- Sets a key: a present key keeps its place, a new one goes last. -/
def put (key : String) (value : Json) : Members → Members
  | [] => [(key, value)]
  | (k, v) :: rest => if k = key then (key, value) :: rest else (k, v) :: put key value rest

/-- Removes a key. -/
def erase (key : String) : Members → Members
  | [] => []
  | (k, v) :: rest => if k = key then rest else (k, v) :: erase key rest

/-- The keys in order. -/
def keys (ms : Members) : List String := ms.map Prod.fst

/-- Members given one after the other: a later value replaces an earlier one in its place. -/
def ofPairs (pairs : List (String × Json)) : Members :=
  pairs.foldl (fun ms (k, v) => ms.put k v) []

@[simp] theorem get?_nil (key : String) : get? key [] = none := rfl

/-- Members are a list of pairs by key. -/
theorem get?_eq_keyed (key : String) (ms : Members) : ms.get? key = Keyed.get? key ms := by
  induction ms with
  | nil => rfl
  | cons m rest ih => rw [get?, Keyed.get?, ih]

theorem put_eq_keyed (key : String) (value : Json) (ms : Members) :
    ms.put key value = Keyed.put key value ms := by
  induction ms with
  | nil => rfl
  | cons m rest ih => rw [put, Keyed.put, ih]

/-- A key that was set has the value it was set to. -/
@[simp] theorem get?_put_self (key : String) (value : Json) (ms : Members) :
    (ms.put key value).get? key = some value := by
  rw [get?_eq_keyed, put_eq_keyed, Keyed.get?_put_self]

/-- Setting a key leaves the others alone. -/
theorem get?_put_of_ne {key other : String} (h : other ≠ key) (value : Json) (ms : Members) :
    (ms.put key value).get? other = ms.get? other := by
  rw [get?_eq_keyed, put_eq_keyed, Keyed.get?_put_of_ne h, get?_eq_keyed]

end Members

/-! ### Kinds -/

/-- The kinds of value that a schema can ask for. -/
inductive Kind where
  | null | boolean | integer | number | string | array | object
deriving DecidableEq, Repr

namespace Kind

/-- The name of a kind. -/
def name : Kind → String
  | .null => "null"
  | .boolean => "boolean"
  | .integer => "integer"
  | .number => "number"
  | .string => "string"
  | .array => "array"
  | .object => "object"

end Kind

/-- The kind of a value; a number without a fraction is an integer. -/
def kind : Json → Kind
  | .null => .null
  | .bool _ => .boolean
  | .int _ => .integer
  | .float _ => .number
  | .str _ => .string
  | .arr _ => .array
  | .obj _ => .object

/-! ### Access -/

/-- The value of a key of an object; other values have no keys. -/
def field? (key : String) : Json → Option Json
  | .obj ms => Members.get? key ms
  | _ => none

/-- The text of a string. -/
def text? : Json → Option String
  | .str s => some s
  | _ => none

/-- The items of an array. -/
def items? : Json → Option (List Json)
  | .arr xs => some xs
  | _ => none

/-- The members of an object. -/
def members? : Json → Option Members
  | .obj ms => some ms
  | _ => none

/-- Whether a value counts as present: not null, false, zero or empty. -/
def isTruthy : Json → Bool
  | .null => false
  | .bool b => b
  | .int n => n != 0
  | .float x => !x.equalsInt 0
  | .str s => s != ""
  | .arr xs => !xs.isEmpty
  | .obj ms => !ms.isEmpty

/-! ### Identity -/

mutual

/-- Identity of documents: kinds, values and the order of members agree. -/
def same : Json → Json → Bool
  | .null, .null => true
  | .bool a, .bool b => a == b
  | .int a, .int b => a == b
  | .float a, .float b => a == b
  | .str a, .str b => a == b
  | .arr xs, .arr ys => sameItems xs ys
  | .obj xs, .obj ys => sameMembers xs ys
  | _, _ => false

/-- Identity of lists of documents. -/
def sameItems : List Json → List Json → Bool
  | [], [] => true
  | x :: xs, y :: ys => same x y && sameItems xs ys
  | _, _ => false

/-- Identity of lists of members. -/
def sameMembers : List (String × Json) → List (String × Json) → Bool
  | [], [] => true
  | (k, x) :: xs, (l, y) :: ys => k == l && same x y && sameMembers xs ys
  | _, _ => false

end

instance : BEq Json := ⟨same⟩

/-! ### Equality by value -/

/-- A number as equality by value sees it. -/
inductive Numeric where
  | exact (value : Int)
  | binary (value : Binary64)

/-- Equality of numbers as exact values.  What is no number equals nothing, not even itself.  JSON has
no such value; where one comes in beside it, a search for the very same object would find it, and
this one does not. -/
def Numeric.equal : Numeric → Numeric → Bool
  | .exact a, .exact b => a == b
  | .binary x, .binary y => x.numEq y
  | .exact a, .binary y => y.equalsInt a
  | .binary x, .exact b => x.equalsInt b

/-- How far equality by value tells numbers apart. -/
inductive NumberReading where
  /-- Numbers are compared as numbers; true is one and false is zero. -/
  | loose
  /-- Numbers are compared as numbers; a boolean equals no number. -/
  | numeric
  /-- Integers, other numbers and booleans are told apart. -/
  | exact
deriving DecidableEq, Repr

/-- The numeric value of a number, and of a boolean where booleans are numbers. -/
def numeric? (reading : NumberReading) : Json → Option Numeric
  | .bool b => if reading = .loose then some (.exact b.toNat) else none
  | .int n => some (.exact n)
  | .float x => some (.binary x)
  | _ => none

/-- Whether both values are numbers, and equal ones. -/
def numericEqual (reading : NumberReading) (x y : Json) : Bool :=
  match x.numeric? reading, y.numeric? reading with
  | some a, some b => if reading = .exact then same x y else a.equal b
  | _, _ => false

mutual

/-- Equality by value: numbers are compared as numbers, deep in containers too, and the order of
members does not count. -/
def equalBy (reading : NumberReading) : Json → Json → Bool
  | .null, .null => true
  | .str a, .str b => a == b
  | .bool a, .bool b => a == b
  | .arr xs, .arr ys => equalItemsBy reading xs ys
  | .obj xs, .obj ys => xs.length == ys.length && equalMembersBy reading xs ys
  | x, y => numericEqual reading x y

/-- Equality of arrays by value, item by item. -/
def equalItemsBy (reading : NumberReading) : List Json → List Json → Bool
  | [], [] => true
  | x :: xs, y :: ys => equalBy reading x y && equalItemsBy reading xs ys
  | _, _ => false

/-- Whether each member has an equal counterpart under the same key. -/
def equalMembersBy (reading : NumberReading) : List (String × Json) → Members → Bool
  | [], _ => true
  | (k, x) :: rest, ys =>
    (match Members.get? k ys with
      | some y => equalBy reading x y
      | none => false) && equalMembersBy reading rest ys

end

/-- Equality that reads `1`, `1.0` and `true` alike. -/
def equivalent (x y : Json) : Bool := equalBy .loose x y

/-- Equality up to the order of members. -/
def alike (x y : Json) : Bool := equalBy .exact x y

/-- Whether an equal value is among the items. -/
def memberOf (x : Json) (xs : List Json) : Bool := xs.any (equivalent · x)

end Json

end DesignRegistry
