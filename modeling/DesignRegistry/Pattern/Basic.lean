/-
**Text patterns.**

A pattern describes a set of texts with alternatives, repetition, look-around and references to
earlier groups.  Matching is defined by one equation per form of pattern: `Pattern.ends p c` is the
list of places at which a match of `p` that starts at `c` can end, in order of preference.

Main definitions

* `ClassItem`, `CharClass` — the members of a set in brackets, and such a set;
* `Pattern` — patterns;
* `Cursor` — a place in a text, with the texts that groups have matched so far;
* `Pattern.ends` — where a match can end;
* `Pattern.occursIn` — whether a pattern matches somewhere in a text.
-/
import DesignRegistry.Text.Casing

namespace DesignRegistry

/-! ### Characters -/

/-- A named class of characters. -/
inductive CharCategory where
  | digit | word | blank
deriving DecidableEq, Repr

namespace CharCategory

/-- Whether a character belongs to a class; an ASCII class has no member outside ASCII. -/
def contains (asciiOnly : Bool) (k : CharCategory) (c : Char) : Bool :=
  (!asciiOnly || c.toNat < 128) &&
    match k with
    | .digit => isDecimal c
    | .word => isWord c
    | .blank => if asciiOnly then c == ' ' || (9 ≤ c.toNat && c.toNat ≤ 13) else isBlank c

end CharCategory

/-- A member of a set in brackets. -/
inductive ClassItem where
  | char (c : Char)
  | range (lo hi : Char)
  | category (asciiOnly : Bool) (k : CharCategory) (negated : Bool)
deriving DecidableEq, Repr

namespace ClassItem

/-- Whether a character belongs to the item. -/
def contains (c : Char) : ClassItem → Bool
  | .char d => c == d
  | .range lo hi => lo ≤ c && c ≤ hi
  | .category asciiOnly k negated => k.contains asciiOnly c != negated

end ClassItem

/-- A set of characters: some items, or all characters outside them. -/
structure CharClass where
  /-- The items. -/
  items : List ClassItem
  /-- Whether the set is the complement of its items. -/
  negated : Bool := false
  /-- Whether a character counts with its other case. -/
  ignoreCase : Bool := false
deriving DecidableEq, Repr

namespace CharClass

/-- The character and, if case is ignored, its forms in the other case. -/
def variants (ignoreCase : Bool) (c : Char) : List Char :=
  if ignoreCase then Casing.forms c else [c]

/-- Whether a character belongs to the set. -/
def contains (s : CharClass) (c : Char) : Bool :=
  ((variants s.ignoreCase c).any fun d => s.items.any (·.contains d)) != s.negated

/-- The set of one character. -/
def single (c : Char) : CharClass := { items := [.char c] }

end CharClass

/-! ### Patterns -/

/-- A condition on a place in a text. -/
inductive Anchor where
  /-- The start of the text. -/
  | textStart
  /-- The start of the text or of a line. -/
  | lineStart
  /-- The end of the text, or the place before a line feed that ends it. -/
  | finalLineEnd
  /-- The end of the text or of a line. -/
  | lineEnd
  /-- The end of the text. -/
  | textEnd
  /-- A place between a word character and one that is none. -/
  | wordEdge (asciiOnly : Bool)
  /-- Any other place. -/
  | noWordEdge (asciiOnly : Bool)
deriving DecidableEq, Repr

/-- How a repetition chooses its length. -/
inductive Preference where
  | longest
  | shortest
  /-- The longest, and never less once chosen. -/
  | committed
deriving DecidableEq, Repr

/-- A pattern. -/
inductive Pattern where
  /-- The empty text. -/
  | empty
  /-- One character of a set. -/
  | one (set : CharClass)
  | anchor (place : Anchor)
  | seq (first second : Pattern)
  | alt (left right : Pattern)
  /-- Between `least` and `most` matches in a row; without `most`, any number. -/
  | repeated (preference : Preference) (least : Nat) (most : Option Nat) (body : Pattern)
  /-- A match that is remembered under a number. -/
  | group (index : Nat) (body : Pattern)
  /-- The text that a group matched. -/
  | reference (index : Nat) (ignoreCase : Bool)
  /-- A condition on the text that follows. -/
  | ahead (negated : Bool) (body : Pattern)
  /-- A condition on the `width` characters before. -/
  | behind (negated : Bool) (width : Nat) (body : Pattern)
  /-- The preferred match and no other. -/
  | committed (body : Pattern)
  /-- One of two patterns, by whether a group has matched. -/
  | conditional (index : Nat) (yes no : Pattern)
deriving Repr

/-- A place in a text. -/
structure Cursor where
  /-- The characters before, the nearest first. -/
  before : List Char
  /-- The characters after. -/
  rest : List Char
  /-- What groups have matched, the latest first. -/
  groups : List (Nat × List Char) := []

namespace Anchor

/-- Whether exactly one of the neighbours is a word character. -/
def atWordEdge (asciiOnly : Bool) (c : Cursor) : Bool :=
  let isWordAt (d? : Option Char) : Bool :=
    match d? with
    | some d => CharCategory.word.contains asciiOnly d
    | none => false
  isWordAt c.before.head? != isWordAt c.rest.head?

/-- Whether a place meets a condition.  In an empty text no place is away from an edge. -/
def holds (c : Cursor) : Anchor → Bool
  | .textStart => c.before.isEmpty
  | .lineStart => c.before.isEmpty || c.before.head? == some '\n'
  | .finalLineEnd => c.rest.isEmpty || c.rest == ['\n']
  | .lineEnd => c.rest.isEmpty || c.rest.head? == some '\n'
  | .textEnd => c.rest.isEmpty
  | .wordEdge asciiOnly => atWordEdge asciiOnly c
  | .noWordEdge asciiOnly =>
    !(c.before.isEmpty && c.rest.isEmpty) && !atWordEdge asciiOnly c

end Anchor

namespace Cursor

/-- The place `n` characters back. -/
def back? (c : Cursor) : Nat → Option Cursor
  | 0 => some c
  | n + 1 =>
    match c.before with
    | [] => none
    | d :: before => back? { c with before := before, rest := d :: c.rest } n

/-- The place after a text, if it stands here. -/
def after? (ignoreCase : Bool) (c : Cursor) : List Char → Option Cursor
  | [] => some c
  | t :: ts =>
    match c.rest with
    | [] => none
    | d :: rest =>
      if (CharClass.mk [.char t] false ignoreCase).contains d then
        after? ignoreCase { c with before := d :: c.before, rest := rest } ts
      else none

/-- The text between two places, the second not before the first. -/
def textTo (c d : Cursor) : List Char := c.rest.take (c.rest.length - d.rest.length)

end Cursor

namespace Pattern

/-! ### Repetition -/

/-- The places after exactly `n` steps. -/
def times (step : Cursor → List Cursor) : Nat → Cursor → List Cursor
  | 0, c => [c]
  | n + 1, c => (step c).flatMap (times step n)

/-- The places after at most `n` steps.  A step that does not move on is the last one: it may set a
group, and another would only repeat it. -/
def upTo (step : Cursor → List Cursor) (longest : Bool) : Nat → Cursor → List Cursor
  | 0, c => [c]
  | n + 1, c =>
    let more := (step c).flatMap fun d =>
      if d.rest.length < c.rest.length then upTo step longest n d else [d]
    if longest then more ++ [c] else c :: more

/-- The places after a repetition.  A step that moves on uses up a character, so the length of the
text, and one more for a step that does not move on, bounds a repetition without limit.  A committed
repetition is committed to the first way of each step as well. -/
def repetitions (step : Cursor → List Cursor) (preference : Preference) (least : Nat)
    (most : Option Nat) (c : Cursor) : List Cursor :=
  let step c := if preference = .committed then (step c).take 1 else step c
  let found := (times step least c).flatMap fun d =>
    upTo step (preference != .shortest) ((most.map (· - least)).getD (d.rest.length + 1)) d
  if preference = .committed then found.take 1 else found

/-! ### Matching -/

/-- Where a match that starts at a place can end, in order of preference. -/
def ends : Pattern → Cursor → List Cursor
  | .empty, c => [c]
  | .one set, c =>
    match c.rest with
    | [] => []
    | d :: rest => if set.contains d then [{ c with before := d :: c.before, rest := rest }] else []
  | .anchor place, c => if place.holds c then [c] else []
  | .seq p q, c => (ends p c).flatMap (ends q)
  | .alt p q, c => ends p c ++ ends q c
  | .repeated preference least most p, c => repetitions (ends p) preference least most c
  | .group i p, c => (ends p c).map fun d => { d with groups := (i, c.textTo d) :: d.groups }
  | .reference i ignoreCase, c =>
    match c.groups.lookup i with
    | none => []
    | some text => (c.after? ignoreCase text).toList
  | .ahead negated p, c =>
    match ends p c with
    | [] => if negated then [c] else []
    | d :: _ => if negated then [] else [{ c with groups := d.groups }]
  | .behind negated width p, c =>
    let found := (c.back? width).toList.flatMap fun start =>
      (ends p start).filter fun d => d.rest.length == c.rest.length
    match found with
    | [] => if negated then [c] else []
    | d :: _ => if negated then [] else [{ c with groups := d.groups }]
  | .committed p, c => (ends p c).take 1
  | .conditional i yes no, c =>
    if (c.groups.lookup i).isSome then ends yes c else ends no c

/-- Whether a match starts at a place or a later one. -/
def occursFrom (p : Pattern) (before : List Char) : List Char → Bool
  | [] => !(p.ends ⟨before, [], []⟩).isEmpty
  | d :: rest => !(p.ends ⟨before, d :: rest, []⟩).isEmpty || occursFrom p (d :: before) rest

/-- Whether a pattern matches somewhere in a text. -/
def occursIn (p : Pattern) (text : String) : Bool := p.occursFrom [] text.toList

/-! ### Width -/

/-- The number of characters of every match, if all matches have the same number; `known` gives it
for the groups that a reference can name. -/
def width? (known : Nat → Option Nat) : Pattern → Option Nat
  | .empty => some 0
  | .one _ => some 1
  | .anchor _ => some 0
  | .seq p q => do return (← width? known p) + (← width? known q)
  | .alt p q => do
    let m ← width? known p
    let n ← width? known q
    if m = n then some m else none
  | .repeated _ least most p => do
    let n ← width? known p
    if n = 0 then some 0
    else if most = some least then some (least * n) else none
  | .group _ p => width? known p
  | .reference i _ => known i
  | .ahead .. => some 0
  | .behind .. => some 0
  | .committed p => width? known p
  | .conditional _ yes no => do
    let m ← width? known yes
    let n ← width? known no
    if m = n then some m else none

end Pattern

end DesignRegistry
