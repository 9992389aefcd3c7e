/-
**Reading patterns.**

A pattern is written in the common notation: sets in brackets, groups in parentheses, repetition
marks, escapes and inline flags.  `Pattern.parse` gives the pattern that a text denotes, or the
defect of a text that denotes none.  The recursion is bounded by the length of the text: every step reads at
least one character.

Main definitions

* `Pattern.Flags`, `Pattern.Progress` — what governs the reading, and how far it has come;
* `Pattern.Defect` — why a text denotes no pattern;
* `Pattern.parse` — a text as a pattern.
-/
import DesignRegistry.Pattern.Basic
import DesignRegistry.Number.Radix
import DesignRegistry.Number.Decimal

namespace DesignRegistry

namespace Pattern

/-! ### Defects -/

/-- Why a text denotes no pattern. -/
inductive Defect where
  /-- It breaks the notation. -/
  | malformed
  /-- A repetition mark has a number beyond the limit. -/
  | countTooLarge
  /-- The flags ask for ASCII classes and for full ones. -/
  | flagsClash
deriving DecidableEq, Repr

/-- Repetition marks hold smaller numbers than this. -/
def countLimit : Nat := 4294967295

/-- What is not there makes a text malformed. -/
instance : MonadLift Option (Except Defect) where
  monadLift
    | some x => .ok x
    | none => .error .malformed

/-! ### State -/

/-- The flags in force. -/
structure Flags where
  /-- Letters match their other case. -/
  ignoreCase : Bool := false
  /-- Line anchors hold at every line. -/
  multiline : Bool := false
  /-- The dot matches line feeds. -/
  dotAll : Bool := false
  /-- Blanks and comments in the pattern are skipped. -/
  verbose : Bool := false
  /-- Classes have ASCII members only. -/
  asciiOnly : Bool := false
  /-- Classes have all their members, by an explicit flag. -/
  fullClasses : Bool := false

/-- How far the reading has come. -/
structure Progress where
  /-- The text still to be read. -/
  rest : List Char
  /-- The number of groups opened so far. -/
  groups : Nat := 0
  /-- The names of groups. -/
  names : List (List Char × Nat) := []
  /-- The groups that are still open. -/
  openGroups : List Nat := []
  /-- The widths of closed groups. -/
  widths : List (Nat × Option Nat) := []
  /-- Inside a condition on the text before, the number of groups before it. -/
  groupsBefore : Option Nat := none
  /-- The groups that conditions ask about. -/
  conditions : List Nat := []
  /-- The flags in force. -/
  flags : Flags := {}

namespace Progress

/-- The progress with other text to read. -/
def withRest (p : Progress) (rest : List Char) : Progress := { p with rest := rest }

/-- The width of a closed group, if it is fixed. -/
def widthOf (p : Progress) (index : Nat) : Option Nat := (p.widths.lookup index).join

/-- Whether a group may be named here: a condition on the text before names no group of its own. -/
def mayName (p : Progress) (index : Nat) : Bool := p.groupsBefore.all (index ≤ ·)

end Progress

/-- How the last item of a sequence takes a repetition mark. -/
inductive ItemKind where
  | plain | place | repetition
deriving DecidableEq

/-- The sequence of items read so far, the last first. -/
abbrev Items := List (ItemKind × Pattern)

/-- The sequence of items as a pattern. -/
def ofItems (items : Items) : Pattern :=
  match items with
  | [] => .empty
  | (_, p) :: before => before.foldl (fun acc (_, q) => .seq q acc) p

/-! ### Numbers -/

/-- The number of up to `most` leading characters that pass a test. -/
def spanUpTo (most : Nat) (test : Char → Bool) (s : List Char) : List Char × List Char :=
  let run := (s.take most).takeWhile test
  (run, s.drop run.length)

/-- Whether a character is an octal digit. -/
def isOctal (c : Char) : Bool := '0' ≤ c && c ≤ '7'

/-- A character by its code point in exactly `count` hexadecimal digits. -/
def hexChar? (count : Nat) (s : List Char) : Option (Char × List Char) :=
  let (digits, rest) := spanUpTo count isHex s
  let code := valueInBase 16 digits
  if digits.length = count ∧ code < 0x110000 then some (Char.ofNat code, rest) else none

/-! ### Escapes -/

/-- The control character that a letter after a backslash denotes. -/
def controlEscape? (c : Char) : Option Char :=
  match c with
  | 'a' => some '\x07'
  | 'f' => some '\x0c'
  | 'n' => some '\n'
  | 'r' => some '\r'
  | 't' => some '\t'
  | 'v' => some '\x0b'
  | '\\' => some '\\'
  | _ => none

/-- The class that a letter after a backslash denotes; a capital denotes the complement. -/
def categoryEscape? (c : Char) : Option (CharCategory × Bool) :=
  match c with
  | 'd' => some (.digit, false)
  | 'D' => some (.digit, true)
  | 's' => some (.blank, false)
  | 'S' => some (.blank, true)
  | 'w' => some (.word, false)
  | 'W' => some (.word, true)
  | _ => none

/-- A character given by its code point. -/
def codeEscape? (c : Char) (rest : List Char) : Option (Char × List Char) :=
  match c with
  | 'x' => hexChar? 2 rest
  | 'u' => hexChar? 4 rest
  | 'U' => hexChar? 8 rest
  | _ => none

/-- An escape that stands for itself: any character but a letter or a digit of ASCII. -/
def literalEscape? (c : Char) (rest : List Char) : Option (Char × List Char) :=
  if c.isAlphanum then none else some (c, rest)

/-- An escape inside brackets; the backslash is read. -/
def classEscape? (flags : Flags) : List Char → Option (ClassItem × List Char)
  | [] => none
  | c :: rest =>
    match controlEscape? c, categoryEscape? c with
    | some d, _ => some (.char d, rest)
    | none, some (k, negated) => some (.category flags.asciiOnly k negated, rest)
    | none, none =>
      if c = 'b' then some (.char '\x08', rest)
      else if c = 'x' ∨ c = 'u' ∨ c = 'U' then
        (codeEscape? c rest).map fun (d, left) => (.char d, left)
      else if isOctal c then
        let (more, left) := spanUpTo 2 isOctal rest
        let code := valueInBase 8 (c :: more)
        if code ≤ 0o377 then some (.char (Char.ofNat code), left) else none
      else (literalEscape? c rest).map fun (d, left) => (.char d, left)

/-- A literal character as an item. -/
def literal (flags : Flags) (c : Char) : ItemKind × Pattern :=
  (.plain, .one { items := [.char c], ignoreCase := flags.ignoreCase })

/-- A reference to a closed group. -/
def referenceTo? (p : Progress) (index : Nat) : Option (ItemKind × Pattern) :=
  if 0 < index ∧ index ≤ p.groups ∧ ¬p.openGroups.contains index ∧ p.mayName index then
    some (.plain, .reference index p.flags.ignoreCase)
  else none

/-- An escape that starts with a digit: a character in octal, or a reference to a group. -/
def digitEscape? (p : Progress) (c : Char) (rest : List Char) :
    Option ((ItemKind × Pattern) × List Char) :=
  if c = '0' then
    let (more, left) := spanUpTo 2 isOctal rest
    some (literal p.flags (Char.ofNat (valueInBase 8 more)), left)
  else
    match rest with
    | d :: more =>
      if d.isDigit then
        match more with
        | e :: after =>
          if isOctal c && isOctal d && isOctal e then
            let code := valueInBase 8 [c, d, e]
            if code ≤ 0o377 then some (literal p.flags (Char.ofNat code), after) else none
          else (referenceTo? p (valueInBase 10 [c, d])).map fun item => (item, more)
        | [] => (referenceTo? p (valueInBase 10 [c, d])).map fun item => (item, more)
      else (referenceTo? p (valueInBase 10 [c])).map fun item => (item, rest)
    | [] => (referenceTo? p (valueInBase 10 [c])).map fun item => (item, rest)

/-- An escape outside brackets; the backslash is read. -/
def escape? (p : Progress) : List Char → Option ((ItemKind × Pattern) × List Char)
  | [] => none
  | c :: rest =>
    let anchored (a : Anchor) : Option ((ItemKind × Pattern) × List Char) :=
      some ((.place, .anchor a), rest)
    match c with
    | 'A' => anchored .textStart
    | 'Z' => anchored .textEnd
    | 'b' => anchored (.wordEdge p.flags.asciiOnly)
    | 'B' => anchored (.noWordEdge p.flags.asciiOnly)
    | _ =>
      match controlEscape? c, categoryEscape? c with
      | some d, _ => some (literal p.flags d, rest)
      | none, some (k, negated) =>
        some ((.plain, .one { items := [.category p.flags.asciiOnly k negated] }), rest)
      | none, none =>
        if c = 'x' ∨ c = 'u' ∨ c = 'U' then
          (codeEscape? c rest).map fun (d, left) => (literal p.flags d, left)
        else if c.isDigit then digitEscape? p c rest
        else (literalEscape? c rest).map fun (d, left) => (literal p.flags d, left)

/-! ### Sets in brackets -/

/-- One end of a range, or a member of its own. -/
def classMember? (flags : Flags) : List Char → Option (ClassItem × List Char)
  | [] => none
  | '\\' :: rest => classEscape? flags rest
  | c :: rest => some (.char c, rest)

/-- The members of a set up to its closing bracket, the last first. -/
def classItems? (flags : Flags) : Nat → List ClassItem → List Char →
    Option (List ClassItem × List Char)
  | 0, _, _ => none
  | fuel + 1, found, s =>
    match s, found with
    | ']' :: rest, _ :: _ => some (found, rest)
    | _, _ => do
      let (lo, rest) ← classMember? flags s
      match rest with
      | '-' :: ']' :: after => some (.char '-' :: lo :: found, after)
      | '-' :: more =>
        let (hi, after) ← classMember? flags more
        match lo, hi with
        | .char a, .char b =>
          if a ≤ b then classItems? flags fuel (.range a b :: found) after else none
        | _, _ => none
      | _ => classItems? flags fuel (lo :: found) rest

/-- A set; its opening bracket is read. -/
def class? (flags : Flags) (s : List Char) : Option (CharClass × List Char) :=
  let (negated, body) :=
    match s with
    | '^' :: rest => (true, rest)
    | _ => (false, s)
  (classItems? flags (body.length + 1) [] body).map fun (items, rest) =>
    ({ items := items.reverse, negated := negated, ignoreCase := flags.ignoreCase }, rest)

/-! ### Repetition marks -/

/-- The bounds that a repetition mark denotes; nothing for a brace that is a character. -/
def bounds? : List Char → Option ((Nat × Option Nat) × List Char)
  | '?' :: rest => some ((0, some 1), rest)
  | '*' :: rest => some ((0, none), rest)
  | '+' :: rest => some ((1, none), rest)
  | '{' :: rest =>
    if rest.head? = some '}' then none
    else
      let lo := rest.takeWhile Char.isDigit
      let (hi, after) :=
        match rest.dropWhile Char.isDigit with
        | ',' :: more => (more.takeWhile Char.isDigit, more.dropWhile Char.isDigit)
        | other => (lo, other)
      match after with
      | '}' :: left =>
        some ((natOfDigits lo, if hi.isEmpty then none else some (natOfDigits hi)), left)
      | _ => none
  | _ => none

/-- The preference that a mark after the bounds denotes. -/
def preferenceMark (s : List Char) : Preference × List Char :=
  match s with
  | '?' :: rest => (.shortest, rest)
  | '+' :: rest => (.committed, rest)
  | _ => (.longest, s)

/-- The items with the last one repeated. -/
def repeatLast? (items : Items) (least : Nat) (most : Option Nat) (preference : Preference) :
    Option Items :=
  match items with
  | (.plain, p) :: before =>
    if most.all (least ≤ ·) then
      some ((.repetition, .repeated preference least most p) :: before)
    else none
  | _ => none

/-! ### Flags -/

/-- One flag letter set or cleared. -/
def Flags.set? (f : Flags) (value : Bool) (c : Char) : Option Flags :=
  match c with
  | 'i' => some { f with ignoreCase := value }
  | 'm' => some { f with multiline := value }
  | 's' => some { f with dotAll := value }
  | 'x' => some { f with verbose := value }
  | 'a' => if value then some { f with asciiOnly := true } else none
  | 'u' => if value then some { f with fullClasses := true } else none
  | _ => none

/-- Letters that set or clear flags. -/
def Flags.setAll? (f : Flags) (value : Bool) (letters : List Char) : Option Flags :=
  letters.foldlM (fun g c => g.set? value c) f

/-- The flags in a group for which letters ask: its classes are of the kind named last. -/
def Flags.inGroup (f : Flags) (letters : List Char) : Flags :=
  if letters.contains 'a' then { f with fullClasses := false }
  else if letters.contains 'u' then { f with asciiOnly := false }
  else f

/-- A group of flags after the question mark: the flags, whether they hold for a group only, and
the rest. -/
def flagGroup? (f : Flags) (s : List Char) : Option (Flags × Bool × List Char) := do
  let letters := s.takeWhile Char.isAlpha
  let after := s.dropWhile Char.isAlpha
  if letters.contains 'a' && letters.contains 'u' then none
  let f ← f.setAll? true letters
  match after with
  | ')' :: rest => if letters.isEmpty then none else some (f, false, rest)
  | ':' :: rest => if letters.isEmpty then none else some (f.inGroup letters, true, rest)
  | '-' :: more =>
    let cleared := more.takeWhile Char.isAlpha
    let f ← f.setAll? false cleared
    match more.dropWhile Char.isAlpha with
    | ':' :: rest => if cleared.isEmpty then none else some (f.inGroup letters, true, rest)
    | _ => none
  | _ => none

/-! ### Groups -/

/-- Whether a text can name a group. -/
def isGroupName (s : List Char) : Bool :=
  match s with
  | [] => false
  | c :: _ => s.all isWord && !isDecimal c

/-- The text up to a closing character, and what follows it. -/
def until? (stop : Char) (s : List Char) : Option (List Char × List Char) :=
  match s.dropWhile (· != stop) with
  | _ :: rest => some (s.takeWhile (· != stop), rest)
  | [] => none

/-- The group that a condition names. -/
def conditionTarget? (p : Progress) (name : List Char) : Option Nat :=
  if isGroupName name then p.names.lookup name
  else if !name.isEmpty && name.all Char.isDigit && 0 < natOfDigits name then
    some (natOfDigits name)
  else none

/-- The progress with a new group open. -/
def openGroup? (p : Progress) (name? : Option (List Char)) (rest : List Char) :
    Option (Nat × Progress) :=
  let index := p.groups + 1
  let opened := { p with rest := rest, groups := index, openGroups := index :: p.openGroups }
  match name? with
  | none => some (index, opened)
  | some name =>
    if isGroupName name && (p.names.lookup name).isNone then
      some (index, { opened with names := (name, index) :: p.names })
    else none

/-- What an opening parenthesis introduces. -/
inductive GroupHead where
  /-- A group that remembers its match. -/
  | capture (index : Nat)
  /-- A group that only brackets, with the flags that hold inside. -/
  | bracket (flags : Flags)
  | commit
  | ahead (negated : Bool)
  | behind (negated : Bool)
  | conditional (index : Nat)
  /-- Something complete in itself, or nothing at all. -/
  | done (item? : Option (ItemKind × Pattern))
  /-- Flags for the rest of the pattern. -/
  | flags (flags : Flags)

/-- What an opening parenthesis introduces; the parenthesis is read. -/
def groupHead? (p : Progress) (s : List Char) : Option (GroupHead × Progress) :=
  match s with
  | '?' :: 'P' :: '<' :: rest => do
    let (name, after) ← until? '>' rest
    let (index, q) ← openGroup? p (some name) after
    return (.capture index, q)
  | '?' :: 'P' :: '=' :: rest => do
    let (name, after) ← until? ')' rest
    let index ← p.names.lookup name
    let item ← referenceTo? p index
    return (.done (some item), p.withRest after)
  | '?' :: ':' :: rest => some (.bracket p.flags, p.withRest rest)
  | '?' :: '#' :: rest => do
    let (_, after) ← until? ')' rest
    return (.done none, p.withRest after)
  | '?' :: '=' :: rest => some (.ahead false, p.withRest rest)
  | '?' :: '!' :: rest => some (.ahead true, p.withRest rest)
  | '?' :: '<' :: '=' :: rest => some (.behind false, p.withRest rest)
  | '?' :: '<' :: '!' :: rest => some (.behind true, p.withRest rest)
  | '?' :: '>' :: rest => some (.commit, p.withRest rest)
  | '?' :: '(' :: rest => do
    let (name, after) ← until? ')' rest
    let index ← (conditionTarget? p name).filter fun i =>
      p.groupsBefore.isNone || (p.mayName i && !p.openGroups.contains i)
    return (.conditional index, { p with rest := after, conditions := index :: p.conditions })
  | '?' :: rest => do
    let (flags, inGroup, after) ← flagGroup? p.flags rest
    return (if inGroup then .bracket flags else .flags flags, p.withRest after)
  | _ => do
    let (index, q) ← openGroup? p none s
    return (.capture index, q)

/-- The progress after a closing parenthesis. -/
def close? (p : Progress) : Option Progress :=
  match p.rest with
  | ')' :: rest => some (p.withRest rest)
  | _ => none

/-- The progress after a group, with the flags from before it. -/
def leave (outer inner : Progress) : Progress :=
  { inner with flags := outer.flags, openGroups := outer.openGroups }

/-- The progress after a group whose body has been read. -/
def closed (p : Progress) (index : Nat) (body : Pattern) : Progress :=
  { p with widths := (index, body.width? p.widthOf) :: p.widths }

/-- The progress into a condition on the text before. -/
def enterBehind (p : Progress) : Progress :=
  { p with groupsBefore := some (p.groupsBefore.getD p.groups) }

/-- A condition on the text before, which needs a width. -/
def behind? (p : Progress) (negated : Bool) (body : Pattern) : Option Pattern :=
  (body.width? p.widthOf).map fun width => .behind negated width body

/-! ### Sequences and alternatives -/

/-- Whether a character only lays out a verbose pattern: a blank of ASCII. -/
def isLayout (c : Char) : Bool := c == ' ' || (9 ≤ c.toNat && c.toNat ≤ 13)

mutual

/-- Alternatives up to a closing parenthesis or the end. -/
def alternatives : Nat → Bool → Progress → Except Defect (Pattern × Progress)
  | 0, _, _ => .error .malformed
  | fuel + 1, outermost, p => do
    let (items, p) ← sequence fuel outermost [] p
    match p.rest with
    | '|' :: rest =>
      let (other, p) ← alternatives fuel false (p.withRest rest)
      return (.alt (ofItems items) other, p)
    | _ => return (ofItems items, p)

/-- A sequence up to a bar, a closing parenthesis or the end, its items the last first. -/
def sequence : Nat → Bool → Items → Progress → Except Defect (Items × Progress)
  | 0, _, _, _ => .error .malformed
  | fuel + 1, atStart, items, p =>
    match p.rest with
    | [] => .ok (items, p)
    | c :: rest =>
      if c = '|' ∨ c = ')' then .ok (items, p)
      else if p.flags.verbose ∧ isLayout c then sequence fuel atStart items (p.withRest rest)
      else if p.flags.verbose ∧ c = '#' then
        sequence fuel atStart items (p.withRest (rest.dropWhile (· != '\n')))
      else if c = '\\' then do
        let (item, left) ← escape? p rest
        sequence fuel false (item :: items) (p.withRest left)
      else if c = '[' then do
        let (set, left) ← class? p.flags rest
        sequence fuel false ((.plain, .one set) :: items) (p.withRest left)
      else if c = '.' then
        let set : CharClass :=
          { items := if p.flags.dotAll then [] else [.char '\n'], negated := true }
        sequence fuel false ((.plain, .one set) :: items) (p.withRest rest)
      else if c = '^' then
        let place : Anchor := if p.flags.multiline then .lineStart else .textStart
        sequence fuel false ((.place, .anchor place) :: items) (p.withRest rest)
      else if c = '$' then
        let place : Anchor := if p.flags.multiline then .lineEnd else .finalLineEnd
        sequence fuel false ((.place, .anchor place) :: items) (p.withRest rest)
      else if c = '?' ∨ c = '*' ∨ c = '+' ∨ c = '{' then
        match bounds? p.rest with
        | none => sequence fuel false (literal p.flags c :: items) (p.withRest rest)
        | some ((least, most), left) => do
          if countLimit ≤ least || most.any (countLimit ≤ ·) then throw .countTooLarge
          let (preference, left) := preferenceMark left
          let items ← repeatLast? items least most preference
          sequence fuel false items (p.withRest left)
      else if c = '(' then do
        let (head, q) ← groupHead? p rest
        match head with
        | .flags flags =>
          if atStart ∧ items.isEmpty then sequence fuel true items { q with flags := flags }
          else .error .malformed
        | .done item? => sequence fuel (atStart && item?.isNone) (item?.toList ++ items) q
        | _ => do
          let (item, q) ← groupBody fuel head q
          sequence fuel false ((.plain, item) :: items) (leave p q)
      else sequence fuel false (literal p.flags c :: items) (p.withRest rest)

/-- The body of a group and its closing parenthesis. -/
def groupBody : Nat → GroupHead → Progress → Except Defect (Pattern × Progress)
  | 0, _, _ => .error .malformed
  | fuel + 1, head, p =>
    match head with
    | .conditional index => do
      let (yes, p) ← sequence fuel false [] p
      match p.rest with
      | '|' :: rest =>
        let (no, p) ← sequence fuel false [] (p.withRest rest)
        return (.conditional index (ofItems yes) (ofItems no), ← close? p)
      | _ => return (.conditional index (ofItems yes) .empty, ← close? p)
    | .bracket flags => do
      let (body, p) ← alternatives fuel false { p with flags := flags }
      return (body, ← close? p)
    | .capture index => do
      let (body, p) ← alternatives fuel false p
      return (.group index body, ← close? (closed p index body))
    | .commit => do
      let (body, p) ← alternatives fuel false p
      return (.committed body, ← close? p)
    | .ahead negated => do
      let (body, p) ← alternatives fuel false p
      return (.ahead negated body, ← close? p)
    | .behind negated => do
      let (body, q) ← alternatives fuel false (enterBehind p)
      return (← behind? q negated body, { ← close? q with groupsBefore := p.groupsBefore })
    | .done _ => .error .malformed
    | .flags _ => .error .malformed

end

/-- The pattern that a text denotes.  Conditions may ask about groups that open later. -/
def parse (text : String) : Except Defect Pattern := do
  let s := text.toList
  let (pattern, p) ← alternatives (2 * s.length + 2) true { rest := s }
  if p.flags.asciiOnly && p.flags.fullClasses then throw .flagsClash
  if p.rest.isEmpty && p.conditions.all (· ≤ p.groups) then return pattern
  throw .malformed

end Pattern

end DesignRegistry
