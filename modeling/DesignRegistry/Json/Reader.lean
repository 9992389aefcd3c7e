/-
**Reading JSON.**

The reader accepts the JSON grammar and, beside it, the words `NaN`, `Infinity` and `-Infinity`.
A problem is reported with what was left of the text when it was met, so its position is the length
of the text read so far.  Nesting is bounded by the length of the text, which is the fuel of the
recursion: every level reads at least one character.

Main definitions

* `Json.ReadProblem`, `Json.ReadError` — what can be wrong, and where;
* `Json.parse` — a text as a document;
* `Json.ReadError.message` — the wording, with line, column and offset.
-/
import DesignRegistry.Json.Basic
import DesignRegistry.Number.Decimal
import DesignRegistry.Number.Radix

namespace DesignRegistry

namespace Json

/-! ### Problems -/

/-- What can be wrong with a text. -/
inductive ReadProblem where
  | byteOrderMark
  | value
  | key
  | colon
  | comma
  | extraData
  | unterminatedString
  | controlCharacter
  | escape
  | unitEscape
  /-- An integer with more digits than are read. -/
  | tooManyDigits (count : Nat)
deriving DecidableEq, Repr

namespace ReadProblem

/-- The wording of a problem. -/
def text : ReadProblem → String
  | .byteOrderMark => "Unexpected UTF-8 BOM (decode using utf-8-sig)"
  | .value => "Expecting value"
  | .key => "Expecting property name enclosed in double quotes"
  | .colon => "Expecting ':' delimiter"
  | .comma => "Expecting ',' delimiter"
  | .extraData => "Extra data"
  | .unterminatedString => "Unterminated string starting at"
  | .controlCharacter => "Invalid control character at"
  | .escape => "Invalid \\escape"
  | .unitEscape => "Invalid \\uXXXX escape"
  | .tooManyDigits count =>
    "Exceeds the limit (4300 digits) for integer string conversion: value has " ++ natText count
      ++ " digits; use sys.set_int_max_str_digits() to increase the limit"

end ReadProblem

/-- A problem while reading, with the rest of the text from where it lies. -/
structure Stop where
  /-- What is wrong. -/
  problem : ReadProblem
  /-- What was left of the text. -/
  rest : List Char

/-- A step of the reader: a result and the rest of the text. -/
abbrev Step (α : Type) := Except Stop (α × List Char)

/-! ### Blanks, literals and digits -/

/-- The white space of JSON. -/
def isSpace (c : Char) : Bool := c == ' ' || c == '\t' || c == '\n' || c == '\r'

/-- The text after its white space. -/
def skipSpace (s : List Char) : List Char := s.dropWhile isSpace

/-- The text after a literal that stands in front. -/
def afterLiteral? : List Char → List Char → Option (List Char)
  | [], s => some s
  | _ :: _, [] => none
  | l :: ls, c :: s => if l = c then afterLiteral? ls s else none

/-- The unit that four hexadecimal digits denote. -/
def unit? : List Char → Option (Nat × List Char)
  | a :: b :: c :: d :: rest => do
    let a ← hexValue? a
    let b ← hexValue? b
    let c ← hexValue? c
    let d ← hexValue? d
    return (((a * 16 + b) * 16 + c) * 16 + d, rest)
  | _ => none

/-! ### Strings -/

/-- The character that a one-letter escape denotes. -/
def escaped? (c : Char) : Option Char :=
  if c = '"' then some '"'
  else if c = '\\' then some '\\'
  else if c = '/' then some '/'
  else if c = 'b' then some '\x08'
  else if c = 'f' then some '\x0c'
  else if c = 'n' then some '\n'
  else if c = 'r' then some '\r'
  else if c = 't' then some '\t'
  else none

/-- Whether a unit is the first of a pair. -/
def isHighUnit (u : Nat) : Bool := 0xD800 ≤ u && u < 0xDC00

/-- Whether a unit is the second of a pair. -/
def isLowUnit (u : Nat) : Bool := 0xDC00 ≤ u && u < 0xE000

/-- The character of a unit; one that is half a pair has none, and U+FFFD stands for it. -/
def charOfUnit (u : Nat) : Char :=
  if isHighUnit u || isLowUnit u then '\uFFFD' else Char.ofNat u

/-- The character of a pair of units. -/
def charOfPair (high low : Nat) : Char :=
  Char.ofNat (0x10000 + (high - 0xD800) * 0x400 + (low - 0xDC00))

/-- The character that the units after `\u` denote, and the rest.  The units of a pair give one
character; half of a pair alone is none, and the character for what cannot be read stands for it. -/
def unitChar (u : Nat) (rest : List Char) : Char × List Char :=
  if isHighUnit u then
    match rest with
    | '\\' :: 'u' :: more =>
      match unit? more with
      | some (v, after) => if isLowUnit v then (charOfPair u v, after) else (charOfUnit u, rest)
      | none => (charOfUnit u, rest)
    | _ => (charOfUnit u, rest)
  else (charOfUnit u, rest)

/-- The characters of a string up to its closing quote.  `start` is the text from the opening
quote, where an unterminated string is reported. -/
def stringBody (start : List Char) : Nat → List Char → Step (List Char)
  | 0, _ => .error ⟨.unterminatedString, start⟩
  | _ + 1, [] => .error ⟨.unterminatedString, start⟩
  | fuel + 1, c :: rest =>
    if c = '"' then .ok ([], rest)
    else if c = '\\' then
      match rest with
      | [] => .error ⟨.unterminatedString, start⟩
      | 'u' :: more =>
        match unit? more with
        | some (u, after) =>
          if after.isEmpty then .error ⟨.unitEscape, rest⟩
          else
            let (d, after) := unitChar u after
            (stringBody start fuel after).map fun (cs, left) => (d :: cs, left)
        | none => .error ⟨.unitEscape, rest⟩
      | e :: more =>
        match escaped? e with
        | some d => (stringBody start fuel more).map fun (cs, left) => (d :: cs, left)
        | none => .error ⟨.escape, c :: rest⟩
    else if c.toNat < 32 then .error ⟨.controlCharacter, c :: rest⟩
    else (stringBody start fuel rest).map fun (cs, left) => (c :: cs, left)

/-- A string literal; the text starts with its opening quote. -/
def stringAt (s : List Char) : Step String :=
  (stringBody s s.length (s.drop 1)).map fun (cs, rest) => (String.ofList cs, rest)

/-! ### Numbers -/

/-- An optional exponent. -/
def exponentPart (s : List Char) : Option Int × List Char :=
  match s with
  | e :: rest =>
    if e = 'e' ∨ e = 'E' then
      let (negative, body) :=
        match rest with
        | '+' :: more => (false, more)
        | '-' :: more => (true, more)
        | _ => (false, rest)
      let digits := body.takeWhile Char.isDigit
      if digits.isEmpty then (none, s)
      else
        let n : Int := natOfDigits digits
        (some (if negative then -n else n), body.dropWhile Char.isDigit)
    else (none, s)
  | [] => (none, s)

/-- An optional fraction: its digits. -/
def fractionPart (s : List Char) : List Char × List Char :=
  match s with
  | '.' :: rest =>
    let digits := rest.takeWhile Char.isDigit
    if digits.isEmpty then ([], s) else (digits, rest.dropWhile Char.isDigit)
  | _ => ([], s)

/-- The digits before the fraction: a zero alone, or digits that start with another one. -/
def integerPart? (s : List Char) : Option (List Char × List Char) :=
  match s with
  | '0' :: rest => some (['0'], rest)
  | c :: _ => if c.isDigit then some (s.takeWhile Char.isDigit, s.dropWhile Char.isDigit) else none
  | [] => none

/-- A number; one with a fraction or an exponent is not an integer. -/
def numberAt (s : List Char) : Step Json :=
  let (negative, body) :=
    match s with
    | '-' :: rest => (true, rest)
    | _ => (false, s)
  match integerPart? body with
  | none => .error ⟨.value, s⟩
  | some (digits, rest) =>
    let (fraction, rest) := fractionPart rest
    let (exponent, rest) := exponentPart rest
    if fraction.isEmpty && exponent.isNone then
      if maxIntegerDigits < digits.length then .error ⟨.tooManyDigits digits.length, s⟩
      else
        let n : Int := natOfDigits digits
        .ok (.int (if negative then -n else n), rest)
    else
      let shift : Int := exponent.getD 0 - fraction.length
      .ok (.float (Decimal.toBinary64 ⟨negative, natOfDigits (digits ++ fraction), shift⟩), rest)

/-! ### Values -/

/-- The words that are values. -/
def words : List (String × Json) :=
  [("null", .null), ("true", .bool true), ("false", .bool false), ("NaN", .float .nan),
   ("Infinity", .float (.infinite false)), ("-Infinity", .float (.infinite true))]

/-- A word or a number. -/
def scalarAt (s : List Char) : Step Json :=
  match words.findSome? fun (w, v) => (afterLiteral? w.toList s).map fun rest => (v, rest) with
  | some found => .ok found
  | none => numberAt s

mutual

/-- A value at the front of the text. -/
def valueAt : Nat → List Char → Step Json
  | 0, s => .error ⟨.value, s⟩
  | fuel + 1, s =>
    match s with
    | '"' :: _ => (stringAt s).map fun (t, rest) => (.str t, rest)
    | '[' :: rest =>
      match skipSpace rest with
      | ']' :: after => .ok (.arr [], after)
      | body => (itemsAt fuel body).map fun (xs, rest) => (.arr xs, rest)
    | '{' :: rest =>
      match skipSpace rest with
      | '}' :: after => .ok (.obj [], after)
      | body => (membersAt fuel body).map fun (ms, rest) => (.obj (Members.ofPairs ms), rest)
    | _ => scalarAt s

/-- The items of an array up to its closing bracket. -/
def itemsAt : Nat → List Char → Except Stop (List Json × List Char)
  | 0, s => .error ⟨.value, s⟩
  | fuel + 1, s => do
    let (x, rest) ← valueAt fuel s
    match skipSpace rest with
    | ']' :: after => .ok ([x], after)
    | ',' :: more => (itemsAt fuel (skipSpace more)).map fun (xs, rest) => (x :: xs, rest)
    | other => .error ⟨.comma, other⟩

/-- The members of an object up to its closing brace. -/
def membersAt : Nat → List Char → Except Stop (List (String × Json) × List Char)
  | 0, s => .error ⟨.key, s⟩
  | fuel + 1, s => do
    match s with
    | '"' :: _ =>
      let (k, rest) ← stringAt s
      match skipSpace rest with
      | ':' :: body =>
        let (v, rest) ← valueAt fuel (skipSpace body)
        match skipSpace rest with
        | '}' :: after => .ok ([(k, v)], after)
        | ',' :: more =>
          (membersAt fuel (skipSpace more)).map fun (ms, rest) => ((k, v) :: ms, rest)
        | other => .error ⟨.comma, other⟩
      | other => .error ⟨.colon, other⟩
    | _ => .error ⟨.key, s⟩

end

/-! ### Texts -/

/-- A problem at a position of a text. -/
structure ReadError where
  /-- What is wrong. -/
  problem : ReadProblem
  /-- The line, counted from one. -/
  line : Nat
  /-- The column, counted from one. -/
  column : Nat
  /-- The number of characters before it. -/
  offset : Nat
deriving DecidableEq, Repr

namespace ReadError

/-- The position reached after reading some characters. -/
def after (problem : ReadProblem) (before : List Char) : ReadError :=
  { problem
    line := before.count '\n' + 1
    column := (before.reverse.takeWhile (· != '\n')).length + 1
    offset := before.length }

/-- Whether the wording tells the position: it does unless a number has too many digits. -/
def hasPosition (e : ReadError) : Bool :=
  match e.problem with
  | .tooManyDigits _ => false
  | _ => true

/-- The wording of the error. -/
def message (e : ReadError) : String :=
  if !e.hasPosition then e.problem.text
  else
    e.problem.text ++ ": line " ++ natText e.line ++ " column " ++ natText e.column
      ++ " (char " ++ natText e.offset ++ ")"

end ReadError

/-- A value and nothing after it but white space. -/
def documentAt (s : List Char) : Except Stop Json := do
  if s.head? = some '\uFEFF' then throw ⟨.byteOrderMark, s⟩
  let (v, rest) ← valueAt (s.length + 1) (skipSpace s)
  match skipSpace rest with
  | [] => .ok v
  | left => .error ⟨.extraData, left⟩

/-- The document that a text denotes. -/
def parse (text : String) : Except ReadError Json :=
  let s := text.toList
  match documentAt s with
  | .ok v => .ok v
  | .error stop => .error (.after stop.problem (s.take (s.length - stop.rest.length)))

end Json

end DesignRegistry
