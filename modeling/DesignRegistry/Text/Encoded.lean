/-
**Texts as bytes.**

A file holds a text as UTF-8.  Bytes that are no text are reported by the first sequence that breaks
the rules, or read with the replacement character in place of each such sequence.  A line may end in
a line feed, a carriage return or both; readers see line feeds only.

Main definitions

* `DecodeFault` — the first sequence that breaks the rules;
* `utf8Bytes` — the bytes of characters;
* `decodeText`, `decodeLossy` — the text of bytes;
* `plainLineEnds` — a text with line feeds as its only line ends.
-/
import DesignRegistry.Number.Decimal
import DesignRegistry.Json.Printer

namespace DesignRegistry

/-- The bytes of characters. -/
def utf8Bytes (s : List Char) : List UInt8 := s.flatMap String.utf8EncodeChar

/-! ### Sequences -/

/-- Why a sequence of bytes is no character. -/
inductive DecodeReason where
  | badStart | badContinuation | cutShort
deriving DecidableEq, Repr

namespace DecodeReason

/-- The wording of a reason. -/
def message : DecodeReason → String
  | .badStart => "invalid start byte"
  | .badContinuation => "invalid continuation byte"
  | .cutShort => "unexpected end of data"

end DecodeReason

/-- The number of bytes of a sequence by its first byte. -/
def sequenceLength? (lead : Nat) : Option Nat :=
  if lead < 0x80 then some 1
  else if lead < 0xC2 then none
  else if lead < 0xE0 then some 2
  else if lead < 0xF0 then some 3
  else if lead < 0xF5 then some 4
  else none

/-- Whether a byte continues a sequence. -/
def isContinuation (byte : Nat) : Bool := 0x80 ≤ byte && byte < 0xC0

/-- Whether a byte may follow the first byte of a sequence: neither a longer form than needed, nor
half of a pair, nor beyond the last code point. -/
def fitsSecond (lead byte : Nat) : Bool :=
  isContinuation byte
    && !(lead == 0xE0 && byte < 0xA0) && !(lead == 0xED && 0xA0 ≤ byte)
    && !(lead == 0xF0 && byte < 0x90) && !(lead == 0xF4 && 0x90 ≤ byte)

/-- The bytes that continue a sequence whose first byte is `lead` and that lacks `count` bytes. -/
def continuations (lead count : Nat) (rest : List UInt8) : List UInt8 :=
  match count, rest with
  | count + 1, b :: more =>
    if fitsSecond lead b.toNat then
      b :: (more.take count).takeWhile fun b => isContinuation b.toNat
    else []
  | _, _ => []

/-- A character from its first byte and the bytes that continue it. -/
def charOfSequence (lead : Nat) (rest : List UInt8) : Char :=
  let high :=
    match rest.length with
    | 0 => lead
    | 1 => lead % 0x20
    | 2 => lead % 0x10
    | _ => lead % 0x08
  Char.ofNat (rest.foldl (fun n b => n * 0x40 + b.toNat % 0x40) high)

/-- What stands at the start of bytes. -/
inductive Sequence where
  /-- A character of so many bytes. -/
  | char (c : Char) (width : Nat)
  /-- So many bytes that are no character. -/
  | fault (reason : DecodeReason) (width : Nat)

/-- What stands at the start of bytes. -/
def sequenceAt (lead : UInt8) (rest : List UInt8) : Sequence :=
  match sequenceLength? lead.toNat with
  | none => .fault .badStart 1
  | some width =>
    let more := continuations lead.toNat (width - 1) rest
    if more.length = width - 1 then .char (charOfSequence lead.toNat more) width
    else if more.length = rest.length then .fault .cutShort (more.length + 1)
    else .fault .badContinuation (more.length + 1)

/-! ### Decoding -/

/-- The first sequence that is no character. -/
structure DecodeFault where
  /-- Why it is none. -/
  reason : DecodeReason
  /-- Its first byte. -/
  byte : UInt8
  /-- The number of bytes before it. -/
  position : Nat
  /-- The number of its bytes. -/
  width : Nat
deriving DecidableEq, Repr

namespace DecodeFault

/-- The wording of a fault. -/
def message (f : DecodeFault) : String :=
  let place :=
    if f.width = 1 then
      "byte 0x" ++ String.ofList (Json.hexDigits 2 f.byte.toNat) ++ " in position "
        ++ natText f.position
    else "bytes in position " ++ natText f.position ++ "-" ++ natText (f.position + f.width - 1)
  "'utf-8' codec can't decode " ++ place ++ ": " ++ f.reason.message

end DecodeFault

/-- The first sequence that is no character; `skip` bytes still belong to the last one, and
`position` counts the bytes before. -/
def firstFault? (skip position : Nat) : List UInt8 → Option DecodeFault
  | [] => none
  | b :: rest =>
    match skip with
    | skip + 1 => firstFault? skip (position + 1) rest
    | 0 =>
      match sequenceAt b rest with
      | .char _ width => firstFault? (width - 1) (position + 1) rest
      | .fault reason width => some ⟨reason, b, position, width⟩

/-- The text of bytes, or why they are none. -/
def decodeText (bytes : ByteArray) : Except DecodeFault String :=
  match String.fromUTF8? bytes with
  | some s => .ok s
  | none => .error ((firstFault? 0 0 bytes.toList).getD ⟨.badStart, 0, 0, 1⟩)

/-- The characters of bytes, each sequence that is none replaced; `skip` bytes still belong to the
last one. -/
def lossyChars (skip : Nat) : List UInt8 → List Char
  | [] => []
  | b :: rest =>
    match skip with
    | skip + 1 => lossyChars skip rest
    | 0 =>
      match sequenceAt b rest with
      | .char c width => c :: lossyChars (width - 1) rest
      | .fault _ width => '\ufffd' :: lossyChars (width - 1) rest

/-- The text of bytes, each sequence that is no character replaced. -/
def decodeLossy (bytes : ByteArray) : String := String.ofList (lossyChars 0 bytes.toList)

/-! ### Line ends -/

/-- The characters of a text with line feeds as its only line ends. -/
def plainLineEnds : List Char → List Char
  | [] => []
  | '\r' :: '\n' :: rest => '\n' :: plainLineEnds rest
  | '\r' :: rest => '\n' :: plainLineEnds rest
  | c :: rest => c :: plainLineEnds rest

/-- A text with line feeds as its only line ends. -/
def withPlainLineEnds (s : String) : String := String.ofList (plainLineEnds s.toList)

end DesignRegistry
