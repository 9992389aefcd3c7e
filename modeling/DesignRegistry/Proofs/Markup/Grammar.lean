/-
**The grammar of XML documents.**

A document is a text that may start with a declaration and holds one element; comments and processing
instructions can stand around it.  An element has a name, attributes of different names, and a content of
characters and elements.  The grammar is that of XML 1.0 without document type declarations, so the only
names of characters are the five that every reader knows.  Each rule tells what its text denotes: line
ends are line feeds, a reference is the character it stands for, a blank in the value of an attribute is a
space, and comments and instructions are nothing.

Main definitions:

* `isAllowed`, `isName` — the characters that documents can hold, and names;
* `Item` — the characters and elements that a content is made of;
* `Reference`, `Value`, `Attributes`, `TagFront` — the parts of tags;
* `Content`, `Element` — contents, and elements;
* `Document` — **the documents, with the element that each denotes**.
-/
import DesignRegistry.Number.Radix
import DesignRegistry.Text.CodeSet
import DesignRegistry.Text.Encoded
import Mathlib.Data.List.Basic

set_option relaxedAutoImplicit false
set_option autoImplicit false

namespace DesignRegistry

namespace Markup

/-! ### Characters and names -/

/-- The characters that documents can hold: all but most controls and the two codes that end the first
plane. -/
def isAllowed (c : Char) : Bool :=
  c == '\t' || c == '\n' || c == '\r' ||
    (0x20 ≤ c.toNat && c.toNat != 0xFFFE && c.toNat != 0xFFFF)

/-- The characters that are blank in markup. -/
def isSpace (c : Char) : Bool := c == ' ' || c == '\t' || c == '\n' || c == '\r'

/-- A run of blanks, which may be empty. -/
def Spaces (s : List Char) : Prop := ∀ c ∈ s, isSpace c = true

/-- The characters with which names start. -/
def nameStarts : CodeSet :=
  ⟨[0x3A, 0x3B, 0x41, 0x5B, 0x5F, 0x60, 0x61, 0x7B, 0xC0, 0xD7, 0xD8, 0xF7, 0xF8, 0x300, 0x370, 0x37E,
    0x37F, 0x2000, 0x200C, 0x200E, 0x2070, 0x2190, 0x2C00, 0x2FF0, 0x3001, 0xD800, 0xF900, 0xFDD0,
    0xFDF0, 0xFFFE, 0x10000, 0xF0000]⟩

/-- The characters that stand in names but not in front: the hyphen, the full stop, digits and marks. -/
def nameTails : CodeSet := ⟨[0x2D, 0x2F, 0x30, 0x3A, 0xB7, 0xB8, 0x300, 0x370, 0x203F, 0x2041]⟩

def isNameStart (c : Char) : Bool := nameStarts.contains c

def isNameChar (c : Char) : Bool := nameStarts.contains c || nameTails.contains c

/-- Whether a text is a name. -/
def isName : List Char → Bool
  | [] => false
  | c :: cs => isNameStart c && cs.all isNameChar

/-! ### Items -/

/-- What contents are made of. -/
inductive Item where
  | char (c : Char)
  | element (name : String) (attributes : List (String × String)) (content : List Item)

namespace Item

/-- The name of an element. -/
def name : Item → String
  | char _ => ""
  | element name _ _ => name

/-- The value of an attribute of an element. -/
def attribute? (key : String) : Item → Option String
  | char _ => none
  | element _ attributes _ => (attributes.find? fun a => a.1 = key).map Prod.snd

def isElement : Item → Bool
  | char _ => false
  | element _ _ _ => true

/-- The elements in the content of an element, in order. -/
def elements : Item → List Item
  | char _ => []
  | element _ _ content => content.filter isElement

end Item

/-! ### References and values -/

/-- The names of characters that need no declaration. -/
def namedChars : List (String × Char) :=
  [("lt", '<'), ("gt", '>'), ("amp", '&'), ("apos", '\''), ("quot", '"')]

/-- The code that digits of a base denote, of which there has to be one. -/
def codeIn? (base : ℕ) (digits : List Char) : Option ℕ :=
  if digits ≠ [] ∧ digits.all (isDigitOf base) = true then some (valueInBase base digits) else none

/-- The character of a code, if documents can hold it. -/
def allowedOfCode? (code : ℕ) : Option Char :=
  if code.isValidChar ∧ isAllowed (Char.ofNat code) = true then some (Char.ofNat code) else none

/-- The character that a reference stands for, from what is between its marks. -/
def referenceChar? : List Char → Option Char
  | '#' :: 'x' :: digits => (codeIn? 16 digits).bind allowedOfCode?
  | '#' :: digits => (codeIn? 10 digits).bind allowedOfCode?
  | name => (namedChars.find? fun n => n.1.toList = name).map Prod.snd

/-- References, with the characters that they stand for. -/
inductive Reference : List Char → Char → Prop
  | intro {body : List Char} {c : Char} (hend : ';' ∉ body) (hchar : referenceChar? body = some c) :
      Reference ('&' :: (body ++ [';'])) c

/-- What stands between the quotes of an attribute, with the value that it is. -/
inductive Value (quote : Char) : List Char → List Char → Prop
  | nil : Value quote [] []
  | char {c : Char} {s value : List Char} (hquote : c ≠ quote) (hless : c ≠ '<') (hand : c ≠ '&')
      (h : Value quote s value) : Value quote (c :: s) ((if isSpace c then ' ' else c) :: value)
  | reference {r s value : List Char} {c : Char} (hr : Reference r c) (h : Value quote s value) :
      Value quote (r ++ s) (c :: value)

/-! ### Tags -/

/-- An attribute: a name, the equals sign, and a value in quotes of one kind. -/
inductive Attribute : List Char → String × String → Prop
  | intro {name : String} {before after text value : List Char} {quote : Char}
      (hname : isName name.toList = true) (hbefore : Spaces before) (hafter : Spaces after)
      (hquote : quote = '"' ∨ quote = '\'') (hvalue : Value quote text value) :
      Attribute (name.toList ++ (before ++ '=' :: (after ++ quote :: (text ++ [quote]))))
        (name, String.ofList value)

/-- Attributes with blanks before each. -/
inductive Attributes : List Char → List (String × String) → Prop
  | nil : Attributes [] []
  | cons {blanks s t : List Char} {a : String × String} {as : List (String × String)}
      (hne : blanks ≠ []) (hblanks : Spaces blanks) (ha : Attribute s a) (h : Attributes t as) :
      Attributes (blanks ++ (s ++ t)) (a :: as)

/-- The front of a tag: a name and attributes of different names. -/
inductive TagFront : List Char → String → List (String × String) → Prop
  | intro {name : String} {text blanks : List Char} {as : List (String × String)}
      (hname : isName name.toList = true) (has : Attributes text as)
      (hdistinct : (as.map Prod.fst).Nodup) (hblanks : Spaces blanks) :
      TagFront ('<' :: (name.toList ++ (text ++ blanks))) name as

/-! ### Contents -/

/-- A body that does not end before its mark: the mark behind it is the first. -/
def EndsFirst (mark body : List Char) : Prop :=
  ∀ i < body.length, ¬ mark <+: (body ++ mark).drop i

/-- Comments and processing instructions. -/
inductive Aside : List Char → Prop
  | comment {body : List Char} (h : EndsFirst "--".toList body) :
      Aside ("<!--".toList ++ (body ++ "-->".toList))
  | instruction {name body : List Char} (hname : isName name = true)
      (hreserved : name.map Char.toLower ≠ "xml".toList)
      (hbody : ∀ c ∈ body.head?, isSpace c = true) (h : EndsFirst "?>".toList body) :
      Aside ("<?".toList ++ (name ++ (body ++ "?>".toList)))

/-- What stands between the tags of an element, with the items that it is. -/
inductive Content : List Char → List Item → Prop
  | nil : Content [] []
  | char {c : Char} {s : List Char} {items : List Item} (hless : c ≠ '<') (hand : c ≠ '&')
      (hend : ¬ "]]>".toList <+: c :: s) (h : Content s items) :
      Content (c :: s) (.char c :: items)
  | reference {r s : List Char} {c : Char} {items : List Item} (hr : Reference r c)
      (h : Content s items) : Content (r ++ s) (.char c :: items)
  | verbatim {body s : List Char} {items : List Item} (hbody : EndsFirst "]]>".toList body)
      (h : Content s items) :
      Content ("<![CDATA[".toList ++ (body ++ ("]]>".toList ++ s))) (body.map Item.char ++ items)
  | aside {a s : List Char} {items : List Item} (ha : Aside a) (h : Content s items) :
      Content (a ++ s) items
  | empty {front s : List Char} {name : String} {as : List (String × String)} {items : List Item}
      (hfront : TagFront front name as) (h : Content s items) :
      Content (front ++ '/' :: '>' :: s) (.element name as [] :: items)
  | element {front inner blanks s : List Char} {name : String} {as : List (String × String)}
      {inside items : List Item} (hfront : TagFront front name as) (hinner : Content inner inside)
      (hblanks : Spaces blanks) (h : Content s items) :
      Content (front ++ '>' :: (inner ++ '<' :: '/' :: (name.toList ++ (blanks ++ '>' :: s))))
        (.element name as inside :: items)

/-- Elements, with the items that they are. -/
inductive Element : List Char → Item → Prop
  | empty {front : List Char} {name : String} {as : List (String × String)}
      (hfront : TagFront front name as) : Element (front ++ ['/', '>']) (.element name as [])
  | full {front inner blanks : List Char} {name : String} {as : List (String × String)}
      {inside : List Item} (hfront : TagFront front name as) (hinner : Content inner inside)
      (hblanks : Spaces blanks) :
      Element (front ++ '>' :: (inner ++ '<' :: '/' :: (name.toList ++ (blanks ++ ['>']))))
        (.element name as inside)

/-! ### Documents -/

/-- What can stand around the element of a document: blanks, comments and instructions. -/
inductive Surrounding : List Char → Prop
  | nil : Surrounding []
  | space {c : Char} {s : List Char} (hc : isSpace c = true) (h : Surrounding s) : Surrounding (c :: s)
  | aside {a s : List Char} (ha : Aside a) (h : Surrounding s) : Surrounding (a ++ s)

/-- Whether a text is the number of a version. -/
def isVersion (s : String) : Bool :=
  match s.toList with
  | '1' :: '.' :: digits => !digits.isEmpty && digits.all Char.isDigit
  | _ => false

/-- Whether a text is the name of an encoding. -/
def isEncoding (s : String) : Bool :=
  match s.toList with
  | c :: cs => c.isAlpha && cs.all fun c => c.isAlphanum || c == '.' || c == '_' || c == '-'
  | [] => false

def isAnswer (s : String) : Bool := s == "yes" || s == "no"

/-- Whether attributes are those of a declaration: a version, and then an encoding and whether the
document stands alone, if they are given. -/
def isDeclared : List (String × String) → Bool
  | [("version", v)] => isVersion v
  | [("version", v), ("encoding", e)] => isVersion v && isEncoding e
  | [("version", v), ("standalone", a)] => isVersion v && isAnswer a
  | [("version", v), ("encoding", e), ("standalone", a)] => isVersion v && isEncoding e && isAnswer a
  | _ => false

/-- The declaration in front of a document, in which references are not known yet. -/
inductive Declaration : List Char → Prop
  | intro {text blanks : List Char} {as : List (String × String)} (has : Attributes text as)
      (hand : '&' ∉ text) (hdeclared : isDeclared as = true) (hblanks : Spaces blanks) :
      Declaration ("<?xml".toList ++ (text ++ (blanks ++ "?>".toList)))

/-- A text is a document with a root element: its characters are allowed, and with line feeds as its line
ends it is a declaration, which may be lacking, and the text of the element with nothing but blanks,
comments and instructions around it. -/
structure Document (text : String) (root : Item) : Prop where
  allowed : ∀ c ∈ text.toList, isAllowed c = true
  parts : ∃ declaration front body back,
    plainLineEnds text.toList = declaration ++ (front ++ (body ++ back)) ∧
      (declaration = [] ∨ Declaration declaration) ∧ Surrounding front ∧ Element body root ∧
      Surrounding back

end Markup

end DesignRegistry
