/-
**Documents are written in the grammar.**

The grammar of JSON tells which texts are documents, whoever reads them.  Beside it stand the words that
are read and written for numbers that are not finite; only a document with such a number holds one of
them.  A layout puts blanks between the signs of the grammar, and whatever a string holds, its literal is
one string of the grammar: so a document in a layout is one document of the grammar, with all its text.

Main definitions:

* `Json.IsNumber`, `Json.IsString` — numbers and strings of the grammar;
* `Json.IsList`, `Json.IsMember` — what stands between brackets or braces;
* `Json.IsValue`, `Json.IsDocument` — values, some words among them, and a value with blanks around it;
* `Json.boundlessWords` — the words for numbers that are not finite;
* `Json.Bounded` — a document whose numbers are finite.

Main results:

* `Json.isString_stringLiteral`, `Json.isNumber_intDigits`, `Json.isNumber_finiteText` — scalars;
* `Json.isValue_renderAt` — values in a layout;
* `Json.isDocument_render` — **the text of a document is one document of the grammar**.
-/
import DesignRegistry.Proofs.Json.Distinct

set_option relaxedAutoImplicit false
set_option autoImplicit false

namespace DesignRegistry

namespace Json

/-! ### The grammar -/

/-- White space, or nothing. -/
def IsBlank (s : List Char) : Prop := ∀ c ∈ s, isSpace c = true

/-- One digit or more. -/
def IsDigits (s : List Char) : Prop := s ≠ [] ∧ ∀ c ∈ s, c.isDigit = true

/-- A fraction, or nothing. -/
def IsFraction (s : List Char) : Prop := s = [] ∨ ∃ ds, IsDigits ds ∧ s = '.' :: ds

/-- An exponent, or nothing. -/
def IsExponent (s : List Char) : Prop :=
  s = [] ∨ ∃ mark ∈ ['e', 'E'], ∃ sign ∈ [[], ['+'], ['-']], ∃ ds, IsDigits ds ∧
    s = mark :: (sign ++ ds)

/-- A number: behind a minus sign or nothing stand digits, of which the first is a zero only if it is the
only one, a fraction and an exponent. -/
inductive IsNumber : List Char → Prop
  | intro {sign whole fraction exponent : List Char} (hsign : sign = [] ∨ sign = ['-'])
      (hwhole : IsDigits whole) (hlead : whole = ['0'] ∨ whole.head? ≠ some '0')
      (hfraction : IsFraction fraction) (hexponent : IsExponent exponent) :
      IsNumber (sign ++ (whole ++ (fraction ++ exponent)))

/-- What stands for a character in a string: itself, a short escape, or four hexadecimal digits. -/
inductive IsCharacter : List Char → Prop
  | plain {c : Char} (hcode : 32 ≤ c.toNat) (hquote : c ≠ '"') (hslash : c ≠ '\\') : IsCharacter [c]
  | short {e : Char} (h : e ∈ ['"', '\\', '/', 'b', 'f', 'n', 'r', 't']) : IsCharacter ['\\', e]
  | code {a b c d : Char} (h : ∀ e ∈ [a, b, c, d], (hexValue? e).isSome) :
      IsCharacter ['\\', 'u', a, b, c, d]

/-- What stands between the quotes of a string. -/
inductive IsBody : List Char → Prop
  | nil : IsBody []
  | more {part rest : List Char} (hpart : IsCharacter part) (hrest : IsBody rest) :
      IsBody (part ++ rest)

/-- A string. -/
inductive IsString : List Char → Prop
  | quoted {body : List Char} (h : IsBody body) : IsString ('"' :: (body ++ ['"']))

/-- What stands in turn with a comma between each two, blanks around each of them. -/
inductive IsList (P : List Char → Prop) : List Char → Prop
  | last {front s back : List Char} (hfront : IsBlank front) (hs : P s) (hback : IsBlank back) :
      IsList P (front ++ (s ++ back))
  | more {front s back rest : List Char} (hfront : IsBlank front) (hs : P s) (hback : IsBlank back)
      (hrest : IsList P rest) : IsList P (front ++ (s ++ (back ++ ',' :: rest)))

/-- A string with a colon behind it and what the key stands for. -/
inductive IsMember (P : List Char → Prop) : List Char → Prop
  | intro {key between before s : List Char} (hkey : IsString key) (hbetween : IsBlank between)
      (hbefore : IsBlank before) (hs : P s) : IsMember P (key ++ (between ++ ':' :: (before ++ s)))

/-- A value; some words are values too. -/
inductive IsValue (words : List String) : List Char → Prop
  | null : IsValue words "null".toList
  | true : IsValue words "true".toList
  | false : IsValue words "false".toList
  | word {w : String} (h : w ∈ words) : IsValue words w.toList
  | number {s : List Char} (h : IsNumber s) : IsValue words s
  | string {s : List Char} (h : IsString s) : IsValue words s
  | emptyArray {s : List Char} (h : IsBlank s) : IsValue words ('[' :: (s ++ [']']))
  | array {s : List Char} (h : IsList (IsValue words) s) : IsValue words ('[' :: (s ++ [']']))
  | emptyObject {s : List Char} (h : IsBlank s) : IsValue words ('{' :: (s ++ ['}']))
  | object {s : List Char} (h : IsList (IsMember (IsValue words)) s) :
      IsValue words ('{' :: (s ++ ['}']))

/-- A value and nothing else but blanks. -/
inductive IsDocument (words : List String) : List Char → Prop
  | intro {front s back : List Char} (hfront : IsBlank front) (hs : IsValue words s)
      (hback : IsBlank back) : IsDocument words (front ++ (s ++ back))

/-- The words for numbers that are not finite. -/
def boundlessWords : List String := ["NaN", "Infinity", "-Infinity"]

/-! ### Strings -/

theorem isBlank_nil : IsBlank [] := fun _ h => absurd h List.not_mem_nil

theorem IsBlank.append {s t : List Char} (hs : IsBlank s) (ht : IsBlank t) : IsBlank (s ++ t) :=
  List.forall_mem_append.2 ⟨hs, ht⟩

theorem IsCharacter.isBody {s : List Char} (h : IsCharacter s) : IsBody s := by
  have hbody := IsBody.more h .nil
  rwa [List.append_nil] at hbody

theorem IsBody.append {s t : List Char} (hs : IsBody s) (ht : IsBody t) : IsBody (s ++ t) := by
  induction hs with
  | nil => exact ht
  | more hpart _ ih =>
      rw [List.append_assoc]
      exact .more hpart ih

theorem isCharacter_unitEscape (unit : ℕ) : IsCharacter (unitEscape unit) := by
  have hdigit : ∀ d < 16, (hexValue? (hexDigit d)).isSome = true := by decide
  refine .code (a := hexDigit (unit / 16 / 16 / 16 % 16)) fun e he => ?_
  simp only [List.mem_cons, List.not_mem_nil, or_false] at he
  rcases he with rfl | rfl | rfl | rfl <;> exact hdigit _ (Nat.mod_lt _ (by decide))

theorem mem_of_shortEscape? {c e : Char} (h : shortEscape? c = some e) :
    e ∈ ['"', '\\', '/', 'b', 'f', 'n', 'r', 't'] := by
  have hall : ∀ p ∈ shortEscapes, p.2 ∈ ['"', '\\', '/', 'b', 'f', 'n', 'r', 't'] := by decide
  exact hall _ (mem_shortEscapes h)

/-- A character in a string literal is one of the grammar, or two. -/
theorem isBody_escapeChar (asciiOnly : Bool) (c : Char) : IsBody (escapeChar asciiOnly c) := by
  rw [escapeChar]
  -- a character has a short escape, or is written by its units, or stands for itself
  cases hshort : shortEscape? c with
  | some e => exact (IsCharacter.short (mem_of_shortEscape? hshort)).isBody
  | none =>
      dsimp only
      split
      · rw [unitEscapes]
        split
        · exact (isCharacter_unitEscape _).isBody
        · exact (isCharacter_unitEscape _).isBody.append (isCharacter_unitEscape _).isBody
      · next hplain =>
          refine (IsCharacter.plain (Nat.not_lt.1 fun h => hplain (.inl h)) ?_ ?_).isBody
          · rintro rfl
            exact absurd hshort (by decide)
          · rintro rfl
            exact absurd hshort (by decide)

/-- A string literal is one string of the grammar. -/
theorem isString_stringLiteral (asciiOnly : Bool) (s : String) :
    IsString (stringLiteral asciiOnly s) := by
  refine .quoted ?_
  induction s.toList with
  | nil => exact .nil
  | cons c cs ih =>
      rw [List.flatMap_cons]
      exact (isBody_escapeChar asciiOnly c).append ih

/-! ### Numbers -/

/-- A literal that can be read, behind its sign, is a number of the grammar. -/
theorem isNumber_numeral {n : Numeral} (h : n.Proper) (negative : Bool) :
    IsNumber (signText negative ++ n.text) := by
  have hwhole : IsDigits n.whole ∧ (n.whole = ['0'] ∨ n.whole.head? ≠ some '0') := by
    rcases h.lead with hzero | ⟨c, ds, hlead, hc⟩
    · exact ⟨⟨by simp [hzero], h.whole⟩, .inl hzero⟩
    · exact ⟨⟨by simp [hlead], h.whole⟩, .inr (by simpa [hlead] using hc)⟩
  refine .intro (by cases negative <;> simp [signText]) hwhole.1 hwhole.2 ?_ ?_
  · rw [Numeral.fractionText]
    split
    · exact .inl rfl
    · next hsome => exact .inr ⟨n.fraction, ⟨by simpa using hsome, h.fraction⟩, rfl⟩
  · cases hexponent : n.exponent with
    | none => exact .inl rfl
    | some parts =>
        obtain ⟨negative, ds⟩ := parts
        refine .inr ⟨'e', List.mem_cons_self, [if negative then '-' else '+'], ?_, ds,
          h.exponent negative ds hexponent, rfl⟩
        cases negative <;> simp

theorem isNumber_intDigits (n : Int) : IsNumber (intDigits n) := by
  rw [intDigits_eq, ← text_natNumeral]
  exact isNumber_numeral (proper_natNumeral n.natAbs) _

/-- The digits that are found for a positive number are not zero. -/
theorem digits_pos_of_shortest? {mantissa n : ℕ} {exponent k : ℤ} (hpos : 0 < mantissa)
    (h : Binary64.shortest? mantissa exponent = some (n, k)) : 0 < n := by
  have hnear := Binary64.Neighbourhood.near_of_holds hpos (Binary64.Neighbourhood.holds_of_search h)
  rw [Nat.pos_iff_ne_zero]
  rintro rfl
  have hlow := hnear.low
  rw [Nat.cast_zero, zero_mul] at hlow
  have hhalf := Binary64.below_le_half mantissa exponent
  have hone : (1 : ℚ) ≤ mantissa := by exact_mod_cast hpos
  have hpow : (0 : ℚ) < 2 ^ exponent := zpow_pos two_pos _
  nlinarith

/-- The notation of a finite number is one of the grammar. -/
theorem isNumber_finiteText (negative : Bool) (mantissa : ℕ) (exponent : ℤ) :
    IsNumber (Binary64.finiteText negative mantissa exponent) := by
  have hzero : IsNumber (signText negative ++ ['0', '.', '0']) :=
    isNumber_numeral (notation_zero negative).proper negative
  cases mantissa with
  | zero => exact hzero
  | succ m =>
      cases hshortest : Binary64.shortest? (m + 1) exponent with
      | none =>
          rw [Binary64.finiteText.eq_def, hshortest]
          exact hzero
      | some found =>
          obtain ⟨n, k⟩ := found
          have hleading :=
            leading_dropTrailingZeros (digits_pos_of_shortest? (Nat.succ_pos m) hshortest)
          have htext : Binary64.finiteText negative (m + 1) exponent = signText negative ++
              Binary64.layout (Binary64.dropTrailingZeros (natDigits n)).1
                ((natDigits n).length + k) := by
            rw [Binary64.finiteText.eq_def, hshortest]
            rfl
          rw [htext, text_layoutNumeral (List.ne_nil_of_length_pos hleading.length_pos)]
          exact isNumber_numeral (proper_layoutNumeral hleading _) negative

/-! ### Values -/

mutual

/-- A document whose numbers are finite. -/
def Bounded : Json → Prop
  | .float x => ∃ negative mantissa exponent, x = .finite negative mantissa exponent
  | .arr xs => BoundedItems xs
  | .obj ms => BoundedMembers ms
  | _ => True

/-- Items with finite numbers. -/
def BoundedItems : List Json → Prop
  | [] => True
  | x :: xs => Bounded x ∧ BoundedItems xs

/-- Members with finite numbers. -/
def BoundedMembers : List (String × Json) → Prop
  | [] => True
  | (_, v) :: ms => Bounded v ∧ BoundedMembers ms

end

@[simp] theorem bounded_null : Bounded .null := trivial
@[simp] theorem bounded_bool (b : Bool) : Bounded (.bool b) := trivial
@[simp] theorem bounded_int (n : Int) : Bounded (.int n) := trivial
@[simp] theorem bounded_str (s : String) : Bounded (.str s) := trivial

@[simp] theorem bounded_arr {xs : List Json} : Bounded (.arr xs) ↔ ∀ x ∈ xs, x.Bounded := by
  rw [Bounded]
  induction xs with
  | nil => simp [BoundedItems]
  | cons x xs ih => simp [BoundedItems, ih]

@[simp] theorem bounded_obj {ms : Members} : Bounded (.obj ms) ↔ ∀ m ∈ ms, m.2.Bounded := by
  rw [Bounded]
  induction ms with
  | nil => simp [BoundedMembers]
  | cons m ms ih =>
      obtain ⟨k, v⟩ := m
      simp [BoundedMembers, ih]

variable {f : Layout} {words : List String}

theorem isBlank_lineBreak (f : Layout) (level : ℕ) : IsBlank (f.lineBreak level) :=
  isSpace_of_mem_lineBreak f level

/-- A number with a fraction, if it is finite or the words for those that are not are allowed. -/
theorem isValue_floatLiteral {x : Binary64} (h : (Json.float x).Bounded ∨ words = boundlessWords) :
    IsValue words (floatLiteral x) := by
  cases x with
  | finite negative mantissa exponent => exact .number (isNumber_finiteText negative mantissa exponent)
  | infinite negative =>
      rcases h with ⟨_, _, _, h⟩ | rfl
      · exact nomatch h
      · cases negative
        · exact .word (w := "Infinity") (by decide)
        · exact .word (w := "-Infinity") (by decide)
  | nan =>
      rcases h with ⟨_, _, _, h⟩ | rfl
      · exact nomatch h
      · exact .word (w := "NaN") (by decide)

/-- Parts behind a first one, each behind a separator and a line break. -/
theorem IsList.of_parts {α : Type} {P : List Char → Prop} {level : ℕ} {text : α → List Char}
    (hf : f.Plain) {xs : List α} (hxs : ∀ x ∈ xs, P (text x)) {front s back : List Char}
    (hfront : IsBlank front) (hs : P s) (hback : IsBlank back) :
    IsList P (front ++ (s ++ (f.parts level text xs ++ back))) := by
  induction xs generalizing front s with
  | nil => exact .last hfront hs hback
  | cons x xs ih =>
      obtain ⟨blanks, hseparator, hblanks⟩ := hf.separator
      obtain ⟨hx, hxs⟩ := List.forall_mem_cons.1 hxs
      have hrest := ih hxs (IsBlank.append hblanks (isBlank_lineBreak f level)) hx
      rw [Layout.parts_cons, hseparator, List.cons_append]
      rw [List.append_assoc] at hrest
      exact .more hfront hs isBlank_nil hrest

theorem isMember_memberText (hf : f.Plain) {level : ℕ} {m : String × Json}
    (h : IsValue words (renderAt f level m.2)) : IsMember (IsValue words) (memberText f level m) := by
  obtain ⟨blanks, hcolon, hblanks⟩ := hf.colon
  rw [memberText, hcolon]
  exact .intro (isString_stringLiteral _ _) isBlank_nil hblanks h

/-- What stands between the brackets of a container that is not empty. -/
theorem exists_filled {α : Type} {P : List Char → Prop} (hf : f.Plain) {level : ℕ}
    {text : α → List Char} {x : α} {xs : List α} (h : ∀ y ∈ x :: xs, P (text y)) (close : Char) :
    ∃ s, IsList P s ∧ f.filled level text x xs close [] = s ++ [close] := by
  obtain ⟨hx, hxs⟩ := List.forall_mem_cons.1 h
  refine ⟨f.lineBreak (level + 1) ++ (text x ++ (f.parts (level + 1) text xs ++ f.lineBreak level)),
    .of_parts hf hxs (isBlank_lineBreak f (level + 1)) hx (isBlank_lineBreak f level), ?_⟩
  rw [Layout.filled]
  simp only [List.append_assoc]

mutual

/-- A value in a layout is one of the grammar, if its numbers are finite or the words for those that are
not are allowed. -/
theorem isValue_renderAt (hf : f.Plain) (level : ℕ) :
    ∀ v : Json, v.Bounded ∨ words = boundlessWords → IsValue words (renderAt f level v)
  | .null, _ => .null
  | .bool true, _ => .true
  | .bool false, _ => .false
  | .int n, _ => .number (isNumber_intDigits n)
  | .float _, h => isValue_floatLiteral h
  | .str s, _ => .string (isString_stringLiteral f.asciiOnly s)
  | .arr [], _ => .emptyArray isBlank_nil
  | .arr (x :: xs), h => by
      obtain ⟨s, hs, htext⟩ := exists_filled hf (isValue_items hf (level + 1) (x :: xs) h) ']'
      rw [← List.append_nil (renderAt f level _), renderAt_arr_cons, htext]
      exact .array hs
  | .obj [], _ => .emptyObject isBlank_nil
  | .obj (m :: ms), h => by
      obtain ⟨s, hs, htext⟩ := exists_filled hf
        (fun n hn => isMember_memberText hf (isValue_members hf (level + 1) (m :: ms) h n hn)) '}'
      rw [← List.append_nil (renderAt f level _), renderAt_obj_cons, htext]
      exact .object hs

theorem isValue_items (hf : f.Plain) (level : ℕ) :
    ∀ xs : List Json, BoundedItems xs ∨ words = boundlessWords →
      ∀ x ∈ xs, IsValue words (renderAt f level x)
  | [], _ => fun _ hx => absurd hx List.not_mem_nil
  | x :: xs, h => List.forall_mem_cons.2 ⟨isValue_renderAt hf level x (h.imp_left And.left),
      isValue_items hf level xs (h.imp_left And.right)⟩

theorem isValue_members (hf : f.Plain) (level : ℕ) :
    ∀ ms : Members, BoundedMembers ms ∨ words = boundlessWords →
      ∀ m ∈ ms, IsValue words (renderAt f level m.2)
  | [], _ => fun _ hm => absurd hm List.not_mem_nil
  | (_, v) :: ms, h => List.forall_mem_cons.2 ⟨isValue_renderAt hf level v (h.imp_left And.left),
      isValue_members hf level ms (h.imp_left And.right)⟩

end

/-- The text of a document, with blanks behind it, is one document of the grammar. -/
theorem isDocument_render (hf : f.Plain) {v : Json} (h : v.Bounded ∨ words = boundlessWords)
    {blanks : String} (hblanks : IsBlank blanks.toList) :
    IsDocument words (render f v ++ blanks).toList := by
  rw [String.toList_append, render, String.toList_ofList]
  exact .intro isBlank_nil (isValue_renderAt hf 0 v h) hblanks

end Json

end DesignRegistry
