/-
**Words that are no JSON.**

Numbers that are not finite are written and read as words, and the grammar of JSON has no such words.  A
value of the grammar closes every string that it opens, so what stands outside its strings can be told from
left to right; two letters that every one of the words has, one or the other, never stand there.  So a
document is written as JSON proper exactly if all its numbers are finite.

Main definitions:

* `Json.outside` — what stands outside the strings of a text;
* `Json.WordFree` — a text that closes its strings, and whether a letter of the words stands outside.

Main results:

* `Json.wordFree_of_isDocument` — no letter of the words stands outside the strings of a document;
* `Json.isDocument_render_iff` — **the text of a document is JSON exactly if its numbers are finite**.
-/
import DesignRegistry.Proofs.Json.Grammar

set_option relaxedAutoImplicit false
set_option autoImplicit false

namespace DesignRegistry

namespace Json

/-! ### Outside of strings -/

/-- What stands outside the strings of a text; the flag tells whether the text begins in a string. -/
def outside : Bool → List Char → List Char
  | _, [] => []
  | false, c :: cs => if c = '"' then outside true cs else c :: outside false cs
  | true, '\\' :: _ :: cs => outside true cs
  | true, c :: cs => if c = '"' then outside false cs else outside true cs

theorem outside_quote (cs : List Char) : outside false ('"' :: cs) = outside true cs := if_pos rfl

theorem outside_of_ne {c : Char} (h : c ≠ '"') (cs : List Char) :
    outside false (c :: cs) = c :: outside false cs := if_neg h

theorem outside_escape (e : Char) (cs : List Char) :
    outside true ('\\' :: e :: cs) = outside true cs := rfl

theorem outside_inner {c : Char} (hquote : c ≠ '"') (hslash : c ≠ '\\') (cs : List Char) :
    outside true (c :: cs) = outside true cs := by
  rw [outside, if_neg hquote]
  exact fun _ _ h _ => hslash h

/-- The letters that tell the words for numbers that are not finite from all other values. -/
def wordLetters : List Char := ['N', 'I']

/-- A text that closes the strings it opens, and has no letter of the words outside of them exactly if
`p` holds. -/
structure WordFree (p : Prop) (s : List Char) : Prop where
  closed : ∀ rest, outside false (s ++ rest) = outside false s ++ outside false rest
  letters : (∀ c ∈ outside false s, c ∉ wordLetters) ↔ p

theorem WordFree.append {p q : Prop} {s t : List Char} (hs : WordFree p s) (ht : WordFree q t) :
    WordFree (p ∧ q) (s ++ t) := by
  refine ⟨fun rest => ?_, ?_⟩
  · rw [List.append_assoc, hs.closed, ht.closed, hs.closed t, List.append_assoc]
  · rw [hs.closed, List.forall_mem_append, hs.letters, ht.letters]

theorem WordFree.congr {p q : Prop} {s : List Char} (hs : WordFree p s) (h : p ↔ q) : WordFree q s :=
  ⟨hs.closed, hs.letters.trans h⟩

/-- Texts in which no letter of the words stands outside of strings. -/
theorem WordFree.append_true {s t : List Char} (hs : WordFree True s) (ht : WordFree True t) :
    WordFree True (s ++ t) := (hs.append ht).congr (and_self_iff)

/-- A text without quotes stands outside of strings as it is. -/
theorem outside_append_of_notMem {s : List Char} (h : '"' ∉ s) (rest : List Char) :
    outside false (s ++ rest) = s ++ outside false rest := by
  induction s with
  | nil => rfl
  | cons c cs ih =>
      obtain ⟨hc, hcs⟩ := not_or.1 (List.mem_cons.not.1 h)
      rw [List.cons_append, outside_of_ne (Ne.symm hc), ih hcs, List.cons_append]

theorem wordFree_of_notMem {s : List Char} (h : '"' ∉ s) :
    WordFree (∀ c ∈ s, c ∉ wordLetters) s := by
  have hself : outside false s = s := by
    simpa [outside] using outside_append_of_notMem h []
  exact ⟨fun rest => by rw [outside_append_of_notMem h, hself], by rw [hself]⟩

/-- A text of characters other than quotes and the letters of the words. -/
theorem wordFree_of_forall {s : List Char} (h : ∀ c ∈ s, c ≠ '"' ∧ c ∉ wordLetters) : WordFree True s :=
  (wordFree_of_notMem fun hmem => (h _ hmem).1 rfl).congr
    (iff_true_intro fun c hc => (h c hc).2)

/-! ### Strings -/

theorem outside_isCharacter {part : List Char} (h : IsCharacter part) (rest : List Char) :
    outside true (part ++ rest) = outside true rest := by
  cases h with
  | plain _ hquote hslash => exact outside_inner hquote hslash rest
  | short _ => exact outside_escape _ rest
  | code hdigits =>
      -- a hexadecimal digit is neither a quote nor a backslash
      have hinner : ∀ e : Char, (hexValue? e).isSome = true → e ≠ '"' ∧ e ≠ '\\' := by
        refine fun e he => ⟨?_, ?_⟩ <;> rintro rfl <;> exact absurd he (by decide)
      simp only [List.forall_mem_cons] at hdigits
      obtain ⟨ha, hb, hc, hd, -⟩ := hdigits
      simp only [List.cons_append, List.nil_append]
      rw [outside_escape, outside_inner (hinner _ ha).1 (hinner _ ha).2,
        outside_inner (hinner _ hb).1 (hinner _ hb).2, outside_inner (hinner _ hc).1 (hinner _ hc).2,
        outside_inner (hinner _ hd).1 (hinner _ hd).2]

/-- What stands between quotes is inside. -/
theorem outside_isBody {body : List Char} (h : IsBody body) (rest : List Char) :
    outside true (body ++ '"' :: rest) = outside false rest := by
  induction h with
  | nil => rfl
  | more hpart _ ih => rw [List.append_assoc, outside_isCharacter hpart, ih]

/-- A string has nothing outside. -/
theorem wordFree_of_isString {s : List Char} (h : IsString s) : WordFree True s := by
  have hnone : ∀ rest, outside false (s ++ rest) = outside false rest := by
    obtain ⟨hbody⟩ := h
    intro rest
    rw [List.cons_append, outside_quote, List.append_assoc]
    exact outside_isBody hbody rest
  have hself : outside false s = [] := by
    simpa [outside] using hnone []
  exact ⟨fun rest => by rw [hnone, hself, List.nil_append], by simp [hself]⟩

/-! ### Values of the grammar -/

/-- A text of characters of a kind to which quotes and the letters of the words do not belong. -/
theorem wordFree_of_kind (kind : Char → Bool) (hkind : ∀ c ∈ '"' :: wordLetters, kind c = false)
    {s : List Char} (h : ∀ c ∈ s, kind c = true) : WordFree True s := by
  have hnot : ∀ c ∈ s, c ∉ '"' :: wordLetters := fun c hc hletter =>
    Bool.false_ne_true ((hkind c hletter).symm.trans (h c hc))
  exact wordFree_of_forall fun c hc => not_or.1 (List.mem_cons.not.1 (hnot c hc))

theorem wordFree_of_isBlank {s : List Char} (h : IsBlank s) : WordFree True s :=
  wordFree_of_kind isSpace (by decide) h

theorem wordFree_of_isDigits {s : List Char} (h : IsDigits s) : WordFree True s :=
  wordFree_of_kind Char.isDigit (by decide) h.2

theorem wordFree_nil : WordFree True [] := wordFree_of_forall (by decide)

/-- A character other than a quote and the letters of the words. -/
theorem wordFree_char (c : Char) (h : c ∉ '"' :: wordLetters) : WordFree True [c] := by
  rw [List.mem_cons, not_or] at h
  exact wordFree_of_forall (List.forall_mem_singleton.2 h)

theorem wordFree_of_isNumber {s : List Char} (h : IsNumber s) : WordFree True s := by
  obtain ⟨hsign, hwhole, -, hfraction, hexponent⟩ := h
  refine .append_true ?_ (.append_true (wordFree_of_isDigits hwhole) (.append_true ?_ ?_))
  · rcases hsign with rfl | rfl
    · exact wordFree_nil
    · exact wordFree_char '-' (by decide)
  · rcases hfraction with rfl | ⟨ds, hds, rfl⟩
    · exact wordFree_nil
    · exact (wordFree_char '.' (by decide)).append_true (wordFree_of_isDigits hds)
  · rcases hexponent with rfl | ⟨mark, hmark, sign, hsign, ds, hds, rfl⟩
    · exact wordFree_nil
    · have hmarks : ∀ c ∈ ['e', 'E'], c ∉ '"' :: wordLetters := by decide
      have hsigns : ∀ t ∈ [[], ['+'], ['-']], ∀ c ∈ t, c ≠ '"' ∧ c ∉ wordLetters := by decide
      exact (wordFree_char mark (hmarks mark hmark)).append_true
        ((wordFree_of_forall (hsigns sign hsign)).append_true (wordFree_of_isDigits hds))

/-- The last part of what stands in turn, with blanks around it. -/
theorem WordFree.last {front s back : List Char} (hfront : IsBlank front) (hs : WordFree True s)
    (hback : IsBlank back) : WordFree True (front ++ (s ++ back)) :=
  (wordFree_of_isBlank hfront).append_true (hs.append_true (wordFree_of_isBlank hback))

/-- A part with a comma behind it, and the others. -/
theorem WordFree.more {front s back rest : List Char} (hfront : IsBlank front) (hs : WordFree True s)
    (hback : IsBlank back) (hrest : WordFree True rest) :
    WordFree True (front ++ (s ++ (back ++ ',' :: rest))) :=
  (wordFree_of_isBlank hfront).append_true (hs.append_true ((wordFree_of_isBlank hback).append_true
    ((wordFree_char ',' (by decide)).append_true hrest)))

/-- A text in brackets. -/
theorem WordFree.inBrackets {s : List Char} (hs : WordFree True s) :
    WordFree True ('[' :: (s ++ [']'])) :=
  (wordFree_char '[' (by decide)).append_true (hs.append_true (wordFree_char ']' (by decide)))

/-- A text in braces. -/
theorem WordFree.inBraces {s : List Char} (hs : WordFree True s) :
    WordFree True ('{' :: (s ++ ['}'])) :=
  (wordFree_char '{' (by decide)).append_true (hs.append_true (wordFree_char '}' (by decide)))

/-- No letter of the words stands outside the strings of a value. -/
theorem wordFree_of_isValue {s : List Char} (h : IsValue [] s) : WordFree True s := by
  -- what holds of values holds of members and of what stands in turn
  refine @IsValue.rec [] (fun s _ => WordFree True s) (fun s _ => WordFree True s)
    (fun s _ => WordFree True s) (fun s _ => WordFree True s) ?null ?true ?false ?word ?number ?string
    ?emptyArray ?array ?emptyObject ?object ?lastItem ?moreItems ?lastMember ?moreMembers ?member s h
  case null | true | false => exact wordFree_of_forall (by decide)
  case word => exact fun h => absurd h List.not_mem_nil
  case number => exact fun h => wordFree_of_isNumber h
  case string => exact fun h => wordFree_of_isString h
  case emptyArray => exact fun h => .inBrackets (wordFree_of_isBlank h)
  case array => exact fun _ ih => .inBrackets ih
  case emptyObject => exact fun h => .inBraces (wordFree_of_isBlank h)
  case object => exact fun _ ih => .inBraces ih
  case lastItem | lastMember =>
      exact fun hfront _ hback ih => .last hfront ih hback
  case moreItems | moreMembers =>
      exact fun hfront _ hback _ ih ihrest => .more hfront ih hback ihrest
  case member =>
      exact fun hkey hbetween hbefore _ ih => (wordFree_of_isString hkey).append_true
        ((wordFree_of_isBlank hbetween).append_true
          ((wordFree_char ':' (by decide)).append_true
            ((wordFree_of_isBlank hbefore).append_true ih)))

/-- No letter of the words stands outside the strings of a document. -/
theorem wordFree_of_isDocument {s : List Char} (h : IsDocument [] s) : WordFree True s := by
  obtain ⟨hfront, hs, hback⟩ := h
  exact .last hfront (wordFree_of_isValue hs) hback

/-! ### Documents in a layout -/

theorem WordFree.behind {p : Prop} {s t : List Char} (hs : WordFree True s) (ht : WordFree p t) :
    WordFree p (s ++ t) := (hs.append ht).congr (iff_of_eq (true_and p))

theorem WordFree.before {p : Prop} {s t : List Char} (hs : WordFree p s) (ht : WordFree True t) :
    WordFree p (s ++ t) := (hs.append ht).congr (iff_of_eq (and_true p))

/-- A number with a fraction has a letter of the words unless it is finite. -/
theorem wordFree_floatLiteral (x : Binary64) : WordFree (Json.float x).Bounded (floatLiteral x) := by
  cases x with
  | finite negative mantissa exponent =>
      exact (wordFree_of_isNumber (isNumber_finiteText negative mantissa exponent)).congr
        (iff_of_true trivial ⟨negative, mantissa, exponent, rfl⟩)
  | infinite negative =>
      have hnot : ¬ (Json.float (.infinite negative)).Bounded := fun ⟨_, _, _, h⟩ => nomatch h
      cases negative
      · exact (wordFree_of_notMem (s := "Infinity".toList) (by decide)).congr
          (iff_of_false (by decide) hnot)
      · exact (wordFree_of_notMem (s := "-Infinity".toList) (by decide)).congr
          (iff_of_false (by decide) hnot)
  | nan =>
      have hnot : ¬ (Json.float .nan).Bounded := fun ⟨_, _, _, h⟩ => nomatch h
      exact (wordFree_of_notMem (s := "NaN".toList) (by decide)).congr (iff_of_false (by decide) hnot)

variable {f : Layout}

theorem wordFree_separator (hf : f.Plain) (level : ℕ) :
    WordFree True (f.separator ++ f.lineBreak level) := by
  obtain ⟨blanks, hseparator, hblanks⟩ := hf.separator
  rw [hseparator]
  exact ((wordFree_char ',' (by decide)).append_true (wordFree_of_isBlank hblanks)).append_true
    (wordFree_of_isBlank (isBlank_lineBreak f level))

/-- A member's key, and the colon behind it. -/
theorem wordFree_key (hf : f.Plain) (key : String) :
    WordFree True (stringLiteral f.asciiOnly key ++ f.colon) := by
  obtain ⟨blanks, hcolon, hblanks⟩ := hf.colon
  rw [hcolon]
  exact (wordFree_of_isString (isString_stringLiteral _ _)).append_true
    ((wordFree_char ':' (by decide)).append_true (wordFree_of_isBlank hblanks))

/-- A container in a layout, of its first part and the others. -/
theorem WordFree.filled {p q : Prop} {s t : List Char} {opening closing : Char}
    (hopening : WordFree True [opening]) (hs : WordFree p s) (ht : WordFree q t)
    (hclosing : WordFree True [closing]) (level : ℕ) :
    WordFree (p ∧ q)
      (opening :: f.lineBreak (level + 1) ++ s ++ t ++ f.lineBreak level ++ [closing]) := by
  have hblank := fun n => wordFree_of_isBlank (isBlank_lineBreak f n)
  have hfront := hopening.append_true (hblank (level + 1))
  exact (((hfront.behind hs).append ht).before (hblank level)).before hclosing

mutual

/-- A document in a layout has a letter of the words outside its strings unless its numbers are finite. -/
theorem wordFree_renderAt (hf : f.Plain) (level : ℕ) :
    ∀ v : Json, WordFree v.Bounded (renderAt f level v)
  | .null => wordFree_of_isValue .null
  | .bool true => wordFree_of_isValue .true
  | .bool false => wordFree_of_isValue .false
  | .int n => wordFree_of_isNumber (isNumber_intDigits n)
  | .float x => wordFree_floatLiteral x
  | .str s => wordFree_of_isString (isString_stringLiteral f.asciiOnly s)
  | .arr [] => wordFree_nil.inBrackets
  | .arr (x :: xs) => by
      rw [renderAt]
      exact (wordFree_char '[' (by decide)).filled (wordFree_renderAt hf (level + 1) x)
        (wordFree_renderItems hf (level + 1) xs) (wordFree_char ']' (by decide)) level
  | .obj [] => wordFree_nil.inBraces
  | .obj ((k, v) :: ms) => by
      have hmember := (wordFree_key hf k).behind (wordFree_renderAt hf (level + 1) v)
      rw [renderAt, List.append_assoc ('{' :: _) _ f.colon, List.append_assoc ('{' :: _)]
      exact (wordFree_char '{' (by decide)).filled hmember (wordFree_renderMembers hf (level + 1) ms)
        (wordFree_char '}' (by decide)) level

theorem wordFree_renderItems (hf : f.Plain) (level : ℕ) :
    ∀ xs : List Json, WordFree (BoundedItems xs) (renderItems f level xs)
  | [] => wordFree_nil
  | x :: xs => by
      rw [renderItems]
      exact .append ((wordFree_separator hf level).behind (wordFree_renderAt hf level x))
        (wordFree_renderItems hf level xs)

theorem wordFree_renderMembers (hf : f.Plain) (level : ℕ) :
    ∀ ms : Members, WordFree (BoundedMembers ms) (renderMembers f level ms)
  | [] => wordFree_nil
  | (k, v) :: ms => by
      have hkey := (wordFree_separator hf level).append_true (wordFree_key hf k)
      rw [← List.append_assoc] at hkey
      rw [renderMembers]
      exact .append (hkey.behind (wordFree_renderAt hf level v)) (wordFree_renderMembers hf level ms)

end

/-- **The text of a document is JSON exactly if its numbers are finite.** -/
theorem isDocument_render_iff (hf : f.Plain) {v : Json} {blanks : String}
    (hblanks : IsBlank blanks.toList) :
    IsDocument [] (render f v ++ blanks).toList ↔ v.Bounded := by
  refine ⟨fun h => ?_, fun h => isDocument_render hf (.inl h) hblanks⟩
  have htext := wordFree_of_isDocument h
  rw [String.toList_append, render, String.toList_ofList] at htext
  have hwords := (wordFree_renderAt hf 0 v).before (wordFree_of_isBlank hblanks)
  exact hwords.letters.1 (htext.letters.2 trivial)

end Json

end DesignRegistry
