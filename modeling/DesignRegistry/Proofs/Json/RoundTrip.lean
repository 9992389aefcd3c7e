/-
**Documents are read as they were written.**

A layout puts blanks only where the reader skips them, escapes in a string what would end it, and lets
nothing follow a number that could belong to it.  So the text of a legible document denotes the
document.  The reader's fuel is the length of the text: every value is read with more fuel than its
text has characters.

Main definitions:

* `Json.Layout.Plain` — a layout with a comma between items, a colon after keys, and blanks;
* `Json.ReadsBack` — what the three readers give on written values, with one fuel.

Main results:

* `Json.stringAt_stringLiteral` — strings are read as they were written;
* `Json.scalarAt_of_numberAt` — no number is taken for a word;
* `Json.readsBack` — values are read as they were written;
* `Json.parse_pretty` — **the text of a legible document denotes it**;
* `Json.forall_mem_renderAt` — which characters a text has;
* `Json.return_notMem_pretty`, `Json.visible_of_mem_compact` — its line ends are line feeds, and on one
  line there are none.
-/
import DesignRegistry.Proofs.Json.Legible
import DesignRegistry.Proofs.Json.Number

set_option relaxedAutoImplicit false
set_option autoImplicit false

namespace DesignRegistry

namespace Json

/-! ### Strings -/

theorem hexValue?_hexDigit : ∀ d < 16, hexValue? (hexDigit d) = some d := by decide

/-- Four hexadecimal digits are read as they were written. -/
theorem unit?_hexDigits {n : ℕ} (h : n < 0x10000) (rest : List Char) :
    unit? (hexDigits 4 n ++ rest) = some (n, rest) := by
  have hdigits : hexDigits 4 n ++ rest =
      hexDigit (n / 16 / 16 / 16 % 16) :: hexDigit (n / 16 / 16 % 16) :: hexDigit (n / 16 % 16) ::
        hexDigit (n % 16) :: rest := rfl
  have hvalue : ((n / 16 / 16 / 16 % 16 * 16 + n / 16 / 16 % 16) * 16 + n / 16 % 16) * 16 + n % 16 =
      n := by omega
  rw [hdigits, unit?]
  simp only [hexValue?_hexDigit _ (Nat.mod_lt _ (by decide : 0 < 16)), Option.bind_eq_bind,
    Option.bind_some, hvalue]
  rfl

/-- The characters with a short escape, and the ones that stand for them behind a backslash. -/
def shortEscapes : List (Char × Char) :=
  [('"', '"'), ('\\', '\\'), ('\n', 'n'), ('\r', 'r'), ('\t', 't'), ('\x0c', 'f'), ('\x08', 'b')]

theorem mem_shortEscapes {c e : Char} (h : shortEscape? c = some e) : (c, e) ∈ shortEscapes := by
  rw [shortEscape?] at h
  grind [shortEscapes]

theorem escaped?_of_shortEscape? {c e : Char} (h : shortEscape? c = some e) :
    e ≠ 'u' ∧ escaped? e = some c := by
  have hall : ∀ p ∈ shortEscapes, p.2 ≠ 'u' ∧ escaped? p.2 = some p.1 := by decide
  exact hall _ (mem_shortEscapes h)

/-- A character of the basic plane is the one that its code denotes: it is no half of a pair. -/
theorem unitChar_basic {c : Char} (h : c.toNat < 0x10000) (rest : List Char) :
    unitChar c.toNat rest = (c, rest) := by
  have hvalid : c.toNat < 0xD800 ∨ 0xDFFF < c.toNat ∧ c.toNat < 0x110000 := c.valid
  have hhigh : isHighUnit c.toNat = false := by
    rw [isHighUnit, Bool.and_eq_false_iff, decide_eq_false_iff_not, decide_eq_false_iff_not]
    omega
  have hlow : isLowUnit c.toNat = false := by
    rw [isLowUnit, Bool.and_eq_false_iff, decide_eq_false_iff_not, decide_eq_false_iff_not]
    omega
  rw [unitChar.eq_def, hhigh, if_neg (by decide), charOfUnit, hhigh, hlow, if_neg (by decide),
    Char.ofNat_toNat]

/-- A character beyond the basic plane is the one that its pair of units denotes. -/
theorem unitChar_pair {c : Char} (h : 0x10000 ≤ c.toNat) (rest : List Char) :
    unitChar (0xD800 + (c.toNat - 0x10000) / 0x400)
      (unitEscape (0xDC00 + (c.toNat - 0x10000) % 0x400) ++ rest) = (c, rest) := by
  have hvalid : c.toNat < 0xD800 ∨ 0xDFFF < c.toNat ∧ c.toNat < 0x110000 := c.valid
  have hhigh : isHighUnit (0xD800 + (c.toNat - 0x10000) / 0x400) = true := by
    rw [isHighUnit, Bool.and_eq_true, decide_eq_true_iff, decide_eq_true_iff]
    omega
  have hlow : isLowUnit (0xDC00 + (c.toNat - 0x10000) % 0x400) = true := by
    rw [isLowUnit, Bool.and_eq_true, decide_eq_true_iff, decide_eq_true_iff]
    omega
  have hpair : charOfPair (0xD800 + (c.toNat - 0x10000) / 0x400)
      (0xDC00 + (c.toNat - 0x10000) % 0x400) = c := by
    have hcode : 0x10000 + (0xD800 + (c.toNat - 0x10000) / 0x400 - 0xD800) * 0x400 +
        (0xDC00 + (c.toNat - 0x10000) % 0x400 - 0xDC00) = c.toNat := by omega
    rw [charOfPair, hcode, Char.ofNat_toNat]
  rw [unitEscape, unitChar.eq_def, if_pos hhigh]
  simp only [List.cons_append, unit?_hexDigits (show 0xDC00 + (c.toNat - 0x10000) % 0x400 < 0x10000
    by omega), hlow, if_true, hpair]

/-- An escape is read as the character that its units denote. -/
theorem stringBody_unitEscape (start : List Char) (fuel : ℕ) {unit : ℕ} (hunit : unit < 0x10000)
    {after rest : List Char} (hafter : after ≠ []) {c : Char} (h : unitChar unit after = (c, rest)) :
    stringBody start (fuel + 1) (unitEscape unit ++ after) =
      (stringBody start fuel rest).map fun (cs, left) => (c :: cs, left) := by
  have hmore : after.isEmpty = false := by simpa using hafter
  rw [unitEscape, List.cons_append, List.cons_append, stringBody.eq_def]
  simp only [if_neg (show ¬ '\\' = '"' by decide), if_true, unit?_hexDigits hunit, hmore,
    Bool.false_eq_true, if_false, h]

/-- A character that is escaped is read as it was written. -/
theorem stringBody_unitEscapes (start : List Char) (fuel : ℕ) (c : Char) {rest : List Char}
    (hrest : rest ≠ []) :
    stringBody start (fuel + 1) (unitEscapes c ++ rest) =
      (stringBody start fuel rest).map fun (cs, left) => (c :: cs, left) := by
  have hvalid : c.toNat < 0xD800 ∨ 0xDFFF < c.toNat ∧ c.toNat < 0x110000 := c.valid
  rw [unitEscapes]
  dsimp only
  split
  · next hbasic => exact stringBody_unitEscape start fuel hbasic hrest (unitChar_basic hbasic rest)
  · next hbasic =>
      rw [List.append_assoc]
      exact stringBody_unitEscape start fuel (by omega) (by simp [unitEscape])
        (unitChar_pair (Nat.not_lt.1 hbasic) rest)

variable {asciiOnly : Bool}

/-- A character of a string is read as it was written. -/
theorem stringBody_escapeChar (start : List Char) (fuel : ℕ) (c : Char) {rest : List Char}
    (hrest : rest ≠ []) :
    stringBody start (fuel + 1) (escapeChar asciiOnly c ++ rest) =
      (stringBody start fuel rest).map fun (cs, left) => (c :: cs, left) := by
  rw [escapeChar]
  -- a character has a short escape, or is written by its units, or stands for itself
  cases hshort : shortEscape? c with
  | some e =>
      obtain ⟨hu, hescaped⟩ := escaped?_of_shortEscape? hshort
      simp only [List.cons_append, List.nil_append]
      rw [stringBody.eq_def]
      simp only [if_neg (show ¬ '\\' = '"' by decide), if_true, hescaped]
  | none =>
      dsimp only
      split
      · exact stringBody_unitEscapes start fuel c hrest
      · next hplain =>
          have hcode : ¬ c.toNat < 32 := fun h => hplain (.inl h)
          have hquote : c ≠ '"' := by
            rintro rfl
            exact absurd hshort (by decide)
          have hslash : c ≠ '\\' := by
            rintro rfl
            exact absurd hshort (by decide)
          rw [List.singleton_append, stringBody.eq_def]
          simp only [if_neg hquote, if_neg hslash, if_neg hcode]

theorem stringBody_flatMap (start : List Char) {cs : List Char} {fuel : ℕ} (h : cs.length < fuel)
    (rest : List Char) :
    stringBody start fuel (cs.flatMap (escapeChar asciiOnly) ++ '"' :: rest) = .ok (cs, rest) := by
  induction cs generalizing fuel with
  | nil =>
      obtain ⟨fuel, rfl⟩ := Nat.exists_eq_succ_of_ne_zero (Nat.ne_of_gt h)
      rw [List.flatMap_nil, List.nil_append, stringBody.eq_def]
      rfl
  | cons c cs ih =>
      obtain ⟨fuel, rfl⟩ := Nat.exists_eq_succ_of_ne_zero (Nat.ne_of_gt (Nat.zero_lt_of_lt h))
      rw [List.flatMap_cons, List.append_assoc, stringBody_escapeChar start fuel c (by simp),
        ih (Nat.lt_of_succ_lt_succ h)]
      rfl

theorem one_le_length_escapeChar (c : Char) : 1 ≤ (escapeChar asciiOnly c).length := by
  rw [escapeChar]
  split
  · exact Nat.le_add_left 1 1
  · split
    · rw [unitEscapes]
      split
      · exact Nat.le_add_left 1 _
      · exact Nat.le_add_left 1 _
    · exact Nat.le_refl 1

/-- A string is read as it was written. -/
theorem stringAt_stringLiteral (s : String) (rest : List Char) :
    stringAt (stringLiteral asciiOnly s ++ rest) = .ok (s, rest) := by
  have hlength : s.toList.length ≤ (s.toList.flatMap (escapeChar asciiOnly)).length := by
    have hsum := List.length_le_sum_of_one_le (s.toList.map fun c => (escapeChar asciiOnly c).length)
      fun n hn => by
        obtain ⟨c, -, rfl⟩ := List.mem_map.1 hn
        exact one_le_length_escapeChar c
    rwa [List.length_map, ← List.length_flatMap] at hsum
  have hbody : (stringLiteral asciiOnly s ++ rest).drop 1 =
      s.toList.flatMap (escapeChar asciiOnly) ++ '"' :: rest := by
    rw [stringLiteral, List.cons_append, List.cons_append, List.drop_one, List.tail_cons,
      List.append_assoc]
    rfl
  rw [stringAt, hbody, stringBody_flatMap]
  · simp only [Except.map, String.ofList_toList]
  · rw [stringLiteral]
    simp only [List.length_append, List.length_cons]
    omega

/-! ### Scalars -/

/-- A number starts with a digit, or with a sign and a digit. -/
theorem head_of_numberAt {s : List Char} {r : Json × List Char} (h : numberAt s = .ok r) :
    ∃ c cs, c.isDigit = true ∧ (s = c :: cs ∨ s = '-' :: c :: cs) := by
  have hwhole : ∀ body, integerPart? body ≠ none →
      ∃ c cs, c.isDigit = true ∧ body = c :: cs := by
    intro body hbody
    rw [integerPart?.eq_def] at hbody
    split at hbody
    · exact ⟨'0', _, by decide, rfl⟩
    · next c cs _ =>
        split at hbody
        · next hc => exact ⟨c, cs, hc, rfl⟩
        · exact absurd rfl hbody
    · exact absurd rfl hbody
  rw [numberAt.eq_def] at h
  split at h
  next negative body hsign =>
    split at h
    · exact absurd h (by simp)
    · next digits rest hdigits =>
        obtain ⟨c, cs, hc, rfl⟩ := hwhole body (by simp [hdigits])
        refine ⟨c, cs, hc, ?_⟩
        split at hsign
        · obtain ⟨-, rfl⟩ := Prod.mk.inj hsign
          exact .inr rfl
        · obtain ⟨-, rfl⟩ := Prod.mk.inj hsign
          exact .inl rfl

/-- No number is taken for a word. -/
theorem scalarAt_of_numberAt {s : List Char} {r : Json × List Char} (h : numberAt s = .ok r) :
    scalarAt s = .ok r := by
  obtain ⟨c, cs, hc, hs⟩ := head_of_numberAt h
  have hne : ∀ d : Char, d.isDigit = false → d ≠ c := fun d hd => (ne_of_isDigit hc hd).symm
  have hwords : (words.findSome? fun m =>
      (afterLiteral? m.1.toList s).map fun rest => (m.2, rest)) = none := by
    rcases hs with rfl | rfl
    · simp [words, afterLiteral?, hne 'n' (by decide), hne 't' (by decide), hne 'f' (by decide),
        hne 'N' (by decide), hne 'I' (by decide), hne '-' (by decide)]
    · simp [words, afterLiteral?, hne 'I' (by decide)]
  rw [scalarAt]
  split
  · next hword => exact absurd (hwords.symm.trans hword) (by simp)
  · exact h

theorem scalarAt_null (rest : List Char) : scalarAt ("null".toList ++ rest) = .ok (.null, rest) := by
  simp [scalarAt, words, afterLiteral?]

theorem scalarAt_bool (b : Bool) (rest : List Char) :
    scalarAt ((if b then "true".toList else "false".toList) ++ rest) = .ok (.bool b, rest) := by
  cases b <;> simp [scalarAt, words, afterLiteral?]

/-- A number that is no integer is read as it was written. -/
theorem scalarAt_floatLiteral {x : Binary64} (h : x.Member) {rest : List Char}
    (hrest : EndsNumber rest) : scalarAt (floatLiteral x ++ rest) = .ok (.float x, rest) := by
  cases x with
  | finite negative mantissa exponent =>
      exact scalarAt_of_numberAt (numberAt_finiteText h hrest)
  | infinite negative => cases negative <;> simp [scalarAt, floatLiteral, words, afterLiteral?]
  | nan => simp [scalarAt, floatLiteral, words, afterLiteral?]

/-- A character that a value starts with. -/
def startsValue (c : Char) : Bool :=
  c.isDigit || ['-', 'n', 't', 'f', 'N', 'I', '"', '[', '{'].contains c

theorem ne_of_startsValue {c d : Char} (hc : startsValue c = true) (hd : startsValue d = false) :
    c ≠ d := by
  rintro rfl
  rw [hc] at hd
  exact absurd hd (by simp)

theorem not_isSpace_of_startsValue {c : Char} (h : startsValue c = true) : isSpace c = false := by
  simp [isSpace, ne_of_startsValue h (show startsValue ' ' = false by decide),
    ne_of_startsValue h (show startsValue '\t' = false by decide),
    ne_of_startsValue h (show startsValue '\n' = false by decide),
    ne_of_startsValue h (show startsValue '\r' = false by decide)]

/-- A value whose text is a scalar's. -/
theorem valueAt_of_scalarAt {c : Char} {cs : List Char} (fuel : ℕ) (hquote : c ≠ '"')
    (hbracket : c ≠ '[') (hbrace : c ≠ '{') :
    valueAt (fuel + 1) (c :: cs) = scalarAt (c :: cs) := by
  rw [valueAt.eq_def]
  dsimp only
  split
  · next heq => exact absurd (List.cons.inj heq).1 hquote
  · next heq => exact absurd (List.cons.inj heq).1 hbracket
  · next heq => exact absurd (List.cons.inj heq).1 hbrace
  · rfl

theorem valueAt_of_numberAt (fuel : ℕ) {s : List Char} {r : Json × List Char}
    (h : numberAt s = .ok r) : valueAt (fuel + 1) s = .ok r := by
  obtain ⟨c, cs, hc, rfl | rfl⟩ := head_of_numberAt h
  · rw [valueAt_of_scalarAt fuel (ne_of_isDigit hc (by decide)) (ne_of_isDigit hc (by decide))
      (ne_of_isDigit hc (by decide))]
    exact scalarAt_of_numberAt h
  · rw [valueAt_of_scalarAt fuel (by decide) (by decide) (by decide)]
    exact scalarAt_of_numberAt h

/-! ### Blanks -/

theorem skipSpace_append {blanks : List Char} (h : ∀ c ∈ blanks, isSpace c = true)
    (s : List Char) : skipSpace (blanks ++ s) = skipSpace s :=
  List.dropWhile_append_of_pos h

theorem skipSpace_cons {c : Char} (h : isSpace c = false) (s : List Char) :
    skipSpace (c :: s) = c :: s :=
  List.dropWhile_cons_of_neg (by simp [h])

theorem isSpace_of_mem_lineBreak (f : Layout) (level : ℕ) :
    ∀ c ∈ f.lineBreak level, isSpace c = true := by
  intro c hc
  rw [Layout.lineBreak] at hc
  split at hc
  · exact absurd hc List.not_mem_nil
  · rcases List.mem_cons.1 hc with rfl | hc
    · rfl
    · rw [List.eq_of_mem_replicate hc]
      rfl

/-- Blanks, commas and closing brackets end a number. -/
theorem endsNumber_append {blanks : List Char} (h : ∀ c ∈ blanks, isSpace c = true)
    {s : List Char} (hs : EndsNumber s) : EndsNumber (blanks ++ s) := by
  cases blanks with
  | nil => exact hs
  | cons c blanks =>
      refine endsNumber_cons ?_ _
      have hc := h c List.mem_cons_self
      simp only [isSpace, Bool.or_eq_true, beq_iff_eq] at hc
      rcases hc with ((rfl | rfl) | rfl) | rfl <;> decide

namespace Layout

/-- A layout with a comma between items, a colon after keys, and blanks. -/
structure Plain (f : Layout) : Prop where
  separator : ∃ blanks, f.separator = ',' :: blanks ∧ ∀ c ∈ blanks, isSpace c = true
  colon : ∃ blanks, f.colon = ':' :: blanks ∧ ∀ c ∈ blanks, isSpace c = true

theorem plain_pretty : Plain pretty :=
  ⟨⟨[], rfl, by simp⟩, ⟨[' '], rfl, List.all_eq_true.1 (by decide)⟩⟩

end Layout

variable {f : Layout}

/-- The text of a legible document starts as a value does. -/
theorem renderAt_eq_cons (f : Layout) (level : ℕ) {v : Json} (h : v.Legible) :
    ∃ c cs, renderAt f level v = c :: cs ∧ startsValue c = true := by
  have hnumber : ∀ {s : List Char} {r : Json × List Char}, numberAt (s ++ []) = .ok r →
      ∃ c cs, s = c :: cs ∧ startsValue c = true := by
    intro s r hr
    rw [List.append_nil] at hr
    obtain ⟨c, cs, hc, rfl | rfl⟩ := head_of_numberAt hr
    · exact ⟨c, cs, rfl, by rw [startsValue, hc, Bool.true_or]⟩
    · exact ⟨'-', c :: cs, rfl, by decide⟩
  cases v with
  | null => exact ⟨'n', _, rfl, by decide⟩
  | bool b =>
      cases b
      · exact ⟨'f', _, rfl, by decide⟩
      · exact ⟨'t', _, rfl, by decide⟩
  | int n =>
      rw [renderAt]
      exact hnumber (numberAt_intDigits h endsNumber_nil)
  | float x =>
      rw [renderAt]
      cases x with
      | finite negative mantissa exponent => exact hnumber (numberAt_finiteText h endsNumber_nil)
      | infinite negative =>
          cases negative
          · exact ⟨'I', _, rfl, by decide⟩
          · exact ⟨'-', _, rfl, by decide⟩
      | nan => exact ⟨'N', _, rfl, by decide⟩
  | str s => exact ⟨'"', _, by rw [renderAt, stringLiteral]; rfl, by decide⟩
  | arr xs =>
      cases xs with
      | nil => exact ⟨'[', _, rfl, by decide⟩
      | cons x xs => exact ⟨'[', _, by rw [renderAt]; rfl, by decide⟩
  | obj ms =>
      cases ms with
      | nil => exact ⟨'{', _, rfl, by decide⟩
      | cons m ms =>
          obtain ⟨k, v⟩ := m
          exact ⟨'{', _, by rw [renderAt]; rfl, by decide⟩

theorem skipSpace_renderAt (level : ℕ) {v : Json} (h : v.Legible) (s : List Char) :
    skipSpace (renderAt f level v ++ s) = renderAt f level v ++ s := by
  obtain ⟨c, cs, htext, hc⟩ := renderAt_eq_cons f level h
  rw [htext, List.cons_append, skipSpace_cons (not_isSpace_of_startsValue hc)]

/-! ### Values -/

theorem valueAt_of_float (fuel : ℕ) {x : Binary64} (h : x.Member) {rest : List Char}
    (hrest : EndsNumber rest) :
    valueAt (fuel + 1) (floatLiteral x ++ rest) = .ok (.float x, rest) := by
  have hscalar := scalarAt_floatLiteral h hrest
  cases x with
  | finite negative mantissa exponent => exact valueAt_of_numberAt fuel (numberAt_finiteText h hrest)
  | infinite negative =>
      cases negative
      · exact (valueAt_of_scalarAt fuel (by decide) (by decide) (by decide)).trans hscalar
      · exact (valueAt_of_scalarAt fuel (by decide) (by decide) (by decide)).trans hscalar
  | nan => exact (valueAt_of_scalarAt fuel (by decide) (by decide) (by decide)).trans hscalar

/-- The text of a member: its key, a colon and its value. -/
def memberText (f : Layout) (level : ℕ) (m : String × Json) : List Char :=
  stringLiteral f.asciiOnly m.1 ++ (f.colon ++ renderAt f level m.2)

/-- What the three readers give on written values, with one fuel: a value, the items of an array up to
its closing bracket, and the members of an object up to its closing brace. -/
structure ReadsBack (f : Layout) (fuel : ℕ) : Prop where
  value : ∀ v level rest, v.Legible → EndsNumber rest → (renderAt f level v).length < fuel →
    valueAt fuel (renderAt f level v ++ rest) = .ok (v, rest)
  items : ∀ x xs level blanks rest, x.Legible → LegibleItems xs →
    (∀ c ∈ blanks, isSpace c = true) →
    (renderAt f level x ++ renderItems f level xs).length + 1 < fuel →
    itemsAt fuel (renderAt f level x ++ (renderItems f level xs ++ (blanks ++ ']' :: rest))) =
      .ok (x :: xs, rest)
  members : ∀ m ms level blanks rest, m.2.Legible → LegibleMembers ms →
    (∀ c ∈ blanks, isSpace c = true) →
    (memberText f level m ++ renderMembers f level ms).length + 1 < fuel →
    membersAt fuel (memberText f level m ++ (renderMembers f level ms ++ (blanks ++ '}' :: rest))) =
      .ok (m :: ms, rest)

theorem renderItems_cons (f : Layout) (level : ℕ) (x : Json) (xs : List Json) :
    renderItems f level (x :: xs) =
      f.separator ++ (f.lineBreak level ++ (renderAt f level x ++ renderItems f level xs)) := by
  rw [renderItems, List.append_assoc, List.append_assoc]

theorem renderMembers_cons (f : Layout) (level : ℕ) (m : String × Json) (ms : Members) :
    renderMembers f level (m :: ms) =
      f.separator ++ (f.lineBreak level ++ (memberText f level m ++ renderMembers f level ms)) := by
  obtain ⟨k, v⟩ := m
  rw [renderMembers, memberText]
  simp only [List.append_assoc]

/-- What follows an item or a member does not go on with a number. -/
theorem Layout.Plain.endsNumber (hf : f.Plain) (s : List Char) :
    EndsNumber (f.separator ++ s) := by
  obtain ⟨blanks, heq, -⟩ := hf.separator
  rw [heq]
  exact endsNumber_cons (by decide) _

theorem Layout.Plain.endsNumber_items (hf : f.Plain) (level : ℕ) (xs : List Json) {s : List Char}
    (hs : EndsNumber s) : EndsNumber (renderItems f level xs ++ s) := by
  cases xs with
  | nil => exact hs
  | cons x xs =>
      rw [renderItems_cons, List.append_assoc]
      exact hf.endsNumber _

theorem Layout.Plain.endsNumber_members (hf : f.Plain) (level : ℕ) (ms : Members) {s : List Char}
    (hs : EndsNumber s) : EndsNumber (renderMembers f level ms ++ s) := by
  cases ms with
  | nil => exact hs
  | cons m ms =>
      rw [renderMembers_cons, List.append_assoc]
      exact hf.endsNumber _

theorem Layout.Plain.length_separator (hf : f.Plain) : 1 ≤ f.separator.length := by
  obtain ⟨blanks, heq, -⟩ := hf.separator
  rw [heq]
  exact Nat.le_add_left 1 _

theorem skipSpace_memberText (level : ℕ) (m : String × Json) (s : List Char) :
    skipSpace (memberText f level m ++ s) = memberText f level m ++ s :=
  skipSpace_cons (by decide) _

theorem ReadsBack.items_succ (hf : f.Plain) {fuel : ℕ} (h : ReadsBack f fuel) {x : Json}
    {xs : List Json} {level : ℕ} {blanks rest : List Char} (hx : x.Legible) (hxs : LegibleItems xs)
    (hblanks : ∀ c ∈ blanks, isSpace c = true)
    (hfuel : (renderAt f level x ++ renderItems f level xs).length + 1 < fuel + 1) :
    itemsAt (fuel + 1)
        (renderAt f level x ++ (renderItems f level xs ++ (blanks ++ ']' :: rest))) =
      .ok (x :: xs, rest) := by
  have hclose : EndsNumber (blanks ++ ']' :: rest) :=
    endsNumber_append hblanks (endsNumber_cons (by decide) _)
  rw [List.length_append] at hfuel
  rw [itemsAt, h.value x level _ hx (hf.endsNumber_items level xs hclose) (by omega)]
  -- behind the item stands the closing bracket, or a separator and the next item
  cases xs with
  | nil =>
      rw [renderItems, List.nil_append]
      simp only [bind, Except.bind, skipSpace_append hblanks,
        skipSpace_cons (show isSpace ']' = false by decide)]
  | cons y ys =>
      obtain ⟨between, hseparator, hbetween⟩ := hf.separator
      have hlength := hf.length_separator
      simp only [renderItems_cons, List.length_append] at hfuel
      have hrest := h.items y ys level blanks rest hxs.1 hxs.2 hblanks
        (by rw [List.length_append]; omega)
      simp only [bind, Except.bind, renderItems_cons, hseparator, List.cons_append,
        List.append_assoc, skipSpace_cons (show isSpace ',' = false by decide),
        skipSpace_append hbetween, skipSpace_append (isSpace_of_mem_lineBreak f level),
        skipSpace_renderAt level hxs.1, hrest, Except.map]

theorem ReadsBack.members_succ (hf : f.Plain) {fuel : ℕ} (h : ReadsBack f fuel) {m : String × Json}
    {ms : Members} {level : ℕ} {blanks rest : List Char} (hm : m.2.Legible)
    (hms : LegibleMembers ms) (hblanks : ∀ c ∈ blanks, isSpace c = true)
    (hfuel : (memberText f level m ++ renderMembers f level ms).length + 1 < fuel + 1) :
    membersAt (fuel + 1)
        (memberText f level m ++ (renderMembers f level ms ++ (blanks ++ '}' :: rest))) =
      .ok (m :: ms, rest) := by
  have hclose : EndsNumber (blanks ++ '}' :: rest) :=
    endsNumber_append hblanks (endsNumber_cons (by decide) _)
  obtain ⟨k, v⟩ := m
  obtain ⟨behind, hcolon, hbehind⟩ := hf.colon
  simp only [memberText, List.length_append] at hfuel
  -- key, colon and value are read in turn, each with all that follows as its rest
  have hkey : ∀ more, stringAt (stringLiteral f.asciiOnly k ++ more) = .ok (k, more) :=
    stringAt_stringLiteral k
  specialize hkey (f.colon ++ (renderAt f level v ++ (renderMembers f level ms ++ (blanks ++ '}' :: rest))))
  have hvalue := h.value v level _ hm (hf.endsNumber_members level ms hclose) (by omega)
  rw [stringLiteral, List.cons_append, List.cons_append] at hkey
  rw [memberText, stringLiteral, List.cons_append, List.cons_append, List.cons_append, membersAt]
  simp only [List.append_assoc] at hkey ⊢
  rw [hkey]
  simp only [bind, Except.bind, hcolon, List.cons_append,
    skipSpace_cons (show isSpace ':' = false by decide), skipSpace_append hbehind,
    skipSpace_renderAt level hm, hvalue]
  cases ms with
  | nil =>
      rw [renderMembers, List.nil_append]
      simp only [skipSpace_append hblanks, skipSpace_cons (show isSpace '}' = false by decide)]
  | cons n ns =>
      obtain ⟨l, w⟩ := n
      obtain ⟨between, hseparator, hbetween⟩ := hf.separator
      have hlength := hf.length_separator
      simp only [renderMembers_cons, List.length_append] at hfuel
      have hrest := h.members (l, w) ns level blanks rest hms.1 hms.2 hblanks
        (by rw [List.length_append]; omega)
      simp only [renderMembers_cons, hseparator, List.cons_append, List.append_assoc,
        skipSpace_cons (show isSpace ',' = false by decide), skipSpace_append hbetween,
        skipSpace_append (isSpace_of_mem_lineBreak f level), skipSpace_memberText, hrest,
        Except.map]

/-- An array with items is read with one more fuel than its items. -/
theorem ReadsBack.array_succ {fuel : ℕ} (h : ReadsBack f fuel) {x : Json} {xs : List Json}
    {level : ℕ} {rest : List Char} (hx : x.Legible) (hxs : LegibleItems xs)
    (hfuel : (renderAt f level (.arr (x :: xs))).length < fuel + 1) :
    valueAt (fuel + 1) (renderAt f level (.arr (x :: xs)) ++ rest) = .ok (.arr (x :: xs), rest) := by
  rw [renderAt] at hfuel ⊢
  simp only [List.length_append, List.length_cons] at hfuel
  have hitems := h.items x xs (level + 1) (f.lineBreak level) rest hx hxs
    (isSpace_of_mem_lineBreak f level) (by rw [List.length_append]; omega)
  -- an item starts as a value does, so the reader does not take the array for an empty one
  obtain ⟨c, cs, htext, hc⟩ := renderAt_eq_cons f (level + 1) hx
  have hopen : c ≠ ']' := ne_of_startsValue hc (by decide)
  simp only [List.cons_append, List.append_assoc, List.nil_append]
  rw [valueAt, skipSpace_append (isSpace_of_mem_lineBreak f (level + 1)),
    skipSpace_renderAt (level + 1) hx]
  rw [htext, List.cons_append] at hitems ⊢
  split
  · next heq => exact absurd (List.cons.inj heq).1 hopen
  · rw [hitems]
    rfl

/-- An object with members is read with one more fuel than its members; its keys are distinct, so the
members that are collected are those that were read. -/
theorem ReadsBack.object_succ {fuel : ℕ} (h : ReadsBack f fuel) {m : String × Json} {ms : Members}
    {level : ℕ} {rest : List Char} (hkeys : (Members.keys (m :: ms)).Nodup) (hm : m.2.Legible)
    (hms : LegibleMembers ms)
    (hfuel : (renderAt f level (.obj (m :: ms))).length < fuel + 1) :
    valueAt (fuel + 1) (renderAt f level (.obj (m :: ms)) ++ rest) = .ok (.obj (m :: ms), rest) := by
  have hdistinct := Members.ofPairs_of_nodup hkeys
  obtain ⟨k, v⟩ := m
  rw [renderAt] at hfuel ⊢
  simp only [List.length_append, List.length_cons] at hfuel
  have hmembers := h.members (k, v) ms (level + 1) (f.lineBreak level) rest hm hms
    (isSpace_of_mem_lineBreak f level) (by simp only [memberText, List.length_append]; omega)
  have htext : memberText f (level + 1) (k, v) = '"' ::
      (k.toList.flatMap (escapeChar f.asciiOnly) ++ ['"'] ++
        (f.colon ++ renderAt f (level + 1) v)) := rfl
  simp only [List.cons_append, List.append_assoc, List.nil_append]
  rw [valueAt, skipSpace_append (isSpace_of_mem_lineBreak f (level + 1))]
  rw [htext] at hmembers
  simp only [stringLiteral, List.cons_append, List.append_assoc, List.nil_append] at hmembers ⊢
  rw [skipSpace_cons (by decide)]
  split
  · next heq => exact absurd (List.cons.inj heq).1 (by decide)
  · rw [hmembers]
    simp only [Except.map, hdistinct]

theorem ReadsBack.value_succ {fuel : ℕ} (h : ReadsBack f fuel) {v : Json}
    {level : ℕ} {rest : List Char} (hv : v.Legible) (hrest : EndsNumber rest)
    (hfuel : (renderAt f level v).length < fuel + 1) :
    valueAt (fuel + 1) (renderAt f level v ++ rest) = .ok (v, rest) := by
  cases v with
  | null =>
      rw [renderAt]
      exact (valueAt_of_scalarAt fuel (by decide) (by decide) (by decide)).trans (scalarAt_null rest)
  | bool b =>
      have hscalar := scalarAt_bool b rest
      rw [renderAt]
      cases b
      · exact (valueAt_of_scalarAt fuel (by decide) (by decide) (by decide)).trans hscalar
      · exact (valueAt_of_scalarAt fuel (by decide) (by decide) (by decide)).trans hscalar
  | int n =>
      rw [renderAt]
      exact valueAt_of_numberAt fuel (numberAt_intDigits hv hrest)
  | float x =>
      rw [renderAt]
      exact valueAt_of_float fuel hv hrest
  | str s =>
      have hread : stringAt (stringLiteral f.asciiOnly s ++ rest) = .ok (s, rest) :=
        stringAt_stringLiteral s rest
      rw [renderAt]
      rw [stringLiteral, List.cons_append, List.cons_append] at hread ⊢
      rw [valueAt, hread]
      rfl
  | arr xs =>
      cases xs with
      | nil =>
          rw [renderAt, valueAt.eq_def]
          rfl
      | cons x xs => exact h.array_succ hv.1 hv.2 hfuel
  | obj ms =>
      cases ms with
      | nil =>
          rw [renderAt, valueAt.eq_def]
          rfl
      | cons m ms => exact h.object_succ hv.1 hv.2.1 hv.2.2 hfuel

/-- Values are read as they were written. -/
theorem readsBack (hf : f.Plain) (fuel : ℕ) : ReadsBack f fuel := by
  induction fuel with
  | zero =>
      exact ⟨fun _ _ _ _ _ h => absurd h (Nat.not_lt_zero _),
        fun _ _ _ _ _ _ _ _ h => absurd h (Nat.not_lt_zero _),
        fun _ _ _ _ _ _ _ _ h => absurd h (Nat.not_lt_zero _)⟩
  | succ fuel ih =>
      exact ⟨fun _ _ _ hv hrest hfuel => ih.value_succ hv hrest hfuel,
        fun _ _ _ _ _ hx hxs hblanks hfuel => ih.items_succ hf hx hxs hblanks hfuel,
        fun _ _ _ _ _ hm hms hblanks hfuel => ih.members_succ hf hm hms hblanks hfuel⟩

/-! ### Documents -/

/-- A text that denotes a document, with blanks behind it. -/
theorem parse_renderAt (hf : f.Plain) {v : Json} (hv : v.Legible) {blanks : List Char}
    (hblanks : ∀ c ∈ blanks, isSpace c = true) :
    parse (String.ofList (renderAt f 0 v ++ blanks)) = .ok v := by
  have hread := (readsBack hf ((renderAt f 0 v ++ blanks).length + 1)).value v 0 blanks hv
    (by simpa using endsNumber_append hblanks endsNumber_nil)
    (by rw [List.length_append]; omega)
  have hend : skipSpace blanks = [] := by
    have hskip := skipSpace_append hblanks []
    rwa [List.append_nil] at hskip
  -- a mark of byte order would be refused, but no value starts with one
  have hstart : (renderAt f 0 v ++ blanks).head? ≠ some '\uFEFF' := by
    obtain ⟨c, cs, htext, hc⟩ := renderAt_eq_cons f 0 hv
    rw [htext]
    exact fun h => ne_of_startsValue hc (by decide) (Option.some.inj h)
  have hdocument : documentAt (renderAt f 0 v ++ blanks) = .ok v := by
    rw [documentAt, if_neg hstart, skipSpace_renderAt 0 hv, hread]
    simp only [bind, Except.bind, hend]
  rw [parse, String.toList_ofList, hdocument]

/-- The text of a legible document denotes it. -/
theorem parse_pretty {v : Json} (hv : v.Legible) : parse v.pretty = .ok v :=
  parse_renderAt Layout.plain_pretty hv (List.all_eq_true.1 (by decide))

/-! ### Characters of a text -/

/-- A character that is no control character. -/
def Visible (c : Char) : Prop := 32 ≤ c.toNat

instance (c : Char) : Decidable (Visible c) := inferInstanceAs (Decidable (_ ≤ _))

/-- A short text is checked character by character. -/
theorem visible_of_all {cs : List Char} (h : (cs.all fun c => decide (Visible c)) = true) :
    ∀ c ∈ cs, Visible c := fun c hc => of_decide_eq_true (List.all_eq_true.1 h c hc)

theorem visible_of_isDigit {c : Char} (h : c.isDigit = true) : Visible c := by
  rw [Char.isDigit, Bool.and_eq_true, decide_eq_true_eq] at h
  exact Nat.le_trans (by decide) (show 48 ≤ c.toNat from h.1)

theorem visible_hexDigit (n : ℕ) : Visible (hexDigit (n % 16)) := by
  have hall : ∀ d < 16, Visible (hexDigit d) := by decide
  exact hall _ (Nat.mod_lt _ (by decide))

theorem visible_of_mem_hexDigits {width n : ℕ} : ∀ c ∈ hexDigits width n, Visible c := by
  induction width generalizing n with
  | zero => exact fun c hc => absurd hc List.not_mem_nil
  | succ width ih =>
      rw [hexDigits]
      exact List.forall_mem_append.2 ⟨ih, List.forall_mem_singleton.2 (visible_hexDigit n)⟩

theorem visible_of_mem_unitEscape {unit : ℕ} : ∀ c ∈ unitEscape unit, Visible c :=
  List.forall_mem_cons.2 ⟨by decide, List.forall_mem_cons.2 ⟨by decide, visible_of_mem_hexDigits⟩⟩

theorem visible_of_shortEscape? {c e : Char} (h : shortEscape? c = some e) : Visible e := by
  have hall : ∀ p ∈ shortEscapes, Visible p.2 := by decide
  exact hall _ (mem_shortEscapes h)

theorem visible_of_mem_stringLiteral {asciiOnly : Bool} {s : String} :
    ∀ c ∈ stringLiteral asciiOnly s, Visible c := by
  have hescaped : ∀ c : Char, ∀ d ∈ escapeChar asciiOnly c, Visible d := by
    intro c
    rw [escapeChar]
    split
    · next e hshort =>
        exact List.forall_mem_cons.2 ⟨by decide,
          List.forall_mem_singleton.2 (visible_of_shortEscape? hshort)⟩
    · split
      · rw [unitEscapes]
        split
        · exact visible_of_mem_unitEscape
        · exact List.forall_mem_append.2 ⟨visible_of_mem_unitEscape, visible_of_mem_unitEscape⟩
      · next hplain =>
          rw [not_or] at hplain
          exact List.forall_mem_singleton.2 (Nat.not_lt.1 hplain.1)
  refine List.forall_mem_cons.2 ⟨by decide, List.forall_mem_append.2
    ⟨fun d hd => ?_, visible_of_all (by decide)⟩⟩
  obtain ⟨c, -, hmem⟩ := List.mem_flatMap.1 hd
  exact hescaped c d hmem

theorem visible_of_mem_numeral {n : Numeral} (h : n.Proper) : ∀ c ∈ n.text, Visible c := by
  refine List.forall_mem_append.2 ⟨fun c hc => visible_of_isDigit (h.whole c hc),
    List.forall_mem_append.2 ⟨?_, ?_⟩⟩
  · rw [Numeral.fractionText]
    split
    · exact fun c hc => absurd hc List.not_mem_nil
    · exact List.forall_mem_cons.2 ⟨by decide, fun c hc => visible_of_isDigit (h.fraction c hc)⟩
  · cases hexponent : n.exponent with
    | none => exact fun c hc => absurd hc List.not_mem_nil
    | some parts =>
        obtain ⟨negative, ds⟩ := parts
        refine List.forall_mem_cons.2 ⟨by decide, List.forall_mem_cons.2 ⟨?_, fun c hc => ?_⟩⟩
        · cases negative <;> decide
        · exact visible_of_isDigit ((h.exponent negative ds hexponent).2 c hc)

theorem visible_of_mem_signText {negative : Bool} : ∀ c ∈ signText negative, Visible c := by
  cases negative <;> exact visible_of_all (by decide)

theorem visible_of_mem_floatLiteral {x : Binary64} (h : x.Member) :
    ∀ c ∈ floatLiteral x, Visible c := by
  cases x with
  | finite negative mantissa exponent =>
      obtain ⟨n, hn⟩ := exists_notation h
      rw [show floatLiteral (.finite negative mantissa exponent) =
        Binary64.finiteText negative mantissa exponent from rfl, hn.text]
      exact List.forall_mem_append.2 ⟨visible_of_mem_signText, visible_of_mem_numeral hn.proper⟩
  | infinite negative => cases negative <;> exact visible_of_all (by decide)
  | nan => exact visible_of_all (by decide)

theorem visible_of_mem_intDigits {n : Int} : ∀ c ∈ intDigits n, Visible c := by
  rw [intDigits_eq]
  exact List.forall_mem_append.2
    ⟨visible_of_mem_signText, fun c hc => visible_of_isDigit (isDigit_of_mem_natDigits hc)⟩

mutual

/-- What holds of the characters that are no control characters, and of those that the layout puts
between, holds of all characters of a text. -/
theorem forall_mem_renderAt {P : Char → Prop} (hvisible : ∀ c, Visible c → P c)
    (hseparator : ∀ c ∈ f.separator, P c) (hcolon : ∀ c ∈ f.colon, P c)
    (hbreak : ∀ level, ∀ c ∈ f.lineBreak level, P c) (level : ℕ) :
    ∀ v : Json, v.Legible → ∀ c ∈ renderAt f level v, P c
  | .null, _ => by
      rw [renderAt]
      exact fun c hc => hvisible c (visible_of_all (by decide) c hc)
  | .bool b, _ => by
      rw [renderAt]
      cases b <;> exact fun c hc => hvisible c (visible_of_all (by decide) c hc)
  | .int n, _ => by
      rw [renderAt]
      exact fun c hc => hvisible c (visible_of_mem_intDigits c hc)
  | .float x, h => by
      rw [renderAt]
      exact fun c hc => hvisible c (visible_of_mem_floatLiteral h c hc)
  | .str s, _ => by
      rw [renderAt]
      exact fun c hc => hvisible c (visible_of_mem_stringLiteral c hc)
  | .arr [], _ => by
      rw [renderAt]
      exact fun c hc => hvisible c (visible_of_all (by decide) c hc)
  | .arr (x :: xs), h => by
      have hx := forall_mem_renderAt hvisible hseparator hcolon hbreak (level + 1) x h.1
      have hxs := forall_mem_renderItems hvisible hseparator hcolon hbreak (level + 1) xs h.2
      rw [renderAt]
      simp only [List.forall_mem_append, List.forall_mem_cons]
      exact ⟨⟨⟨⟨⟨hvisible _ (by decide), hbreak _⟩, hx⟩, hxs⟩, hbreak _⟩, hvisible _ (by decide),
        fun c hc => absurd hc List.not_mem_nil⟩
  | .obj [], _ => by
      rw [renderAt]
      exact fun c hc => hvisible c (visible_of_all (by decide) c hc)
  | .obj ((k, v) :: ms), h => by
      have hv := forall_mem_renderAt hvisible hseparator hcolon hbreak (level + 1) v h.2.1
      have hms := forall_mem_renderMembers hvisible hseparator hcolon hbreak (level + 1) ms h.2.2
      rw [renderAt]
      simp only [List.forall_mem_append, List.forall_mem_cons]
      exact ⟨⟨⟨⟨⟨⟨⟨hvisible _ (by decide), hbreak _⟩,
        fun c hc => hvisible c (visible_of_mem_stringLiteral c hc)⟩, hcolon⟩, hv⟩, hms⟩, hbreak _⟩,
        hvisible _ (by decide), fun c hc => absurd hc List.not_mem_nil⟩

theorem forall_mem_renderItems {P : Char → Prop} (hvisible : ∀ c, Visible c → P c)
    (hseparator : ∀ c ∈ f.separator, P c) (hcolon : ∀ c ∈ f.colon, P c)
    (hbreak : ∀ level, ∀ c ∈ f.lineBreak level, P c) (level : ℕ) :
    ∀ xs : List Json, LegibleItems xs → ∀ c ∈ renderItems f level xs, P c
  | [], _ => fun c hc => absurd hc List.not_mem_nil
  | x :: xs, h => by
      have hx := forall_mem_renderAt hvisible hseparator hcolon hbreak level x h.1
      have hxs := forall_mem_renderItems hvisible hseparator hcolon hbreak level xs h.2
      rw [renderItems_cons]
      simp only [List.forall_mem_append]
      exact ⟨hseparator, hbreak _, hx, hxs⟩

theorem forall_mem_renderMembers {P : Char → Prop} (hvisible : ∀ c, Visible c → P c)
    (hseparator : ∀ c ∈ f.separator, P c) (hcolon : ∀ c ∈ f.colon, P c)
    (hbreak : ∀ level, ∀ c ∈ f.lineBreak level, P c) (level : ℕ) :
    ∀ ms : List (String × Json), LegibleMembers ms → ∀ c ∈ renderMembers f level ms, P c
  | [], _ => fun c hc => absurd hc List.not_mem_nil
  | (k, v) :: ms, h => by
      have hv := forall_mem_renderAt hvisible hseparator hcolon hbreak level v h.1
      have hms := forall_mem_renderMembers hvisible hseparator hcolon hbreak level ms h.2
      rw [renderMembers_cons, memberText]
      simp only [List.forall_mem_append]
      exact ⟨hseparator, hbreak _,
        ⟨fun c hc => hvisible c (visible_of_mem_stringLiteral c hc), hcolon, hv⟩, hms⟩

end

/-- The line ends of a file's text are line feeds. -/
theorem return_notMem_pretty {v : Json} (hv : v.Legible) : '\r' ∉ v.pretty.toList := by
  have hvisible : ∀ c, Visible c → c ≠ '\r' := by
    rintro c hc rfl
    exact absurd hc (by decide)
  have hbreak : ∀ level, ∀ c ∈ Layout.pretty.lineBreak level, c ≠ '\r' := by
    intro level c hc
    rcases List.mem_cons.1 hc with rfl | hc
    · decide
    · rw [List.eq_of_mem_replicate hc]
      decide
  rw [pretty, String.toList_ofList]
  intro h
  rcases List.mem_append.1 h with h | h
  · refine forall_mem_renderAt hvisible ?_ ?_ hbreak 0 v hv _ h rfl
    · exact fun c hc => hvisible c (visible_of_all (by decide) c hc)
    · exact fun c hc => hvisible c (visible_of_all (by decide) c hc)
  · exact absurd h (by decide)

theorem plain_compact : Layout.Plain .compact :=
  ⟨⟨[], rfl, by simp⟩, ⟨[], rfl, by simp⟩⟩

/-- A text on one line has no control characters. -/
theorem visible_of_mem_compact {v : Json} (hv : v.Legible) :
    ∀ c ∈ renderAt .compact 0 v, Visible c :=
  forall_mem_renderAt (fun _ hc => hc) (visible_of_all (by decide)) (visible_of_all (by decide))
    (fun _ _ hc => absurd hc List.not_mem_nil) 0 v hv

end Json

end DesignRegistry
