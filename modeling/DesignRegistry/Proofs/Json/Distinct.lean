/-
**Different documents have different texts.**

The first character of a value's text tells what kind of value it is, and no text of a value is the
beginning of a longer one, but for numbers, behind which nothing stands that could belong to them.  So two
texts that begin with values and are the same begin with the same value, however many digits integers have
and however often an object has a key.

Main definitions:

* `Json.FiniteFloats` — a document whose numbers with a fraction are finite ones of 64 bits;
* `Json.Numeral.denoted`, `Json.Literal` — the number of a literal, and the literal of a number;
* `Json.textKind`, `Json.kindOfChar` — the kind of a value that its text shows, and that a character shows;
* `Json.Recovered` — a value that is the only one with which its text begins;
* `Json.Layout.parts` — the items or the members behind the first.

Main results:

* `Json.literal_inj` — numbers that are written alike are the same;
* `Json.kindOfChar_renderAt` — the first character tells the kind;
* `Json.Layout.Plain.parts_inj` — what is told apart one by one is told apart in turn;
* `Json.recovered` — **texts that begin alike begin with the same value**;
* `Json.pretty_inj` — documents with one text are the same.
-/
import DesignRegistry.Proofs.Json.RoundTrip

set_option relaxedAutoImplicit false
set_option autoImplicit false

namespace DesignRegistry

namespace Json

/-! ### Finite numbers -/

mutual

/-- A document whose numbers with a fraction are finite ones of 64 bits. -/
def FiniteFloats : Json → Prop
  | .float x => ∃ negative mantissa exponent, x = .finite negative mantissa exponent ∧ x.Member
  | .arr xs => FiniteFloatsItems xs
  | .obj ms => FiniteFloatsMembers ms
  | _ => True

/-- Items with finite numbers. -/
def FiniteFloatsItems : List Json → Prop
  | [] => True
  | x :: xs => FiniteFloats x ∧ FiniteFloatsItems xs

/-- Members with finite numbers. -/
def FiniteFloatsMembers : List (String × Json) → Prop
  | [] => True
  | (_, v) :: ms => FiniteFloats v ∧ FiniteFloatsMembers ms

end

theorem finiteFloatsItems_iff {xs : List Json} :
    FiniteFloatsItems xs ↔ ∀ x ∈ xs, x.FiniteFloats := by
  induction xs with
  | nil => simp [FiniteFloatsItems]
  | cons x xs ih => simp [FiniteFloatsItems, ih]

theorem finiteFloatsMembers_iff {ms : Members} :
    FiniteFloatsMembers ms ↔ ∀ m ∈ ms, m.2.FiniteFloats := by
  induction ms with
  | nil => simp [FiniteFloatsMembers]
  | cons m ms ih =>
      obtain ⟨k, v⟩ := m
      simp [FiniteFloatsMembers, ih]

/-! ### Literals of numbers -/

/-- The number that a literal denotes. -/
def Numeral.denoted (n : Numeral) (negative : Bool) : Json :=
  if n.fraction.isEmpty && (Numeral.exponentValue n.exponent).isNone then
    .int (if negative then -(natOfDigits n.whole : Int) else natOfDigits n.whole)
  else .float (n.decimal negative).toBinary64

/-- The literal of a number. -/
structure Literal (v : Json) (negative : Bool) (n : Numeral) : Prop where
  proper : n.Proper
  text : ∀ f level, renderAt f level v = signText negative ++ n.text
  denoted : v = n.denoted negative

theorem literal_int (m : Int) : Literal (.int m) (decide (m < 0)) (natNumeral m.natAbs) where
  proper := proper_natNumeral m.natAbs
  text := fun f level => by rw [renderAt, text_natNumeral, intDigits_eq]
  denoted := by
    rw [Numeral.denoted, if_pos (by rfl), natNumeral, natOfDigits_natDigits]
    by_cases hm : m < 0
    · rw [if_pos (decide_eq_true hm), Int.ofNat_natAbs_of_nonpos (Int.le_of_lt hm), Int.neg_neg]
    · rw [if_neg (by simpa using hm), Int.natAbs_of_nonneg (Int.not_lt.1 hm)]

theorem exists_literal_float {x : Binary64} (h : FiniteFloats (.float x)) :
    ∃ negative n, Literal (.float x) negative n := by
  obtain ⟨negative, mantissa, exponent, rfl, hmember⟩ := h
  obtain ⟨n, hn⟩ := exists_notation hmember
  refine ⟨negative, n, hn.proper, fun f level => ?_, ?_⟩
  · rw [renderAt]
    exact hn.text
  · rw [Numeral.denoted, hn.not_integer, if_neg (by decide), hn.value]

/-- A literal without its sign starts with a digit. -/
theorem Numeral.Proper.text_eq_cons {n : Numeral} (h : n.Proper) :
    ∃ c cs, n.text = c :: cs ∧ c.isDigit = true := by
  rcases h.lead with hzero | ⟨c, ds, hwhole, -⟩
  · exact ⟨'0', _, by rw [Numeral.text, hzero]; rfl, by decide⟩
  · exact ⟨c, _, by rw [Numeral.text, hwhole]; rfl, h.whole c (hwhole ▸ List.mem_cons_self)⟩

/-- Signs are told apart from digits. -/
theorem signText_inj {n n' : Numeral} (h : n.Proper) (h' : n'.Proper) {negative negative' : Bool}
    {rest rest' : List Char}
    (heq : signText negative ++ (n.text ++ rest) = signText negative' ++ (n'.text ++ rest')) :
    negative = negative' ∧ n.text ++ rest = n'.text ++ rest' := by
  obtain ⟨c, cs, htext, hc⟩ := h.text_eq_cons
  obtain ⟨c', cs', htext', hc'⟩ := h'.text_eq_cons
  have hdash : ∀ {d : Char}, d.isDigit = true → d ≠ '-' := fun hd => ne_of_isDigit hd (by decide)
  cases negative with
  | true =>
      cases negative' with
      | true => exact ⟨rfl, (List.cons.inj heq).2⟩
      | false =>
          rw [htext'] at heq
          exact absurd (List.cons.inj heq).1.symm (hdash hc')
  | false =>
      cases negative' with
      | true =>
          rw [htext] at heq
          exact absurd (List.cons.inj heq).1 (hdash hc)
      | false => exact ⟨rfl, heq⟩

/-- Numbers that are written alike are the same. -/
theorem literal_inj {v w : Json} {negative negative' : Bool} {n n' : Numeral}
    (hv : Literal v negative n) (hw : Literal w negative' n') {rest rest' : List Char}
    (hrest : EndsNumber rest) (hrest' : EndsNumber rest')
    (heq : signText negative ++ (n.text ++ rest) = signText negative' ++ (n'.text ++ rest')) :
    v = w ∧ rest = rest' := by
  obtain ⟨rfl, hbody⟩ := signText_inj hv.proper hw.proper heq
  -- the reader takes both texts apart in the same places
  have hwhole := congrArg integerPart? hbody
  rw [integerPart?_text hv.proper hrest, integerPart?_text hw.proper hrest'] at hwhole
  obtain ⟨hsameWhole, hbehind⟩ := Prod.mk.inj (Option.some.inj hwhole)
  have hfraction := congrArg fractionPart hbehind
  rw [fractionPart_append hv.proper.fraction (head?_exponentText _ hrest),
    fractionPart_append hw.proper.fraction (head?_exponentText _ hrest')] at hfraction
  obtain ⟨hsameFraction, hexponents⟩ := Prod.mk.inj hfraction
  have hexponent := congrArg exponentPart hexponents
  rw [exponentPart_append hv.proper.exponent hrest, exponentPart_append hw.proper.exponent hrest']
    at hexponent
  obtain ⟨hsameExponent, hsameRest⟩ := Prod.mk.inj hexponent
  refine ⟨?_, hsameRest⟩
  rw [hv.denoted, hw.denoted, Numeral.denoted, Numeral.denoted, Numeral.decimal, Numeral.decimal,
    hsameWhole, hsameFraction, hsameExponent]

/-! ### Kinds -/

/-- The kind of a value that its text shows: integers are numbers. -/
def textKind : Json → Kind
  | .int _ => .number
  | v => v.kind

/-- The kind of value that begins with a character, if one does. -/
def kindOfChar (c : Char) : Option Kind :=
  if c = 'n' then some .null
  else if c = 't' ∨ c = 'f' then some .boolean
  else if c = '"' then some .string
  else if c = '[' then some .array
  else if c = '{' then some .object
  else if c = '-' ∨ c.isDigit = true then some .number
  else none

theorem kindOfChar_literal {n : Numeral} (h : n.Proper) (negative : Bool) :
    ∃ c cs, signText negative ++ n.text = c :: cs ∧ kindOfChar c = some .number := by
  obtain ⟨c, cs, htext, hc⟩ := h.text_eq_cons
  cases negative with
  | true => exact ⟨'-', n.text, rfl, by decide⟩
  | false =>
      refine ⟨c, cs, htext, ?_⟩
      have hne : ∀ d : Char, d.isDigit = false → c ≠ d := fun d hd => ne_of_isDigit hc hd
      simp [kindOfChar, hne 'n' (by decide), hne 't' (by decide), hne 'f' (by decide),
        hne '"' (by decide), hne '[' (by decide), hne '{' (by decide), hc]

/-- The first character of a value's text tells its kind. -/
theorem kindOfChar_renderAt (f : Layout) (level : ℕ) {v : Json} (h : v.FiniteFloats) :
    ∃ c cs, renderAt f level v = c :: cs ∧ kindOfChar c = some v.textKind := by
  cases v with
  | null => exact ⟨'n', _, rfl, rfl⟩
  | bool b =>
      cases b
      · exact ⟨'f', _, rfl, rfl⟩
      · exact ⟨'t', _, rfl, rfl⟩
  | int m =>
      have hm := literal_int m
      rw [hm.text]
      exact kindOfChar_literal hm.proper _
  | float x =>
      obtain ⟨negative, n, hn⟩ := exists_literal_float h
      rw [hn.text]
      exact kindOfChar_literal hn.proper negative
  | str s => exact ⟨'"', _, by rw [renderAt, stringLiteral]; rfl, rfl⟩
  | arr xs =>
      cases xs with
      | nil => exact ⟨'[', _, rfl, rfl⟩
      | cons x xs => exact ⟨'[', _, by rw [renderAt]; rfl, rfl⟩
  | obj ms =>
      cases ms with
      | nil => exact ⟨'{', _, rfl, rfl⟩
      | cons m ms =>
          obtain ⟨k, v⟩ := m
          exact ⟨'{', _, by rw [renderAt]; rfl, rfl⟩

/-- Texts that begin alike begin with values of one kind. -/
theorem textKind_eq {f : Layout} {level : ℕ} {v w : Json} {rest rest' : List Char}
    (hv : v.FiniteFloats) (hw : w.FiniteFloats)
    (heq : renderAt f level v ++ rest = renderAt f level w ++ rest') : v.textKind = w.textKind := by
  obtain ⟨c, cs, htext, hc⟩ := kindOfChar_renderAt f level hv
  obtain ⟨c', cs', htext', hc'⟩ := kindOfChar_renderAt f level hw
  rw [htext, htext'] at heq
  rw [(List.cons.inj heq).1, hc'] at hc
  exact (Option.some.inj hc).symm

/-! ### Values -/

variable {f : Layout}

/-- A rest of a text behind the items of an array or the members of an object. -/
structure EndsItems (rest : List Char) : Prop where
  number : EndsNumber rest
  separator : rest.head? ≠ some ','

/-- A text that begins with a value begins with no other one. -/
def Recovered (f : Layout) (v : Json) : Prop :=
  ∀ level w rest rest', w.FiniteFloats → EndsNumber rest → EndsNumber rest' →
    renderAt f level v ++ rest = renderAt f level w ++ rest' → v = w ∧ rest = rest'

/-- Behind the items of an array or the members of an object stands a bracket. -/
theorem endsItems_close (f : Layout) (level : ℕ) {close : Char} (hclose : close = ']' ∨ close = '}')
    (rest : List Char) : EndsItems (f.lineBreak level ++ close :: rest) := by
  have hnumber : EndsNumber (close :: rest) :=
    endsNumber_cons (by rcases hclose with rfl | rfl <;> decide) rest
  refine ⟨endsNumber_append (isSpace_of_mem_lineBreak f level) hnumber, ?_⟩
  cases hbreak : f.lineBreak level with
  | nil => rcases hclose with rfl | rfl <;> simp
  | cons c cs =>
      have hspace := isSpace_of_mem_lineBreak f level c (hbreak ▸ List.mem_cons_self)
      intro hcomma
      obtain rfl : c = ',' := Option.some.inj hcomma
      exact absurd hspace (by decide)

/-- No bracket closes a container where a value or a key begins. -/
theorem close_ne_lineBreak (f : Layout) (level : ℕ) {close c : Char} (hclose : isSpace close = false)
    (hc : c ≠ close) (rest cs : List Char) : close :: rest ≠ f.lineBreak level ++ c :: cs := by
  cases hbreak : f.lineBreak level with
  | nil => exact fun heq => hc (List.cons.inj heq).1.symm
  | cons b bs =>
      intro heq
      have hspace := isSpace_of_mem_lineBreak f level b (hbreak ▸ List.mem_cons_self)
      rw [← (List.cons.inj heq).1, hclose] at hspace
      exact absurd hspace (by decide)

/-- A value whose text is a number's has a literal. -/
theorem exists_literal {v : Json} (hv : v.FiniteFloats) (hkind : v.textKind = .number) :
    ∃ negative n, Literal v negative n := by
  cases v with
  | int m => exact ⟨_, _, literal_int m⟩
  | float x => exact exists_literal_float hv
  | _ => exact nomatch hkind

/-- Numbers end where nothing follows that could belong to them. -/
theorem recovered_number {v : Json} (hv : v.FiniteFloats) (hkind : v.textKind = .number) :
    Recovered f v := by
  intro level w rest rest' hw hrest hrest' heq
  obtain ⟨negative, n, hn⟩ := exists_literal hv hkind
  obtain ⟨negative', n', hn'⟩ := exists_literal hw ((textKind_eq hv hw heq).symm.trans hkind)
  rw [hn.text, hn'.text, List.append_assoc, List.append_assoc] at heq
  exact literal_inj hn hn' hrest hrest' heq

theorem recovered_null : Recovered f .null := by
  intro level w rest rest' hw hrest hrest' heq
  have hkind := textKind_eq (v := .null) trivial hw heq
  cases w with
  | null => exact ⟨rfl, List.append_cancel_left heq⟩
  | _ => exact nomatch hkind

theorem recovered_bool (b : Bool) : Recovered f (.bool b) := by
  intro level w rest rest' hw hrest hrest' heq
  have hkind := textKind_eq (v := .bool b) trivial hw heq
  cases w with
  | bool b' =>
      have hread := scalarAt_bool b rest
      have hread' := scalarAt_bool b' rest'
      rw [renderAt, renderAt] at heq
      rw [heq, hread'] at hread
      obtain ⟨hb, hrestEq⟩ := Prod.mk.inj (Except.ok.inj hread)
      exact ⟨hb.symm, hrestEq.symm⟩
  | _ => exact nomatch hkind

/-- A literal of a string ends at the quote that ends the string. -/
theorem stringLiteral_inj {asciiOnly : Bool} {s s' : String} {rest rest' : List Char}
    (heq : stringLiteral asciiOnly s ++ rest = stringLiteral asciiOnly s' ++ rest') :
    s = s' ∧ rest = rest' := by
  have hread := congrArg stringAt heq
  rw [stringAt_stringLiteral, stringAt_stringLiteral] at hread
  exact Prod.mk.inj (Except.ok.inj hread)

theorem recovered_str (s : String) : Recovered f (.str s) := by
  intro level w rest rest' hw hrest hrest' heq
  have hkind := textKind_eq (v := .str s) trivial hw heq
  cases w with
  | str s' =>
      rw [renderAt, renderAt] at heq
      obtain ⟨hs, hrestEq⟩ := stringLiteral_inj heq
      exact ⟨congrArg Json.str hs, hrestEq⟩
  | _ => exact nomatch hkind

/-! ### Items and members in turn -/

/-- Parts of a container behind the first, each on a line of its own behind a comma. -/
def Layout.parts {α : Type} (f : Layout) (level : ℕ) (text : α → List Char) (xs : List α) :
    List Char :=
  xs.flatMap fun x => f.separator ++ (f.lineBreak level ++ text x)

theorem Layout.parts_cons {α : Type} (f : Layout) (level : ℕ) (text : α → List Char) (x : α)
    (xs : List α) (rest : List Char) : f.parts level text (x :: xs) ++ rest =
      f.separator ++ (f.lineBreak level ++ (text x ++ (f.parts level text xs ++ rest))) := by
  rw [parts, List.flatMap_cons]
  simp only [List.append_assoc, parts]

theorem renderItems_eq (f : Layout) (level : ℕ) (xs : List Json) :
    renderItems f level xs = f.parts level (renderAt f level) xs := by
  induction xs with
  | nil => rfl
  | cons x xs ih =>
      rw [renderItems_cons, ih, Layout.parts, Layout.parts, List.flatMap_cons, List.append_assoc,
        List.append_assoc]

theorem renderMembers_eq (f : Layout) (level : ℕ) (ms : Members) :
    renderMembers f level ms = f.parts level (memberText f level) ms := by
  induction ms with
  | nil => rfl
  | cons m ms ih =>
      rw [renderMembers_cons, ih, Layout.parts, Layout.parts, List.flatMap_cons, List.append_assoc,
        List.append_assoc]

theorem Layout.Plain.endsNumber_parts {α : Type} (hf : f.Plain) (level : ℕ) (text : α → List Char)
    (xs : List α) {rest : List Char} (hrest : EndsNumber rest) :
    EndsNumber (f.parts level text xs ++ rest) := by
  cases xs with
  | nil => exact hrest
  | cons x xs =>
      rw [Layout.parts_cons]
      exact hf.endsNumber _

/-- Where no comma stands, no more parts follow. -/
theorem Layout.Plain.parts_cons_ne {α : Type} (hf : f.Plain) (level : ℕ) (text : α → List Char) (x : α)
    (xs : List α) {rest : List Char} (hrest : EndsItems rest) (rest' : List Char) :
    f.parts level text (x :: xs) ++ rest' ≠ rest := by
  obtain ⟨blanks, hseparator, -⟩ := hf.separator
  rintro rfl
  rw [Layout.parts_cons, hseparator] at hrest
  exact hrest.separator rfl

/-- Parts that are told apart one by one are told apart in turn, by induction on them. -/
theorem Layout.Plain.parts_inj {α : Type} (hf : f.Plain) {level : ℕ} {text : α → List Char}
    {P : α → Prop} {xs ys : List α} {rest rest' : List Char}
    (hpart : ∀ x ∈ xs, ∀ y (s s' : List Char), P y → EndsNumber s → EndsNumber s' →
      text x ++ s = text y ++ s' → x = y ∧ s = s')
    (hys : ∀ y ∈ ys, P y) (hrest : EndsItems rest) (hrest' : EndsItems rest')
    (heq : f.parts level text xs ++ rest = f.parts level text ys ++ rest') :
    xs = ys ∧ rest = rest' := by
  induction xs generalizing ys with
  | nil =>
      cases ys with
      | nil => exact ⟨rfl, heq⟩
      | cons y ys => exact absurd heq.symm (hf.parts_cons_ne level text y ys hrest rest')
  | cons x xs ih =>
      cases ys with
      | nil => exact absurd heq (hf.parts_cons_ne level text x xs hrest' rest)
      | cons y ys =>
          rw [List.forall_mem_cons] at hpart hys
          rw [Layout.parts_cons, Layout.parts_cons] at heq
          obtain ⟨rfl, hbehind⟩ := hpart.1 y _ _ hys.1
            (hf.endsNumber_parts level text xs hrest.number)
            (hf.endsNumber_parts level text ys hrest'.number)
            (List.append_cancel_left (List.append_cancel_left heq))
          obtain ⟨rfl, hsame⟩ := ih hpart.2 hys.2 hbehind
          exact ⟨rfl, hsame⟩

/-! ### Arrays and objects -/

/-- What stands behind the bracket that opens a container which is not empty. -/
def Layout.filled {α : Type} (f : Layout) (level : ℕ) (text : α → List Char) (x : α) (xs : List α)
    (close : Char) (rest : List Char) : List Char :=
  f.lineBreak (level + 1) ++ (text x ++ (f.parts (level + 1) text xs ++
    (f.lineBreak level ++ close :: rest)))

theorem renderAt_arr_cons (f : Layout) (level : ℕ) (x : Json) (xs : List Json) (rest : List Char) :
    renderAt f level (.arr (x :: xs)) ++ rest =
      '[' :: f.filled level (renderAt f (level + 1)) x xs ']' rest := by
  rw [renderAt, renderItems_eq, Layout.filled]
  simp only [List.cons_append, List.append_assoc, List.nil_append]

theorem renderAt_obj_cons (f : Layout) (level : ℕ) (m : String × Json) (ms : Members)
    (rest : List Char) : renderAt f level (.obj (m :: ms)) ++ rest =
      '{' :: f.filled level (memberText f (level + 1)) m ms '}' rest := by
  obtain ⟨k, v⟩ := m
  rw [renderAt, renderMembers_eq, Layout.filled, memberText]
  simp only [List.cons_append, List.append_assoc, List.nil_append]

section Filled

variable {α : Type} {level : ℕ} {text : α → List Char} {x y : α} {xs ys : List α} {close : Char}
  {rest rest' : List Char}

/-- An empty container is not taken for a filled one: no part begins with the closing bracket. -/
theorem Layout.close_ne_filled (hclose : isSpace close = false) {c : Char} {cs : List Char}
    (htext : text x = c :: cs) (hc : c ≠ close) : close :: rest ≠ f.filled level text x xs close rest' := by
  rw [Layout.filled, htext, List.cons_append]
  exact close_ne_lineBreak f (level + 1) hclose hc _ _

/-- Filled containers are told apart if their parts are. -/
theorem Layout.Plain.filled_inj (hf : f.Plain) {P : α → Prop} (hclose : close = ']' ∨ close = '}')
    (hpart : ∀ z ∈ x :: xs, ∀ y (s s' : List Char), P y → EndsNumber s → EndsNumber s' →
      text z ++ s = text y ++ s' → z = y ∧ s = s') (hys : ∀ z ∈ y :: ys, P z)
    (heq : f.filled level text x xs close rest = f.filled level text y ys close rest') :
    x :: xs = y :: ys ∧ rest = rest' := by
  have hend := endsItems_close f level hclose rest
  have hend' := endsItems_close f level hclose rest'
  rw [List.forall_mem_cons] at hpart hys
  obtain ⟨rfl, hbehind⟩ := hpart.1 y _ _ hys.1 (hf.endsNumber_parts _ _ _ hend.number)
    (hf.endsNumber_parts _ _ _ hend'.number) (List.append_cancel_left heq)
  obtain ⟨rfl, hbracket⟩ := hf.parts_inj hpart.2 hys.2 hend hend' hbehind
  exact ⟨rfl, (List.cons.inj (List.append_cancel_left hbracket)).2⟩

end Filled

/-- An array without items is not taken for one with items. -/
theorem renderAt_arr_nil_ne (f : Layout) (level : ℕ) {x : Json} (hx : x.FiniteFloats)
    (xs : List Json) (rest rest' : List Char) :
    renderAt f level (.arr []) ++ rest ≠ renderAt f level (.arr (x :: xs)) ++ rest' := by
  obtain ⟨c, cs, htext, hc⟩ := kindOfChar_renderAt f (level + 1) hx
  have hne : c ≠ ']' := by
    rintro rfl
    exact nomatch hc
  rw [renderAt_arr_cons]
  exact fun heq => Layout.close_ne_filled (by decide) htext hne (List.cons.inj heq).2

/-- An object without members is not taken for one with members. -/
theorem renderAt_obj_nil_ne (f : Layout) (level : ℕ) (m : String × Json) (ms : Members)
    (rest rest' : List Char) :
    renderAt f level (.obj []) ++ rest ≠ renderAt f level (.obj (m :: ms)) ++ rest' := by
  obtain ⟨cs, htext⟩ : ∃ cs, memberText f (level + 1) m = '"' :: cs := ⟨_, rfl⟩
  rw [renderAt_obj_cons]
  exact fun heq => Layout.close_ne_filled (by decide) htext (by decide) (List.cons.inj heq).2

theorem recovered_arr (hf : f.Plain) {xs : List Json} (hxs : FiniteFloatsItems xs)
    (hitems : ∀ x ∈ xs, Recovered f x) : Recovered f (.arr xs) := by
  intro level w rest rest' hw hrest hrest' heq
  have hkind := textKind_eq (v := .arr xs) hxs hw heq
  cases w with
  | arr ys =>
      cases xs with
      | nil =>
          cases ys with
          | nil => exact ⟨rfl, List.append_cancel_left heq⟩
          | cons y ys => exact absurd heq (renderAt_arr_nil_ne f level hw.1 ys rest rest')
      | cons x xs =>
          cases ys with
          | nil => exact absurd heq.symm (renderAt_arr_nil_ne f level hxs.1 xs rest' rest)
          | cons y ys =>
              rw [renderAt_arr_cons, renderAt_arr_cons] at heq
              obtain ⟨hsame, hrestEq⟩ := hf.filled_inj (.inl rfl) (fun z hz => hitems z hz (level + 1))
                (finiteFloatsItems_iff.1 hw) (List.cons.inj heq).2
              exact ⟨congrArg Json.arr hsame, hrestEq⟩
  | _ => exact nomatch hkind

/-- A member is its key and its value. -/
theorem memberText_inj {m n : String × Json} (hvalue : Recovered f m.2)
    (hn : n.2.FiniteFloats) {level : ℕ} {rest rest' : List Char} (hrest : EndsNumber rest)
    (hrest' : EndsNumber rest')
    (heq : memberText f level m ++ rest = memberText f level n ++ rest') : m = n ∧ rest = rest' := by
  rw [memberText, memberText, List.append_assoc, List.append_assoc, List.append_assoc,
    List.append_assoc] at heq
  obtain ⟨hkey, hbehind⟩ := stringLiteral_inj heq
  obtain ⟨hsame, hrestEq⟩ :=
    hvalue level n.2 rest rest' hn hrest hrest' (List.append_cancel_left hbehind)
  exact ⟨Prod.ext hkey hsame, hrestEq⟩

theorem recovered_obj (hf : f.Plain) {ms : Members} (hms : FiniteFloatsMembers ms)
    (hvalues : ∀ m ∈ ms, Recovered f m.2) : Recovered f (.obj ms) := by
  intro level w rest rest' hw hrest hrest' heq
  have hkind := textKind_eq (v := .obj ms) hms hw heq
  cases w with
  | obj ns =>
      cases ms with
      | nil =>
          cases ns with
          | nil => exact ⟨rfl, List.append_cancel_left heq⟩
          | cons n ns => exact absurd heq (renderAt_obj_nil_ne f level n ns rest rest')
      | cons m ms =>
          cases ns with
          | nil => exact absurd heq.symm (renderAt_obj_nil_ne f level m ms rest' rest)
          | cons n ns =>
              rw [renderAt_obj_cons, renderAt_obj_cons] at heq
              obtain ⟨hsame, hrestEq⟩ := hf.filled_inj (.inr rfl)
                (fun z hz _ _ _ hn => memberText_inj (hvalues z hz) hn)
                (finiteFloatsMembers_iff.1 hw) (List.cons.inj heq).2
              exact ⟨congrArg Json.obj hsame, hrestEq⟩
  | _ => exact nomatch hkind

/-! ### Documents -/

mutual

/-- **Texts that begin alike begin with the same value**, by recursion on the value. -/
theorem recovered (hf : f.Plain) : ∀ v : Json, v.FiniteFloats → Recovered f v
  | .null, _ => recovered_null
  | .bool b, _ => recovered_bool b
  | .int _, h => recovered_number h rfl
  | .float _, h => recovered_number h rfl
  | .str s, _ => recovered_str s
  | .arr xs, h => recovered_arr hf h (recovered_of_mem_items hf xs h)
  | .obj ms, h => recovered_obj hf h (recovered_of_mem_members hf ms h)

theorem recovered_of_mem_items (hf : f.Plain) :
    ∀ xs : List Json, FiniteFloatsItems xs → ∀ x ∈ xs, Recovered f x
  | [], _ => List.forall_mem_nil _
  | x :: xs, h => List.forall_mem_cons.2 ⟨recovered hf x h.1, recovered_of_mem_items hf xs h.2⟩

theorem recovered_of_mem_members (hf : f.Plain) :
    ∀ ms : Members, FiniteFloatsMembers ms → ∀ m ∈ ms, Recovered f m.2
  | [], _ => List.forall_mem_nil _
  | (_, v) :: ms, h =>
      List.forall_mem_cons.2 ⟨recovered hf v h.1, recovered_of_mem_members hf ms h.2⟩

end

/-- Documents with one text are the same. -/
theorem pretty_inj {v w : Json} (hv : v.FiniteFloats) (hw : w.FiniteFloats)
    (heq : v.pretty = w.pretty) : v = w := by
  have hend : EndsNumber ['\n'] := endsNumber_cons (by decide) []
  have htexts := congrArg String.toList heq
  rw [pretty, pretty, String.toList_ofList, String.toList_ofList] at htexts
  exact (recovered Layout.plain_pretty v hv 0 w _ _ hw hend hend htexts).1

end Json

end DesignRegistry
