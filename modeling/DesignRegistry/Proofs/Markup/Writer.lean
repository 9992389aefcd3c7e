/-
**Texts written into markup.**

What a text inside an element or the value of an attribute cannot hold is written as a reference to it.
So whatever the text is, it does not end the element or the value, and the grammar says that what is
written denotes the text.

Main definitions:

* `attributesText`, `tagText` — attributes, and the front of a tag, as they are written.

Main results:

* `reference_textChar`, `reference_doubleQuotedChar` — what is not written as it stands is written as a
  reference;
* `Content.escaped` — **a text inside an element denotes its characters**;
* `exists_value_attributeChars` — **the value of an attribute denotes it**;
* `TagFront.written` — the front of a tag denotes its name and its attributes;
* `plainLineEnds_flatMap_textChar` — the line ends of a text are made plain in it or in what is written.
-/
import DesignRegistry.Proofs.Markup.Grammar
import DesignRegistry.Proofs.Text.LineEnds
import DesignRegistry.Proofs.Text.Pieces
import DesignRegistry.Text.Markup

set_option relaxedAutoImplicit false
set_option autoImplicit false

namespace DesignRegistry

namespace Markup

/-! ### Characters -/

theorem Reference.exists_eq_cons {r : List Char} {c : Char} (h : Reference r c) :
    ∃ more, r = '&' :: more := by
  obtain @⟨body, -, -, -⟩ := h
  exact ⟨body ++ [';'], rfl⟩

theorem reference_textChar {c : Char} (h : textChar c ≠ [c]) : Reference (textChar c) c := by
  by_cases hand : c = '&'
  · subst hand
    exact (.intro (by decide) rfl : Reference ('&' :: ("amp".toList ++ [';'])) '&')
  · by_cases hless : c = '<'
    · subst hless
      exact (.intro (by decide) rfl : Reference ('&' :: ("lt".toList ++ [';'])) '<')
    · by_cases hgreater : c = '>'
      · subst hgreater
        exact (.intro (by decide) rfl : Reference ('&' :: ("gt".toList ++ [';'])) '>')
      · exact absurd (by rw [textChar, if_neg hand, if_neg hless, if_neg hgreater]) h

theorem reference_attributeChar {c : Char} (h : attributeChar c ≠ [c]) :
    Reference (attributeChar c) c := by
  by_cases hfeed : c = '\n'
  · subst hfeed
    exact (.intro (by decide) rfl : Reference ('&' :: ("#10".toList ++ [';'])) '\n')
  · by_cases hreturn : c = '\r'
    · subst hreturn
      exact (.intro (by decide) rfl : Reference ('&' :: ("#13".toList ++ [';'])) '\r')
    · by_cases htab : c = '\t'
      · subst htab
        exact (.intro (by decide) rfl : Reference ('&' :: ("#9".toList ++ [';'])) '\t')
      · have htext : attributeChar c = textChar c := by
          rw [attributeChar, if_neg hfeed, if_neg hreturn, if_neg htab]
        rw [htext] at h ⊢
        exact reference_textChar h

/-- What is not written as it stands is written as a reference. -/
theorem reference_doubleQuotedChar {c : Char} (h : doubleQuotedChar c ≠ [c]) :
    Reference (doubleQuotedChar c) c := by
  by_cases hquote : c = '"'
  · subst hquote
    exact (.intro (by decide) rfl : Reference ('&' :: ("quot".toList ++ [';'])) '"')
  · have hattribute : doubleQuotedChar c = attributeChar c := by rw [doubleQuotedChar, if_neg hquote]
    rw [hattribute] at h ⊢
    exact reference_attributeChar h

/-- The characters that quotes and the references of the writer are made of. -/
def writtenMarks : List Char := "&;#\"'ampltgquo01349".toList

/-- What a text is written with is in it, or is one of the characters of references. -/
theorem forall_mem_textChar {P : Char → Prop} (hmarks : ∀ d ∈ writtenMarks, P d) {c : Char}
    (hc : c ∉ "&<>".toList → P c) : ∀ d ∈ textChar c, P d := by
  by_cases h : c ∈ "&<>".toList
  · have hall : ∀ c ∈ "&<>".toList, ∀ d ∈ textChar c, d ∈ writtenMarks := by decide
    exact fun d hd => hmarks d (hall c h d hd)
  · have hself : textChar c = [c] := by
      simp only [String.reduceToList, List.mem_cons, List.not_mem_nil, or_false, not_or] at h
      rw [textChar, if_neg h.1, if_neg h.2.1, if_neg h.2.2]
    rw [hself, List.forall_mem_singleton]
    exact hc h

/-- What the value of an attribute is written with is in it, or is a quote or one of the characters of
references. -/
theorem forall_mem_attributeChars {P : Char → Prop} (hmarks : ∀ d ∈ writtenMarks, P d) {s : List Char}
    (hs : ∀ c ∈ s, c ∉ "\n\r\t".toList → P c) : ∀ d ∈ attributeChars s, P d := by
  have hattribute (c : Char) (hc : c ∈ s) : ∀ d ∈ attributeChar c, P d := by
    by_cases h : c ∈ "\n\r\t".toList
    · have hall : ∀ c ∈ "\n\r\t".toList, ∀ d ∈ attributeChar c, d ∈ writtenMarks := by decide
      exact fun d hd => hmarks d (hall c h d hd)
    · have htext : attributeChar c = textChar c := by
        simp only [String.reduceToList, List.mem_cons, List.not_mem_nil, or_false, not_or] at h
        rw [attributeChar, if_neg h.1, if_neg h.2.1, if_neg h.2.2]
      rw [htext]
      exact forall_mem_textChar hmarks fun _ => hs c hc h
  have hdouble (c : Char) (hc : c ∈ s) : ∀ d ∈ doubleQuotedChar c, P d := by
    by_cases hquote : c = '"'
    · subst hquote
      have hall : ∀ d ∈ doubleQuotedChar '"', d ∈ writtenMarks := by decide
      exact fun d hd => hmarks d (hall d hd)
    · rw [doubleQuotedChar, if_neg hquote]
      exact hattribute c hc
  rw [attributeChars]
  split
  · simp only [List.cons_append, List.forall_mem_cons, List.forall_mem_append, List.forall_mem_flatMap]
    exact ⟨hmarks _ (by decide), hattribute, hmarks _ (by decide), by simp⟩
  · simp only [List.cons_append, List.forall_mem_cons, List.forall_mem_append, List.forall_mem_flatMap]
    exact ⟨hmarks _ (by decide), hdouble, hmarks _ (by decide), by simp⟩

/-! ### Texts inside elements -/

/-- Without a greater sign a text does not end a section, whatever follows that could not go on with it. -/
theorem not_isPrefix_of_notMem {s rest : List Char} (hs : '>' ∉ s)
    (hrest : ∀ c ∈ rest.head?, c ∉ "]>".toList) : ¬ "]]>".toList <+: s ++ rest := by
  rintro ⟨back, hback⟩
  rcases List.append_eq_append_iff.1 hback with ⟨more, hmore, -⟩ | ⟨mark, hmark, hmore⟩
  · rw [hmore] at hs
    exact hs (List.mem_append_left _ (by decide))
  · cases mark with
    | nil =>
        rw [List.append_nil] at hmark
        exact hs (hmark ▸ by decide)
    | cons c mark =>
        have hc : c ∈ "]]>".toList := hmark ▸ List.mem_append_right _ List.mem_cons_self
        have hsame : ∀ d ∈ "]]>".toList, d ∈ "]>".toList := by decide
        exact hrest c (by rw [hmore]; rfl) (hsame c hc)

theorem greater_notMem_flatMap_textChar (s : List Char) : '>' ∉ s.flatMap textChar := by
  intro hmem
  obtain ⟨c, -, hc⟩ := List.mem_flatMap.1 hmem
  have hne : ∀ d ∈ textChar c, d ≠ '>' :=
    forall_mem_textChar (by decide) fun h heq => h (heq ▸ by decide)
  exact hne _ hc rfl

/-- A text inside an element denotes its characters. -/
theorem Content.escaped {rest : List Char} {items : List Item}
    (hrest : ∀ c ∈ rest.head?, c ∉ "]>".toList) (h : Content rest items) (s : List Char) :
    Content (s.flatMap textChar ++ rest) (s.map Item.char ++ items) := by
  induction s with
  | nil => exact h
  | cons c s ih =>
      have hgreater := greater_notMem_flatMap_textChar (c :: s)
      rw [List.flatMap_cons] at hgreater ⊢
      rw [List.map_cons, List.cons_append]
      by_cases hc : textChar c = [c]
      · have hend := not_isPrefix_of_notMem hgreater hrest
        rw [List.append_assoc] at hend ⊢
        rw [hc] at hend ⊢
        refine .char ?_ ?_ hend ih
        · rintro rfl
          exact absurd hc (by decide)
        · rintro rfl
          exact absurd hc (by decide)
      · rw [List.append_assoc]
        exact .reference (reference_textChar hc) ih

/-- A text that is written as it stands denotes its characters. -/
theorem Content.plain {s rest : List Char} {items : List Item} (hs : s.flatMap textChar = s)
    (hrest : ∀ c ∈ rest.head?, c ∉ "]>".toList) (h : Content rest items) :
    Content (s ++ rest) (s.map Item.char ++ items) := by
  have hescaped := h.escaped hrest s
  rwa [hs] at hescaped

/-- The line ends of a text are made plain in it or in what is written. -/
theorem plainLineEnds_flatMap_textChar (s : List Char) :
    plainLineEnds (s.flatMap textChar) = (plainLineEnds s).flatMap textChar := by
  induction s using plainLineEnds.induct with
  | case1 => rfl
  | case2 rest ih =>
      have hbreak : ('\r' :: '\n' :: rest).flatMap textChar = '\r' :: '\n' :: rest.flatMap textChar := rfl
      rw [hbreak, plainLineEnds.eq_2, plainLineEnds.eq_2, ih]
      rfl
  | case3 rest hnot ih =>
      have hreturn : ('\r' :: rest).flatMap textChar = '\r' :: rest.flatMap textChar := rfl
      have hbreak : ∀ more, rest.flatMap textChar = '\n' :: more → False := by
        intro more hmore
        cases rest with
        | nil => exact absurd hmore (by simp)
        | cons c rest =>
            rw [List.flatMap_cons] at hmore
            by_cases hc : textChar c = [c]
            · rw [hc] at hmore
              exact hnot rest (by rw [(List.cons.inj hmore).1])
            · obtain ⟨name, hname⟩ := (reference_textChar hc).exists_eq_cons
              rw [hname] at hmore
              exact absurd (List.cons.inj hmore).1 (by decide)
      rw [hreturn, plainLineEnds.eq_3 _ hbreak, plainLineEnds.eq_3 _ hnot, ih]
      rfl
  | case4 c rest hpair hsingle ih =>
      have hnone : '\r' ∉ textChar c := fun hmem =>
        forall_mem_textChar (P := (· ≠ '\r')) (by decide) (fun _ hc => hsingle hc) _ hmem rfl
      rw [List.flatMap_cons, plainLineEnds_append_of_notMem hnone, ih,
        plainLineEnds.eq_4 _ _ (fun _ hc _ => hsingle hc) hsingle, List.flatMap_cons]

/-! ### Values of attributes -/

theorem Value.attributeChar {quote c : Char} {s value : List Char} (hquote : c ≠ quote)
    (h : Value quote s value) : Value quote (Markup.attributeChar c ++ s) (c :: value) := by
  by_cases hc : Markup.attributeChar c = [c]
  · have hvalue : c = if isSpace c then ' ' else c := by
      split
      · next hspace =>
          simp only [isSpace, Bool.or_eq_true, beq_iff_eq] at hspace
          rcases hspace with ((rfl | rfl) | rfl) | rfl
          · rfl
          all_goals exact absurd hc (by decide)
      · rfl
    rw [hc, List.singleton_append]
    nth_rewrite 2 [hvalue]
    refine .char hquote ?_ ?_ h
    · rintro rfl
      exact absurd hc (by decide)
    · rintro rfl
      exact absurd hc (by decide)
  · exact .reference (reference_attributeChar hc) h

theorem Value.doubleQuotedChar {s value : List Char} (h : Value '"' s value) (c : Char) :
    Value '"' (Markup.doubleQuotedChar c ++ s) (c :: value) := by
  by_cases hquote : c = '"'
  · subst hquote
    exact .reference (reference_doubleQuotedChar (by decide)) h
  · rw [Markup.doubleQuotedChar, if_neg hquote]
    exact h.attributeChar hquote

/-- The value of an attribute stands between quotes of one kind and denotes what is written. -/
theorem exists_value_attributeChars (s : List Char) : ∃ quote text,
    (quote = '"' ∨ quote = '\'') ∧ attributeChars s = quote :: (text ++ [quote]) ∧
      Value quote text s := by
  rw [attributeChars]
  split
  · next hquotes =>
      have hsingle : '\'' ∉ s := by simpa using (Bool.and_eq_true_iff.1 hquotes).2
      refine ⟨'\'', s.flatMap attributeChar, .inr rfl, rfl, ?_⟩
      clear hquotes
      induction s with
      | nil => exact .nil
      | cons c s ih =>
          rw [List.mem_cons, not_or] at hsingle
          rw [List.flatMap_cons]
          exact (ih hsingle.2).attributeChar (Ne.symm hsingle.1)
  · next hquotes =>
      refine ⟨'"', s.flatMap doubleQuotedChar, .inl rfl, rfl, ?_⟩
      clear hquotes
      induction s with
      | nil => exact .nil
      | cons c s ih =>
          rw [List.flatMap_cons]
          exact ih.doubleQuotedChar c

/-- A value that needs no references is written as it stands. -/
theorem attributeChars_of_forall {s : List Char} (h : ∀ c ∈ s, c ∉ "\"\n\r\t&<>".toList) :
    attributeChars s = '"' :: (s ++ ['"']) := by
  have hself : ∀ c ∈ s, doubleQuotedChar c = [c] := by
    intro c hc
    have hnot := h c hc
    simp only [String.reduceToList, List.mem_cons, List.not_mem_nil, or_false, not_or] at hnot
    obtain ⟨hquote, hfeed, hreturn, htab, hand, hless, hgreater⟩ := hnot
    rw [doubleQuotedChar, if_neg hquote, attributeChar, if_neg hfeed, if_neg hreturn, if_neg htab,
      textChar, if_neg hand, if_neg hless, if_neg hgreater]
  have hquotes : ¬ (s.contains '"' && !s.contains '\'') = true := by
    rw [Bool.and_eq_true_iff, List.contains_iff_mem]
    exact fun hboth => h _ hboth.1 (by decide)
  rw [attributeChars, if_neg hquotes, List.flatMap_congr hself, List.flatMap_singleton']
  rfl

/-! ### Tags -/

/-- Attributes as they are written, with a space before each. -/
def attributesText (as : List (String × String)) : List Char :=
  as.flatMap fun a => ' ' :: (a.1.toList ++ '=' :: attributeChars a.2.toList)

/-- The front of a tag as it is written. -/
def tagText (name : String) (as : List (String × String)) : List Char :=
  '<' :: (name.toList ++ attributesText as)

/-- What the front of a tag is written with is in its name, in its attributes or in the marks of tags. -/
theorem forall_mem_tagText {P : Char → Prop} (hmarks : ∀ d ∈ "< =".toList ++ writtenMarks, P d)
    {name : String} (hname : ∀ c ∈ name.toList, P c) {as : List (String × String)}
    (has : ∀ a ∈ as, (∀ c ∈ a.1.toList, P c) ∧ ∀ c ∈ a.2.toList, c ∉ "\n\r\t".toList → P c) :
    ∀ d ∈ tagText name as, P d := by
  rw [List.forall_mem_append] at hmarks
  have hvalue (a : String × String) (ha : a ∈ as) : ∀ d ∈ attributeChars a.2.toList, P d :=
    forall_mem_attributeChars hmarks.2 (has a ha).2
  simp only [tagText, attributesText, List.forall_mem_cons, List.forall_mem_append,
    List.forall_mem_flatMap]
  exact ⟨hmarks.1 _ (by decide), hname, fun a ha =>
    ⟨hmarks.1 _ (by decide), (has a ha).1, hmarks.1 _ (by decide), hvalue a ha⟩⟩

/-- Carriage returns in attributes are written as references. -/
theorem return_notMem_tagText {name : String} (hname : '\r' ∉ name.toList)
    {as : List (String × String)} (hkeys : ∀ key ∈ as.map Prod.fst, '\r' ∉ key.toList) :
    '\r' ∉ tagText name as := by
  have hne {s : List Char} (hs : '\r' ∉ s) : ∀ c ∈ s, c ≠ '\r' := fun c hc heq => hs (heq ▸ hc)
  have hall := forall_mem_tagText (by decide) (hne hname) fun a ha =>
    ⟨hne (hkeys a.1 (List.mem_map_of_mem ha)), fun c _ hc heq => hc (heq ▸ by decide)⟩
  exact fun hmem => hall _ hmem rfl

/-- Tags are made of characters that documents can hold if their names and attributes are. -/
theorem isAllowed_of_mem_tagText {name : String} (hname : ∀ c ∈ name.toList, isAllowed c = true)
    {as : List (String × String)}
    (has : ∀ a ∈ as, ∀ c ∈ a.1.toList ++ a.2.toList, isAllowed c = true) :
    ∀ d ∈ tagText name as, isAllowed d = true :=
  forall_mem_tagText (by decide) hname fun a ha =>
    ⟨fun c hc => has a ha c (List.mem_append_left _ hc),
      fun c hc _ => has a ha c (List.mem_append_right _ hc)⟩

/-- Attributes denote their names and values. -/
theorem Attributes.written {as : List (String × String)}
    (h : ∀ key ∈ as.map Prod.fst, isName key.toList = true) : Attributes (attributesText as) as := by
  induction as with
  | nil => exact .nil
  | cons a as ih =>
      obtain ⟨key, value⟩ := a
      rw [List.map_cons, List.forall_mem_cons] at h
      obtain ⟨quote, text, hquote, htext, hvalue⟩ := exists_value_attributeChars value.toList
      have hnone : Spaces [] := by simp [Spaces]
      have hspace : Spaces [' '] := by simp [Spaces, isSpace]
      have ha := Attribute.intro h.1 hnone hnone hquote hvalue
      rw [List.nil_append, List.nil_append, ← htext, String.ofList_toList] at ha
      have hcons := Attributes.cons (by simp) hspace ha (ih h.2)
      rwa [List.singleton_append] at hcons

/-- The front of a tag denotes its name and its attributes. -/
theorem TagFront.written {name : String} {as : List (String × String)} (keys : List String)
    (hkeys : as.map Prod.fst = keys) (hname : isName name.toList = true)
    (hnames : ∀ key ∈ keys, isName key.toList = true) (hdistinct : keys.Nodup)
    {blanks : List Char} (hblanks : Spaces blanks) : TagFront (tagText name as ++ blanks) name as := by
  subst hkeys
  rw [tagText, List.cons_append, List.append_assoc]
  exact .intro hname (.written hnames) hdistinct hblanks

end Markup

end DesignRegistry
