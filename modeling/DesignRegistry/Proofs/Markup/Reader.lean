/-
**Reading documents.**

The reader goes through a text from the left and decides by the next characters what it has in front of
it.  Whatever the grammar says is a document it reads, as the element that the grammar says the document
denotes.  So no document denotes two elements.

Main definitions:

* `readValue`, `readAttributes`, `readTagFront` — reading the parts of tags;
* `readElement`, `readContent` — reading elements, and contents up to the end tag;
* `readDocument` — **reading documents**.

Main results:

* `Attributes.read`, `TagFront.read`, `Content.read`, `Element.read` — each part is read up to what
  follows it;
* `Document.read` — **documents are read as what they denote**;
* `Document.unique` — a document denotes one element.
-/
import DesignRegistry.Proofs.Markup.Grammar
import DesignRegistry.Proofs.Text.Pieces

set_option relaxedAutoImplicit false
set_option autoImplicit false

namespace DesignRegistry

namespace Markup

/-! ### The reader -/

/-- The name in front of a text. -/
def readName : List Char → Option (List Char × List Char)
  | [] => none
  | c :: s =>
    if isNameStart c then some (c :: s.takeWhile isNameChar, s.dropWhile isNameChar) else none

/-- The character of a reference, behind its first mark. -/
def readReference (s : List Char) : Option (Char × List Char) := do
  let (body, s) ← cutAt? [';'] s
  let c ← referenceChar? body
  return (c, s)

/-- The value of an attribute, behind the quote that starts it. -/
def readValue (quote : Char) : ℕ → List Char → Option (List Char × List Char)
  | 0, _ => none
  | _ + 1, [] => none
  | fuel + 1, c :: s =>
    if c = quote then some ([], s)
    else if c = '<' then none
    else if c = '&' then do
      let (d, s) ← readReference s
      let (value, s) ← readValue quote fuel s
      return (d :: value, s)
    else do
      let (value, s) ← readValue quote fuel s
      return ((if isSpace c then ' ' else c) :: value, s)

/-- An attribute. -/
def readAttribute (s : List Char) : Option ((String × String) × List Char) := do
  let (name, s) ← readName s
  let s ← afterFront? ['='] (s.dropWhile isSpace)
  match s.dropWhile isSpace with
  | [] => none
  | quote :: s =>
    if quote = '"' ∨ quote = '\'' then do
      let (value, s) ← readValue quote (s.length + 1) s
      return ((String.ofList name, String.ofList value), s)
    else none

/-- The attributes in front of a text, and the blanks behind them. -/
def readAttributes : ℕ → List Char → Option (List (String × String) × List Char)
  | 0, _ => none
  | fuel + 1, s =>
    if (s.dropWhile isSpace).head?.any isNameStart then
      if s.head?.any isSpace then do
        let (a, s) ← readAttribute (s.dropWhile isSpace)
        let (as, s) ← readAttributes fuel s
        return (a :: as, s)
      else none
    else some ([], s.dropWhile isSpace)

/-- The name and the attributes of a tag, behind its first mark. -/
def readTagFront (s : List Char) : Option (String × List (String × String) × List Char) := do
  let (name, s) ← readName s
  let (as, s) ← readAttributes (s.length + 1) s
  if (as.map Prod.fst).Nodup then return (String.ofList name, as, s) else none

/-- What follows a comment, from behind its first mark. -/
def afterComment? (s : List Char) : Option (List Char) := do
  let (_, s) ← cutAt? "--".toList s
  afterFront? ['>'] s

/-- What follows an instruction, from behind its first mark. -/
def afterInstruction? (s : List Char) : Option (List Char) := do
  let (name, s) ← readName s
  let (body, s) ← cutAt? "?>".toList s
  if name.map Char.toLower ≠ "xml".toList ∧ body.head?.all isSpace = true then return s else none

/-- An element, behind the first mark of its tag; `content` reads what is inside. -/
def readElement (content : List Char → Option (List Item × List Char)) (s : List Char) :
    Option (Item × List Char) := do
  let (name, as, s) ← readTagFront s
  match s with
  | '/' :: '>' :: s => return (.element name as [], s)
  | '>' :: s =>
    let (inside, s) ← content s
    let s ← afterFront? ('<' :: '/' :: name.toList) s
    let s ← afterFront? ['>'] (s.dropWhile isSpace)
    return (.element name as inside, s)
  | _ => none

/-- The content in front of an end tag or of the end of the text. -/
def readContent : ℕ → List Char → Option (List Item × List Char)
  | 0, _ => none
  | _ + 1, [] => some ([], [])
  | fuel + 1, c :: s =>
    if c = '&' then do
      let (d, s) ← readReference s
      let (items, s) ← readContent fuel s
      return (.char d :: items, s)
    else if c ≠ '<' then
      if startsWith "]]>".toList (c :: s) then none
      else do
        let (items, s) ← readContent fuel s
        return (.char c :: items, s)
    else if startsWith ['/'] s then some ([], c :: s)
    else if let some s := afterFront? "![CDATA[".toList s then do
      let (body, s) ← cutAt? "]]>".toList s
      let (items, s) ← readContent fuel s
      return (body.map .char ++ items, s)
    else if let some s := afterFront? "!--".toList s then do
      readContent fuel (← afterComment? s)
    else if let some s := afterFront? ['?'] s then do
      readContent fuel (← afterInstruction? s)
    else do
      let (e, s) ← readElement (readContent fuel) s
      let (items, s) ← readContent fuel s
      return (e :: items, s)

/-- What follows blanks, comments and instructions. -/
def afterSurrounding? : ℕ → List Char → Option (List Char)
  | 0, _ => none
  | fuel + 1, s =>
    if let some s := afterFront? "<!--".toList (s.dropWhile isSpace) then do
      afterSurrounding? fuel (← afterComment? s)
    else if let some s := afterFront? "<?".toList (s.dropWhile isSpace) then do
      afterSurrounding? fuel (← afterInstruction? s)
    else some (s.dropWhile isSpace)

/-- What follows a declaration, if there is one. -/
def afterDeclaration? (s : List Char) : Option (List Char) :=
  match afterFront? "<?xml".toList s with
  | some (c :: t) =>
    if isSpace c then do
      let (as, t) ← readAttributes (t.length + 2) (c :: t)
      if isDeclared as then afterFront? "?>".toList t else none
    else some s
  | _ => some s

/-- The root element of a document. -/
def readDocument (text : String) : Option Item := do
  if text.toList.all isAllowed then
    let s ← afterDeclaration? (plainLineEnds text.toList)
    let s ← afterSurrounding? (s.length + 1) s
    let s ← afterFront? ['<'] s
    let (root, s) ← readElement (readContent (s.length + 1)) s
    let s ← afterSurrounding? (s.length + 1) s
    if s = [] then return root else none
  else none

/-! ### Runs of characters -/

/-- No character of a class stands in front of a text. -/
def NoneAhead (p : Char → Bool) (s : List Char) : Prop := ∀ c ∈ s.head?, p c = false

section Runs

variable {p : Char → Bool} {c : Char} {s rest : List Char}

theorem noneAhead_cons (h : p c = false) (s : List Char) : NoneAhead p (c :: s) :=
  fun _ hd => (Option.mem_some_iff.1 hd) ▸ h

theorem NoneAhead.dropWhile_eq (h : NoneAhead p rest) : rest.dropWhile p = rest := by
  cases rest with
  | nil => rfl
  | cons c rest => exact List.dropWhile_cons_of_neg (by simpa using h c rfl)

theorem dropWhile_append (hs : ∀ c ∈ s, p c = true) (h : NoneAhead p rest) :
    (s ++ rest).dropWhile p = rest := by
  rw [List.dropWhile_append_of_pos hs, h.dropWhile_eq]

theorem takeWhile_append (hs : ∀ c ∈ s, p c = true) (h : NoneAhead p rest) :
    (s ++ rest).takeWhile p = s := by
  rw [List.takeWhile_append_of_pos hs]
  cases rest with
  | nil => exact List.append_nil s
  | cons c rest => rw [List.takeWhile_cons_of_neg (by simpa using h c rfl), List.append_nil]

theorem isNameChar_of_isNameStart (h : isNameStart c = true) : isNameChar c = true := by
  rw [isNameStart] at h
  rw [isNameChar, h, Bool.true_or]

/-- Blanks do not stand in names. -/
theorem isNameChar_of_isSpace (h : isSpace c = true) : isNameChar c = false := by
  simp only [isSpace, Bool.or_eq_true, beq_iff_eq] at h
  rcases h with ((rfl | rfl) | rfl) | rfl <;> decide

theorem isSpace_of_isNameStart (h : isNameStart c = true) : isSpace c = false := by
  refine Bool.eq_false_iff.2 fun hspace => ?_
  exact absurd (isNameChar_of_isSpace hspace) (by simp [isNameChar_of_isNameStart h])

/-- A name is read up to what does not belong to it. -/
theorem readName_append (hs : isName s = true) (h : NoneAhead isNameChar rest) :
    readName (s ++ rest) = some (s, rest) := by
  cases s with
  | nil => exact absurd hs (by simp [isName])
  | cons c s =>
      rw [isName, Bool.and_eq_true, List.all_eq_true] at hs
      rw [List.cons_append, readName, if_pos hs.1, takeWhile_append hs.2 h, dropWhile_append hs.2 h]

theorem isName.exists_cons (h : isName s = true) : ∃ c t, s = c :: t ∧ isNameStart c = true := by
  cases s with
  | nil => exact absurd h (by simp [isName])
  | cons c s => exact ⟨c, s, rfl, (Bool.and_eq_true _ _ ▸ h).1⟩

end Runs

/-! ### Tags are read -/

/-- A reference is read as its character. -/
theorem Reference.read {r : List Char} {c : Char} (h : Reference r c) :
    ∃ t, r = '&' :: t ∧ ∀ rest, readReference (t ++ rest) = some (c, rest) := by
  obtain ⟨hend, hchar⟩ := h
  refine ⟨_, rfl, fun rest => ?_⟩
  rw [readReference, List.append_assoc, cutAt?_append [';'] rfl hend]
  simp only [Option.bind_eq_bind, Option.bind_some, hchar]
  rfl

/-- A value is read up to its closing quote. -/
theorem Value.read {quote : Char} (hquote : quote = '"' ∨ quote = '\'') {s value : List Char}
    (h : Value quote s value) {fuel : ℕ} (hfuel : s.length < fuel) (rest : List Char) :
    readValue quote fuel (s ++ quote :: rest) = some (value, rest) := by
  induction h generalizing fuel with
  | nil =>
      obtain ⟨fuel, rfl⟩ := Nat.exists_eq_succ_of_ne_zero (Nat.ne_of_gt hfuel)
      rw [List.nil_append, readValue, if_pos rfl]
  | char hne hless hand _ ih =>
      obtain ⟨fuel, rfl⟩ := Nat.exists_eq_succ_of_ne_zero (Nat.ne_zero_of_lt hfuel)
      rw [List.cons_append, readValue, if_neg hne, if_neg hless, if_neg hand,
        ih (Nat.lt_of_succ_lt_succ hfuel)]
      rfl
  | reference hr _ ih =>
      obtain ⟨fuel, rfl⟩ := Nat.exists_eq_succ_of_ne_zero (Nat.ne_zero_of_lt hfuel)
      obtain ⟨t, rfl, hread⟩ := hr.read
      have hne : '&' ≠ quote := by rcases hquote with rfl | rfl <;> decide
      rw [List.append_assoc, List.cons_append, readValue, if_neg hne, if_neg (by decide), if_pos rfl,
        hread]
      simp only [Option.bind_eq_bind, Option.bind_some]
      rw [ih (by simp only [List.length_append, List.length_cons] at hfuel; omega)]
      rfl

/-- An attribute is read. -/
theorem Attribute.read {s : List Char} {a : String × String} (h : Attribute s a) :
    (∃ c t, s = c :: t ∧ isNameStart c = true) ∧ ∀ rest, readAttribute (s ++ rest) = some (a, rest) := by
  obtain @⟨name, before, after, text, value, quote, hname, hbefore, hafter, hquote, hvalue⟩ := h
  constructor
  · obtain ⟨c, t, ht, hc⟩ := isName.exists_cons hname
    rw [ht]
    exact ⟨c, _, rfl, hc⟩
  · intro rest
    have hequals :
        NoneAhead isNameChar (before ++ '=' :: (after ++ quote :: (text ++ quote :: rest))) := by
      cases before with
      | nil => exact noneAhead_cons (by decide) _
      | cons b before =>
          exact noneAhead_cons (isNameChar_of_isSpace (hbefore b List.mem_cons_self)) _
    have hspace : NoneAhead isSpace (quote :: (text ++ quote :: rest)) :=
      noneAhead_cons (by rcases hquote with rfl | rfl <;> decide) _
    simp only [List.append_assoc, List.cons_append, List.nil_append]
    rw [readAttribute, readName_append hname hequals]
    simp only [Option.bind_eq_bind, Option.bind_some]
    rw [dropWhile_append hbefore (noneAhead_cons (by decide) _)]
    simp only [afterFront?, if_true, Option.bind_some]
    rw [dropWhile_append hafter hspace]
    simp only [if_pos hquote]
    rw [hvalue.read hquote (by simp only [List.length_append, List.length_cons]; omega)]
    simp only [Option.bind_some, String.ofList_toList]
    rfl

/-- Behind a name there is a blank in front of attributes, so no name goes on. -/
theorem Attributes.noneAhead {s : List Char} {as : List (String × String)} (h : Attributes s as)
    {blanks rest : List Char} (hblanks : Spaces blanks) (hrest : NoneAhead isNameChar rest) :
    NoneAhead isNameChar (s ++ (blanks ++ rest)) := by
  have hahead {blanks : List Char} (hblanks : Spaces blanks) {rest : List Char}
      (hrest : blanks = [] → NoneAhead isNameChar rest) : NoneAhead isNameChar (blanks ++ rest) := by
    cases blanks with
    | nil => exact hrest rfl
    | cons b blanks => exact noneAhead_cons (isNameChar_of_isSpace (hblanks b List.mem_cons_self)) _
  cases h with
  | nil => exact hahead hblanks fun _ => hrest
  | cons hne hfirst ha h =>
      rw [List.append_assoc]
      exact hahead hfirst fun hnil => absurd hnil hne

/-- Attributes are read up to what follows the blanks behind them. -/
theorem Attributes.read {s : List Char} {as : List (String × String)} (h : Attributes s as) {fuel : ℕ}
    (hfuel : s.length < fuel) {blanks rest : List Char} (hblanks : Spaces blanks)
    (hspace : NoneAhead isSpace rest) (hstart : NoneAhead isNameStart rest) :
    readAttributes fuel (s ++ (blanks ++ rest)) = some (as, rest) := by
  induction h generalizing fuel with
  | nil =>
      obtain ⟨fuel, rfl⟩ := Nat.exists_eq_succ_of_ne_zero (Nat.ne_zero_of_lt hfuel)
      have hnone : ¬ rest.head?.any isNameStart = true := by
        cases rest with
        | nil => decide
        | cons c rest => simpa using hstart c rfl
      rw [List.nil_append, readAttributes, dropWhile_append hblanks hspace, if_neg hnone]
  | @cons first s t a as hne hfirst ha _ ih =>
      obtain ⟨fuel, rfl⟩ := Nat.exists_eq_succ_of_ne_zero (Nat.ne_zero_of_lt hfuel)
      obtain ⟨⟨c, u, rfl, hc⟩, hread⟩ := ha.read
      obtain ⟨b, first, rfl⟩ := List.exists_cons_of_ne_nil hne
      have hdrop : ((b :: first) ++ (c :: u ++ t) ++ (blanks ++ rest)).dropWhile isSpace =
          c :: u ++ (t ++ (blanks ++ rest)) := by
        rw [List.append_assoc, dropWhile_append hfirst, List.append_assoc]
        exact noneAhead_cons (isSpace_of_isNameStart hc) _
      have hblank : isSpace b = true := hfirst b List.mem_cons_self
      have hlength : t.length < fuel := by
        simp only [List.length_append, List.length_cons] at hfuel
        omega
      rw [readAttributes, hdrop, if_pos (by simpa using hc), if_pos (by simpa using hblank), hread]
      simp only [Option.bind_eq_bind, Option.bind_some]
      rw [ih hlength]
      rfl

/-- What follows the front of a tag: a character that neither is blank nor stands in names. -/
def Follows (rest : List Char) : Prop := NoneAhead isSpace rest ∧ NoneAhead isNameChar rest

theorem follows_cons {c : Char} (hspace : isSpace c = false) (hname : isNameChar c = false)
    (s : List Char) : Follows (c :: s) :=
  ⟨noneAhead_cons hspace s, noneAhead_cons hname s⟩

/-- The front of a tag is read. -/
theorem TagFront.read {front : List Char} {name : String} {as : List (String × String)}
    (h : TagFront front name as) : ∃ c t, front = '<' :: c :: t ∧ isNameStart c = true ∧
      ∀ rest, Follows rest → readTagFront (c :: t ++ rest) = some (name, as, rest) := by
  obtain @⟨name, text, blanks, as, hname, has, hdistinct, hblanks⟩ := h
  obtain ⟨c, t, ht, hc⟩ := isName.exists_cons hname
  refine ⟨c, t ++ (text ++ blanks), by rw [ht]; rfl, hc, fun rest hrest => ?_⟩
  have hstart : NoneAhead isNameStart rest := fun d hd => by
    refine Bool.eq_false_iff.2 fun hnot => ?_
    exact absurd (hrest.2 d hd) (by simp [isNameChar_of_isNameStart hnot])
  rw [← List.cons_append, ← ht, List.append_assoc, List.append_assoc, readTagFront,
    readName_append hname (has.noneAhead hblanks hrest.2)]
  simp only [Option.bind_eq_bind, Option.bind_some]
  rw [has.read (by simp only [List.length_append]; omega) hblanks hrest.1 hstart]
  simp only [Option.bind_some, if_pos hdistinct, String.ofList_toList]
  rfl

/-! ### Contents are read -/

/-- The name of an instruction ends where its body starts. -/
theorem noneAhead_instruction {body : List Char} (h : ∀ c ∈ body.head?, isSpace c = true)
    (rest : List Char) : NoneAhead isNameChar (body ++ ("?>".toList ++ rest)) := by
  cases body with
  | nil => exact noneAhead_cons (by decide) _
  | cons b body => exact noneAhead_cons (isNameChar_of_isSpace (h b rfl)) _

/-- An aside starts with a mark that is no tag's, and what follows it is found. -/
theorem Aside.read {a : List Char} (h : Aside a) :
    (∃ t, a = "<!--".toList ++ t ∧ ∀ rest, afterComment? (t ++ rest) = some rest) ∨
      ∃ t, a = "<?".toList ++ t ∧ ∀ rest, afterInstruction? (t ++ rest) = some rest := by
  cases h with
  | @comment body h =>
      refine .inl ⟨_, rfl, fun rest => ?_⟩
      have hcut := cutAt?_of_first h ('>' :: rest)
      rw [afterComment?, List.append_assoc]
      exact (congrArg (Option.bind · _) hcut).trans rfl
  | @instruction name body hname hreserved hbody h =>
      refine .inr ⟨_, rfl, fun rest => ?_⟩
      have hall : body.head?.all isSpace = true := by
        cases body with
        | nil => rfl
        | cons b body => simpa using hbody b rfl
      rw [List.append_assoc, List.append_assoc, afterInstruction?,
        readName_append hname (noneAhead_instruction hbody rest)]
      simp only [Option.bind_eq_bind, Option.bind_some]
      rw [cutAt?_of_first h]
      simp only [Option.bind_some, if_pos (And.intro hreserved hall)]
      rfl

/-- What can follow a content: nothing, or an end tag. -/
def Ends (rest : List Char) : Prop := rest = [] ∨ ∃ t, rest = '<' :: '/' :: t

/-- No mark without the first character of a tag reaches beyond a content. -/
theorem not_prefix_append {mark s rest : List Char} (hmark : '<' ∉ mark) (h : ¬ mark <+: s)
    (hrest : Ends rest) : ¬ mark <+: s ++ rest := by
  intro hprefix
  rcases hrest with rfl | ⟨t, rfl⟩
  · exact h (List.append_nil s ▸ hprefix)
  · rcases Nat.lt_or_ge s.length mark.length with hlong | hshort
    · obtain ⟨more, hmore⟩ := hprefix
      have hat := congrArg (fun l => l[s.length]?) hmore
      simp only [List.getElem?_append_left hlong, List.getElem?_append_right (Nat.le_refl _),
        Nat.sub_self, List.getElem?_cons_zero] at hat
      exact hmark (List.mem_of_getElem? hat)
    · exact h (List.prefix_of_prefix_length_le hprefix ⟨_, rfl⟩ hshort)

/-- An element without content is read. -/
theorem TagFront.readElement_empty {front : List Char} {name : String} {as : List (String × String)}
    (h : TagFront front name as) : ∃ c t, front = '<' :: c :: t ∧ isNameStart c = true ∧
      ∀ content rest, readElement content (c :: t ++ '/' :: '>' :: rest) =
        some (.element name as [], rest) := by
  obtain ⟨c, t, hfront, hc, hread⟩ := h.read
  refine ⟨c, t, hfront, hc, fun content rest => ?_⟩
  rw [readElement, hread _ (follows_cons (by decide) (by decide) _)]
  rfl

/-- An element is read if its content is. -/
theorem TagFront.readElement_full {front : List Char} {name : String} {as : List (String × String)}
    (h : TagFront front name as) : ∃ c t, front = '<' :: c :: t ∧ isNameStart c = true ∧
      ∀ (content : List Char → Option (List Item × List Char)) (inner blanks rest : List Char)
        (inside : List Item), (∀ tail, Ends tail → content (inner ++ tail) = some (inside, tail)) →
        Spaces blanks → readElement content
          (c :: t ++ '>' :: (inner ++ '<' :: '/' :: (name.toList ++ (blanks ++ '>' :: rest)))) =
            some (.element name as inside, rest) := by
  obtain ⟨c, t, hfront, hc, hread⟩ := h.read
  refine ⟨c, t, hfront, hc, fun content inner blanks rest inside hcontent hblanks => ?_⟩
  have hend := afterFront?_append ('<' :: '/' :: name.toList) (blanks ++ '>' :: rest)
  simp only [List.cons_append] at hend
  rw [readElement, hread _ (follows_cons (by decide) (by decide) _)]
  simp only [Option.bind_eq_bind, Option.bind_some]
  rw [hcontent _ (.inr ⟨_, rfl⟩)]
  simp only [Option.bind_some]
  rw [hend]
  simp only [Option.bind_some]
  rw [dropWhile_append hblanks (noneAhead_cons (by decide) _)]
  rfl

/-- Behind the first mark of a tag the reader takes what follows for an element. -/
theorem readContent_element {fuel : ℕ} {c : Char} {s : List Char} (hc : isNameStart c = true) :
    readContent (fuel + 1) ('<' :: c :: s) = (readElement (readContent fuel) (c :: s)).bind fun (e, t) =>
      (readContent fuel t).bind fun (items, t) => some (e :: items, t) := by
  have hne (d : Char) (hd : isNameStart d = false) : ¬ d = c := fun h => by
    rw [← h, hd] at hc
    exact absurd hc (by decide)
  have hfront (d : Char) (more : List Char) (hd : isNameStart d = false) :
      afterFront? (d :: more) (c :: s) = none := by
    rw [afterFront?, if_neg (hne d hd)]
  have hslash : ¬ startsWith ['/'] (c :: s) = true := by
    rw [startsWith, hfront '/' [] (by decide)]
    decide
  rw [readContent, if_neg (by decide), if_neg (by decide), if_neg hslash,
    show "![CDATA[".toList = '!' :: "[CDATA[".toList from rfl, hfront '!' _ (by decide),
    show "!--".toList = '!' :: "--".toList from rfl, hfront '!' _ (by decide),
    hfront '?' _ (by decide)]
  rfl

/-- A content is read up to what follows it. -/
theorem Content.read {s : List Char} {items : List Item} (h : Content s items) {fuel : ℕ}
    (hfuel : s.length < fuel) {rest : List Char} (hrest : Ends rest) :
    readContent fuel (s ++ rest) = some (items, rest) := by
  induction h generalizing fuel rest with
  | nil =>
      obtain ⟨fuel, rfl⟩ := Nat.exists_eq_succ_of_ne_zero (Nat.ne_zero_of_lt hfuel)
      rcases hrest with rfl | ⟨t, rfl⟩ <;> rfl
  | @char c s items hless hand hend _ ih =>
      obtain ⟨fuel, rfl⟩ := Nat.exists_eq_succ_of_ne_zero (Nat.ne_zero_of_lt hfuel)
      have hmark : ¬ startsWith "]]>".toList (c :: (s ++ rest)) = true := fun hstart =>
        not_prefix_append (by decide) hend hrest (startsWith_iff.1 hstart)
      rw [List.cons_append, readContent, if_neg hand, if_pos hless, if_neg hmark,
        ih (Nat.lt_of_succ_lt_succ hfuel) hrest]
      rfl
  | reference hr _ ih =>
      obtain ⟨fuel, rfl⟩ := Nat.exists_eq_succ_of_ne_zero (Nat.ne_zero_of_lt hfuel)
      obtain ⟨t, rfl, hread⟩ := hr.read
      rw [List.append_assoc, List.cons_append, readContent, if_pos rfl, hread]
      simp only [Option.bind_eq_bind, Option.bind_some]
      rw [ih (by simp only [List.length_append, List.length_cons] at hfuel; omega) hrest]
      rfl
  | @verbatim body s items hbody _ ih =>
      obtain ⟨fuel, rfl⟩ := Nat.exists_eq_succ_of_ne_zero (Nat.ne_zero_of_lt hfuel)
      have hcut := cutAt?_of_first hbody (s ++ rest)
      simp only [List.append_assoc]
      rw [show "<![CDATA[".toList = '<' :: "![CDATA[".toList from rfl, List.cons_append, readContent,
        if_neg (by decide), if_neg (by decide), if_neg (by simp [startsWith, afterFront?]),
        afterFront?_append]
      simp only [Option.bind_eq_bind]
      rw [hcut]
      simp only [Option.bind_some]
      have hmark : "<![CDATA[".toList.length = 9 := rfl
      rw [ih (by simp only [List.length_append] at hfuel; omega) hrest]
      rfl
  | @aside a s items ha _ ih =>
      obtain ⟨fuel, rfl⟩ := Nat.exists_eq_succ_of_ne_zero (Nat.ne_zero_of_lt hfuel)
      rcases ha.read with ⟨t, rfl, hread⟩ | ⟨t, rfl, hread⟩
      · simp only [List.append_assoc]
        rw [show "<!--".toList = '<' :: "!--".toList from rfl, List.cons_append, readContent,
          if_neg (by decide), if_neg (by decide), if_neg (by simp [startsWith, afterFront?]),
          afterFront?_eq_none (by simp), afterFront?_append]
        simp only [Option.bind_eq_bind]
        have hmark : "<!--".toList.length = 4 := rfl
        rw [hread]
        exact ih (by simp only [List.length_append] at hfuel; omega) hrest
      · simp only [List.append_assoc]
        rw [show "<?".toList = '<' :: ['?'] from rfl, List.cons_append, readContent,
          if_neg (by decide), if_neg (by decide), if_neg (by simp [startsWith, afterFront?]),
          afterFront?_eq_none (by simp), afterFront?_eq_none (by simp), afterFront?_append]
        simp only [Option.bind_eq_bind]
        have hmark : "<?".toList.length = 2 := rfl
        rw [hread]
        exact ih (by simp only [List.length_append] at hfuel; omega) hrest
  | empty hfront _ ih =>
      obtain ⟨fuel, rfl⟩ := Nat.exists_eq_succ_of_ne_zero (Nat.ne_zero_of_lt hfuel)
      obtain ⟨c, t, rfl, hc, hread⟩ := hfront.readElement_empty
      simp only [List.append_assoc, List.cons_append] at hread ⊢
      simp only [List.length_append, List.length_cons] at hfuel
      rw [readContent_element hc, hread]
      simp only [Option.bind_some]
      rw [ih (by omega) hrest]
      rfl
  | element hfront _ hblanks _ ihinner ih =>
      obtain ⟨fuel, rfl⟩ := Nat.exists_eq_succ_of_ne_zero (Nat.ne_zero_of_lt hfuel)
      obtain ⟨c, t, rfl, hc, hread⟩ := hfront.readElement_full
      simp only [List.length_append, List.length_cons] at hfuel
      simp only [List.append_assoc, List.cons_append] at hread ⊢
      rw [readContent_element hc, hread _ _ _ _ _ (fun tail htail => ihinner (by omega) htail) hblanks]
      simp only [Option.bind_some]
      rw [ih (by omega) hrest]
      rfl

/-! ### Documents are read -/

/-- An element is read up to what follows it. -/
theorem Element.read {body : List Char} {e : Item} (h : Element body e) {fuel : ℕ}
    (hfuel : body.length ≤ fuel + 1) (rest : List Char) :
    ∃ c t, body = '<' :: c :: t ∧ isNameStart c = true ∧
      readElement (readContent fuel) (c :: t ++ rest) = some (e, rest) := by
  cases h with
  | empty hfront =>
      obtain ⟨c, t, rfl, hc, hread⟩ := hfront.readElement_empty
      refine ⟨c, t ++ ['/', '>'], rfl, hc, ?_⟩
      rw [← List.cons_append, List.append_assoc]
      exact hread _ rest
  | @full front inner blanks name as inside hfront hinner hblanks =>
      obtain ⟨c, t, rfl, hc, hread⟩ := hfront.readElement_full
      simp only [List.length_append, List.length_cons] at hfuel
      refine ⟨c, t ++ '>' :: (inner ++ '<' :: '/' :: (name.toList ++ (blanks ++ ['>']))), rfl, hc, ?_⟩
      have hinside := hread (readContent fuel) _ _ rest _
        (fun tail htail => hinner.read (by omega) htail) hblanks
      simp only [List.append_assoc, List.cons_append, List.nil_append] at hinside ⊢
      exact hinside

/-- What can stand after blanks, comments and instructions: nothing, or a tag. -/
def Halts (rest : List Char) : Prop := rest = [] ∨ ∃ c t, rest = '<' :: c :: t ∧ isNameStart c = true

theorem Halts.afterFront?_eq_none {mark more rest : List Char} {c : Char} (h : Halts rest)
    (hmark : mark = '<' :: c :: more) (hc : isNameStart c = false) : afterFront? mark rest = none := by
  subst hmark
  refine DesignRegistry.afterFront?_eq_none ?_
  rintro ⟨back, rfl⟩
  rcases h with hnil | ⟨d, t, hcons, hd⟩
  · exact absurd hnil (by simp)
  · simp only [List.cons_append, List.cons.injEq] at hcons
    rw [← hcons.2.1, hc] at hd
    exact absurd hd (by decide)

/-- Blanks, comments and instructions are passed over. -/
theorem Surrounding.read {s : List Char} (h : Surrounding s) {fuel : ℕ} (hfuel : s.length < fuel)
    {rest : List Char} (hrest : Halts rest) : afterSurrounding? fuel (s ++ rest) = some rest := by
  -- blanks in front are dropped before anything else is looked at
  have hdrop (c : Char) (s : List Char) (hc : isSpace c = true) (fuel : ℕ) :
      afterSurrounding? fuel (c :: s) = afterSurrounding? fuel s := by
    cases fuel with
    | zero => rfl
    | succ fuel => rw [afterSurrounding?, afterSurrounding?, List.dropWhile_cons_of_pos hc]
  induction h generalizing fuel with
  | nil =>
      obtain ⟨fuel, rfl⟩ := Nat.exists_eq_succ_of_ne_zero (Nat.ne_zero_of_lt hfuel)
      have hspace : NoneAhead isSpace rest := by
        rcases hrest with rfl | ⟨c, t, rfl, -⟩
        · exact fun c hc => absurd hc (by simp)
        · exact noneAhead_cons (by decide) _
      have hcomment : "<!--".toList = '<' :: '!' :: "--".toList := rfl
      have hinstruction : "<?".toList = ['<', '?'] := rfl
      rw [List.nil_append, afterSurrounding?, hspace.dropWhile_eq,
        hrest.afterFront?_eq_none hcomment (by decide),
        hrest.afterFront?_eq_none hinstruction (by decide)]
  | space hc _ ih =>
      rw [List.cons_append, hdrop _ _ hc]
      exact ih (Nat.lt_of_succ_lt hfuel)
  | @aside a s ha _ ih =>
      obtain ⟨fuel, rfl⟩ := Nat.exists_eq_succ_of_ne_zero (Nat.ne_zero_of_lt hfuel)
      rcases ha.read with ⟨t, rfl, hread⟩ | ⟨t, rfl, hread⟩
      · have hmark : "<!--".toList.length = 4 := rfl
        have hspace : NoneAhead isSpace ("<!--".toList ++ (t ++ (s ++ rest))) :=
          noneAhead_cons (by decide) _
        rw [List.append_assoc, List.append_assoc, afterSurrounding?, hspace.dropWhile_eq,
          afterFront?_append]
        simp only [Option.bind_eq_bind]
        rw [hread]
        exact ih (by simp only [List.length_append] at hfuel; omega)
      · have hmark : "<?".toList.length = 2 := rfl
        have hspace : NoneAhead isSpace ("<?".toList ++ (t ++ (s ++ rest))) :=
          noneAhead_cons (by decide) _
        rw [List.append_assoc, List.append_assoc, afterSurrounding?, hspace.dropWhile_eq,
          afterFront?_eq_none (by simp), afterFront?_append]
        simp only [Option.bind_eq_bind]
        rw [hread]
        exact ih (by simp only [List.length_append] at hfuel; omega)

/-- A declaration is passed over. -/
theorem Declaration.read {s : List Char} (h : Declaration s) (rest : List Char) :
    afterDeclaration? (s ++ rest) = some rest := by
  obtain @⟨text, blanks, as, has, -, hdeclared, hblanks⟩ := h
  -- there are attributes, so a blank follows the mark
  obtain ⟨b, t, hbt, hb⟩ : ∃ b t, text = b :: t ∧ isSpace b = true := by
    cases has with
    | nil => exact absurd hdeclared (by decide)
    | @cons first s t a as hne hfirst =>
        obtain ⟨b, first, rfl⟩ := List.exists_cons_of_ne_nil hne
        exact ⟨b, _, rfl, hfirst b List.mem_cons_self⟩
  have hmark := afterFront?_append "<?xml".toList (text ++ (blanks ++ ("?>".toList ++ rest)))
  have hread : readAttributes ((t ++ (blanks ++ ("?>".toList ++ rest))).length + 2)
      (text ++ (blanks ++ ("?>".toList ++ rest))) = some (as, "?>".toList ++ rest) :=
    has.read (by simp only [hbt, List.length_append, List.length_cons]; omega) hblanks
      (noneAhead_cons (by decide) _) (noneAhead_cons (by decide) _)
  rw [hbt, List.cons_append] at hmark hread
  rw [hbt, afterDeclaration?]
  simp only [List.append_assoc, List.cons_append]
  rw [hmark]
  simp only [if_pos hb, Option.bind_eq_bind]
  rw [hread]
  simp only [Option.bind_some, if_pos hdeclared]
  exact afterFront?_append _ rest

/-- Without a declaration nothing is passed over: no instruction has the reserved name. -/
theorem Surrounding.afterDeclaration? {front : List Char} (h : Surrounding front) {rest : List Char}
    (hrest : Halts rest) : Markup.afterDeclaration? (front ++ rest) = some (front ++ rest) := by
  have hspace {c : Char} {t : List Char}
      (hmark : afterFront? "<?xml".toList (front ++ rest) = some (c :: t)) : isSpace c = false := by
    have hwhole := eq_append_of_afterFront? hmark
    refine Bool.eq_false_iff.2 fun hc => ?_
    cases h with
    | nil =>
        rw [List.nil_append] at hwhole
        have hinstruction : "<?xml".toList = '<' :: '?' :: "xml".toList := rfl
        rw [List.nil_append, hrest.afterFront?_eq_none hinstruction (by decide)] at hmark
        exact absurd hmark (by simp)
    | space hblank =>
        rw [List.cons_append] at hwhole
        rw [(List.cons.inj hwhole).1] at hblank
        exact absurd hblank (by decide)
    | @aside a s ha _ =>
        cases ha with
        | comment => exact absurd (List.cons.inj (List.cons.inj hwhole).2).1 (by decide)
        | @instruction name body hname hreserved hbody =>
            simp only [List.append_assoc] at hwhole
            have htail : name ++ (body ++ ("?>".toList ++ (s ++ rest))) = "xml".toList ++ c :: t :=
              (List.cons.inj (List.cons.inj hwhole).2).2
            have hread := readName_append hname (noneAhead_instruction hbody (s ++ rest))
            have hxml := readName_append (s := "xml".toList) (by decide)
              (noneAhead_cons (isNameChar_of_isSpace hc) t)
            rw [htail] at hread
            obtain ⟨rfl, -⟩ := Prod.mk.inj (Option.some.inj (hread.symm.trans hxml))
            exact hreserved (by decide)
  rw [Markup.afterDeclaration?]
  split
  · next c t hmark => rw [if_neg (by simp [hspace hmark])]
  · rfl

/-- Documents are read as what they denote. -/
theorem Document.read {text : String} {root : Item} (h : Document text root) :
    readDocument text = some root := by
  obtain ⟨hallowed, declaration, front, body, back, hparts, hdeclaration, hfront, hbody, hback⟩ := h
  have hall : text.toList.all isAllowed = true := List.all_eq_true.2 hallowed
  have hlength : body.length ≤ (body ++ back).length + 1 := by rw [List.length_append]; omega
  obtain ⟨c, t, hcons, hc, hread⟩ := hbody.read hlength back
  have hhalts : Halts (body ++ back) := .inr ⟨c, t ++ back, by rw [hcons]; rfl, hc⟩
  have hstart : afterDeclaration? (declaration ++ (front ++ (body ++ back))) =
      some (front ++ (body ++ back)) := by
    rcases hdeclaration with rfl | hdeclaration
    · exact hfront.afterDeclaration? hhalts
    · exact hdeclaration.read _
  have hbefore : afterSurrounding? ((front ++ (body ++ back)).length + 1) (front ++ (body ++ back)) =
      some (body ++ back) :=
    hfront.read (by rw [List.length_append]; omega) hhalts
  have hafter := hback.read (Nat.lt_succ_self _) (.inl rfl)
  rw [List.append_nil] at hafter
  rw [readDocument, if_pos hall, hparts, hstart]
  simp only [Option.bind_eq_bind, Option.bind_some]
  rw [hbefore]
  simp only [Option.bind_some]
  rw [hcons] at hread ⊢
  simp only [List.cons_append, List.length_cons] at hread ⊢
  rw [afterFront?, if_pos rfl, afterFront?]
  simp only [Option.bind_some, List.length_cons]
  rw [hread]
  simp only [Option.bind_some]
  rw [hafter]
  simp

/-- A document denotes one element. -/
theorem Document.unique {text : String} {root other : Item} (h : Document text root)
    (hother : Document text other) : other = root :=
  Option.some.inj (hother.read.symm.trans h.read)

end Markup

end DesignRegistry
