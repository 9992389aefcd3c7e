/-
**What is read off examples.**

An example is searched for names in front of values and for a variant in quotes, without being read as
markup.  A name is taken back to the nearest character that is no word character.  So of a name with dashes
only the last part is looked up, and the names that every component takes whatever follows their dash are
never recognised.  Of the variants that an example gives only the first is seen, and only one made of word
characters.

Main definitions:

* `Example.ValueAfter`, `Example.Gives`, `Example.IsAttribute` — a name is given, as the search takes it and
  as a whole name;
* `Example.ChoiceAt`, `Example.FirstChoice`, `Example.Shows` — a variant is chosen as the search takes it,
  and as it is written;
* `Example.WordChoices` — variants are given at most once, and in word characters.

Main results:

* `Example.mem_propNames_iff` — **the names that are found**;
* `Example.variant?_eq_some_iff` — **the variant that is found**;
* `Component.unknown_props_exact` — **which names are reported**;
* `Component.variants_exact` — **which variants are reported**.
-/
import DesignRegistry.Proofs.Json.Content
import DesignRegistry.Proofs.Json.Pointer
import DesignRegistry.Proofs.Schema.Order
import DesignRegistry.Proofs.Text.Pieces
import DesignRegistry.Registry.Validation

set_option relaxedAutoImplicit false
set_option autoImplicit false

namespace DesignRegistry

namespace Example

variable {text front before name v : List Char} {c q : Char}

/-! ### Names -/

/-- A name stands behind `before`, and a value follows it. -/
def ValueAfter (before name text : List Char) : Prop :=
  ∃ q after, opensValue q = true ∧ text = before ++ (name ++ '=' :: q :: after)

/-- A text gives a value to a run of word characters, as long as it is. -/
def Gives (text name : List Char) : Prop :=
  name ≠ [] ∧ (∀ c ∈ name, isWord c = true) ∧
    ∃ before, ValueAfter before name text ∧ ∀ c ∈ before.getLast?, isWord c = false

/-- A text gives a value to a name that begins where the name of an attribute begins. -/
def IsAttribute (text name : List Char) : Prop :=
  ∃ before, ValueAfter before name text ∧ ∀ c ∈ before.getLast?, isWord c = false ∧ c ≠ '-'

/-- Word characters give no value. -/
theorem not_gives_run (hfront : ∀ c ∈ front, isWord c = true) : ¬ Gives front name := by
  rintro ⟨-, -, before, ⟨q, after, -, rfl⟩, -⟩
  exact absurd (hfront '=' (by simp)) (by decide)

/-- Behind a character that is no word character the search begins anew: it gives a value to the run in
front of it, or what comes later does. -/
theorem gives_append_iff (hfront : ∀ c ∈ front, isWord c = true) (hc : isWord c = false) :
    Gives (front ++ c :: text) name ↔
      (front ≠ [] ∧ name = front ∧ c = '=' ∧ ∃ q after, opensValue q = true ∧ text = q :: after) ∨
        Gives text name := by
  constructor
  · rintro ⟨hne, hname, before, ⟨q, after, hq, htext⟩, hbefore⟩
    rcases List.append_eq_append_iff.1 htext with ⟨more, rfl, hrest⟩ | ⟨more, rfl, hrest⟩
    · -- the name comes behind the run
      cases more with
      | nil =>
          cases name with
          | nil => exact absurd rfl hne
          | cons d name =>
              obtain ⟨rfl, -⟩ := List.cons.inj hrest
              exact absurd (hname c List.mem_cons_self) (by simp [hc])
      | cons d more =>
          obtain ⟨rfl, rfl⟩ := List.cons.inj hrest
          refine .inr ⟨hne, hname, more, ⟨q, after, hq, rfl⟩, fun x hx => ?_⟩
          exact hbefore x (by rw [List.getLast?_append_cons, List.getLast?_cons, Option.mem_def.1 hx]; rfl)
    · -- the name is the run
      have hnil : before = [] := by
        rcases List.eq_nil_or_concat before with hnil | ⟨init, d, rfl⟩
        · exact hnil
        · have hd := hbefore d (by simp)
          exact absurd (hfront d (by simp)) (by simp [hd])
      subst hnil
      obtain ⟨rfl, rfl, rfl⟩ := run_unique hfront hc hname (by decide) htext
      exact .inl ⟨hne, rfl, rfl, q, after, hq, rfl⟩
  · rintro (⟨hne, rfl, rfl, q, after, hq, rfl⟩ | ⟨hne, hname, before, ⟨q, after, hq, rfl⟩, hbefore⟩)
    · exact ⟨hne, hfront, [], ⟨q, after, hq, rfl⟩, by simp⟩
    · refine ⟨hne, hname, front ++ c :: before, ⟨q, after, hq, by simp⟩, fun x hx => ?_⟩
      rw [List.getLast?_append_cons, List.getLast?_cons] at hx
      cases hlast : before.getLast? with
      | none =>
          rw [hlast] at hx
          obtain rfl := Option.some.inj hx
          exact hc
      | some d =>
          rw [hlast] at hx
          obtain rfl := Option.some.inj hx
          exact hbefore _ hlast

theorem isWord_of_opensValue (h : opensValue q = true) : isWord q = false ∧ q ≠ '=' := by
  simp only [opensValue, Bool.or_eq_true, beq_iff_eq] at h
  rcases h with (rfl | rfl) | rfl <;> decide

/-- The search, begun behind some word characters, finds what is given by these and the text together. -/
theorem mem_propNamesFrom {word : List Char} (hword : ∀ c ∈ word, isWord c = true) :
    name ∈ propNamesFrom word text ↔ Gives (word.reverse ++ text) name := by
  have hrun : ∀ {word : List Char}, (∀ c ∈ word, isWord c = true) →
      ∀ c ∈ word.reverse, isWord c = true := fun h c hc => h c (List.mem_reverse.1 hc)
  fun_induction propNamesFrom word text with
  | case1 word =>
      rw [List.append_nil]
      exact iff_of_false List.not_mem_nil (not_gives_run (hrun hword))
  | case2 word c cs hc ih =>
      have hmore : ∀ d ∈ c :: word, isWord d = true := by
        simpa [hc] using hword
      have hfound := ih hmore
      rwa [List.reverse_cons, List.append_assoc, List.singleton_append] at hfound
  | case3 word c hc hequals q rest hq ih =>
      obtain ⟨rfl, hne⟩ := hequals
      obtain ⟨hquote, hdiffers⟩ := isWord_of_opensValue hq
      have hrest : Gives (q :: rest) name ↔ Gives rest name :=
        (@gives_append_iff rest [] name q (by simp) hquote).trans (or_iff_right fun h => h.1 rfl)
      have hfound : name ∈ propNamesFrom [] rest ↔ Gives rest name := ih (by simp)
      rw [List.mem_cons, hfound, gives_append_iff (hrun hword) (by simpa using hc), hrest]
      refine or_congr_left ⟨?_, fun h => h.2.1⟩
      rintro rfl
      exact ⟨by simpa using hne, rfl, rfl, q, rest, hq, rfl⟩
  | case4 word c hc hequals q rest hq ih =>
      have hfound : name ∈ propNamesFrom [] (q :: rest) ↔ Gives (q :: rest) name := ih (by simp)
      rw [hfound, gives_append_iff (hrun hword) (by simpa using hc)]
      refine (or_iff_right ?_).symm
      rintro ⟨-, -, -, q', after, hopens, htext⟩
      exact hq ((List.cons.inj htext).1 ▸ hopens)
  | case5 word c hc hequals =>
      rw [gives_append_iff (hrun hword) (by simpa using hc)]
      refine iff_of_false List.not_mem_nil ?_
      rintro (⟨-, -, -, q, after, -, htext⟩ | hgives)
      · exact List.cons_ne_nil q after htext.symm
      · exact not_gives_run (by simp) hgives
  | case6 word c cs hc hequals ih =>
      have hfound : name ∈ propNamesFrom [] cs ↔ Gives cs name := ih (by simp)
      rw [hfound, gives_append_iff (hrun hword) (by simpa using hc)]
      refine (or_iff_right ?_).symm
      rintro ⟨hne, -, hmark, -⟩
      exact hequals ⟨hmark, by simpa using hne⟩

/-- **The names that are found** are those that are given a value, as long as they are. -/
theorem mem_propNames_iff {s n : String} : n ∈ propNames s ↔ Gives s.toList n.toList := by
  rw [propNames, List.mem_map]
  have hfound : n.toList ∈ propNamesFrom [] s.toList ↔ Gives s.toList n.toList :=
    mem_propNamesFrom (by simp)
  rw [← hfound]
  constructor
  · rintro ⟨cs, hcs, rfl⟩
    rwa [String.toList_ofList]
  · exact fun h => ⟨n.toList, h, String.ofList_toList⟩

/-- What is found is the name of an attribute, or what stands behind a dash in one. -/
theorem gives_iff : Gives text name ↔
    name ≠ [] ∧ (∀ c ∈ name, isWord c = true) ∧
      (IsAttribute text name ∨ ∃ before, ValueAfter (before ++ ['-']) name text) := by
  refine and_congr_right fun _ => and_congr_right fun _ => ?_
  constructor
  · rintro ⟨before, hvalue, hbefore⟩
    by_cases hdash : before.getLast? = some '-'
    · obtain ⟨front, rfl⟩ := List.getLast?_eq_some_iff.1 hdash
      exact .inr ⟨front, hvalue⟩
    · exact .inl ⟨before, hvalue, fun c hc => ⟨hbefore c hc, fun h => hdash (h ▸ hc)⟩⟩
  · rintro (⟨before, hvalue, hbefore⟩ | ⟨before, hvalue⟩)
    · exact ⟨before, hvalue, fun c hc => (hbefore c hc).1⟩
    · exact ⟨before ++ ['-'], hvalue, by simp; decide⟩

/-! ### Variants -/

/-- Behind `before` a text gives `variant` a word in quotes, which need not be of one kind. -/
def ChoiceAt (before v text : List Char) : Prop :=
  v ≠ [] ∧ (∀ c ∈ v, isWord c = true) ∧ ∃ q r after, isQuote q = true ∧ isQuote r = true
    ∧ text = before ++ ("variant=".toList ++ q :: (v ++ r :: after))

/-- The first word in quotes that a text gives to `variant`. -/
def FirstChoice (v text : List Char) : Prop :=
  ∃ before, ChoiceAt before v text ∧ ∀ front w, ChoiceAt front w text → before.length ≤ front.length

/-- A text gives `variant` a value between two quotes of one kind. -/
def Shows (v text : List Char) : Prop :=
  (∀ c ∈ v, isQuote c = false) ∧
    ∃ q, isQuote q = true ∧ "variant=".toList ++ q :: (v ++ [q]) <:+: text

/-- A text gives a value to `variant` once, and a word. -/
structure WordChoices (text : List Char) : Prop where
  once : ∀ {front back front' back'}, text = front ++ ("variant=".toList ++ back) →
    text = front' ++ ("variant=".toList ++ back') → front = front'
  word : ∀ {v}, Shows v text → v ≠ [] ∧ ∀ c ∈ v, isWord c = true

theorem isWord_of_isQuote (h : isQuote q = true) : isWord q = false := by
  simp only [isQuote, Bool.or_eq_true, beq_iff_eq] at h
  rcases h with rfl | rfl <;> decide

theorem quotedWord?_eq_some_iff : quotedWord? text = some v ↔
    v ≠ [] ∧ (∀ c ∈ v, isWord c = true) ∧ ∃ q r after, isQuote q = true ∧ isQuote r = true
      ∧ text = q :: (v ++ r :: after) := by
  constructor
  · intro h
    cases text with
    | nil => exact absurd h (by simp [quotedWord?])
    | cons q rest =>
        cases hrest : rest.dropWhile isWord with
        | nil => exact absurd h (by simp [quotedWord?, hrest])
        | cons r after =>
            simp only [quotedWord?, hrest, Option.ite_none_right_eq_some, Bool.and_eq_true,
              Bool.not_eq_true', List.isEmpty_eq_false_iff, Option.some.injEq] at h
            obtain ⟨⟨⟨hq, hr⟩, hne⟩, rfl⟩ := h
            refine ⟨hne, List.all_eq_true.1 (List.all_takeWhile), q, r, after, hq, hr, ?_⟩
            rw [← hrest, List.takeWhile_append_dropWhile]
  · rintro ⟨hne, hv, q, r, after, hq, hr, rfl⟩
    have hstop := isWord_of_isQuote hr
    simp [quotedWord?, takeWhile_run hv hstop, dropWhile_run hv hstop, hq, hr, hne]

theorem choiceAt_nil_iff :
    ChoiceAt [] v text ↔ (afterFront? "variant=".toList text).bind quotedWord? = some v := by
  rw [Option.bind_eq_some_iff]
  constructor
  · rintro ⟨hne, hv, q, r, after, hq, hr, rfl⟩
    exact ⟨_, afterFront?_append _ _, quotedWord?_eq_some_iff.2 ⟨hne, hv, q, r, after, hq, hr, rfl⟩⟩
  · rintro ⟨rest, hrest, hword⟩
    obtain ⟨hne, hv, q, r, after, hq, hr, rfl⟩ := quotedWord?_eq_some_iff.1 hword
    exact ⟨hne, hv, q, r, after, hq, hr, by rw [eq_append_of_afterFront? hrest, List.nil_append]⟩

theorem choiceAt_cons_iff {d : Char} :
    ChoiceAt (d :: before) v (c :: text) ↔ c = d ∧ ChoiceAt before v text := by
  simp only [ChoiceAt, List.cons_append, List.cons.injEq]
  constructor
  · rintro ⟨hne, hv, q, r, after, hq, hr, hchar, htext⟩
    exact ⟨hchar, hne, hv, q, r, after, hq, hr, htext⟩
  · rintro ⟨hchar, hne, hv, q, r, after, hq, hr, htext⟩
    exact ⟨hne, hv, q, r, after, hq, hr, hchar, htext⟩

theorem not_choiceAt_empty : ¬ ChoiceAt before v [] := by
  rintro ⟨-, -, q, r, after, -, -, htext⟩
  exact absurd htext (by simp)

/-- A word at the start of a text is the first one; otherwise it is the first of what comes later. -/
theorem firstChoice_cons_iff : FirstChoice v (c :: text) ↔
    ChoiceAt [] v (c :: text) ∨ (∀ w, ¬ ChoiceAt [] w (c :: text)) ∧ FirstChoice v text := by
  constructor
  · rintro ⟨before, hchoice, hfirst⟩
    cases before with
    | nil => exact .inl hchoice
    | cons d before =>
        obtain ⟨rfl, hlater⟩ := choiceAt_cons_iff.1 hchoice
        refine .inr ⟨fun w hw => absurd (hfirst [] w hw) (Nat.not_succ_le_zero _), before, hlater, ?_⟩
        intro front w hw
        exact Nat.le_of_succ_le_succ (hfirst (c :: front) w (choiceAt_cons_iff.2 ⟨rfl, hw⟩))
  · rintro (hchoice | ⟨hnone, before, hlater, hfirst⟩)
    · exact ⟨[], hchoice, fun _ _ _ => Nat.zero_le _⟩
    · refine ⟨c :: before, choiceAt_cons_iff.2 ⟨rfl, hlater⟩, fun front w hw => ?_⟩
      cases front with
      | nil => exact absurd hw (hnone w)
      | cons d front => exact Nat.succ_le_succ (hfirst front w (choiceAt_cons_iff.1 hw).2)

theorem variantIn?_eq_some_iff : variantIn? text = some v ↔ FirstChoice v text := by
  induction text with
  | nil =>
      refine iff_of_false (by simp [variantIn?]) ?_
      rintro ⟨before, hchoice, -⟩
      exact not_choiceAt_empty hchoice
  | cons c text ih =>
      rw [firstChoice_cons_iff, variantIn?]
      simp only [choiceAt_nil_iff]
      cases (afterFront? "variant=".toList (c :: text)).bind quotedWord? with
      | none => simpa using ih
      | some w => simp

/-- **The variant that is found** is the first word in quotes that is given for it. -/
theorem variant?_eq_some_iff {s w : String} :
    variant? s = some w ↔ FirstChoice w.toList s.toList := by
  rw [variant?, ← variantIn?_eq_some_iff, Option.map_eq_some_iff]
  constructor
  · rintro ⟨cs, hcs, rfl⟩
    rwa [String.toList_ofList]
  · exact fun h => ⟨w.toList, h, String.ofList_toList⟩

/-- Where `variant` is given once, and a word, what is shown is found. -/
theorem WordChoices.firstChoice (h : WordChoices text) (hv : Shows v text) : FirstChoice v text := by
  obtain ⟨hne, hword⟩ := h.word hv
  obtain ⟨-, q, hq, before, after, htext⟩ := hv
  have hsplit : text = before ++ ("variant=".toList ++ q :: (v ++ q :: after)) := by
    rw [← htext]
    simp only [List.append_assoc, List.cons_append, List.nil_append]
  refine ⟨before, ⟨hne, hword, q, q, after, hq, hq, hsplit⟩, ?_⟩
  rintro front w ⟨-, -, q', r, after', -, -, hother⟩
  rw [h.once hsplit hother]

/-- A text with one equals sign, behind `variant` and in front of a word in quotes. -/
theorem wordChoices_of_split {after : List Char} (hfront : '=' ∉ front) (hafter : '=' ∉ after)
    (hq : isQuote q = true) (hne : v ≠ []) (hv : ∀ c ∈ v, isWord c = true) :
    WordChoices (front ++ ("variant=".toList ++ q :: (v ++ q :: after))) := by
  have hmark : "variant=".toList = "variant".toList ++ ['='] := by decide
  have hmarked : ∀ front back, front ++ ("variant=".toList ++ back) =
      (front ++ "variant".toList) ++ '=' :: back := by simp [hmark]
  have hsigns : '=' ∉ front ++ "variant".toList ∧ '=' ∉ q :: (v ++ q :: after) := by
    have hquote : '=' ≠ q := by rintro rfl; exact absurd hq (by decide)
    have hword : '=' ∉ v := fun h => absurd (hv '=' h) (by decide)
    simp [hfront, hafter, hquote, hword]
  have hunique : ∀ {front' back}, front ++ ("variant=".toList ++ q :: (v ++ q :: after)) =
      front' ++ ("variant=".toList ++ back) → front = front' ∧ q :: (v ++ q :: after) = back := by
    intro front' back h
    rw [hmarked, hmarked, List.append_cons_inj_of_notMem hsigns.1 hsigns.2] at h
    exact ⟨List.append_cancel_right h.1, h.2.2⟩
  constructor
  · intro first back second back' hfirst hsecond
    rw [← (hunique hfirst).1, ← (hunique hsecond).1]
  · rintro v' ⟨hquotes, q', hq', before, after', htext⟩
    simp only [List.append_assoc, List.cons_append, List.nil_append] at htext
    obtain ⟨rfl, hrest⟩ := List.cons.inj (hunique htext.symm).2
    have hnoQuote : ∀ c ∈ v, (!isQuote c) = true := by
      intro c hc
      rw [Bool.not_eq_true', Bool.eq_false_iff]
      exact fun hquote => absurd (hv c hc) (by simp [isWord_of_isQuote hquote])
    have hstop : (!isQuote q) = false := by simp [hq]
    obtain ⟨rfl, -, -⟩ := run_unique hnoQuote hstop (by simpa using hquotes) hstop hrest
    exact ⟨hne, hv⟩

end Example

namespace Component

variable {component : Json} {i number other : Nat} {name w v text : String}

/-! ### Reports -/

/-- The error about a prop that an example gives. -/
def unknownPropError (component : Json) (number : Nat) (name : String) : String :=
  "Invalid prop '" ++ name ++ "' in example " ++ natText number ++ " of " ++ shownName component

/-- The error about a variant that an example chooses. -/
def unknownVariantError (component : Json) (w : String) : String :=
  "Invalid variant '" ++ w ++ "' in example of " ++ shownName component

/-- The warning about a variant that no example chooses. -/
def unusedVariantWarning (component : Json) (v : String) : String :=
  "unused variant '" ++ v ++ "' in " ++ shownName component

/-- A number at the end of a text, behind a blank, is read off the text. -/
theorem natText_behind_blank {front front' : String}
    (h : front ++ " " ++ natText number = front' ++ " " ++ natText other) :
    front = front' ∧ number = other := by
  have hlists := congrArg String.toList h
  simp only [String.toList_append, natText, String.toList_ofList, List.append_assoc] at hlists
  obtain ⟨hfront, -, hnumber⟩ :=
    Json.natDigits_behind (by decide : (' ').isDigit = false) (by decide) hlists
  exact ⟨String.toList_injective hfront, hnumber⟩

/-- An error about a prop tells the number of the example and the name. -/
theorem unknownPropError_inj {name' : String} :
    unknownPropError component number name = unknownPropError component other name' ↔
      number = other ∧ name = name' := by
  refine ⟨fun h => ?_, fun h => by rw [h.1, h.2]⟩
  have hblank : "' in example " = "' in example" ++ " " := by decide
  unfold unknownPropError at h
  have hcounted := (String.append_left_inj _).1 ((String.append_left_inj _).1 h)
  rw [hblank, ← String.append_assoc, ← String.append_assoc] at hcounted
  obtain ⟨hfront, hnumber⟩ := natText_behind_blank hcounted
  exact ⟨hnumber, (String.append_right_inj _).1 ((String.append_left_inj _).1 hfront)⟩

/-- What stands between the fixed parts of a message is told by the message. -/
theorem between_inj (front back rest : String) {name' : String} :
    front ++ name ++ back ++ rest = front ++ name' ++ back ++ rest ↔ name = name' :=
  (String.append_left_inj _).trans ((String.append_left_inj _).trans (String.append_right_inj _))

theorem unknownVariantError_inj {w' : String} :
    unknownVariantError component w = unknownVariantError component w' ↔ w = w' := by
  unfold unknownVariantError
  exact between_inj _ _ _

theorem unusedVariantWarning_inj {v' : String} :
    unusedVariantWarning component v = unusedVariantWarning component v' ↔ v = v' := by
  unfold unusedVariantWarning
  exact between_inj _ _ _

theorem unknownPropError_ne_unknownVariantError :
    unknownPropError component number name ≠ unknownVariantError component w := by
  intro h
  have hprop : "Invalid prop '" = "Invalid " ++ "prop '" := by decide
  have hvariant : "Invalid variant '" = "Invalid " ++ "variant '" := by decide
  unfold unknownPropError unknownVariantError at h
  rw [hprop, hvariant] at h
  simp only [String.append_assoc, String.append_right_inj] at h
  have hheads := congrArg (fun s => s.toList.head?) h
  have hp : "prop '".toList.head? = some 'p' := by decide
  have hv : "variant '".toList.head? = some 'v' := by decide
  simp only [String.toList_append, List.head?_append, hp, hv, Option.some_or] at hheads
  exact absurd (Option.some.inj hheads) (by decide)

theorem mem_exampleErrors_iff {error : String} : error ∈ exampleErrors component ↔
    ∃ i text, (examples component)[i]? = some text ∧
      (error ∈ unknownPropErrors component (i + 1) text
        ∨ error ∈ unknownVariantErrors component text) := by
  simp only [exampleErrors, List.mem_flatMap, Prod.exists, List.mem_zipIdx_iff_getElem?,
    List.mem_append]
  exact exists_comm

/-- No name that is found belongs to the open attributes: it has no dash. -/
theorem isStandardProp_of_gives (h : Example.Gives text.toList name.toList) :
    isStandardProp name = true ↔ name ∈ standardProps := by
  have hopen : ∀ {front : String}, '-' ∈ front.toList → Text.hasFront name front = false := by
    intro front hdash
    refine Bool.eq_false_iff.2 fun hfront => ?_
    have hword := h.2.1 '-' ((startsWith_iff.1 hfront).subset hdash)
    exact absurd hword (by decide)
  rw [isStandardProp, isOpenAttribute, hopen (by decide), hopen (by decide), Bool.or_false, Bool.or_false,
    List.contains_iff_mem]

theorem mem_unknownPropErrors_iff {error : String} : error ∈ unknownPropErrors component number text ↔
    listsProps component = true ∧ ∃ name, Example.Gives text.toList name.toList
      ∧ Json.Members.has name (props component) = false ∧ name ∉ standardProps
      ∧ unknownPropError component number name = error := by
  rw [unknownPropErrors, List.mem_ite_nil_right, List.mem_map]
  refine and_congr_right fun _ => exists_congr fun name => ?_
  rw [List.mem_filter, Example.mem_propNames_iff, and_assoc, Bool.and_eq_true, Bool.not_eq_true',
    Bool.not_eq_true', ← Bool.not_eq_true (isStandardProp name), and_assoc]
  refine and_congr_right fun hgives => and_congr_right fun _ => ?_
  rw [isStandardProp_of_gives hgives]
  rfl

theorem mem_unknownVariantErrors_iff {error : String} : error ∈ unknownVariantErrors component text ↔
    hasVariants component = true ∧ ∃ w, Example.FirstChoice w.toList text.toList
      ∧ w ∉ allowedVariants component ∧ unknownVariantError component w = error := by
  rw [unknownVariantErrors]
  cases hvariants : hasVariants component with
  | false => simp
  | true =>
      cases hfound : Example.variant? text with
      | none =>
          refine iff_of_false (by simp) ?_
          rintro ⟨-, w, hw, -⟩
          rw [← Example.variant?_eq_some_iff, hfound] at hw
          exact absurd hw (by simp)
      | some v =>
          have hfirst : ∀ w : String, Example.FirstChoice w.toList text.toList ↔ v = w := by
            intro w
            rw [← Example.variant?_eq_some_iff, hfound, Option.some.injEq]
          simp only [hfirst, true_and, exists_eq_left']
          by_cases hv : v ∈ allowedVariants component
          · simp [hv]
          · have hnot : ¬ (allowedVariants component).contains v = true := by
              rwa [List.contains_iff_mem]
            rw [if_neg hnot, List.mem_singleton]
            exact ⟨fun h => ⟨hv, h.symm⟩, fun h => h.2.symm⟩

/-- A name is reported in an example that gives it a value. -/
theorem unknownPropError_mem_iff : unknownPropError component (i + 1) name ∈ exampleErrors component ↔
    listsProps component = true ∧ ∃ text, (examples component)[i]? = some text
      ∧ Example.Gives text.toList name.toList
      ∧ Json.Members.has name (props component) = false ∧ name ∉ standardProps := by
  rw [mem_exampleErrors_iff]
  constructor
  · rintro ⟨j, text, htext, herror | herror⟩
    · obtain ⟨hprops, found, hgives, hdeclared, hstandard, hsame⟩ := mem_unknownPropErrors_iff.1 herror
      obtain ⟨hindex, rfl⟩ := unknownPropError_inj.1 hsame
      obtain rfl := Nat.succ.inj hindex
      exact ⟨hprops, text, htext, hgives, hdeclared, hstandard⟩
    · obtain ⟨-, w, -, -, hsame⟩ := mem_unknownVariantErrors_iff.1 herror
      exact absurd hsame.symm unknownPropError_ne_unknownVariantError
  · rintro ⟨hprops, text, htext, hgives, hdeclared, hstandard⟩
    exact ⟨i, text, htext, .inl (mem_unknownPropErrors_iff.2
      ⟨hprops, name, hgives, hdeclared, hstandard, rfl⟩)⟩

/-- A variant is reported that an example chooses first. -/
theorem unknownVariantError_mem_iff : unknownVariantError component w ∈ exampleErrors component ↔
    hasVariants component = true ∧ w ∉ allowedVariants component
      ∧ ∃ text ∈ examples component, Example.FirstChoice w.toList text.toList := by
  rw [mem_exampleErrors_iff]
  constructor
  · rintro ⟨i, text, htext, herror | herror⟩
    · obtain ⟨-, name, -, -, -, hsame⟩ := mem_unknownPropErrors_iff.1 herror
      exact absurd hsame unknownPropError_ne_unknownVariantError
    · obtain ⟨hvariants, v, hfirst, hallowed, hsame⟩ := mem_unknownVariantErrors_iff.1 herror
      obtain rfl := unknownVariantError_inj.1 hsame
      exact ⟨hvariants, hallowed, text, List.mem_of_getElem? htext, hfirst⟩
  · rintro ⟨hvariants, hallowed, text, htext, hfirst⟩
    obtain ⟨i, hi⟩ := List.mem_iff_getElem?.1 htext
    exact ⟨i, text, hi, .inr (mem_unknownVariantErrors_iff.2
      ⟨hvariants, w, hfirst, hallowed, rfl⟩)⟩

/-- A variant is said to be unused if no example chooses it first. -/
theorem unusedVariantWarning_mem_iff (h : hasVariants component = true) :
    unusedVariantWarning component v ∈ variantWarnings component ↔
      examples component ≠ [] ∧ v ∈ allowedVariants component
        ∧ ∀ text ∈ examples component, ¬ Example.FirstChoice v.toList text.toList := by
  have hlisted : ∀ v, v ∈ (sortedOnce (allowedVariants component)).filter
      (fun v => !((examples component).filterMap Example.variant?).contains v) ↔
        v ∈ allowedVariants component
          ∧ ∀ text ∈ examples component, ¬ Example.FirstChoice v.toList text.toList := by
    intro v
    rw [List.mem_filter, sortedOnce, Schema.mem_inOrder, List.mem_eraseDups, Bool.not_eq_true',
      ← Bool.not_eq_true, List.contains_iff_mem, List.mem_filterMap]
    simp only [Example.variant?_eq_some_iff, not_exists, not_and]
  have hshown : (!(examples component).isEmpty) = true ↔ examples component ≠ [] := by simp
  rw [variantWarnings, h, Bool.true_and, List.mem_ite_nil_right, hshown, List.mem_map, ← hlisted]
  refine and_congr_right fun _ => ⟨?_, fun hv => ⟨v, hv, rfl⟩⟩
  rintro ⟨v', hv', hsame⟩
  exact unusedVariantWarning_inj.1 hsame ▸ hv'

/-- Every name with one of the open beginnings is taken by all components. -/
theorem isStandardProp_append {front : String} (h : front = "aria-" ∨ front = "data-") (rest : String) :
    isStandardProp (front ++ rest) = true := by
  have hfront : Text.hasFront (front ++ rest) front = true :=
    startsWith_iff.2 (by rw [String.toList_append]; exact List.prefix_append _ _)
  rw [isStandardProp, isOpenAttribute]
  rcases h with rfl | rfl <;> simp [hfront]

/-- **Which names are reported.**  The error about a name in an example stands among the errors exactly
if props are listed, the example gives the name a value, it begins like the name of an attribute or behind
a dash in one, and it is neither listed nor among the named props that every component takes.  Since a name
is never found with a dash, that every component takes each name with `aria-` or `data-` in front makes no
difference. -/
theorem unknown_props_exact (component : Json) :
    (∀ i name, unknownPropError component (i + 1) name ∈ exampleErrors component ↔
      listsProps component = true ∧ ∃ text, (examples component)[i]? = some text
        ∧ (name.toList ≠ [] ∧ (∀ c ∈ name.toList, isWord c = true)
          ∧ (Example.IsAttribute text.toList name.toList
            ∨ ∃ before, Example.ValueAfter (before ++ ['-']) name.toList text.toList))
        ∧ Json.Members.has name (props component) = false ∧ name ∉ standardProps)
      ∧ ∀ rest, isStandardProp ("aria-" ++ rest) = true ∧ isStandardProp ("data-" ++ rest) = true := by
  refine ⟨fun i name => ?_, fun rest =>
    ⟨isStandardProp_append (.inl rfl) rest, isStandardProp_append (.inr rfl) rest⟩⟩
  simp only [← Example.gives_iff]
  exact unknownPropError_mem_iff

/-- A component without props, whose example gives it a name for accessibility. -/
def labelled : Json :=
  .obj [("name", .str "A"), ("props", .obj []), ("examples", .arr [.str "<A aria-label=\"x\"/>"])]

/-- An attribute that every component takes is reported, by the part of its name behind the dash. -/
theorem unknown_props_misnamed :
    isStandardProp "aria-label" = true ∧ exampleErrors labelled = [unknownPropError labelled 1 "label"]
      ∧ examples labelled = ["<A aria-label=\"x\"/>"]
      ∧ ¬ Example.IsAttribute "<A aria-label=\"x\"/>".toList "label".toList := by
  refine ⟨by decide, by decide +kernel, by decide, ?_⟩
  rintro ⟨before, ⟨q, after, -, htext⟩, hbefore⟩
  have hsplit : "<A aria-label=\"x\"/>".toList =
      ("<A aria-".toList ++ "label".toList) ++ '=' :: "\"x\"/>".toList := by decide
  rw [hsplit, ← List.append_assoc,
    List.append_cons_inj_of_notMem (by decide) (by decide)] at htext
  obtain rfl := List.append_cancel_right htext.1
  exact absurd rfl (hbefore '-' (by decide)).2

/-- **Which variants are reported.**  An allowed variant is said to be unused exactly if no example chooses
it first, and one that is not allowed is an error exactly if some example chooses it first.  So if each
example gives `variant` once, and a word, no variant that an example shows is said to be unused, and every
one that is shown and not allowed is an error. -/
theorem variants_exact (component : Json) (h : hasVariants component = true) :
    (∀ v, unusedVariantWarning component v ∈ variantWarnings component ↔
      examples component ≠ [] ∧ v ∈ allowedVariants component
        ∧ ∀ text ∈ examples component, ¬ Example.FirstChoice v.toList text.toList)
      ∧ (∀ w, unknownVariantError component w ∈ exampleErrors component ↔
        w ∉ allowedVariants component
          ∧ ∃ text ∈ examples component, Example.FirstChoice w.toList text.toList)
      ∧ ((∀ text ∈ examples component, Example.WordChoices text.toList) →
        (∀ v, unusedVariantWarning component v ∈ variantWarnings component →
          ∀ text ∈ examples component, ¬ Example.Shows v.toList text.toList)
        ∧ ∀ w, w ∉ allowedVariants component →
          (∃ text ∈ examples component, Example.Shows w.toList text.toList) →
            unknownVariantError component w ∈ exampleErrors component) := by
  refine ⟨fun v => unusedVariantWarning_mem_iff h,
    fun w => unknownVariantError_mem_iff.trans (and_iff_right h), fun hwords => ⟨?_, ?_⟩⟩
  · intro v hunused text htext hshows
    obtain ⟨-, -, hnone⟩ := (unusedVariantWarning_mem_iff h).1 hunused
    exact hnone text htext ((hwords text htext).firstChoice hshows)
  · rintro w hw ⟨text, htext, hshows⟩
    exact unknownVariantError_mem_iff.2 ⟨h, hw, text, htext, (hwords text htext).firstChoice hshows⟩

/-- A component with two variants and some examples. -/
def twoVariants (texts : List String) : Json :=
  .obj [("name", .str "A"),
    ("variants", .obj [("variant", .obj [("a", .str "x"), ("b", .str "y")])]),
    ("examples", .arr (texts.map .str))]

/-- Examples that show one of two variants and another. -/
def shownOnce : Json := twoVariants ["<A variant=\"a\"/>", "<A variant='c'/>"]

/-- The one that is not shown is said to be unused, the one that is not allowed is an error. -/
theorem variants_exact_words :
    hasVariants shownOnce = true ∧ (∀ text ∈ examples shownOnce, Example.WordChoices text.toList)
      ∧ unusedVariantWarning shownOnce "b" ∈ variantWarnings shownOnce
      ∧ (∀ text ∈ examples shownOnce, ¬ Example.Shows "b".toList text.toList)
      ∧ unknownVariantError shownOnce "c" ∈ exampleErrors shownOnce := by
  have hvariants : hasVariants shownOnce = true := by decide
  have hexamples : examples shownOnce = ["<A variant=\"a\"/>", "<A variant='c'/>"] := by decide
  have ha : "<A variant=\"a\"/>".toList =
      "<A ".toList ++ ("variant=".toList ++ '"' :: ("a".toList ++ '"' :: "/>".toList)) := by decide
  have hc : "<A variant='c'/>".toList =
      "<A ".toList ++ ("variant=".toList ++ '\'' :: ("c".toList ++ '\'' :: "/>".toList)) := by decide
  have hwords : ∀ text ∈ examples shownOnce, Example.WordChoices text.toList := by
    rw [hexamples]
    intro text htext
    rcases List.mem_cons.1 htext with rfl | htext
    · rw [ha]
      exact Example.wordChoices_of_split (by decide) (by decide) (by decide) (by decide) (by decide)
    · obtain rfl := List.mem_singleton.1 htext
      rw [hc]
      exact Example.wordChoices_of_split (by decide) (by decide) (by decide) (by decide) (by decide)
  obtain ⟨-, -, hshown⟩ := variants_exact shownOnce hvariants
  obtain ⟨hnone, hunknown⟩ := hshown hwords
  have hb : unusedVariantWarning shownOnce "b" ∈ variantWarnings shownOnce := by decide +kernel
  have hshows : Example.Shows "c".toList "<A variant='c'/>".toList :=
    ⟨by decide, '\'', by decide, "<A ".toList, "/>".toList, by decide⟩
  exact ⟨hvariants, hwords, hb, hnone "b" hb,
    hunknown "c" (by decide +kernel) ⟨"<A variant='c'/>", by rw [hexamples]; simp, hshows⟩⟩

/-- Examples that show two variants in one text, and one that is no word. -/
def shownTogether : Json :=
  twoVariants ["<A variant=\"a\"/><A variant=\"b\"/>", "<A variant=\"two-tone\"/>"]

/-- A variant that is shown is said to be unused, and one that is shown and not allowed is no error. -/
theorem variants_missed :
    (∃ text ∈ examples shownTogether, Example.Shows "b".toList text.toList)
      ∧ unusedVariantWarning shownTogether "b" ∈ variantWarnings shownTogether
      ∧ (∃ text ∈ examples shownTogether, Example.Shows "two-tone".toList text.toList)
      ∧ "two-tone" ∉ allowedVariants shownTogether ∧ exampleErrors shownTogether = [] := by
  refine ⟨⟨"<A variant=\"a\"/><A variant=\"b\"/>", by decide, by decide, '"', by decide, ?_⟩,
    by decide +kernel, ⟨"<A variant=\"two-tone\"/>", by decide, by decide, '"', by decide, ?_⟩,
    by decide +kernel, by decide +kernel⟩
  · exact ⟨"<A variant=\"a\"/><A ".toList, "/>".toList, by decide⟩
  · exact ⟨"<A ".toList, "/>".toList, by decide⟩

end Component

end DesignRegistry
