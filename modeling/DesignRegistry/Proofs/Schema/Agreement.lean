/-
**Checks of two values that agree.**

Some violations may be passed over, by their paths.  What is left of two reports is compared by path,
keyword and message.  Two values have reports that agree in this sense if they differ only at places
that are passed over: a schema whose keywords look at an object member by member, or at an array item by
item, hands each difference down to the check of the part, and what is reported beneath a path that is
passed over is passed over as well.

Main definitions:

* `Schema.kept` — what is left of a report;
* `Schema.Agree` — two checks of whose reports the same is left.

Main results:

* `Schema.agree_beneath` — checks at a path that is passed over agree;
* `Schema.agree_object`, `Schema.agree_put`, `Schema.agree_array` — **checks agree if those of the parts do**;
* `Schema.kept_ordered` — reports in order agree as those out of order do.
-/
import DesignRegistry.Proofs.Schema.Bound
import DesignRegistry.Proofs.Schema.Nodes
import DesignRegistry.Proofs.Schema.Place

set_option relaxedAutoImplicit false
set_option autoImplicit false

namespace DesignRegistry

namespace Schema

open Json

/-! ### What is left of a report -/

/-- What is left of a report without the paths that are passed over: path, keyword and message. -/
def kept (skip : String → Bool) (found : List Violation) :
    List (Lex (String × Lex (String × String))) :=
  (found.map Violation.key).filter fun k => !skip (ofLex k).1

section Kept

variable {skip : String → Bool} {found more : List Violation}

theorem kept_append (found more : List Violation) :
    kept skip (found ++ more) = kept skip found ++ kept skip more := by
  rw [kept, List.map_append, List.filter_append, kept, kept]

theorem kept_eq_nil (h : ∀ x ∈ found, skip x.path = true) : kept skip found = [] := by
  rw [kept, List.filter_eq_nil_iff]
  intro k hk
  obtain ⟨x, hx, rfl⟩ := List.mem_map.1 hk
  simp [Violation.key, h x hx]

/-- What is left is in order if the report is, and there is only one such order. -/
theorem kept_ordered (h : kept skip found = kept skip more) :
    kept skip (ordered Violation.le found) = kept skip (ordered Violation.le more) := by
  have hsorted : ∀ report : List Violation,
      (kept skip (ordered Violation.le report)).Pairwise (· ≤ ·) := fun report =>
    List.Pairwise.filter _ (List.pairwise_map.2 (pairwise_ordered_key report))
  have hperm : ∀ report : List Violation,
      (kept skip (ordered Violation.le report)).Perm (kept skip report) := by
    intro report
    rw [ordered_eq_insertionSort]
    exact ((List.perm_insertionSort _ report).map _).filter _
  refine List.Perm.eq_of_pairwise' (hsorted found) (hsorted more) ?_
  exact (hperm found).trans (h ▸ (hperm more).symm)

end Kept

/-! ### Checks that agree -/

/-- Two checks agree if the same is left of their reports; one that is stopped agrees with every other. -/
def Agree (skip : String → Bool) (x y : Outcome) : Prop :=
  ∀ found more, x = .ok found → y = .ok more → kept skip found = kept skip more

section Agree

variable {skip : String → Bool} {x y : Outcome}

theorem agree_refl (x : Outcome) : Agree skip x x := by
  intro found more h h'
  rw [Except.ok.inj (h.symm.trans h')]

theorem agree_ok {found more : List Violation} (h : kept skip found = kept skip more) :
    Agree skip (.ok found) (.ok more) := by
  intro a b ha hb
  rwa [← Except.ok.inj ha, ← Except.ok.inj hb]

theorem agree_append {found more found' more' : List Violation}
    (h : kept skip found = kept skip found') (h' : kept skip more = kept skip more') :
    kept skip (found ++ more) = kept skip (found' ++ more') := by
  rw [kept_append, kept_append, h, h']

theorem Agree.bind {f g : List Violation → Outcome} (h : Agree skip x y)
    (hnext : ∀ a b, kept skip a = kept skip b → Agree skip (f a) (g b)) :
    Agree skip (x >>= f) (y >>= g) := by
  intro found more hfound hmore
  obtain ⟨a, ha, hfound⟩ := exists_of_bind_eq_ok hfound
  obtain ⟨b, hb, hmore⟩ := exists_of_bind_eq_ok hmore
  exact hnext a b (h a b ha hb) found more hfound hmore

theorem agree_gather {α : Type} {f g : α → Outcome} {xs : List α}
    (h : ∀ x ∈ xs, Agree skip (f x) (g x)) : Agree skip (gather f xs) (gather g xs) := by
  induction xs with
  | nil => exact agree_refl _
  | cons x xs ih =>
      rw [List.forall_mem_cons] at h
      rw [gather_cons, gather_cons]
      exact h.1.bind fun _ _ hfirst => (ih h.2).bind fun _ _ hrest =>
        agree_ok (agree_append hfirst hrest)

theorem agree_gatherFrom {f g : ℕ → Json → Outcome} {change : Json → Json} {xs : List Json}
    (h : ∀ i, ∀ x ∈ xs, Agree skip (f i x) (g i (change x))) (i : ℕ) :
    Agree skip (gatherFrom f i xs) (gatherFrom g i (xs.map change)) := by
  induction xs generalizing i with
  | nil => exact agree_refl _
  | cons x xs ih =>
      rw [gatherFrom_eq, gatherFrom_eq, List.map_cons, List.zipIdx_cons, List.zipIdx_cons,
        gather_cons, gather_cons, ← gatherFrom_eq, ← gatherFrom_eq]
      exact (h i x List.mem_cons_self).bind fun _ _ hfirst =>
        (ih (fun j y hy => h j y (List.mem_cons_of_mem x hy)) (i + 1)).bind fun _ _ hrest =>
          agree_ok (agree_append hfirst hrest)

/-- Checks at a path that is passed over agree, since all that they report is beneath it. -/
theorem agree_beneath {path : String} (hx : Gives (Beneath path) x) (hy : Gives (Beneath path) y)
    (hskip : ∀ longer : String, path.toList <+: longer.toList → skip longer = true) :
    Agree skip x y := by
  intro found more hfound hmore
  rw [kept_eq_nil fun v hv => hskip v.path (hx found hfound v hv),
    kept_eq_nil fun v hv => hskip v.path (hy more hmore v hv)]

end Agree

/-! ### Keywords -/

theorem get?_key_eq_none {schema : Members} {k : Keyword} (h : k ∉ keywordsOf schema) :
    Members.get? k.key schema = none := by
  rw [keywordsOf, List.mem_filter, not_and] at h
  simpa [Members.has] using h k.mem_all

section Keywords

variable {skip : String → Bool} {check : Checker} {schema : Members} {v w : Json} {path : String}

theorem hasType_congr (h : v.kind = w.kind) : hasType v = hasType w := by
  funext name
  rw [hasType, hasType, h]

/-- Values of one kind have the same violation of a type. -/
theorem typeViolation_congr (schema : Members) (path : String) (h : v.kind = w.kind) :
    (typeViolation? schema v path).map Violation.key =
      (typeViolation? schema w path).map Violation.key := by
  rw [typeViolation?, typeViolation?]
  split
  · dsimp only
    rw [hasType_congr h, h]
    split <;> rfl
  · rw [hasType_congr h, h]
    split <;> rfl
  · rfl

/-- The keywords that look at a value as a whole, beyond its kind. -/
def wholeKeywords : List Keyword := [.allOf, .anyOf, .oneOf, .condition, .const, .enum]

/-- Two values of one kind are checked alike if the keywords for the kind agree, and there are no others
but a type. -/
theorem agree_checkKeywords (hnone : ∀ k ∈ wholeKeywords, k ∉ keywordsOf schema)
    (hkind : v.kind = w.kind)
    (h : Agree skip (checkByKind check schema v path) (checkByKind check schema w path)) :
    Agree skip (checkKeywords check schema v path) (checkKeywords check schema w path) := by
  have hget : ∀ k ∈ wholeKeywords, Members.get? k.key schema = none :=
    fun k hk => get?_key_eq_none (hnone k hk)
  simp only [wholeKeywords, List.forall_mem_cons, Keyword.key] at hget
  obtain ⟨hall, hany, hone, hcondition, hconst, henum, -⟩ := hget
  have hviolated : ∀ u x, typeViolation? schema u path = some x →
      checkKeywords check schema u path = .ok [x] := by
    intro u x hx
    simp only [checkKeywords, checkAllOf, checkAnyOf, checkOneOf, checkCondition, constViolation?,
      enumViolation?, hall, hany, hone, hcondition, hconst, henum, Option.or_none, hx]
    rfl
  have htyped : ∀ u, typeViolation? schema u path = none →
      checkKeywords check schema u path = checkByKind check schema u path := by
    intro u hu
    simp only [checkKeywords, checkAllOf, checkAnyOf, checkOneOf, checkCondition, constViolation?,
      enumViolation?, hall, hany, hone, hcondition, hconst, henum, Option.or_none, hu]
    exact bind_pure (checkByKind check schema u path)
  have htype := typeViolation_congr schema path hkind
  cases hv : typeViolation? schema v path with
  | some x =>
      rw [hv, Option.map_some] at htype
      obtain ⟨y, hw, hkey⟩ := Option.map_eq_some_iff.1 htype.symm
      rw [hviolated v x hv, hviolated w y hw]
      refine agree_ok ?_
      rw [kept, kept, List.map_singleton, List.map_singleton, hkey]
  | none =>
      rw [hv, Option.map_none] at htype
      rwa [htyped v hv, htyped w (Option.map_eq_none_iff.1 htype.symm)]

/-- **Objects are checked alike if their members are:** they have the same keys, and the schema asks for
nothing but keys and members. -/
theorem agree_object {ms ns : Members} (hkeywords : keywordsOf schema = [.type, .required, .properties])
    (hkeys : Members.keys ns = Members.keys ms)
    (h : ∀ key s x y, Members.get? key (memberSchemas schema "properties") = some s →
      Members.get? key ms = some x → Members.get? key ns = some y →
      Agree skip (check x s (memberPath path key)) (check y s (memberPath path key))) :
    Agree skip (checkKeywords check schema (.obj ms) path)
      (checkKeywords check schema (.obj ns) path) := by
  refine agree_checkKeywords (by rw [hkeywords]; decide) rfl ?_
  have hhas : ∀ key, Members.has key ns = Members.has key ms := by
    intro key
    rw [Bool.eq_iff_iff, Members.has_iff, Members.has_iff, hkeys]
  have hpatterns : Members.get? "patternProperties" schema = none :=
    get?_key_eq_none (k := .patternProperties) (by rw [hkeywords]; decide)
  have hadditional : Members.get? "additionalProperties" schema = none :=
    get?_key_eq_none (k := .additionalProperties) (by rw [hkeywords]; decide)
  have hobject : ∀ us : Members, checkByKind check schema (.obj us) path = do
      let missing ← checkRequired schema path us
      let named ← checkProperties check schema path us
      return missing ++ named := by
    intro us
    have hmatched : ∀ keys, checkPatterns check path us keys
        (ordered (fun a b => decide (a.1 ≤ b.1)) (memberSchemas schema "patternProperties")) =
          .ok ([], []) := by
      intro keys
      rw [memberSchemas, hpatterns]
      rfl
    rw [checkByKind, checkObject]
    refine bind_congr fun missing => bind_congr fun named => ?_
    simp only [hmatched, checkAdditional, hadditional]
    change (Except.ok (missing ++ named ++ [] ++ []) : Outcome) = _
    rw [List.append_nil, List.append_nil]
    rfl
  have hrequired : checkRequired schema path ns = checkRequired schema path ms := by
    simp only [checkRequired, hhas]
  rw [hobject, hobject, hrequired]
  refine (agree_refl _).bind fun _ _ hmissing => Agree.bind ?_ fun _ _ hnamed =>
    agree_ok (agree_append hmissing hnamed)
  refine agree_gather fun key _ => ?_
  cases hms : Members.get? key ms with
  | none =>
      have hns : Members.get? key ns = none := by
        rwa [Members.get?_eq_none_iff, hkeys, ← Members.get?_eq_none_iff]
      rw [hns]
      exact agree_refl _
  | some x =>
      obtain ⟨y, hns⟩ : ∃ y, Members.get? key ns = some y := by
        rw [← Option.isSome_iff_exists, ← Members.mem_keys_iff, hkeys, Members.mem_keys_iff, hms]
        rfl
      rw [hns]
      cases hs : Members.get? key (memberSchemas schema "properties") with
      | none => exact agree_refl _
      | some s => exact h key s x y hs hms hns

/-- An object is checked alike when a member is changed whose checks agree. -/
theorem agree_put {ms : Members} {key : String} {x y : Json}
    (hkeywords : keywordsOf schema = [.type, .required, .properties])
    (hx : Members.get? key ms = some x)
    (h : ∀ s, Members.get? key (memberSchemas schema "properties") = some s →
      Agree skip (check x s (memberPath path key)) (check y s (memberPath path key))) :
    Agree skip (checkKeywords check schema (.obj ms) path)
      (checkKeywords check schema (.obj (Members.put key y ms)) path) := by
  have hmem : key ∈ Members.keys ms := by
    rw [Members.mem_keys_iff, hx]
    rfl
  refine agree_object hkeywords (Members.keys_put_of_mem hmem y) fun k s u w hs hu hw => ?_
  by_cases hk : k = key
  · subst hk
    rw [hx] at hu
    rw [Members.get?_put_self] at hw
    rw [← Option.some.inj hu, ← Option.some.inj hw]
    exact h s hs
  · rw [Members.get?_put_of_ne hk, hu] at hw
    rw [Option.some.inj hw]
    exact agree_refl _

/-- **Arrays are checked alike if their items are:** the schema asks for nothing but items. -/
theorem agree_array {f : Json → Json} {xs : List Json} {s : Members}
    (hkeywords : keywordsOf schema = [.type, .items]) (hitems : Members.get? "items" schema = some (.obj s))
    (h : ∀ i, ∀ x ∈ xs, Agree skip (check x (.obj s) (itemPath path i))
      (check (f x) (.obj s) (itemPath path i))) :
    Agree skip (checkKeywords check schema (.arr xs) path)
      (checkKeywords check schema (.arr (xs.map f)) path) := by
  refine agree_checkKeywords (by rw [hkeywords]; decide) rfl ?_
  have hfew : Members.get? "minItems" schema = none :=
    get?_key_eq_none (k := .minItems) (by rw [hkeywords]; decide)
  have hmany : Members.get? "maxItems" schema = none :=
    get?_key_eq_none (k := .maxItems) (by rw [hkeywords]; decide)
  have hunique : Members.get? "uniqueItems" schema = none :=
    get?_key_eq_none (k := .uniqueItems) (by rw [hkeywords]; decide)
  have harray : ∀ us : List Json, checkByKind check schema (.arr us) path =
      gatherFrom (fun i x => check x (.obj s) (itemPath path i)) 0 us := by
    intro us
    simp only [checkByKind, checkArray, checkLeast, checkMost, keyword?, checkUnique, checkItems,
      hfew, hmany, hunique, hitems]
    exact bind_pure (gatherFrom (fun i x => check x (.obj s) (itemPath path i)) 0 us)
  rw [harray, harray]
  exact agree_gatherFrom (fun i x hx => h i x hx) 0

end Keywords

/-! ### Checks -/

section Checks

variable {skip : String → Bool} {root v w : Json} {schema : Members} {path : String}

theorem agree_checkAt {s : Json} (h : ∀ fuel, Agree skip (checkNode (checkAt root fuel) root v s path)
      (checkNode (checkAt root fuel) root w s path)) (fuel : ℕ) :
    Agree skip (checkAt root fuel v s path) (checkAt root fuel w s path) := by
  cases fuel with
  | zero => exact agree_refl _
  | succ fuel => exact h fuel

theorem agree_checkAt_keywords (href : Members.get? "$ref" schema = none)
    (h : ∀ fuel, Agree skip (checkKeywords (checkAt root fuel) schema v path)
      (checkKeywords (checkAt root fuel) schema w path)) (fuel : ℕ) :
    Agree skip (checkAt root fuel v (.obj schema) path) (checkAt root fuel w (.obj schema) path) := by
  refine agree_checkAt (fun fuel => ?_) fuel
  rw [checkNode, checkNode]
  simp only [href]
  exact h fuel

theorem agree_checkAt_reference {r : String} {target : Json}
    (href : Members.get? "$ref" schema = some (.str r)) (htarget : root.resolve r = .ok target)
    (h : ∀ fuel, Agree skip (checkAt root fuel v target path) (checkAt root fuel w target path))
    (fuel : ℕ) :
    Agree skip (checkAt root fuel v (.obj schema) path) (checkAt root fuel w (.obj schema) path) := by
  refine agree_checkAt (fun fuel => ?_) fuel
  rw [checkNode, checkNode]
  simp only [href, checkReference, htarget]
  exact h fuel

/-- Validations agree if the checks to every depth do. -/
theorem kept_of_validate {schema : Json} {found more : List Violation}
    (h : ∀ fuel, Agree skip (checkAt root fuel v schema path) (checkAt root fuel w schema path))
    (hv : validate root schema v path = .ok found) (hw : validate root schema w path = .ok more) :
    kept skip found = kept skip more := by
  obtain ⟨fuel, found, hcheck, rfl⟩ := validate_eq_ok_iff.1 hv
  obtain ⟨fuel', more, hcheck', rfl⟩ := validate_eq_ok_iff.1 hw
  -- the greater of the two depths will do for both
  exact kept_ordered (h (max fuel fuel') found more
    (follows_checkAt_of_le (Nat.le_max_left fuel fuel') v schema path found hcheck)
    (follows_checkAt_of_le (Nat.le_max_right fuel fuel') w schema path more hcheck'))

end Checks

end Schema

end DesignRegistry
