/-
**Checks do not see the order of keys.**

Two values that differ in the order of keys only are checked side by side.  Members are visited in the order
of their keys, and not in the order in which they are written; equality by value does not see that order
either.  So both checks go the same way: they are stopped by the same fault, or they report the same
violations in the same order, of values that differ in the order of keys only.  Putting reports in order
changes nothing about this, since violations are compared by what they say and not by their values.

Main definitions:

* `Schema.Mirrors` — computations with the same fault or related results;
* `Schema.Violation.Corresponds` — violations that say the same, of values with keys in another order.

Main results:

* `Schema.blind_checkAt` — **checks do not see the order of keys**;
* `Schema.validate_reordered` — **neither do validations**.
-/
import DesignRegistry.Proofs.Json.Reordered
import DesignRegistry.Proofs.Schema.Agreement

set_option relaxedAutoImplicit false
set_option autoImplicit false

namespace DesignRegistry

namespace Schema

open Json

/-! ### Computations side by side -/

/-- Two computations are stopped by the same fault, or give related results. -/
inductive Mirrors {α β : Type} (R : α → β → Prop) : Except Fault α → Except Fault β → Prop
  | ok {a : α} {b : β} : R a b → Mirrors R (.ok a) (.ok b)
  | error (e : Fault) : Mirrors R (.error e) (.error e)

section Mirrors

variable {α β γ δ : Type} {R : α → β → Prop} {S : γ → δ → Prop} {x : Except Fault α}
  {y : Except Fault β}

theorem Mirrors.bind {f : α → Except Fault γ} {g : β → Except Fault δ} (h : Mirrors R x y)
    (hnext : ∀ a b, R a b → Mirrors S (f a) (g b)) : Mirrors S (x >>= f) (y >>= g) := by
  cases h with
  | ok hab => exact hnext _ _ hab
  | error e => exact .error e

/-- What follows one computation on both sides. -/
theorem mirrors_bind_same {f : α → Except Fault γ} {g : α → Except Fault δ}
    (hnext : ∀ a, Mirrors S (f a) (g a)) : Mirrors S (x >>= f) (x >>= g) := by
  cases x with
  | ok a => exact hnext a
  | error e => exact .error e

theorem Mirrors.map {f : α → γ} {g : β → δ} (h : Mirrors R x y)
    (hnext : ∀ a b, R a b → S (f a) (g b)) : Mirrors S (x.map f) (y.map g) := by
  cases h with
  | ok hab => exact .ok (hnext _ _ hab)
  | error e => exact .error e

theorem Mirrors.eq {x y : Except Fault α} (h : Mirrors Eq x y) : x = y := by
  cases h with
  | ok hab => rw [hab]
  | error e => rfl

end Mirrors

/-! ### Reports side by side -/

/-- Two violations say the same, and the values they show differ in the order of keys only. -/
structure Violation.Corresponds (x y : Violation) : Prop where
  path : x.path = y.path
  keyword : x.keyword = y.keyword
  message : x.message = y.message
  value : Option.Rel Reordered x.value y.value

/-- Two reports say the same, line by line. -/
abbrev SameReport : List Violation → List Violation → Prop := List.Forall₂ Violation.Corresponds

section Reports

variable {found more found' more' : List Violation} {x y : Violation}

theorem SameReport.append (h : SameReport found found') (h' : SameReport more more') :
    SameReport (found ++ more) (found' ++ more') :=
  List.rel_append h h'

theorem SameReport.isEmpty_eq (h : SameReport found more) : found.isEmpty = more.isEmpty := by
  cases h <;> rfl

theorem sameReport_reportIf (condition : Bool) (h : x.Corresponds y) :
    SameReport (reportIf condition x) (reportIf condition y) := by
  cases condition with
  | true => exact .cons h .nil
  | false => exact .nil

theorem Violation.Corresponds.le_eq {x y x' y' : Violation} (h : x.Corresponds x')
    (h' : y.Corresponds y') : x.le y = x'.le y' := by
  rw [Violation.le, Violation.le, h.path, h.keyword, h.message, h'.path, h'.keyword, h'.message]

/-- Reports that are put in order still say the same. -/
theorem SameReport.ordered (h : SameReport found more) :
    SameReport (ordered Violation.le found) (ordered Violation.le more) := by
  have hplaced : ∀ {x y : Violation} {xs ys : List Violation}, x.Corresponds y → SameReport xs ys →
      SameReport (placed Violation.le x xs) (placed Violation.le y ys) := by
    intro x y xs ys hxy hxs
    induction hxs with
    | nil => exact .cons hxy .nil
    | cons hab htail ih =>
        rw [placed, placed, hxy.le_eq hab]
        split
        · exact .cons hxy (.cons hab htail)
        · exact .cons hab ih
  induction h with
  | nil => exact .nil
  | cons hxy _ ih => exact hplaced hxy ih

theorem mirrors_gather {α β : Type} {f : α → Outcome} {g : β → Outcome} {xs : List α} {ys : List β}
    (h : List.Forall₂ (fun x y => Mirrors SameReport (f x) (g y)) xs ys) :
    Mirrors SameReport (gather f xs) (gather g ys) := by
  induction h with
  | nil => exact .ok .nil
  | cons hxy _ ih =>
      rw [gather_cons, gather_cons]
      exact hxy.bind fun _ _ hfirst => ih.bind fun _ _ hrest => .ok (hfirst.append hrest)

theorem mirrors_gather_same {α : Type} {f g : α → Outcome} {xs : List α}
    (h : ∀ x ∈ xs, Mirrors SameReport (f x) (g x)) :
    Mirrors SameReport (gather f xs) (gather g xs) :=
  mirrors_gather (List.forall₂_same.2 h)

/-- What is reported about a value that holds no others is the same as itself. -/
theorem mirrors_of_located {v : Json} {path : String} {found : Outcome} (hitems : v.items? = none)
    (hmembers : v.members? = none) (h : Gives (Located v path) found) :
    Mirrors SameReport found found := by
  cases found with
  | error e => exact .error e
  | ok found =>
      refine .ok (List.forall₂_same.2 fun x hx => ⟨rfl, rfl, rfl, ?_⟩)
      obtain ⟨steps, w, hwalk, -, hnone | hsome⟩ := h found rfl x hx
      · rw [hnone]
        exact .none
      · rw [hsome]
        -- no step leads into such a value
        cases steps with
        | nil =>
            obtain rfl := Option.some.inj hwalk
            exact .some (.scalar hitems hmembers)
        | cons s steps =>
            refine absurd hwalk ?_
            have hchild : v.child? s = none := by
              cases v with
              | arr xs => exact absurd hitems (by simp [items?])
              | obj ms => exact absurd hmembers (by simp [members?])
              | null | bool _ | int _ | float _ | str _ => cases s <;> rfl
            rw [walk?, hchild]
            simp

end Reports

/-! ### Keywords -/

/-- A check that does not see the order of keys. -/
def Blind (check : Checker) : Prop := ∀ v w, Reordered v w → ∀ s path,
  Mirrors SameReport (check v s path) (check w s path)

section Keywords

variable {check : Checker} {schema : Members} {v w : Json} {path : String}

theorem Blind.satisfies_eq (hcheck : Blind check) (h : Reordered v w) :
    satisfies check v path = satisfies check w path :=
  funext fun s => ((hcheck v w h s path).map fun _ _ hreport => hreport.isEmpty_eq).eq

/-- Violations that say the same of the two values. -/
theorem corresponds_of_reordered (h : Reordered v w) (path message keyword : String) :
    Violation.Corresponds ⟨path, message, keyword, some v⟩ ⟨path, message, keyword, some w⟩ :=
  ⟨rfl, rfl, rfl, .some h⟩

theorem mirrors_checkAllOf (hcheck : Blind check) (h : Reordered v w) :
    Mirrors SameReport (checkAllOf check schema v path) (checkAllOf check schema w path) := by
  rw [checkAllOf, checkAllOf]
  split
  · exact mirrors_gather_same fun s _ => hcheck v w h s path
  · exact .ok .nil

theorem mirrors_checkAnyOf (hcheck : Blind check) (h : Reordered v w) :
    Mirrors SameReport (checkAnyOf check schema v path) (checkAnyOf check schema w path) := by
  have hsome : ∀ schemas, satisfiesSome check v path schemas = satisfiesSome check w path schemas := by
    intro schemas
    induction schemas with
    | nil => rfl
    | cons s schemas ih => rw [satisfiesSome, satisfiesSome, hcheck.satisfies_eq h, ih]
  rw [checkAnyOf, checkAnyOf]
  split
  · rw [hsome]
    exact mirrors_bind_same fun _ =>
      .ok (sameReport_reportIf _ (corresponds_of_reordered h _ _ _))
  · exact .ok .nil

theorem mirrors_checkOneOf (hcheck : Blind check) (h : Reordered v w) :
    Mirrors SameReport (checkOneOf check schema v path) (checkOneOf check schema w path) := by
  have hcount : ∀ schemas,
      countSatisfied check v path schemas = countSatisfied check w path schemas := by
    intro schemas
    induction schemas with
    | nil => rfl
    | cons s schemas ih => rw [countSatisfied, countSatisfied, hcheck.satisfies_eq h, ih]
  rw [checkOneOf, checkOneOf]
  split
  · rw [hcount]
    exact mirrors_bind_same fun _ =>
      .ok (sameReport_reportIf _ (corresponds_of_reordered h _ _ _))
  · exact .ok .nil

theorem mirrors_checkCondition (hcheck : Blind check) (h : Reordered v w) :
    Mirrors SameReport (checkCondition check schema v path)
      (checkCondition check schema w path) := by
  rw [checkCondition, checkCondition]
  split
  · rw [hcheck.satisfies_eq h]
    refine mirrors_bind_same fun b => ?_
    dsimp only
    split
    · next s _ => exact hcheck v w h s path
    · exact .ok .nil
  · exact .ok .nil

/-! ### Type, constant and enumeration -/

/-- Violations that are reported unless a condition holds. -/
theorem rel_unless {p : Prop} [Decidable p] {x y : Violation} (h : x.Corresponds y) :
    Option.Rel Violation.Corresponds (if p then none else some x) (if p then none else some y) := by
  split
  · exact .none
  · exact .some h

theorem rel_typeViolation (h : Reordered v w) :
    Option.Rel Violation.Corresponds (typeViolation? schema v path)
      (typeViolation? schema w path) := by
  rw [typeViolation?, typeViolation?, h.kind_eq]
  split
  · dsimp only
    rw [hasType_congr h.kind_eq]
    exact rel_unless (corresponds_of_reordered h _ _ _)
  · rw [hasType_congr h.kind_eq]
    exact rel_unless (corresponds_of_reordered h _ _ _)
  · exact .none

theorem rel_constViolation (h : Reordered v w) :
    Option.Rel Violation.Corresponds (constViolation? schema v path)
      (constViolation? schema w path) := by
  rw [constViolation?, constViolation?]
  split
  · rw [equivalent, equivalent, (h.equalBy_congr .loose _).1]
    exact rel_unless (corresponds_of_reordered h _ _ _)
  · exact .none

theorem rel_enumViolation (h : Reordered v w) :
    Option.Rel Violation.Corresponds (enumViolation? schema v path)
      (enumViolation? schema w path) := by
  rw [enumViolation?, enumViolation?]
  split
  · rw [h.memberOf_eq]
    exact rel_unless (corresponds_of_reordered h _ _ _)
  · exact .none

/-- The first of two violations is related if both are. -/
theorem rel_or {x y x' y' : Option Violation} (h : Option.Rel Violation.Corresponds x x')
    (h' : Option.Rel Violation.Corresponds y y') :
    Option.Rel Violation.Corresponds (x.or y) (x'.or y') := by
  cases h with
  | none => exact h'
  | some h => exact .some h

theorem rel_valueViolation (h : Reordered v w) :
    Option.Rel Violation.Corresponds (valueViolation? schema v path)
      (valueViolation? schema w path) :=
  rel_or (rel_typeViolation h) (rel_or (rel_constViolation h) (rel_enumViolation h))

/-! ### Counts -/

theorem mirrors_checkLeast (h : Reordered v w) (name unit : String) (count : ℕ) :
    Mirrors SameReport (checkLeast schema name unit path v count)
      (checkLeast schema name unit path w count) := by
  rw [checkLeast, checkLeast]
  split
  · exact .ok .nil
  · exact mirrors_bind_same fun _ =>
      .ok (sameReport_reportIf _ (corresponds_of_reordered h _ _ _))

theorem mirrors_checkMost (h : Reordered v w) (name unit : String) (count : ℕ) :
    Mirrors SameReport (checkMost schema name unit path v count)
      (checkMost schema name unit path w count) := by
  rw [checkMost, checkMost]
  split
  · exact .ok .nil
  · exact mirrors_bind_same fun _ =>
      .ok (sameReport_reportIf _ (corresponds_of_reordered h _ _ _))

/-! ### Objects -/

section Members

variable {ms ns : Members}

theorem has_eq_of_perm (h : (Members.keys ms).Perm (Members.keys ns)) (key : String) :
    Members.has key ms = Members.has key ns := by
  rw [Bool.eq_iff_iff, Members.has_iff, Members.has_iff, h.mem_iff]

theorem mirrors_checkRequired (h : ReorderedMembers ms ns) :
    Mirrors SameReport (checkRequired schema path ms) (checkRequired schema path ns) := by
  rw [checkRequired, checkRequired]
  split
  · refine mirrors_gather_same fun k _ => mirrors_bind_same fun key => ?_
    simp only [has_eq_of_perm h.keys]
    exact .ok (sameReport_reportIf _ ⟨rfl, rfl, rfl, .none⟩)
  · exact .ok .nil

theorem mirrors_checkProperties (hcheck : Blind check) (h : ReorderedMembers ms ns) :
    Mirrors SameReport (checkProperties check schema path ms)
      (checkProperties check schema path ns) := by
  refine mirrors_gather_same fun k _ => ?_
  rcases h.get? k with ⟨hms, hns⟩ | ⟨x, y, hms, hns, hxy⟩
  · rw [hms, hns]
    exact .ok .nil
  · rw [hms, hns]
    cases Members.get? k (memberSchemas schema "properties") with
    | none => exact .ok .nil
    | some s => exact hcheck x y hxy s _

/-- The check of the members that keys lead to. -/
theorem mirrors_gather_members (hcheck : Blind check) (h : ReorderedMembers ms ns) (s : Json)
    (keys : List String) :
    Mirrors SameReport
      (gather (fun k =>
        match Members.get? k ms with
        | some v => check v s (memberPath path k)
        | none => .ok []) keys)
      (gather (fun k =>
        match Members.get? k ns with
        | some v => check v s (memberPath path k)
        | none => .ok []) keys) := by
  refine mirrors_gather_same fun k _ => ?_
  rcases h.get? k with ⟨hms, hns⟩ | ⟨x, y, hms, hns, hxy⟩
  · rw [hms, hns]
    exact .ok .nil
  · rw [hms, hns]
    exact hcheck x y hxy s _

theorem mirrors_checkPatterns (hcheck : Blind check) (h : ReorderedMembers ms ns)
    (keys : List String) (patterns : List (String × Json)) :
    Mirrors (fun a b => SameReport a.1 b.1 ∧ a.2 = b.2)
      (checkPatterns check path ms keys patterns) (checkPatterns check path ns keys patterns) := by
  induction patterns with
  | nil => exact .ok ⟨.nil, rfl⟩
  | cons m patterns ih =>
      refine mirrors_bind_same fun covered => ?_
      refine (mirrors_gather_members hcheck h m.2 covered).bind fun _ _ hfound =>
        ih.bind fun _ _ hrest => .ok ⟨hfound.append hrest.1, ?_⟩
      dsimp only
      rw [hrest.2]

theorem mirrors_checkAdditional (hcheck : Blind check) (h : ReorderedMembers ms ns)
    (extra : List String) :
    Mirrors SameReport (checkAdditional check schema path ms extra)
      (checkAdditional check schema path ns extra) := by
  rw [checkAdditional, checkAdditional]
  split
  · refine .ok (List.forall₂_map_left_iff.2 (List.forall₂_map_right_iff.2
      (List.forall₂_same.2 fun k _ => ⟨rfl, rfl, rfl, ?_⟩)))
    rcases h.get? k with ⟨hms, hns⟩ | ⟨x, y, hms, hns, hxy⟩
    · rw [hms, hns]
      exact .none
    · rw [hms, hns]
      exact .some hxy
  · exact mirrors_gather_members hcheck h _ extra
  · exact .ok .nil

theorem mirrors_checkObject (hcheck : Blind check) (h : ReorderedMembers ms ns) :
    Mirrors SameReport (checkObject check schema path ms) (checkObject check schema path ns) := by
  rw [checkObject, checkObject]
  simp only [inOrder_eq_of_perm h.keys]
  refine (mirrors_checkRequired h).bind fun _ _ hmissing =>
    (mirrors_checkProperties hcheck h).bind fun _ _ hnamed =>
      (mirrors_checkPatterns hcheck h _ _).bind fun _ _ hmatched => ?_
  rw [hmatched.2]
  exact (mirrors_checkAdditional hcheck h _).bind fun _ _ hadditional =>
    .ok (((hmissing.append hnamed).append hmatched.1).append hadditional)

end Members

/-! ### Arrays -/

section Items

variable {xs ys : List Json}

theorem sameReport_duplicates {seen seen' : List Json} (hseen : List.Forall₂ Reordered seen seen')
    (h : List.Forall₂ Reordered xs ys) (i : ℕ) :
    SameReport (duplicates path seen i xs) (duplicates path seen' i ys) := by
  induction h generalizing seen seen' i with
  | nil => exact .nil
  | @cons x y xs ys hxy _ ih =>
      have hmember : x.memberOf seen = y.memberOf seen' :=
        (hxy.memberOf_eq seen).trans (memberOf_eq_of_forall₂ hseen y)
      rw [duplicates, duplicates, hmember]
      split
      · exact .cons (corresponds_of_reordered hxy _ _ _) (ih hseen (i + 1))
      · exact ih (List.rel_append hseen (.cons hxy .nil)) (i + 1)

theorem mirrors_gatherFrom {f g : ℕ → Json → Outcome} (h : List.Forall₂ Reordered xs ys)
    (hnext : ∀ i x y, Reordered x y → Mirrors SameReport (f i x) (g i y)) (i : ℕ) :
    Mirrors SameReport (gatherFrom f i xs) (gatherFrom g i ys) := by
  induction h generalizing i with
  | nil => exact .ok .nil
  | @cons x y xs ys hxy _ ih =>
      rw [gatherFrom_eq, gatherFrom_eq, List.zipIdx_cons, List.zipIdx_cons, gather_cons,
        gather_cons, ← gatherFrom_eq, ← gatherFrom_eq]
      exact (hnext i x y hxy).bind fun _ _ hfirst => (ih (i + 1)).bind fun _ _ hrest =>
        .ok (hfirst.append hrest)

theorem mirrors_checkItems (hcheck : Blind check) (h : List.Forall₂ Reordered xs ys) :
    Mirrors SameReport (checkItems check schema path xs) (checkItems check schema path ys) := by
  rw [checkItems, checkItems]
  split
  · exact mirrors_gatherFrom h (fun i x y hxy => hcheck x y hxy _ (itemPath path i)) 0
  · exact mirrors_gatherFrom h (fun i x y hxy => hcheck x y hxy _ (itemPath path i)) 0
  · exact .ok .nil

theorem mirrors_checkArray (hcheck : Blind check) (h : List.Forall₂ Reordered xs ys) :
    Mirrors SameReport (checkArray check schema path xs) (checkArray check schema path ys) := by
  have hunique : SameReport (checkUnique schema path xs) (checkUnique schema path ys) := by
    rw [checkUnique, checkUnique]
    split
    · exact sameReport_duplicates .nil h 0
    · exact .nil
  rw [checkArray, checkArray, h.length_eq]
  exact (mirrors_checkLeast (.arr h) _ _ _).bind fun _ _ hfew =>
    (mirrors_checkMost (.arr h) _ _ _).bind fun _ _ hmany =>
      (mirrors_checkItems hcheck h).bind fun _ _ hitems =>
        .ok (((hfew.append hmany).append hunique).append hitems)

end Items

/-! ### Checks -/

theorem mirrors_checkByKind (hcheck : Blind check) (h : Reordered v w) :
    Mirrors SameReport (checkByKind check schema v path) (checkByKind check schema w path) := by
  cases v with
  | obj ms =>
      obtain ⟨ns, rfl, hmembers⟩ := h.exists_members
      exact mirrors_checkObject hcheck hmembers
  | arr xs =>
      obtain ⟨ys, rfl, hitems⟩ := h.exists_items
      exact mirrors_checkArray hcheck hitems
  | str s =>
      cases h
      exact mirrors_of_located rfl rfl located_checkText
  | int _ | float _ =>
      cases h
      exact mirrors_of_located rfl rfl located_checkNumber
  | null | bool _ =>
      cases h
      exact .ok .nil

theorem mirrors_checkKeywords (hcheck : Blind check) (h : Reordered v w) :
    Mirrors SameReport (checkKeywords check schema v path) (checkKeywords check schema w path) := by
  refine (mirrors_checkAllOf hcheck h).bind fun _ _ hall =>
    (mirrors_checkAnyOf hcheck h).bind fun _ _ hany =>
      (mirrors_checkOneOf hcheck h).bind fun _ _ hone =>
        (mirrors_checkCondition hcheck h).bind fun _ _ hcondition => ?_
  have hcombined := ((hall.append hany).append hone).append hcondition
  have hvalue : Option.Rel Violation.Corresponds (valueViolation? schema v path)
      (valueViolation? schema w path) := rel_valueViolation h
  rw [valueViolation?, valueViolation?] at hvalue
  dsimp only
  generalize (typeViolation? schema v path).or _ = x at hvalue ⊢
  generalize (typeViolation? schema w path).or _ = y at hvalue ⊢
  cases hvalue with
  | some hxy => exact .ok (hcombined.append (.cons hxy .nil))
  | none =>
      exact (mirrors_checkByKind hcheck h).bind fun _ _ hfound => .ok (hcombined.append hfound)

theorem blind_checkNode (hcheck : Blind check) (root : Json) : Blind (checkNode check root) := by
  intro v w h s path
  rw [checkNode.eq_def, checkNode.eq_def]
  split
  · exact .ok .nil
  · exact .ok (.cons (corresponds_of_reordered h _ _ _) .nil)
  · split
    · next reference _ =>
        rw [checkReference.eq_def, checkReference.eq_def]
        split
        · split
          · exact hcheck v w h _ path
          · exact .ok (.cons ⟨rfl, rfl, rfl, .none⟩ .nil)
        · exact .ok (.cons ⟨rfl, rfl, rfl, .none⟩ .nil)
    · exact mirrors_checkKeywords hcheck h
  · exact .ok (.cons ⟨rfl, rfl, rfl, .none⟩ .nil)

end Keywords

/-- **Checks do not see the order of keys.** -/
theorem blind_checkAt (root : Json) (fuel : ℕ) : Blind (checkAt root fuel) := by
  induction fuel with
  | zero => exact fun v w h s path => .error _
  | succ fuel ih => exact blind_checkNode ih root

/-! ### Validations -/

theorem depthMembers_le_iff {ms : Members} {n : ℕ} :
    depthMembers ms ≤ n ↔ ∀ m ∈ ms, depth m.2 ≤ n := by
  induction ms with
  | nil => simp [depthMembers]
  | cons m ms ih => rw [depthMembers, max_le_iff, ih, List.forall_mem_cons]

/-- Documents that differ in the order of keys only have as many levels. -/
theorem depth_eq_of_reordered {v w : Json} (h : Reordered v w) : depth v = depth w := by
  induction h with
  | scalar => rfl
  | nil => rfl
  | cons _ _ hx hxs =>
      rw [depth, depth, Nat.add_right_cancel_iff] at hxs ⊢
      rw [depthItems, depthItems, hx, hxs]
  | @obj ms ns hnodup hperm _ ih =>
      rw [depth, depth, Nat.add_right_cancel_iff]
      refine eq_of_forall_ge_iff fun n => ?_
      rw [depthMembers_le_iff, depthMembers_le_iff, Members.forall_mem_iff hnodup,
        Members.forall_mem_iff (hperm.nodup_iff.1 hnodup)]
      refine forall_congr' fun key => ?_
      rcases Members.get?_cases hperm ih key with ⟨hms, hns⟩ | ⟨x, y, hms, hns, hxy⟩
      · simp [hms, hns]
      · simp [hms, hns, hxy]

/-- **Validation does not depend on the order of keys.**  Two documents that differ in it only are both
stopped by the same fault, or have reports that say the same in the same order, of values that
differ in the order of keys only. -/
theorem validate_reordered (root schema : Json) (path : String) {v w : Json} (h : Reordered v w) :
    Mirrors (List.Forall₂ Violation.Corresponds) (validate root schema v path)
      (validate root schema w path) := by
  rw [validate, validate, fuelFor, fuelFor, depth_eq_of_reordered h]
  exact (blind_checkAt root _ v w h schema path).map fun _ _ hreport => hreport.ordered

/-- Margins are texts, and no two sides have the same. -/
def marginsSchema : Json :=
  .obj [("properties", .obj [("sides", .obj [("uniqueItems", .bool true)])]),
    ("additionalProperties", .obj [("type", .str "string")])]

/-- Two sides are the same but for the order of their keys, and a margin is no text. -/
def margins : Json :=
  .obj [("sides", .arr [.obj [("x", .int 1), ("y", .int 2)], .obj [("y", .int 2), ("x", .int 1)]]),
    ("all", .obj [("top", .null), ("left", .null)])]

/-- The margins with their keys in another order, inside and outside. -/
def reorderedMargins : Json :=
  .obj [("all", .obj [("left", .null), ("top", .null)]),
    ("sides", .arr [.obj [("y", .int 2), ("x", .int 1)], .obj [("y", .int 2), ("x", .int 1)]])]

/-- Both margins have two violations, which show the same values up to the order of their keys. -/
theorem validate_reordered_margins :
    Reordered margins reorderedMargins ∧
      ∃ found others, validate marginsSchema marginsSchema margins "$" = .ok found ∧
        validate marginsSchema marginsSchema reorderedMargins "$" = .ok others ∧
        found.map Violation.path = ["$.all", "$.sides[1]"] ∧
        List.Forall₂ Violation.Corresponds found others := by
  have hreordered : Reordered margins reorderedMargins :=
    reordered_iff.2 ⟨by simp [margins, UniqueKeys, UniqueKeysMembers, UniqueKeysItems],
      by simp [reorderedMargins, UniqueKeys, UniqueKeysMembers, UniqueKeysItems], rfl⟩
  have hfound : validate marginsSchema marginsSchema margins "$" =
      .ok [⟨"$.all", "must be string, got object", "type",
          some (.obj [("top", .null), ("left", .null)])⟩,
        ⟨"$.sides[1]", "must NOT have duplicate items", "uniqueItems",
          some (.obj [("y", .int 2), ("x", .int 1)])⟩] := rfl
  have hmirrors := validate_reordered marginsSchema marginsSchema "$" hreordered
  rw [hfound] at hmirrors
  generalize validate marginsSchema marginsSchema reorderedMargins "$" = y at hmirrors ⊢
  cases hmirrors with
  | ok hreport => exact ⟨hreordered, _, _, hfound, rfl, rfl, hreport⟩

end Schema

end DesignRegistry
