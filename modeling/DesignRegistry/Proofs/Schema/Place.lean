/-
**Where violations are.**

A check is told the path of its value, and hands longer paths on to the checks of parts, together with the
parts.  So what it reports is at the path of the value or of something inside it, and if a violation
shows a value it is the one that stands there, whatever the schemas are.

Main definitions:

* `Json.PathStep.text`, `Json.pathText` — ways into a document, as paths write them;
* `Schema.Gives` — what a computation gives if it is not stopped;
* `Schema.Located` — violations at the places of what they show;
* `Schema.Beneath` — violations at a path or below.

Main results:

* `Schema.located_checkAt` — **checks report places inside their value**;
* `Schema.beneath_checkAt` — so violations are beneath the path of their check;
* `Schema.validate_located` — **every violation of a report points at the value that it is about**.
-/
import DesignRegistry.Proofs.Schema.Correct

set_option relaxedAutoImplicit false
set_option autoImplicit false

namespace DesignRegistry

namespace Json

/-! ### Ways into a document -/

/-- A step as a path writes it. -/
def PathStep.text : PathStep → String
  | .key name => "." ++ name
  | .index i => "[" ++ natText i ++ "]"

/-- Steps as a path writes them. -/
def pathText : List PathStep → String
  | [] => ""
  | s :: steps => s.text ++ pathText steps

theorem walk?_cons {s : PathStep} {v w : Json} (h : v.child? s = some w) (steps : List PathStep) :
    v.walk? (s :: steps) = w.walk? steps := by
  rw [walk?, h, Option.bind_some]

end Json

namespace Schema

open Json

/-! ### What computations give -/

section Gives

variable {α β : Type} {P : α → Prop} {Q : β → Prop} {x : Except Fault α}
  {next : α → Except Fault β}

/-- What a computation gives, unless it is stopped, fulfils a condition. -/
def Gives (P : α → Prop) (x : Except Fault α) : Prop := ∀ a, x = .ok a → P a

theorem gives_ok {a : α} (h : P a) : Gives P (.ok a) := by
  intro b hb
  rwa [← Except.ok.inj hb]

theorem Gives.bind (hx : Gives P x) (hnext : ∀ a, P a → Gives Q (next a)) :
    Gives Q (x >>= next) := by
  intro b hb
  obtain ⟨a, ha, hb⟩ := exists_of_bind_eq_ok hb
  exact hnext a (hx a ha) b hb

/-- The rest of a computation can be all that counts. -/
theorem gives_bind (hnext : ∀ a, Gives Q (next a)) : Gives Q (x >>= next) := by
  intro b hb
  obtain ⟨a, -, hb⟩ := exists_of_bind_eq_ok hb
  exact hnext a b hb

theorem Gives.map {f : α → β} (hx : Gives P x) (hf : ∀ a, P a → Q (f a)) : Gives Q (x.map f) := by
  cases x with
  | error e => exact fun b hb => absurd hb (by simp [Except.map])
  | ok a => exact gives_ok (hf a (hx a rfl))

end Gives

theorem gather_cons {α : Type} (check : α → Outcome) (x : α) (xs : List α) :
    gather check (x :: xs) = do return (← check x) ++ (← gather check xs) := by
  rw [gather]
  cases check x with
  | error e => rfl
  | ok found => cases gather check xs <;> rfl

/-! ### Places -/

theorem memberPath_eq (path key : String) : memberPath path key = path ++ (PathStep.key key).text := by
  rw [memberPath, PathStep.text, String.append_assoc]

theorem itemPath_eq (path : String) (i : ℕ) : itemPath path i = path ++ (PathStep.index i).text := by
  rw [itemPath, PathStep.text, String.append_assoc, String.append_assoc, String.append_assoc]

/-- All violations are at places inside a value at a path, and show what stands there or nothing. -/
def Located (v : Json) (path : String) (found : List Violation) : Prop :=
  ∀ x ∈ found, ∃ steps w, v.walk? steps = some w ∧ x.path = path ++ pathText steps ∧
    (x.value = none ∨ x.value = some w)

section Located

variable {v w : Json} {path : String} {found more : List Violation} {x : Violation}

theorem located_nil (v : Json) (path : String) : Located v path [] :=
  fun _ hx => absurd hx List.not_mem_nil

theorem Located.append (h : Located v path found) (h' : Located v path more) :
    Located v path (found ++ more) :=
  List.forall_mem_append.2 ⟨h, h'⟩

/-- A violation at the path itself. -/
theorem located_here (hpath : x.path = path) (hvalue : x.value = none ∨ x.value = some v) :
    Located v path [x] :=
  List.forall_mem_singleton.2 ⟨[], v, rfl, by rw [pathText, String.append_empty, hpath], hvalue⟩

theorem located_reportIf {condition : Bool} (hpath : x.path = path)
    (hvalue : x.value = none ∨ x.value = some v) : Located v path (reportIf condition x) := by
  cases condition with
  | true => exact located_here hpath hvalue
  | false => exact located_nil v path

/-- What is inside a part of a value is inside the value. -/
theorem Located.of_child {s : PathStep} (hchild : v.child? s = some w)
    (h : Located w (path ++ s.text) found) : Located v path found := by
  intro x hx
  obtain ⟨steps, u, hwalk, hpath, hvalue⟩ := h x hx
  refine ⟨s :: steps, u, ?_, ?_, hvalue⟩
  · rw [walk?_cons hchild, hwalk]
  · rw [hpath, pathText, String.append_assoc]

theorem Located.of_member {ms : Members} {key : String} (hget : Members.get? key ms = some w)
    (h : Located w (memberPath path key) found) : Located (.obj ms) path found := by
  rw [memberPath_eq] at h
  exact Located.of_child (s := .key key) hget h

theorem Located.of_item {xs : List Json} {i : ℕ} (hget : xs[i]? = some w)
    (h : Located w (itemPath path i) found) : Located (.arr xs) path found := by
  rw [itemPath_eq] at h
  exact Located.of_child (s := .index i) hget h

theorem located_gather {α : Type} {check : α → Outcome} {xs : List α}
    (h : ∀ x ∈ xs, Gives (Located v path) (check x)) :
    Gives (Located v path) (gather check xs) := by
  induction xs with
  | nil => exact gives_ok (located_nil v path)
  | cons x xs ih =>
      rw [List.forall_mem_cons] at h
      rw [gather_cons]
      exact h.1.bind fun _ hfound => (ih h.2).bind fun _ hmore => gives_ok (hfound.append hmore)

end Located

/-! ### Keywords -/

/-- A check of parts that reports places inside the values that it is told. -/
def Local (check : Checker) : Prop :=
  ∀ v schema path, Gives (Located v path) (check v schema path)

section Keywords

variable {check : Checker} {schema : Members} {v : Json} {path : String}

theorem located_checkAllOf (h : Local check) :
    Gives (Located v path) (checkAllOf check schema v path) := by
  rw [checkAllOf]
  split
  · exact located_gather fun s _ => h v s path
  · exact gives_ok (located_nil v path)

theorem located_checkAnyOf : Gives (Located v path) (checkAnyOf check schema v path) := by
  rw [checkAnyOf]
  split
  · exact gives_bind fun _ => gives_ok (located_reportIf rfl (.inr rfl))
  · exact gives_ok (located_nil v path)

theorem located_checkOneOf : Gives (Located v path) (checkOneOf check schema v path) := by
  rw [checkOneOf]
  split
  · exact gives_bind fun _ => gives_ok (located_reportIf rfl (.inr rfl))
  · exact gives_ok (located_nil v path)

theorem located_checkCondition (h : Local check) :
    Gives (Located v path) (checkCondition check schema v path) := by
  rw [checkCondition]
  split
  · refine gives_bind fun b => ?_
    dsimp only
    split
    · next s _ => exact h v s path
    · exact gives_ok (located_nil v path)
  · exact gives_ok (located_nil v path)

/-- A violation that is reported unless a condition holds. -/
theorem located_of_unless {p : Prop} [Decidable p] {x y : Violation} (hpath : y.path = path)
    (hvalue : y.value = some v) (h : (if p then none else some y) = some x) :
    Located v path [x] := by
  obtain ⟨-, h⟩ := Option.ite_none_left_eq_some.1 h
  obtain rfl := Option.some.inj h
  exact located_here hpath (.inr hvalue)

/-- A violation of type, constant or enumeration is about the value itself. -/
theorem located_of_valueViolation {x : Violation} (h : valueViolation? schema v path = some x) :
    Located v path [x] := by
  rw [valueViolation?, Option.or_eq_some_iff, Option.or_eq_some_iff] at h
  rcases h with htype | ⟨-, hconst | ⟨-, henum⟩⟩
  · rw [typeViolation?] at htype
    split at htype
    · exact located_of_unless rfl rfl htype
    · exact located_of_unless rfl rfl htype
    · exact absurd htype (by simp)
  · rw [constViolation?] at hconst
    split at hconst
    · exact located_of_unless rfl rfl hconst
    · exact absurd hconst (by simp)
  · rw [enumViolation?] at henum
    split at henum
    · exact located_of_unless rfl rfl henum
    · exact absurd henum (by simp)

theorem located_checkLeast {name unit : String} {count : ℕ} :
    Gives (Located v path) (checkLeast schema name unit path v count) := by
  rw [checkLeast]
  split
  · exact gives_ok (located_nil v path)
  · exact gives_bind fun _ => gives_ok (located_reportIf rfl (.inr rfl))

theorem located_checkMost {name unit : String} {count : ℕ} :
    Gives (Located v path) (checkMost schema name unit path v count) := by
  rw [checkMost]
  split
  · exact gives_ok (located_nil v path)
  · exact gives_bind fun _ => gives_ok (located_reportIf rfl (.inr rfl))

theorem located_checkText {text : String} :
    Gives (Located (.str text) path) (checkText schema path text) := by
  have hpattern : Gives (Located (.str text) path) (checkPattern schema path text) := by
    rw [checkPattern]
    split
    · exact gives_bind fun _ => gives_ok (located_reportIf rfl (.inr rfl))
    · exact gives_ok (located_nil _ path)
  have hformat : Gives (Located (.str text) path) (checkFormat schema path text) := by
    rw [checkFormat]
    split
    · split
      · exact gives_ok (located_nil _ path)
      · exact gives_ok (located_here rfl (.inr rfl))
    · exact gives_ok (located_nil _ path)
  exact located_checkLeast.bind fun _ hshort => located_checkMost.bind fun _ hlong =>
    hpattern.bind fun _ hpattern => hformat.bind fun _ hformat =>
      gives_ok (((hshort.append hlong).append hpattern).append hformat)

theorem located_checkNumber : Gives (Located v path) (checkNumber schema path v) := by
  have hleast : Gives (Located v path) (checkMinimum schema path v) := by
    rw [checkMinimum]
    split
    · exact gives_ok (located_nil v path)
    · exact gives_bind fun _ => gives_bind fun _ => gives_ok (located_reportIf rfl (.inr rfl))
  have hmost : Gives (Located v path) (checkMaximum schema path v) := by
    rw [checkMaximum]
    split
    · exact gives_ok (located_nil v path)
    · exact gives_bind fun _ => gives_bind fun _ => gives_ok (located_reportIf rfl (.inr rfl))
  exact hleast.bind fun _ hbelow => hmost.bind fun _ habove => gives_ok (hbelow.append habove)

/-! ### Objects and arrays -/

section Members

variable {ms : Members}

/-- The check of a member that is there. -/
theorem Local.member (h : Local check) {key : String} {w : Json}
    (hget : Members.get? key ms = some w) (s : Json) :
    Gives (Located (.obj ms) path) (check w s (memberPath path key)) :=
  fun found hfound => (h w s _ found hfound).of_member hget

theorem located_checkRequired : Gives (Located (.obj ms) path) (checkRequired schema path ms) := by
  rw [checkRequired]
  split
  · exact located_gather fun k _ => gives_bind fun _ =>
      gives_ok (located_reportIf rfl (.inl rfl))
  · exact gives_ok (located_nil _ path)

theorem located_checkProperties (h : Local check) :
    Gives (Located (.obj ms) path) (checkProperties check schema path ms) := by
  refine located_gather fun k _ => ?_
  split
  · next w s hget _ => exact h.member hget s
  · exact gives_ok (located_nil _ path)

theorem located_checkPatterns (h : Local check) {keys : List String}
    (patterns : List (String × Json)) :
    Gives (fun found => Located (.obj ms) path found.1)
      (checkPatterns check path ms keys patterns) := by
  induction patterns with
  | nil => exact gives_ok (located_nil _ path)
  | cons m patterns ih =>
      refine gives_bind fun covered => Gives.bind (P := Located (.obj ms) path) ?_
        fun found hfound => ih.bind fun rest hrest => gives_ok (hfound.append hrest)
      refine located_gather fun k _ => ?_
      split
      · next w hget => exact h.member hget m.2
      · exact gives_ok (located_nil _ path)

/-- Only keys of the object are additional. -/
theorem located_checkAdditional (h : Local check) {extra : List String}
    (hextra : ∀ k ∈ extra, k ∈ Members.keys ms) :
    Gives (Located (.obj ms) path) (checkAdditional check schema path ms extra) := by
  rw [checkAdditional]
  split
  · refine gives_ok fun x hx => ?_
    obtain ⟨k, hk, rfl⟩ := List.mem_map.1 hx
    obtain ⟨w, hget⟩ := Option.isSome_iff_exists.1 (Members.mem_keys_iff.1 (hextra k hk))
    refine Located.of_member hget (located_here rfl (.inr hget)) _ (List.mem_singleton_self _)
  · next s _ =>
      refine located_gather fun k _ => ?_
      split
      · next w hget => exact h.member hget (.obj s)
      · exact gives_ok (located_nil _ path)
  · exact gives_ok (located_nil _ path)

theorem located_checkObject (h : Local check) :
    Gives (Located (.obj ms) path) (checkObject check schema path ms) := by
  refine located_checkRequired.bind fun _ hmissing => (located_checkProperties h).bind
    fun _ hnamed => (located_checkPatterns h _).bind fun _ hmatched =>
      (located_checkAdditional h fun k hk => ?_).bind fun _ hadditional =>
        gives_ok (((hmissing.append hnamed).append hmatched).append hadditional)
  exact mem_inOrder.1 (List.mem_filter.1 hk).1

end Members

/-- The duplicates among the items from a position on. -/
theorem located_duplicates {all xs : List Json} {i : ℕ} (h : all.drop i = xs) (seen : List Json) :
    Located (.arr all) path (duplicates path seen i xs) := by
  induction xs generalizing seen i with
  | nil => exact located_nil _ path
  | cons x xs ih =>
      have hget : all[i]? = some x := by rw [← List.head?_drop, h, List.head?_cons]
      have hrest : all.drop (i + 1) = xs := by rw [← List.tail_drop, h, List.tail_cons]
      have hx : Located (.arr all) path
          [⟨itemPath path i, "must NOT have duplicate items", "uniqueItems", some x⟩] :=
        Located.of_item hget (located_here rfl (.inr rfl))
      rw [duplicates]
      split
      · exact hx.append (ih hrest seen)
      · exact ih hrest (seen ++ [x])

theorem located_checkItems (h : Local check) {xs : List Json} :
    Gives (Located (.arr xs) path) (checkItems check schema path xs) := by
  have hitems : ∀ s, Gives (Located (.arr xs) path)
      (gatherFrom (fun i x => check x s (itemPath path i)) 0 xs) := by
    intro s
    rw [gatherFrom_eq]
    refine located_gather fun x hx found hfound => ?_
    exact (h x.1 s _ found hfound).of_item (List.mem_zipIdx_iff_getElem?.1 hx)
  rw [checkItems]
  split
  · exact hitems _
  · exact hitems _
  · exact gives_ok (located_nil _ path)

theorem located_checkArray (h : Local check) {xs : List Json} :
    Gives (Located (.arr xs) path) (checkArray check schema path xs) := by
  have hunique : Located (.arr xs) path (checkUnique schema path xs) := by
    rw [checkUnique]
    split
    · exact located_duplicates List.drop_zero []
    · exact located_nil _ path
  exact located_checkLeast.bind fun _ hfew => located_checkMost.bind fun _ hmany =>
    (located_checkItems h).bind fun _ hitems =>
      gives_ok (((hfew.append hmany).append hunique).append hitems)

/-! ### Checks -/

theorem located_checkKeywords (h : Local check) :
    Gives (Located v path) (checkKeywords check schema v path) := by
  have hkind : Gives (Located v path) (checkByKind check schema v path) := by
    cases v with
    | str s => exact located_checkText
    | int _ | float _ => exact located_checkNumber
    | obj ms => exact located_checkObject h
    | arr xs => exact located_checkArray h
    | null | bool _ => exact gives_ok (located_nil _ path)
  refine (located_checkAllOf h).bind fun _ hall => located_checkAnyOf.bind fun _ hany =>
    located_checkOneOf.bind fun _ hone => (located_checkCondition h).bind fun _ hcondition => ?_
  have hcombined := ((hall.append hany).append hone).append hcondition
  dsimp only
  split
  · next x hx => exact gives_ok (hcombined.append (located_of_valueViolation hx))
  · exact hkind.bind fun _ hfound => gives_ok (hcombined.append hfound)

theorem located_checkReference (h : Local check) {root reference : Json} :
    Gives (Located v path) (checkReference check root reference v path) := by
  cases reference with
  | str r =>
      rw [checkReference]
      split
      · exact h v _ path
      · exact gives_ok (located_here rfl (.inl rfl))
  | null | bool _ | int _ | float _ | arr _ | obj _ =>
      exact gives_ok (located_here rfl (.inl rfl))

theorem local_checkNode (h : Local check) (root : Json) : Local (checkNode check root) := by
  intro v s path
  rw [checkNode.eq_def]
  split
  · exact gives_ok (located_nil v path)
  · exact gives_ok (located_here rfl (.inr rfl))
  · split
    · exact located_checkReference h
    · exact located_checkKeywords h
  · exact gives_ok (located_here rfl (.inl rfl))

end Keywords

/-- **Checks report places inside their value.** -/
theorem located_checkAt (root : Json) (fuel : ℕ) : Local (checkAt root fuel) := by
  induction fuel with
  | zero => exact fun v s path found h => absurd h (by simp [checkAt])
  | succ fuel ih => exact local_checkNode ih root

/-! ### Paths -/

/-- All violations are at a path or below. -/
def Beneath (path : String) (found : List Violation) : Prop :=
  ∀ x ∈ found, path.toList <+: x.path.toList

/-- Violations are beneath the path of their check. -/
theorem beneath_checkAt (root : Json) (fuel : ℕ) (v s : Json) (path : String) :
    Gives (Beneath path) (checkAt root fuel v s path) := by
  intro found hfound x hx
  obtain ⟨steps, -, -, hpath, -⟩ := located_checkAt root fuel v s path found hfound x hx
  rw [hpath, String.toList_append]
  exact List.prefix_append _ _

/-- **Every violation of a report points at the value that it is about.**  Its path is written for steps
that lead into the document that was checked, and if it shows a value, then the one that they lead to. -/
theorem validate_located (root schema v : Json) (errors : List Violation)
    (h : validate root schema v "$" = .ok errors) :
    ∀ x ∈ errors, ∃ steps w, v.walk? steps = some w ∧ x.path = "$" ++ pathText steps ∧
      (x.value = none ∨ x.value = some w) := by
  have hordered : Gives (Located v "$") (validate root schema v "$") :=
    (located_checkAt root _ v schema "$").map fun _ hfound x hx => hfound x (mem_ordered.1 hx)
  exact hordered errors h

/-- Sizes are texts in a list, and nothing stands beside them. -/
def sizesSchema : Json :=
  .obj [("properties", .obj [("sizes", .obj [("items", .obj [("type", .str "string")])])]),
    ("additionalProperties", .bool false)]

/-- A number among the sizes and a note beside them are both pointed at. -/
theorem validate_located_sizes :
    ∃ errors, validate sizesSchema sizesSchema
        (.obj [("sizes", .arr [.str "sm", .int 4]), ("note", .null)]) "$" = .ok errors ∧
      errors.map Violation.path = ["$.note", "$.sizes[1]"] ∧
      ∀ x ∈ errors, ∃ steps w,
        (Json.obj [("sizes", .arr [.str "sm", .int 4]), ("note", .null)]).walk? steps = some w ∧
          x.path = "$" ++ pathText steps ∧ (x.value = none ∨ x.value = some w) := by
  have herrors : validate sizesSchema sizesSchema
      (.obj [("sizes", .arr [.str "sm", .int 4]), ("note", .null)]) "$" =
      .ok [⟨"$.note", "must NOT have additional properties", "additionalProperties", some .null⟩,
        ⟨"$.sizes[1]", "must be string, got integer", "type", some (.int 4)⟩] := rfl
  exact ⟨_, herrors, rfl, validate_located _ _ _ _ herrors⟩

end Schema

end DesignRegistry
