/-
**Checks that come to an end.**

A check of a value against a schema can stop without a report: a keyword may have a value that cannot
be used, and references may lead back to where they started without looking at a smaller part of the
value.  Both can be seen from the schema alone.  `Schema.grounded` follows, from a schema, the schemas
that the same value is checked against next; if it reaches the end within a number of steps and meets
no keyword that cannot be used, and if it does so from every part of a schema document, then every
check against the document ends, of whatever value: with each step into the value the number of steps
starts again.

Main definitions:

* `Schema.Ends` — a computation that is not stopped;
* `Schema.sameParts`, `Schema.belowParts` — the schemas that are next for the same value, and for the
  parts of the value;
* `Schema.grounded` — the condition on schemas.

Main results:

* `Schema.ends_checkAt` — **checks against grounded schemas end**;
* `Schema.ends_validate` — so does a validation, whose depth is large enough;
* `advisoryReport_standard` — **advice by the bundled schemas is never stopped**.
-/
import DesignRegistry.Proofs.Json.Content
import DesignRegistry.Proofs.Schema.Order
import DesignRegistry.Schema.Validator

set_option relaxedAutoImplicit false
set_option autoImplicit false

namespace DesignRegistry

namespace Schema

open Json

/-! ### Computations that end -/

/-- A computation that is not stopped. -/
def Ends {α : Type} (x : Except Fault α) : Prop := ∃ a, x = .ok a

theorem ends_ok {α : Type} (a : α) : Ends (.ok a : Except Fault α) := ⟨a, rfl⟩

theorem ends_pure {α : Type} (a : α) : Ends (pure a : Except Fault α) := ⟨a, rfl⟩

theorem Ends.bind {α β : Type} {x : Except Fault α} {next : α → Except Fault β} (hx : Ends x)
    (hnext : ∀ a, Ends (next a)) : Ends (x >>= next) := by
  obtain ⟨a, rfl⟩ := hx
  exact hnext a

theorem Ends.map {α β : Type} {x : Except Fault α} (f : α → β) (hx : Ends x) :
    Ends (x.map f) := by
  obtain ⟨a, rfl⟩ := hx
  exact ⟨f a, rfl⟩

theorem ends_of_isOk {α : Type} {x : Except Fault α} (h : x.isOk = true) : Ends x := by
  cases x with
  | ok a => exact ⟨a, rfl⟩
  | error e => exact absurd h (by simp [Except.isOk, Except.toBool])

theorem ends_gather {α : Type} {check : α → Outcome} {xs : List α}
    (h : ∀ x ∈ xs, Ends (check x)) : Ends (gather check xs) := by
  induction xs with
  | nil => exact ends_ok []
  | cons x xs ih =>
      rw [List.forall_mem_cons] at h
      obtain ⟨found, hx⟩ := h.1
      obtain ⟨more, hxs⟩ := ih h.2
      exact ⟨found ++ more, by simp only [gather, hx, hxs]⟩

theorem ends_gatherFrom {check : ℕ → Json → Outcome} {xs : List Json}
    (h : ∀ i, ∀ x ∈ xs, Ends (check i x)) (i : ℕ) : Ends (gatherFrom check i xs) := by
  induction xs generalizing i with
  | nil => exact ends_ok []
  | cons x xs ih =>
      obtain ⟨found, hx⟩ := h i x List.mem_cons_self
      obtain ⟨more, hxs⟩ := ih (fun i y hy => h i y (List.mem_cons_of_mem x hy)) (i + 1)
      exact ⟨found ++ more, by simp only [gatherFrom, hx, hxs]⟩

/-! ### Parts of schemas and values -/

/-- The schemas in the list of a keyword. -/
def listedSchemas (schema : Members) (name : String) : List Json :=
  match Members.get? name schema with
  | some (.arr schemas) => schemas
  | _ => []

/-- The schemas of a condition. -/
def conditionSchemas (schema : Members) : List Json :=
  match Members.get? "if" schema with
  | some (.obj condition) =>
    .obj condition :: ((Members.get? "then" schema).toList ++ (Members.get? "else" schema).toList)
  | _ => []

/-- The schemas that are next for the same value. -/
def sameParts (schema : Members) : List Json :=
  listedSchemas schema "allOf" ++ listedSchemas schema "anyOf" ++ listedSchemas schema "oneOf"
    ++ conditionSchemas schema

/-- The schemas that are next for the parts of the value. -/
def belowParts (schema : Members) : List Json :=
  (memberSchemas schema "properties").map Prod.snd
    ++ (memberSchemas schema "patternProperties").map Prod.snd
    ++ (Members.get? "additionalProperties" schema).toList
    ++ (Members.get? "items" schema).toList

/-- The parts of a value. -/
def valueParts : Json → List Json
  | .arr xs => xs
  | .obj ms => ms.map Prod.snd
  | _ => []

/-- The keywords that bound a count. -/
def countKeywords : List String := ["minLength", "maxLength", "minItems", "maxItems"]

/-- Whether all keywords have values that can be used, for every value that is checked; bounds of
numbers are not, since an integer may be too large to be compared. -/
def soundKeywords (schema : Members) : Bool :=
  (countKeywords.all fun name =>
    match keyword? schema name with
    | none => true
    | some bound => (integerOf bound).isOk) &&
  (keyword? schema "minimum").isNone && (keyword? schema "maximum").isNone &&
  (match Members.get? "pattern" schema with
    | some (.str written) => (patternOf written).isOk
    | _ => true) &&
  ((listedSchemas schema "required").all fun k => (requiredKey k).isOk) &&
  ((memberSchemas schema "patternProperties").all fun m => (patternOf m.1).isOk)

/-- Whether a check of one value reaches the end in a number of steps from schema to schema. -/
def grounded (root : Json) : ℕ → Json → Bool
  | 0, _ => false
  | steps + 1, .obj ms =>
    match Members.get? "$ref" ms with
    | some (.str r) =>
      match root.resolve r with
      | .ok target => grounded root steps target
      | .error _ => true
    | some _ => true
    | none => soundKeywords ms && (sameParts ms).all (grounded root steps)
  | _ + 1, _ => true

/-! ### One schema -/

section OneSchema

variable {check : Checker} {schema : Members} {v : Json} {path : String}

theorem ends_satisfies {s : Json} (h : Ends (check v s path)) :
    Ends (satisfies check v path s) := h.map _

theorem ends_satisfiesSome {schemas : List Json} (h : ∀ s ∈ schemas, Ends (check v s path)) :
    Ends (satisfiesSome check v path schemas) := by
  induction schemas with
  | nil => exact ends_ok false
  | cons s schemas ih =>
      rw [List.forall_mem_cons] at h
      obtain ⟨b, hb⟩ := ends_satisfies h.1
      simp only [satisfiesSome, hb]
      cases b with
      | true => exact ends_ok true
      | false => exact ih h.2

theorem ends_countSatisfied {schemas : List Json} (h : ∀ s ∈ schemas, Ends (check v s path)) :
    Ends (countSatisfied check v path schemas) := by
  induction schemas with
  | nil => exact ends_ok 0
  | cons s schemas ih =>
      rw [List.forall_mem_cons] at h
      exact (ends_satisfies h.1).bind fun _ => (ih h.2).bind fun _ => ends_pure _

/-- The keywords that combine schemas end if the schemas that are next do. -/
theorem ends_combinations (h : ∀ s ∈ sameParts schema, Ends (check v s path)) :
    Ends (checkAllOf check schema v path) ∧ Ends (checkAnyOf check schema v path) ∧
      Ends (checkOneOf check schema v path) ∧ Ends (checkCondition check schema v path) := by
  -- each keyword asks only the schemas in its own part of the list
  simp only [sameParts, List.forall_mem_append] at h
  obtain ⟨⟨⟨hall, hany⟩, hone⟩, hcondition⟩ := h
  refine ⟨?_, ?_, ?_, ?_⟩
  · rw [checkAllOf]
    rw [listedSchemas] at hall
    split
    · next schemas hget =>
        rw [hget] at hall
        exact ends_gather hall
    · exact ends_ok []
  · rw [checkAnyOf]
    rw [listedSchemas] at hany
    split
    · next s schemas hget =>
        rw [hget] at hany
        exact (ends_satisfiesSome hany).bind fun _ => ends_pure _
    · exact ends_ok []
  · rw [checkOneOf]
    rw [listedSchemas] at hone
    split
    · next schemas hget =>
        rw [hget] at hone
        exact (ends_countSatisfied hone).bind fun _ => ends_pure _
    · exact ends_ok []
  · rw [checkCondition]
    rw [conditionSchemas] at hcondition
    split
    · next condition hget =>
        rw [hget] at hcondition
        simp only [List.forall_mem_cons, List.forall_mem_append, Option.mem_toList] at hcondition
        refine (ends_satisfies hcondition.1).bind fun b => ?_
        cases b with
        | true =>
            simp only [if_true]
            split
            · next s hs => exact hcondition.2.1 s hs
            · exact ends_pure []
        | false =>
            simp only [Bool.false_eq_true, if_false]
            split
            · next s hs => exact hcondition.2.2 s hs
            · exact ends_pure []
    · exact ends_ok []

/-- A keyword that reads its bound and tests it ends if the bound can be read. -/
theorem ends_bound {name : String} {crossed : Int → Bool} {problem : Json → Violation}
    (hname : name ∈ countKeywords) (h : soundKeywords schema = true) :
    Ends (match keyword? schema name with
      | none => .ok []
      | some bound => do
        let n ← integerOf bound
        return reportIf (crossed n) (problem bound) : Outcome) := by
  simp only [soundKeywords, Bool.and_eq_true, List.all_eq_true] at h
  have hbound := h.1.1.1.1.1 name hname
  split
  · exact ends_ok []
  · next bound hget =>
      rw [hget] at hbound
      exact (ends_of_isOk hbound).bind fun _ => ends_pure _

theorem ends_checkLeast {name unit : String} (count : ℕ) (hname : name ∈ countKeywords)
    (h : soundKeywords schema = true) : Ends (checkLeast schema name unit path v count) :=
  ends_bound hname h

theorem ends_checkMost {name unit : String} (count : ℕ) (hname : name ∈ countKeywords)
    (h : soundKeywords schema = true) : Ends (checkMost schema name unit path v count) :=
  ends_bound hname h

theorem ends_checkText (text : String) (h : soundKeywords schema = true) :
    Ends (checkText schema path text) := by
  have hpattern : Ends (checkPattern schema path text) := by
    simp only [soundKeywords, Bool.and_eq_true] at h
    have hread := h.1.1.2
    rw [checkPattern]
    split
    · next written hget =>
        rw [hget] at hread
        exact (ends_of_isOk hread).bind fun _ => ends_pure _
    · exact ends_ok []
  have hformat : Ends (checkFormat schema path text) := by
    rw [checkFormat]
    split
    · split <;> exact ends_ok _
    · exact ends_ok []
  refine (ends_checkLeast _ (by decide) h).bind fun _ => ?_
  refine (ends_checkMost _ (by decide) h).bind fun _ => ?_
  exact hpattern.bind fun _ => hformat.bind fun _ => ends_pure _

theorem ends_checkNumber (h : soundKeywords schema = true) :
    Ends (checkNumber schema path v) := by
  simp only [soundKeywords, Bool.and_eq_true, Option.isNone_iff_eq_none] at h
  rw [checkNumber, checkMinimum, checkMaximum, h.1.1.1.1.2, h.1.1.1.2]
  exact ⟨_, rfl⟩

theorem ends_checkRequired (ms : Members) (h : soundKeywords schema = true) :
    Ends (checkRequired schema path ms) := by
  simp only [soundKeywords, Bool.and_eq_true, List.all_eq_true] at h
  have hkeys := h.1.2
  rw [checkRequired]
  split
  · next keys hget =>
      rw [listedSchemas, hget] at hkeys
      refine ends_gather fun k hk => ?_
      exact (ends_of_isOk (hkeys k hk)).bind fun _ => ends_pure _
  · exact ends_ok []

theorem ends_checkPatterns {ms : Members} (keys : List String)
    {patterns : List (String × Json)}
    (hread : ∀ m ∈ patterns, (patternOf m.1).isOk = true)
    (h : ∀ m ∈ patterns, ∀ w ∈ ms.map Prod.snd, ∀ path, Ends (check w m.2 path)) :
    Ends (checkPatterns check path ms keys patterns) := by
  induction patterns with
  | nil => exact ends_ok ([], [])
  | cons m patterns ih =>
      obtain ⟨pattern, s⟩ := m
      rw [List.forall_mem_cons] at hread h
      have hcovered : Ends (coveredBy pattern keys) := by
        cases keys with
        | nil => exact ends_ok []
        | cons k keys => exact (ends_of_isOk hread.1).bind fun _ => ends_pure _
      refine hcovered.bind fun covered => ?_
      refine Ends.bind (ends_gather fun k _ => ?_) fun _ => (ih hread.2 h.2).bind fun _ => ends_pure _
      split
      · next w hget => exact h.1 w (List.mem_map_of_mem (Members.mem_of_get? hget)) _
      · exact ends_ok []

/-- The keywords for objects end if the schemas for the members do. -/
theorem ends_checkObject (ms : Members) (hsound : soundKeywords schema = true)
    (h : ∀ s ∈ belowParts schema, ∀ w ∈ ms.map Prod.snd, ∀ path, Ends (check w s path)) :
    Ends (checkObject check schema path ms) := by
  simp only [belowParts, List.forall_mem_append] at h
  obtain ⟨⟨⟨hproperties, hpatterns⟩, hadditional⟩, -⟩ := h
  have hread : ∀ m ∈ memberSchemas schema "patternProperties", (patternOf m.1).isOk = true := by
    simp only [soundKeywords, Bool.and_eq_true, List.all_eq_true] at hsound
    exact hsound.2
  refine (ends_checkRequired ms hsound).bind fun _ => ?_
  refine Ends.bind ?_ fun _ => ?_
  · refine ends_gather fun k _ => ?_
    split
    · next w s hw hs =>
        exact hproperties s (List.mem_map_of_mem (Members.mem_of_get? hs)) w
          (List.mem_map_of_mem (Members.mem_of_get? hw)) _
    · exact ends_ok []
  refine Ends.bind (ends_checkPatterns _ ?_ ?_) fun _ => ?_
  · exact fun m hm => hread m (mem_ordered.1 hm)
  · exact fun m hm => hpatterns m.2 (List.mem_map_of_mem (mem_ordered.1 hm))
  refine Ends.bind ?_ fun _ => ends_pure _
  rw [checkAdditional]
  split
  · exact ends_ok _
  · next s hs =>
      refine ends_gather fun k _ => ?_
      split
      · next w hw =>
          exact hadditional _ (by rw [hs]; exact List.mem_singleton_self _) w
            (List.mem_map_of_mem (Members.mem_of_get? hw)) _
      · exact ends_ok []
  · exact ends_ok []

/-- The keywords for arrays end if the schema for the items does. -/
theorem ends_checkArray (xs : List Json) (hsound : soundKeywords schema = true)
    (h : ∀ s ∈ belowParts schema, ∀ w ∈ xs, ∀ path, Ends (check w s path)) :
    Ends (checkArray check schema path xs) := by
  simp only [belowParts, List.forall_mem_append] at h
  have hitems := h.2
  refine (ends_checkLeast _ (by decide) hsound).bind fun _ => ?_
  refine (ends_checkMost _ (by decide) hsound).bind fun _ => ?_
  refine Ends.bind ?_ fun _ => ends_pure _
  rw [checkItems]
  split
  · next s hs =>
      rw [hs] at hitems
      exact ends_gatherFrom (fun i x hx => hitems _ (List.mem_singleton_self _) x hx _) 0
  · next b hs =>
      rw [hs] at hitems
      exact ends_gatherFrom (fun i x hx => hitems _ (List.mem_singleton_self _) x hx _) 0
  · exact ends_ok []

/-- The keywords of a schema end if those of the schemas that are next do. -/
theorem ends_checkKeywords (hsound : soundKeywords schema = true)
    (hsame : ∀ s ∈ sameParts schema, Ends (check v s path))
    (hbelow : ∀ s ∈ belowParts schema, ∀ w ∈ valueParts v, ∀ path, Ends (check w s path)) :
    Ends (checkKeywords check schema v path) := by
  obtain ⟨hall, hany, hone, hcondition⟩ := ends_combinations hsame
  refine hall.bind fun _ => hany.bind fun _ => hone.bind fun _ => hcondition.bind fun _ => ?_
  have hkind : Ends (checkByKind check schema v path) := by
    cases v with
    | str text => exact ends_checkText text hsound
    | int n => exact ends_checkNumber hsound
    | float x => exact ends_checkNumber hsound
    | obj ms => exact ends_checkObject ms hsound hbelow
    | arr xs => exact ends_checkArray xs hsound hbelow
    | null => exact ends_ok []
    | bool b => exact ends_ok []
  split
  · exact ends_pure _
  · exact hkind.bind fun _ => ends_pure _

end OneSchema

/-! ### Schemas of a document -/

mutual

/-- All values in a document, the document included. -/
def nodes : Json → List Json
  | .arr xs => .arr xs :: nodesOfItems xs
  | .obj ms => .obj ms :: nodesOfMembers ms
  | v => [v]

/-- All values in items. -/
def nodesOfItems : List Json → List Json
  | [] => []
  | x :: xs => nodes x ++ nodesOfItems xs

/-- All values in the values of members. -/
def nodesOfMembers : List (String × Json) → List Json
  | [] => []
  | (_, v) :: ms => nodes v ++ nodesOfMembers ms

end

theorem nodesOfItems_eq (xs : List Json) : nodesOfItems xs = xs.flatMap nodes := by
  induction xs with
  | nil => rfl
  | cons x xs ih => rw [nodesOfItems, ih, List.flatMap_cons]

theorem nodesOfMembers_eq (ms : Members) :
    nodesOfMembers ms = (ms.map Prod.snd).flatMap nodes := by
  induction ms with
  | nil => rfl
  | cons m ms ih => rw [nodesOfMembers, ih, List.map_cons, List.flatMap_cons]

theorem mem_nodes_self (v : Json) : v ∈ nodes v := by
  cases v <;> simp [nodes]

theorem mem_nodes_of_valueParts {v w u : Json} (hw : w ∈ valueParts v) (hu : u ∈ nodes w) :
    u ∈ nodes v := by
  cases v with
  | arr xs =>
      rw [nodes, nodesOfItems_eq]
      exact List.mem_cons_of_mem _ (List.mem_flatMap.2 ⟨w, hw, hu⟩)
  | obj ms =>
      rw [nodes, nodesOfMembers_eq]
      exact List.mem_cons_of_mem _ (List.mem_flatMap.2 ⟨w, hw, hu⟩)
  | _ => exact absurd hw List.not_mem_nil

/-- What stands in a value of a document stands in the document. -/
theorem nodes_subset {v w : Json} (h : v ∈ nodes w) : nodes v ⊆ nodes w := by
  revert v
  refine nodes.induct (fun w => ∀ {v}, v ∈ nodes w → nodes v ⊆ nodes w)
    (fun ms => ∀ {v}, v ∈ nodesOfMembers ms → nodes v ⊆ nodesOfMembers ms)
    (fun xs => ∀ {v}, v ∈ nodesOfItems xs → nodes v ⊆ nodesOfItems xs) ?_ ?_ ?_ ?_ ?_ ?_ ?_ w
  case refine_1 =>
    intro xs ih v hv
    rcases List.mem_cons.1 hv with rfl | hv
    · exact List.Subset.refl _
    · exact List.Subset.trans (ih hv) (List.subset_cons_self _ _)
  case refine_2 =>
    intro ms ih v hv
    rcases List.mem_cons.1 hv with rfl | hv
    · exact List.Subset.refl _
    · exact List.Subset.trans (ih hv) (List.subset_cons_self _ _)
  case refine_3 =>
    intro w harr hobj v hv
    have hsingle : nodes w = [w] := by
      cases w <;> first | rfl | exact (harr _ rfl).elim | exact (hobj _ rfl).elim
    rw [hsingle, List.mem_singleton] at hv
    exact hv ▸ List.Subset.refl _
  case refine_4 => exact fun hv => absurd hv List.not_mem_nil
  case refine_5 =>
    intro x xs ihx ihxs v hv
    rcases List.mem_append.1 hv with hv | hv
    · exact List.Subset.trans (ihx hv) (List.subset_append_left _ _)
    · exact List.Subset.trans (ihxs hv) (List.subset_append_right _ _)
  case refine_6 => exact fun hv => absurd hv List.not_mem_nil
  case refine_7 =>
    intro k w ms ihw ihms v hv
    rcases List.mem_append.1 hv with hv | hv
    · exact List.Subset.trans (ihw hv) (List.subset_append_left _ _)
    · exact List.Subset.trans (ihms hv) (List.subset_append_right _ _)

theorem mem_nodes_of_get? {ms : Members} {k : String} {v u : Json}
    (hget : Members.get? k ms = some v) (hu : u ∈ nodes v) : u ∈ nodes (.obj ms) :=
  mem_nodes_of_valueParts (List.mem_map_of_mem (Members.mem_of_get? hget)) hu

theorem mem_nodes_of_listed {ms : Members} {name : String} {s : Json}
    (h : s ∈ listedSchemas ms name) : s ∈ nodes (.obj ms) := by
  rw [listedSchemas] at h
  split at h
  · next schemas hget =>
      exact mem_nodes_of_get? hget (mem_nodes_of_valueParts h (mem_nodes_self s))
  · exact absurd h List.not_mem_nil

theorem mem_nodes_of_memberSchemas {ms : Members} {name : String} {s : Json}
    (h : s ∈ (memberSchemas ms name).map Prod.snd) : s ∈ nodes (.obj ms) := by
  rw [memberSchemas] at h
  split at h
  · next schemas hget =>
      exact mem_nodes_of_get? hget (mem_nodes_of_valueParts h (mem_nodes_self s))
  · exact absurd h List.not_mem_nil

/-- The schemas that are next for the same value stand in the schema. -/
theorem mem_nodes_of_sameParts {ms : Members} {s : Json} (h : s ∈ sameParts ms) :
    s ∈ nodes (.obj ms) := by
  simp only [sameParts, List.mem_append] at h
  rcases h with ((h | h) | h) | h
  · exact mem_nodes_of_listed h
  · exact mem_nodes_of_listed h
  · exact mem_nodes_of_listed h
  · rw [conditionSchemas] at h
    split at h
    · next condition hget =>
        simp only [List.mem_cons, List.mem_append, Option.mem_toList] at h
        rcases h with rfl | h | h
        · exact mem_nodes_of_get? hget (mem_nodes_self _)
        · exact mem_nodes_of_get? h (mem_nodes_self _)
        · exact mem_nodes_of_get? h (mem_nodes_self _)
    · exact absurd h List.not_mem_nil

/-- The schemas that are next for the parts of the value stand in the schema. -/
theorem mem_nodes_of_belowParts {ms : Members} {s : Json} (h : s ∈ belowParts ms) :
    s ∈ nodes (.obj ms) := by
  simp only [belowParts, List.mem_append, Option.mem_toList] at h
  rcases h with ((h | h) | h) | h
  · exact mem_nodes_of_memberSchemas h
  · exact mem_nodes_of_memberSchemas h
  · exact mem_nodes_of_get? h (mem_nodes_self _)
  · exact mem_nodes_of_get? h (mem_nodes_self _)

theorem mem_valueParts_of_resolveToken {token : List Char} {v w : Json}
    (h : resolveToken token v = .ok w) : w ∈ valueParts v := by
  cases v with
  | obj ms =>
      simp only [resolveToken] at h
      split at h
      · next w' hget =>
          obtain rfl := Except.ok.inj h
          exact List.mem_map_of_mem (Members.mem_of_get? hget)
      · exact absurd h (by simp)
  | arr xs =>
      simp only [resolveToken] at h
      split at h
      · exact absurd h (by simp)
      · next i hi =>
          split at h
          · next w' hget =>
              obtain rfl := Except.ok.inj h
              rw [itemAt?] at hget
              split at hget
              · exact List.mem_of_getElem? hget
              · split at hget
                · exact List.mem_of_getElem? hget
                · exact absurd hget (by simp)
          · exact absurd h (by simp)
  | _ => exact absurd h (by simp [resolveToken])

theorem mem_nodes_of_resolveTokens {tokens : List (List Char)} {v w : Json}
    (h : resolveTokens tokens v = .ok w) : w ∈ nodes v := by
  induction tokens generalizing v with
  | nil =>
      obtain rfl := Except.ok.inj h
      exact mem_nodes_self v
  | cons t tokens ih =>
      rw [resolveTokens] at h
      split at h
      · next u hu => exact mem_nodes_of_valueParts (mem_valueParts_of_resolveToken hu) (ih h)
      · exact absurd h (by simp)

/-- A reference names what stands in the document. -/
theorem mem_nodes_of_resolve {root w : Json} {r : String} (h : root.resolve r = .ok w) :
    w ∈ nodes root := by
  rw [resolve] at h
  split at h
  · obtain rfl := Except.ok.inj h
    exact mem_nodes_self _
  · exact mem_nodes_of_resolveTokens h
  · exact absurd h (by simp)

/-! ### Depth -/

theorem depth_pos (v : Json) : 0 < depth v := by
  cases v <;> simp [depth]

theorem depth_le_depthItems {x : Json} {xs : List Json} (h : x ∈ xs) : depth x ≤ depthItems xs := by
  induction xs with
  | nil => exact absurd h List.not_mem_nil
  | cons y ys ih =>
      rw [depthItems]
      rcases List.mem_cons.1 h with rfl | h
      · exact Nat.le_max_left _ _
      · exact Nat.le_trans (ih h) (Nat.le_max_right _ _)

theorem depth_le_depthMembers {v : Json} {ms : Members} (h : v ∈ ms.map Prod.snd) :
    depth v ≤ depthMembers ms := by
  induction ms with
  | nil => exact absurd h List.not_mem_nil
  | cons m ms ih =>
      obtain ⟨k, w⟩ := m
      rw [depthMembers]
      rcases List.mem_cons.1 h with rfl | h
      · exact Nat.le_max_left _ _
      · exact Nat.le_trans (ih h) (Nat.le_max_right _ _)

/-- A part of a value has fewer levels than the value. -/
theorem depth_lt_of_mem_valueParts {v w : Json} (h : w ∈ valueParts v) : depth w < depth v := by
  cases v with
  | arr xs => exact Nat.lt_succ_of_le (depth_le_depthItems h)
  | obj ms => exact Nat.lt_succ_of_le (depth_le_depthMembers h)
  | _ => exact absurd h List.not_mem_nil

/-! ### Checks -/

/-- The check at one place ends if the schemas that are next end, for the same value as long as they
are grounded, and for the parts of the value all of them. -/
theorem ends_checkNode {check : Checker} {root v s : Json} {steps : ℕ} (path : String)
    (hs : s ∈ nodes root) (hground : grounded root (steps + 1) s = true)
    (hsame : ∀ t ∈ nodes root, grounded root steps t = true → Ends (check v t path))
    (hbelow : ∀ t ∈ nodes root, ∀ w ∈ valueParts v, ∀ path, Ends (check w t path)) :
    Ends (checkNode check root v s path) := by
  cases s with
  | bool b => cases b <;> exact ends_ok _
  | obj ms =>
      rw [grounded] at hground
      rw [checkNode]
      cases href : Members.get? "$ref" ms with
      | some reference =>
          rw [href] at hground
          simp only
          cases reference with
          | str r =>
              simp only at hground
              rw [checkReference]
              cases htarget : root.resolve r with
              | error e => exact ends_ok _
              | ok target =>
                  rw [htarget] at hground
                  exact hsame target (mem_nodes_of_resolve htarget) hground
          | _ => exact ends_ok _
      | none =>
          rw [href] at hground
          simp only [Bool.and_eq_true, List.all_eq_true] at hground
          refine ends_checkKeywords hground.1 (fun t ht => ?_) fun t ht => ?_
          · exact hsame t (nodes_subset hs (mem_nodes_of_sameParts ht)) (hground.2 t ht)
          · exact hbelow t (nodes_subset hs (mem_nodes_of_belowParts ht))
  | _ => exact ends_ok _

/-- **Checks against grounded schemas end.**  A value of `levels` further levels takes `bound` steps
from schema to schema for each of them, and `steps` for its own. -/
theorem ends_checkAt {root : Json} {bound : ℕ}
    (hroot : ∀ s ∈ nodes root, grounded root bound s = true) (levels steps : ℕ) {v s : Json}
    (hv : depth v ≤ levels + 1) (hs : s ∈ nodes root) (hground : grounded root steps s = true)
    {fuel : ℕ} (hfuel : levels * bound + steps ≤ fuel) (path : String) :
    Ends (checkAt root fuel v s path) := by
  induction levels generalizing v s steps fuel path with
  | zero =>
      induction steps generalizing s fuel with
      | zero => exact absurd hground (by simp [grounded])
      | succ steps ih =>
          obtain ⟨fuel, rfl⟩ := Nat.exists_eq_add_of_le' (Nat.le_trans (by omega) hfuel : 1 ≤ fuel)
          refine ends_checkNode path hs hground (fun t ht hgt => ih ht hgt (by omega)) ?_
          intro t _ w hw
          have hlt := depth_lt_of_mem_valueParts hw
          have hpos := depth_pos w
          omega
  | succ levels ihv =>
      induction steps generalizing s fuel with
      | zero => exact absurd hground (by simp [grounded])
      | succ steps ih =>
          obtain ⟨fuel, rfl⟩ := Nat.exists_eq_add_of_le' (Nat.le_trans (by omega) hfuel : 1 ≤ fuel)
          refine ends_checkNode path hs hground (fun t ht hgt => ih ht hgt (by omega)) ?_
          intro t ht w hw path
          have hlt := depth_lt_of_mem_valueParts hw
          rw [Nat.succ_mul] at hfuel
          exact ihv bound (by omega) ht (hroot t ht) (by omega) path

/-- A validation against a grounded document ends: its depth is large enough. -/
theorem ends_validate {root : Json} {bound : ℕ} (hbound : bound ≤ nodeCount root + nodeCount root)
    (hroot : ∀ s ∈ nodes root, grounded root bound s = true) (v : Json) (path : String) :
    Ends (validate root root v path) := by
  have hpos := depth_pos v
  have hfuel : (depth v - 1) * bound + bound ≤ fuelFor root root v := by
    have hlevels : depth v - 1 + 1 = depth v := by omega
    rw [← Nat.succ_mul, Nat.succ_eq_add_one, hlevels, fuelFor]
    exact Nat.le_succ_of_le (Nat.mul_le_mul_left _ hbound)
  exact (ends_checkAt hroot (depth v - 1) bound (by omega) (mem_nodes_self root)
    (hroot root (mem_nodes_self root)) hfuel path).map _

/-! ### The bundled schemas -/

/-- The bundled schemas are grounded: no check takes more than five steps from schema to schema. -/
theorem grounded_bundled (t : SchemaTag) :
    (nodes t.schema).all (grounded t.schema 5) = true := by
  cases t <;> decide +kernel

theorem bound_bundled (t : SchemaTag) : 5 ≤ nodeCount t.schema + nodeCount t.schema := by
  cases t <;> decide +kernel

/-- A check against a bundled schema takes no more than five steps for each level of the value. -/
theorem ends_checkAt_bundled (t : SchemaTag) (v : Json) (path : String) :
    Ends (checkAt t.schema (5 * depth v) v t.schema path) := by
  have hroot := List.all_eq_true.1 (grounded_bundled t)
  have hpos := depth_pos v
  exact ends_checkAt hroot (depth v - 1) 5 (by omega) (mem_nodes_self t.schema)
    (hroot t.schema (mem_nodes_self t.schema)) (by omega) path

/-- A validation against a bundled schema ends. -/
theorem ends_validate_bundled (t : SchemaTag) (v : Json) (path : String) :
    Ends (validate t.schema t.schema v path) :=
  ends_validate (bound_bundled t) (List.all_eq_true.1 (grounded_bundled t)) v path

end Schema

/-! ### Advice -/

theorem Validator.lookup_standard (t : SchemaTag) :
    Validator.standard.schemas.lookup t.name = some t.schema := by
  cases t <;> rfl

section Reports

variable {v : Validator} {name : String} {schema doc : Json}

/-- The report of a document against a named schema holds what is found. -/
theorem Validator.validate_eq_ok {errors : List Schema.Violation}
    (h : v.errors schema doc = .ok errors) (hschema : v.schemas.lookup name = some schema) :
    v.validate doc name = .ok ⟨name, errors⟩ := by
  rw [Validator.validate, hschema]
  simp only [h]

/-- A check that is stopped gives no report. -/
theorem Validator.validate_eq_error {fault : Schema.Fault}
    (h : v.errors schema doc = .error fault) (hschema : v.schemas.lookup name = some schema) :
    v.validate doc name = .error (.fault fault) := by
  rw [Validator.validate, hschema]
  simp only [h]

end Reports

theorem Validator.validate_standard_eq_ok {t : SchemaTag} {doc : Json}
    {errors : List Schema.Violation} (h : Schema.validate t.schema t.schema doc "$" = .ok errors) :
    Validator.standard.validate doc t.name = .ok ⟨t.name, errors⟩ :=
  @Validator.validate_eq_ok .standard _ _ _ _ h (Validator.lookup_standard t)

/-- The report of a document against a bundled schema is always given. -/
theorem Validator.validate_standard (t : SchemaTag) (doc : Json) :
    ∃ report, Validator.standard.validate doc t.name = .ok report := by
  obtain ⟨errors, herrors⟩ := Schema.ends_validate_bundled t doc "$"
  exact ⟨⟨t.name, errors⟩, Validator.validate_standard_eq_ok herrors⟩

/-- **Advice by the bundled schemas is never stopped.** -/
theorem advisoryReport_standard (doc : Json) :
    ∃ advice, advisoryReport .standard doc = .ok advice := by
  obtain ⟨report, hreport⟩ := Validator.validate_standard (SchemaTag.detect doc) doc
  rw [advisoryReport]
  cases hdetect : SchemaTag.detect doc with
  | manifest | component =>
      rw [Validator.validateDetected, hreport]
      exact ⟨_, rfl⟩
  | theme | config => exact ⟨_, rfl⟩

end DesignRegistry
