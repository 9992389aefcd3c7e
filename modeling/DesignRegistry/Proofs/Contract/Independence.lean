/-
**Rules do not depend on each other.**

A rule reads a script and a registry and nothing that another rule says, and each of its diagnostics has
its id and one of the three severities.  So a selection of rules says what all rules say, restricted to
the diagnostics with the ids that are selected, in the same order; and since every severity has its list,
sorting by severity loses nothing.

Main definitions:

* `Diagnostic.MadeBy` — a diagnostic with the id of a rule and one of the three severities;
* `Diagnostics.Sorted` — diagnostics that are listed with their severity;
* `Diagnostics.only` — the diagnostics whose rule is among some;
* `ContractReport.Restricts` — the report of a selection of rules beside that of all rules.

Main results:

* `Rule.madeBy_of_mem_diagnostics` — **what a rule says is labelled as its own**;
* `Diagnostics.all_ofList_perm` — sorting by severity loses no such diagnostic;
* `Rule.apply_filter` — the rules with some ids say what all rules say, restricted to these ids;
* `Rule.all_apply_perm` — all of what rules say is listed;
* `check_selected` — **the report of a selection of rules is that of all rules, restricted to it**;
* `check_counts_rules` — of the report of all rules only the number of rules does not carry over.
-/
import DesignRegistry.Contract.Check
import Mathlib.Data.List.Dedup
import Mathlib.Data.List.Perm.Basic

set_option relaxedAutoImplicit false
set_option autoImplicit false

namespace DesignRegistry

/-! ### Labels -/

/-- A diagnostic with the id of a rule and one of the three severities. -/
structure Diagnostic.MadeBy (d : Diagnostic) (r : Rule) : Prop where
  rule : d.rule = r.id
  severity : d.severity ∈ [Severity.error, .warning, .info]

namespace Rule

variable {r : Rule} {d : Diagnostic} {registry : Json} {e : Script.Element}

theorem madeBy_error (r : Rule) (position : Script.Position) (message : String) :
    (r.error position message).MadeBy r := ⟨rfl, by simp [error]⟩

theorem madeBy_warning (r : Rule) (position : Script.Position) (message : String)
    (suggestion : Option String) : (r.warning position message suggestion).MadeBy r :=
  ⟨rfl, by simp [warning]⟩

theorem madeBy_suggestion (r : Rule) (position : Script.Position) (message : String) :
    (r.suggestion position message).MadeBy r := ⟨rfl, by simp [suggestion]⟩

theorem madeBy_tokens {s : Script.Source} (h : d ∈ tokenDiagnostics registry s) :
    d.MadeBy .tokens := by
  obtain ⟨⟨text, i⟩, -, hd⟩ := List.mem_flatMap.1 h
  rcases List.mem_append.1 hd with hd | hd
  · obtain ⟨find, -, hd⟩ := List.mem_flatMap.1 hd
    obtain ⟨found, -, hd⟩ := List.mem_filterMap.1 hd
    obtain ⟨token, -, rfl⟩ := Option.map_eq_some_iff.1 hd
    exact madeBy_warning _ _ _ _
  · obtain ⟨found, -, hd⟩ := List.mem_filterMap.1 hd
    rw [Token.referenceError?] at hd
    split at hd
    · exact absurd hd (by simp)
    · obtain rfl := Option.some.inj hd
      exact madeBy_error _ _ _

theorem madeBy_use (h : d ∈ Component.useDiagnostics registry e) : d.MadeBy .components := by
  rw [Component.useDiagnostics] at h
  split at h
  · split at h
    · exact absurd h List.not_mem_nil
    · obtain rfl := List.mem_singleton.1 h
      exact madeBy_warning _ _ _ _
  · next component _ =>
      rcases List.mem_append.1 h with h | h
      · rw [Component.missingPropErrors] at h
        split at h
        · exact absurd h List.not_mem_nil
        · obtain ⟨prop, -, rfl⟩ := List.mem_map.1 h
          exact madeBy_error _ _ _
      · obtain ⟨a, -, ha⟩ := List.mem_filterMap.1 h
        rw [Component.attributeError?] at ha
        split at ha
        · exact absurd ha (by simp)
        · split at ha
          · exact absurd ha (by simp)
          · obtain rfl := Option.some.inj ha
            exact madeBy_error _ _ _

theorem madeBy_style (h : d ∈ styleDiagnostics e) : d.MadeBy .props := by
  rcases List.mem_append.1 h with h | h
  · split at h
    · obtain rfl := List.mem_singleton.1 h
      exact madeBy_warning _ _ _ _
    · exact absurd h List.not_mem_nil
  · rw [classSuggestions] at h
    split at h
    · exact absurd h List.not_mem_nil
    · split at h
      · obtain ⟨name, -, rfl⟩ := List.mem_map.1 h
        exact madeBy_suggestion _ _ _
      · exact absurd h List.not_mem_nil

theorem madeBy_access (h : d ∈ accessDiagnostics e) : d.MadeBy .accessibility := by
  rcases List.mem_append.1 h with h | h
  · split at h
    · obtain rfl := List.mem_singleton.1 h
      exact madeBy_error _ _ _
    · exact absurd h List.not_mem_nil
  · rw [clickWarnings] at h
    split at h
    · rcases List.mem_append.1 h with h | h <;> split at h
      · exact absurd h List.not_mem_nil
      · obtain rfl := List.mem_singleton.1 h
        exact madeBy_warning _ _ _ _
      · exact absurd h List.not_mem_nil
      · obtain rfl := List.mem_singleton.1 h
        exact madeBy_warning _ _ _ _
    · exact absurd h List.not_mem_nil

theorem madeBy_cost {n : Script.Node} (h : d ∈ costDiagnostics n) : d.MadeBy .performance := by
  cases n with
  | element e =>
      rw [costDiagnostics] at h
      split at h
      · obtain rfl := List.mem_singleton.1 h
        exact madeBy_warning _ _ _ _
      · exact absurd h List.not_mem_nil
  | call c =>
      rw [costDiagnostics] at h
      split at h
      · obtain rfl := List.mem_singleton.1 h
        exact madeBy_suggestion _ _ _
      · exact absurd h List.not_mem_nil
  | _ => exact absurd h List.not_mem_nil

theorem madeBy_spacing {line : ℕ} {text : String} (h : d ∈ spacingSuggestions line text) :
    d.MadeBy .patterns := by
  obtain ⟨found, -, rfl⟩ := List.mem_map.1 h
  exact madeBy_suggestion _ _ _

/-- **What a rule says is labelled as its own.** -/
theorem madeBy_of_mem_diagnostics {s : Script.Source} (h : d ∈ diagnostics registry s r) :
    d.MadeBy r := by
  cases r with
  | tokens => exact madeBy_tokens h
  | components =>
      obtain ⟨e, -, hd⟩ := List.mem_flatMap.1 h
      exact madeBy_use hd
  | props =>
      obtain ⟨e, -, hd⟩ := List.mem_flatMap.1 h
      exact madeBy_style hd
  | accessibility =>
      obtain ⟨e, -, hd⟩ := List.mem_flatMap.1 h
      exact madeBy_access hd
  | performance =>
      obtain ⟨n, -, hd⟩ := List.mem_flatMap.1 h
      exact madeBy_cost hd
  | patterns =>
      obtain ⟨⟨text, i⟩, -, hd⟩ := List.mem_flatMap.1 h
      exact madeBy_spacing hd

end Rule

/-! ### Sorting by severity -/

/-- Whether the rule of a diagnostic is among some; what is said about the grammar has no rule. -/
def Diagnostic.isKept (ids : List String) (d : Diagnostic) : Bool :=
  d.rule == Contract.syntaxRule || ids.contains d.rule

namespace Diagnostics

/-- Every list holds diagnostics of its severity. -/
structure Sorted (ds : Diagnostics) : Prop where
  errors : ∀ d ∈ ds.errors, d.severity = .error
  warnings : ∀ d ∈ ds.warnings, d.severity = .warning
  suggestions : ∀ d ∈ ds.suggestions, d.severity = .info

theorem sorted_ofList (ds : List Diagnostic) : (ofList ds).Sorted where
  errors _ hd := of_decide_eq_true (List.mem_filter.1 hd).2
  warnings _ hd := of_decide_eq_true (List.mem_filter.1 hd).2
  suggestions _ hd := of_decide_eq_true (List.mem_filter.1 hd).2

/-- Sorting by severity loses no diagnostic with one of the three severities. -/
theorem all_ofList_perm {ds : List Diagnostic}
    (h : ∀ d ∈ ds, d.severity ∈ [Severity.error, .warning, .info]) : (ofList ds).all.Perm ds := by
  induction ds with
  | nil => exact .refl _
  | cons d ds ih =>
      have hds := ih fun d' hd' => h d' (List.mem_cons_of_mem d hd')
      have hd := h d List.mem_cons_self
      simp only [List.mem_cons, List.not_mem_nil, or_false] at hd
      -- The diagnostic comes to the front of the list of its severity.
      rcases hd with hd | hd | hd <;> simp only [all, ofList, List.filter_cons, hd] at hds ⊢
      · exact hds.cons d
      · exact (List.perm_middle.append_right _).trans (hds.cons d)
      · exact List.perm_middle.trans (hds.cons d)

/-- The diagnostics whose rule is among some; what is said about the grammar always stays. -/
def only (ids : List String) (ds : Diagnostics) : Diagnostics :=
  { errors := ds.errors.filter (Diagnostic.isKept ids)
    warnings := ds.warnings.filter (Diagnostic.isKept ids)
    suggestions := ds.suggestions.filter (Diagnostic.isKept ids) }

theorem only_ofList (ids : List String) (ds : List Diagnostic) :
    (ofList ds).only ids = ofList (ds.filter (Diagnostic.isKept ids)) := by
  simp only [only, ofList, List.filter_comm]

end Diagnostics

/-! ### Selections of rules -/

namespace Rule

theorem id_ne_syntaxRule (r : Rule) : r.id ≠ Contract.syntaxRule := by
  cases r <;> decide

/-- What a rule says is kept exactly if the rule is. -/
theorem isKept_eq (ids : List String) {registry : Json} {s : Script.Source} {r : Rule}
    {d : Diagnostic} (h : d ∈ diagnostics registry s r) : d.isKept ids = ids.contains r.id := by
  rw [Diagnostic.isKept, (madeBy_of_mem_diagnostics h).rule,
    beq_eq_false_iff_ne.2 (id_ne_syntaxRule r), Bool.false_or]

/-- The rules with some ids say what all rules say, restricted to what has these ids. -/
theorem apply_filter (rules : List Rule) (ids : List String) (registry : Json)
    (s : Script.Source) :
    apply (rules.filter fun r => ids.contains r.id) registry s =
      (apply rules registry s).only ids := by
  rw [apply, apply, Diagnostics.only_ofList]
  congr 1
  induction rules with
  | nil => rfl
  | cons r rules ih =>
      rw [List.flatMap_cons, List.filter_append, ← ih,
        List.filter_congr fun d hd => isKept_eq ids hd, List.filter_cons]
      by_cases hr : ids.contains r.id = true
      · rw [if_pos hr, List.flatMap_cons, hr, List.filter_true]
      · rw [if_neg hr, Bool.eq_false_iff.2 hr, List.filter_false, List.nil_append]

/-- The rules say nothing beside what is listed by severity. -/
theorem all_apply_perm (rules : List Rule) (registry : Json) (s : Script.Source) :
    (apply rules registry s).all.Perm (rules.flatMap (diagnostics registry s)) := by
  refine Diagnostics.all_ofList_perm fun d hd => ?_
  obtain ⟨r, -, hr⟩ := List.mem_flatMap.1 hd
  exact (madeBy_of_mem_diagnostics hr).severity

/-- Ids of rules select these rules, each of them once. -/
theorem select_known {ids : List String} (h : ∀ i ∈ ids, i ∈ all.map id) :
    select (some ids) = .ok (all.filter fun r => ids.contains r.id) := by
  have hnone : (ids.filter fun i => !(all.map id).contains i) = [] := by
    rw [List.filter_eq_nil_iff]
    intro i hi
    simp only [List.contains_iff_mem.2 (h i hi), Bool.not_true, Bool.false_eq_true,
      not_false_eq_true]
  rw [select, unknownIds, hnone]
  rfl

/-- As many rules are selected as there are ids, repetitions aside. -/
theorem length_selected {ids : List String} (h : ∀ i ∈ ids, i ∈ all.map id) :
    (all.filter fun r => ids.contains r.id).length = ids.dedup.length := by
  have hnodup : ((all.filter fun r => ids.contains r.id).map id).Nodup :=
    (List.Nodup.filter _ (by decide)).map fun _ _ => id_injective
  have hperm : ((all.filter fun r => ids.contains r.id).map id).Perm ids.dedup := by
    rw [List.perm_ext_iff_of_nodup hnodup (List.nodup_dedup ids)]
    intro i
    rw [List.mem_dedup, List.mem_map]
    constructor
    · rintro ⟨r, hr, rfl⟩
      exact List.contains_iff_mem.1 (List.mem_filter.1 hr).2
    · intro hi
      obtain ⟨r, hr, rfl⟩ := List.mem_map.1 (h i hi)
      exact ⟨r, List.mem_filter.2 ⟨hr, List.contains_iff_mem.2 hi⟩, rfl⟩
  rw [← hperm.length_eq, List.length_map]

end Rule

/-! ### Reports -/

namespace Contract

/-- What a selection of rules finds is what all rules find, restricted to the selection. -/
theorem findings_filter (rules : List Rule) (ids : List String) (registry : Json)
    (read : Except Script.SyntaxFault Script.Source) :
    findings (rules.filter fun r => ids.contains r.id) registry read =
      (findings rules registry read).only ids := by
  cases read with
  | ok s => exact Rule.apply_filter rules ids registry s
  | error f => rfl

theorem sorted_findings (rules : List Rule) (registry : Json)
    (read : Except Script.SyntaxFault Script.Source) : (findings rules registry read).Sorted := by
  cases read with
  | ok s => exact Diagnostics.sorted_ofList _
  | error f => exact Diagnostics.sorted_ofList _

end Contract

theorem ContractReport.valid_iff (r : ContractReport) :
    r.valid = true ↔
      r.diagnostics.errors = [] ∧ (r.strict = true → r.diagnostics.warnings = []) := by
  rw [valid, Bool.and_eq_true, List.isEmpty_iff]
  refine and_congr_right fun _ => ?_
  cases r.strict <;> cases r.diagnostics.warnings <;> simp

/-- The report of a selection of rules, beside the report of all rules. -/
structure ContractReport.Restricts (ids : List String) (whole part : ContractReport) : Prop where
  /-- The diagnostics are those with the selected ids, in order, and the rules are counted. -/
  eq : part =
    { whole with rules := ids.dedup.length, diagnostics := whole.diagnostics.only ids }
  /-- Every list holds diagnostics of its severity. -/
  sorted : part.diagnostics.Sorted
  /-- Errors count against the script, and warnings if they are asked for. -/
  valid : part.valid = true ↔
    part.diagnostics.errors = [] ∧ (part.strict = true → part.diagnostics.warnings = [])

/-- **The report of a selection of rules is that of all rules, restricted to the selection.**  The rules
are named in any order and repeated or not, and the report counts each of them once.  A script that does
not follow the grammar has its one error for every selection; of another one, the report lists all that
the selected rules say. -/
theorem check_selected [Script.Parser] (registry : Json) {ids : List String}
    (h : ∀ i ∈ ids, i ∈ Rule.all.map Rule.id) (strict : Bool) (path text : String) :
    ∃ rules, Rule.select (some ids) = .ok rules ∧
      ContractReport.Restricts ids (Contract.check registry Rule.all strict path text)
        (Contract.check registry rules strict path text) ∧
      (∀ f, Script.Source.read path text = .error f →
        (Contract.check registry rules strict path text).diagnostics =
          ⟨[Contract.syntaxError f], [], []⟩) ∧
      ∀ s, Script.Source.read path text = .ok s →
        (Contract.check registry rules strict path text).diagnostics.all.Perm
          (rules.flatMap (Rule.diagnostics registry s)) := by
  refine ⟨Rule.all.filter fun r => ids.contains r.id, Rule.select_known h, ?_, ?_, ?_⟩
  · have hfound := Contract.findings_filter Rule.all ids registry (Script.Source.read path text)
    refine ⟨?_, Contract.sorted_findings _ _ _, ContractReport.valid_iff _⟩
    rw [Contract.check, Contract.check, hfound, Rule.length_selected h]
  · intro f hf
    rw [Contract.check, hf]
    rfl
  · intro s hs
    rw [Contract.check, hs]
    exact Rule.all_apply_perm _ _ _

/-- Three ids select two rules; that the image has no text for those who do not see it is said by
neither of them. -/
theorem check_selected_repeated :
    (Contract.check (.obj []) Rule.all true "a.jsx" "<img style='a'/>").diagnostics.errors ≠ [] ∧
      ∃ rules,
        Rule.select (some ["validate-props", "validate-tokens", "validate-props"]) = .ok rules ∧
          (Contract.check (.obj []) rules true "a.jsx" "<img style='a'/>").rules = 2 ∧
          (Contract.check (.obj []) rules true "a.jsx" "<img style='a'/>").diagnostics.errors = [] ∧
          ContractReport.Restricts ["validate-props", "validate-tokens", "validate-props"]
            (Contract.check (.obj []) Rule.all true "a.jsx" "<img style='a'/>")
            (Contract.check (.obj []) rules true "a.jsx" "<img style='a'/>") := by
  obtain ⟨rules, hrules, hpart, -⟩ :=
    @check_selected _ (.obj []) ["validate-props", "validate-tokens", "validate-props"] (by decide)
      true "a.jsx" "<img style='a'/>"
  have hcount := congrArg ContractReport.rules hpart.eq
  have herrors := congrArg (fun report => report.diagnostics.errors) hpart.eq
  exact ⟨by decide +kernel, rules, hrules, hcount.trans (by decide),
    herrors.trans (by decide +kernel), hpart⟩

/-- Beside the diagnostics, a report of one rule differs from that of all rules: it says that one rule
was applied. -/
theorem check_counts_rules :
    ¬∀ (registry : Json) (ids : List String) (rules : List Rule) (strict : Bool)
      (path text : String), Rule.select (some ids) = .ok rules →
        Contract.check registry rules strict path text =
          { Contract.check registry Rule.all strict path text with
            diagnostics :=
              (Contract.check registry Rule.all strict path text).diagnostics.only ids } := by
  intro h
  have hcount : 1 = 6 := congrArg ContractReport.rules
    (h (.obj []) ["validate-props"] [.props] false "unknown" "" rfl)
  exact absurd hcount (by decide)

end DesignRegistry
