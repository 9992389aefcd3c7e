/-
**The options of a scan only hide findings.**

Every comparison that an option switches off has its own kinds of findings, and so have the rules.  So
what a scan finds is what it finds with all comparisons and no allowed values, without the findings that
the options hide: switching a comparison off, or allowing a value, brings no other finding to light.  The
proof follows the scan from the options of one finding up to a script.

Main definitions:

* `ScanOptions.hides` — whether the options hide a finding.

Main results:

* `ScanOptions.hides_ofDiagnostic` — what the rules say is never hidden;
* `Scan.filter_elementViolations`, `Scan.filter_nodeViolations` — options hide findings about an element
  and about a node;
* `scan_options_hide` — **a scan with options is the scan without, less what they hide**.
-/
import DesignRegistry.Proofs.Contract.Independence
import DesignRegistry.Proofs.Scan.Sum

set_option relaxedAutoImplicit false
set_option autoImplicit false

namespace DesignRegistry

/-! ### What options hide -/

namespace ScanOptions

variable {o : ScanOptions} {v : Violation}

/-- Whether options hide a finding: it is of a kind that is not looked for, or a value that is allowed. -/
def hides (o : ScanOptions) (v : Violation) : Bool :=
  (!o.props && ["invalid-prop", "missing-required-prop"].contains v.kind)
    || (!o.variants && v.kind == "invalid-variant")
    || (!o.tokens && ["invalid-token", "hardcoded-value"].contains v.kind)
    || (v.kind == "hardcoded-value" && v.value.any o.allowed.contains)

theorem hides_prop (h : v.kind = "invalid-prop" ∨ v.kind = "missing-required-prop") :
    o.hides v = !o.props := by
  rcases h with h | h <;> simp [hides, h]

theorem hides_variant (h : v.kind = "invalid-variant") : o.hides v = !o.variants := by
  simp [hides, h]

theorem hides_token (h : v.kind = "invalid-token") : o.hides v = !o.tokens := by
  simp [hides, h]

theorem hides_fixed {value : String} (h : v.kind = "hardcoded-value") (hv : v.value = some value) :
    o.hides v = (!o.tokens || o.allowed.contains value) := by
  simp [hides, h, hv]

/-- What the rules say is of none of the kinds that are hidden. -/
theorem hides_ofDiagnostic {r : Rule} {d : Diagnostic} (h : d.MadeBy r) (file : String) :
    o.hides (.ofDiagnostic file d) = false := by
  have hkind : (Violation.ofDiagnostic file d).kind = r.id := h.rule
  cases r <;> simp [hides, hkind, Rule.id]

/-- Findings that are hidden all or not at all. -/
theorem filter_hides {vs : List Violation} {wanted : Bool} (h : ∀ v ∈ vs, o.hides v = !wanted) :
    (vs.filter fun v => !o.hides v) = if wanted then vs else [] := by
  rw [List.filter_congr fun v hv => by rw [h v hv, Bool.not_not]]
  cases wanted
  · exact List.filter_false vs
  · exact List.filter_true vs

end ScanOptions

/-! ### Findings one by one -/

namespace Scan

open ScanOptions

variable (d : Declared) (o : ScanOptions) (file : String)

theorem filter_propViolations (component : Json) (e : Script.Element) :
    ((propViolations file component e).filter fun v => !o.hides v) =
      if o.props then propViolations file component e else [] := by
  refine filter_hides fun v hv => hides_prop ?_
  rw [propViolations] at hv
  rcases List.mem_append.1 hv with hv | hv
  · obtain ⟨a, -, ha⟩ := List.mem_filterMap.1 hv
    rw [propViolation?] at ha
    split at ha
    · exact absurd ha (by simp)
    · obtain rfl := Option.some.inj ha
      exact .inl rfl
  · split at hv
    · exact absurd hv List.not_mem_nil
    · obtain ⟨prop, -, rfl⟩ := List.mem_map.1 hv
      exact .inr rfl

theorem filter_variantViolations (component : Json) (e : Script.Element) :
    ((e.attributes.filterMap (variantViolation? file component e)).filter fun v => !o.hides v) =
      if o.variants then e.attributes.filterMap (variantViolation? file component e) else [] := by
  refine filter_hides fun v hv => hides_variant ?_
  obtain ⟨a, -, ha⟩ := List.mem_filterMap.1 hv
  rw [variantViolation?] at ha
  split at ha
  · exact absurd ha (by simp)
  · split at ha
    · exact absurd ha (by simp)
    · obtain rfl := Option.some.inj ha
      rfl

/-- The one finding that stands for a fixed value, if it is neither hidden nor allowed. -/
theorem filter_some_fixed {v : Violation} {value : String} (h : v.kind = "hardcoded-value")
    (hv : v.value = some value) :
    ((some v).filter fun v => !o.hides v) =
      if o.tokens then if o.allowed.contains value then none else some v else none := by
  rw [Option.filter_some, hides_fixed h hv]
  cases o.tokens <;> cases o.allowed.contains value <;> rfl

/-- A value that is allowed hides its own finding; it is not taken for the name of a token instead. -/
theorem filter_tokenViolation? (e : Script.Element) (a : Script.Attribute) :
    ((tokenViolation? d {} file e a).filter fun v => !o.hides v) =
      if o.tokens then tokenViolation? d o file e a else none := by
  unfold tokenViolation?
  split
  · exact (ite_self none).symm
  · split
    · exact filter_some_fixed o rfl rfl
    · split
      · rw [Option.filter_some, hides_token rfl]
        cases o.tokens <;> rfl
      · exact (ite_self none).symm

theorem filter_stringViolation? (s : Script.StringLiteral) :
    ((stringViolation? {} file s).filter fun v => !o.hides v) =
      if o.tokens then stringViolation? o file s else none := by
  unfold stringViolation?
  cases s.inAttribute || s.inImport || !(isFixedColour s.value || isFixedSpacing s.value)
  · rw [Bool.false_or, Bool.false_or]
    exact filter_some_fixed o rfl rfl
  · exact (ite_self none).symm

theorem filter_templateViolation? (t : Script.Template) :
    ((templateViolation? {} file t).filter fun v => !o.hides v) =
      if o.tokens then templateViolation? o file t else none := by
  unfold templateViolation?
  cases !isFixedColour t.head
  · rw [Bool.false_or, Bool.false_or]
    exact filter_some_fixed o rfl rfl
  · exact (ite_self none).symm

/-! ### Elements, nodes and scripts -/

theorem filter_elementViolations (e : Script.Element) :
    ((elementViolations d {} file e).filter fun v => !o.hides v) =
      elementViolations d o file e := by
  rw [elementViolations, elementViolations, List.filter_append]
  congr 1
  · cases Registry.find? d.registry e.name with
    | none => rfl
    | some component =>
        rw [List.filter_append]
        exact congrArg₂ (· ++ ·) (filter_propViolations o file component e)
          (filter_variantViolations o file component e)
  · change ((e.attributes.filterMap (tokenViolation? d {} file e)).filter _) = _
    rw [List.filter_filterMap]
    cases htokens : o.tokens <;> simp [filter_tokenViolation?, htokens]

theorem filter_nodeViolations (n : Script.Node) :
    ((nodeViolations d {} file n).filter fun v => !o.hides v) = nodeViolations d o file n := by
  cases n with
  | element e =>
      rw [nodeViolations, nodeViolations]
      cases e.isComponent
      · rfl
      · exact filter_elementViolations d o file e
  | string s =>
      change ((stringViolation? {} file s).toList.filter _) = _
      rw [← Option.toList_filter, filter_stringViolation?, nodeViolations]
      cases o.tokens <;> rfl
  | template t =>
      change ((templateViolation? {} file t).toList.filter _) = _
      rw [← Option.toList_filter, filter_templateViolation?, nodeViolations]
      cases o.tokens <;> rfl
  | _ => rfl

theorem filter_violations (rules : List Rule) (s : Script.Source) :
    ((violations d rules {} s).filter fun v => !o.hides v) = violations d rules o s := by
  rw [violations, violations, List.filter_append, List.filter_flatMap]
  congr 1
  · rw [List.filter_eq_self]
    intro v hv
    obtain ⟨diagnostic, hd, rfl⟩ := List.mem_map.1 hv
    obtain ⟨r, -, hr⟩ := List.mem_flatMap.1 ((Rule.all_apply_perm rules d.registry s).mem_iff.1 hd)
    rw [hides_ofDiagnostic (Rule.madeBy_of_mem_diagnostics hr), Bool.not_false]
  · exact List.flatMap_congr fun n _ => filter_nodeViolations d o s.path n

theorem filter_source [Script.Parser] (rules : List Rule) (path text : String) :
    ((source d rules {} path text).violations.filter fun v => !o.hides v) =
      (source d rules o path text).violations := by
  rw [source, source]
  cases hasElements text with
  | false => rfl
  | true =>
      cases Script.Source.read path text with
      | error f => rfl
      | ok s => exact filter_violations d o rules s

end Scan

/-- **A scan with options finds what it finds without, in the same order, less what the options hide.**
This holds on top of any result of earlier scans, and for any rules. -/
theorem scan_options_hide [Script.Parser] (d : Declared) (rules : List Rule) (o : ScanOptions)
    (r : ScanResult) (path text : String) :
    (Scan.into d rules o r path text).violations =
      r.violations ++
        (Scan.into d rules {} {} path text).violations.filter fun v => !o.hides v := by
  rw [Scan.into_empty, Scan.filter_source, Scan.into_eq, ScanResult.join]

end DesignRegistry
