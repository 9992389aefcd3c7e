/-
**Checks find out what schemas mean.**

A check reports violations as it meets them, and stops at the first violation of a type, a constant or
an enumeration.  What is reported settles the keywords that were looked at: nothing is reported only
if all their demands are met, and something only if some demand is not.  Reports that settle keywords
can be joined; the report of a schema is joined from the reports of its keywords, or broken off once
a demand is known not to be met.

With the reports for what lies below given, the induction is on the depth of the check.

Main definitions:

* `Schema.Decides` — a check reports nothing exactly where a schema is satisfied;
* `Schema.Settles` — a report tells whether the demands of some keywords are met.

Main results:

* `Schema.settles_checkKeywords` — the report of all keywords;
* `Schema.decides_checkAt` — **a check reports nothing exactly where the schema is satisfied**.
-/
import DesignRegistry.Proofs.Json.Content
import DesignRegistry.Proofs.Schema.Meaning
import DesignRegistry.Proofs.Schema.Order

set_option relaxedAutoImplicit false
set_option autoImplicit false

namespace DesignRegistry

namespace Schema

open Json

/-! ### Reports of many checks -/

/-- The report of many checks is empty exactly if each of their reports is. -/
theorem gather_eq_ok {α : Type} {check : α → Outcome} {xs : List α} {found : List Violation}
    (h : gather check xs = .ok found) :
    (found = [] → ∀ x ∈ xs, check x = .ok []) ∧
      (found ≠ [] → ∃ x ∈ xs, ∃ part, part ≠ [] ∧ check x = .ok part) := by
  induction xs generalizing found with
  | nil =>
      obtain rfl := Except.ok.inj h
      exact ⟨fun _ x hx => absurd hx List.not_mem_nil, fun hne => absurd rfl hne⟩
  | cons x xs ih =>
      rw [gather] at h
      split at h
      · exact absurd h (by simp)
      · next first hfirst =>
          split at h
          · exact absurd h (by simp)
          · next more hmore =>
              obtain rfl := Except.ok.inj h
              obtain ⟨hnone, hsome⟩ := ih hmore
              constructor
              · intro hnil
                obtain ⟨rfl, rfl⟩ := List.append_eq_nil_iff.1 hnil
                exact List.forall_mem_cons.2 ⟨hfirst, hnone rfl⟩
              · intro hne
                by_cases hnil : first = []
                · subst hnil
                  obtain ⟨y, hy, part, hpart⟩ := hsome (by simpa using hne)
                  exact ⟨y, List.mem_cons_of_mem x hy, part, hpart⟩
                · exact ⟨x, List.mem_cons_self, first, hnil, hfirst⟩

/-- Checks that know their position are checks of items together with their positions. -/
theorem gatherFrom_eq (check : ℕ → Json → Outcome) (i : ℕ) (xs : List Json) :
    gatherFrom check i xs = gather (fun x => check x.2 x.1) (xs.zipIdx i) := by
  induction xs generalizing i with
  | nil => rfl
  | cons x xs ih => rw [gatherFrom, List.zipIdx_cons, gather, ih]

theorem reportIf_eq_nil {condition : Bool} {violation : Violation} :
    reportIf condition violation = [] ↔ condition = false := by
  cases condition <;> simp [reportIf]

/-! ### Reports that settle keywords -/

/-- A check reports nothing exactly where a schema is satisfied. -/
def Decides (root : Json) (check : Checker) : Prop :=
  ∀ v s path found, check v s path = .ok found → Verdict root (.meets s v) found.isEmpty

/-- A report tells whether the demands of some keywords are met: it is empty only if all of them are,
and has something in it only if a demand of the schema is not. -/
structure Settles (root : Json) (schema : Members) (v : Json) (ks : List Keyword)
    (found : List Violation) : Prop where
  met : found = [] → ∀ k ∈ ks, ∀ d, Asks schema k v d → Verdict root d true
  unmet : found ≠ [] → ∃ k d, Asks schema k v d ∧ Verdict root d false

section Keywords

variable {root : Json} {check : Checker} {schema : Members} {v : Json} {path : String}
  {found : List Violation} {k : Keyword}

theorem Settles.append {ks ls : List Keyword} {more : List Violation}
    (h : Settles root schema v ks found) (h' : Settles root schema v ls more) :
    Settles root schema v (ks ++ ls) (found ++ more) where
  met := by
    intro hnil k hk
    obtain ⟨hfound, hmore⟩ := List.append_eq_nil_iff.1 hnil
    rcases List.mem_append.1 hk with hk | hk
    · exact h.met hfound k hk
    · exact h'.met hmore k hk
  unmet := by
    intro hne
    by_cases hnil : found = []
    · exact h'.unmet (by simpa [hnil] using hne)
    · exact h.unmet hnil

/-- A keyword that demands nothing. -/
theorem settles_nil (h : ∀ d, ¬ Asks schema k v d) : Settles root schema v [k] [] where
  met := by
    intro _ k' hk' d hd
    obtain rfl := List.mem_singleton.1 hk'
    exact absurd hd (h d)
  unmet := fun hne => absurd rfl hne

/-- A keyword with a single demand. -/
theorem settles_single {d : Demand} (hasks : Asks schema k v d)
    (honly : ∀ d', Asks schema k v d' → d' = d) (h : Verdict root d found.isEmpty) :
    Settles root schema v [k] found where
  met := by
    intro hnil k' hk' d' hd'
    obtain rfl := List.mem_singleton.1 hk'
    obtain rfl := honly d' hd'
    rwa [hnil] at h
  unmet := by
    intro hne
    rw [List.isEmpty_eq_false_iff.2 hne] at h
    exact ⟨k, d, hasks, h⟩

/-- A keyword whose single demand can be seen from the value. -/
theorem settles_fact {holds : Prop} (hasks : Asks schema k v (.fact holds))
    (honly : ∀ d', Asks schema k v d' → d' = .fact holds) (h : found = [] ↔ holds) :
    Settles root schema v [k] found := by
  refine settles_single hasks honly ?_
  by_cases hholds : holds
  · rw [h.2 hholds]
    exact .fact hholds
  · rw [List.isEmpty_eq_false_iff.2 fun hnil => hholds (h.1 hnil)]
    exact .no_fact hholds

/-- A keyword whose demands are made for parts, which are checked one after the other. -/
theorem settles_gather {α : Type} {part : α → Outcome} {xs : List α}
    (h : gather part xs = .ok found)
    (hmet : ∀ d, Asks schema k v d → ∃ x ∈ xs, part x = .ok [] → Verdict root d true)
    (hunmet : ∀ x ∈ xs, ∀ more, more ≠ [] → part x = .ok more →
      ∃ d, Asks schema k v d ∧ Verdict root d false) :
    Settles root schema v [k] found where
  met := by
    intro hnil k' hk' d hd
    obtain rfl := List.mem_singleton.1 hk'
    obtain ⟨x, hx, hverdict⟩ := hmet d hd
    exact hverdict ((gather_eq_ok h).1 hnil x hx)
  unmet := by
    intro hne
    obtain ⟨x, hx, more, hmore, hrun⟩ := (gather_eq_ok h).2 hne
    obtain ⟨d, hd⟩ := hunmet x hx more hmore hrun
    exact ⟨k, d, hd⟩

theorem Decides.met (hcheck : Decides root check) {s : Json} (h : check v s path = .ok []) :
    Verdict root (.meets s v) true :=
  hcheck v s path [] h

theorem Decides.unmet (hcheck : Decides root check) {s : Json} (hne : found ≠ [])
    (h : check v s path = .ok found) : Verdict root (.meets s v) false := by
  have hverdict := hcheck v s path found h
  rwa [List.isEmpty_eq_false_iff.2 hne] at hverdict

/-! ### Combinations of schemas -/

theorem Decides.satisfies (hcheck : Decides root check) {s : Json} {b : Bool}
    (h : satisfies check v path s = .ok b) : Verdict root (.meets s v) b := by
  rw [Schema.satisfies] at h
  cases hs : check v s path with
  | error e =>
      rw [hs] at h
      exact absurd h (by simp [Except.map])
  | ok found =>
      rw [hs] at h
      obtain rfl := Except.ok.inj h
      exact hcheck v s path found hs

theorem Decides.satisfiesSome (hcheck : Decides root check) {schemas : List Json} {b : Bool}
    (h : satisfiesSome check v path schemas = .ok b) : Verdict root (.some schemas v) b := by
  induction schemas with
  | nil =>
      obtain rfl := Except.ok.inj h
      exact .not_some fun s hs => absurd hs List.not_mem_nil
  | cons s schemas ih =>
      rw [Schema.satisfiesSome] at h
      split at h
      · exact absurd h (by simp)
      · next hs =>
          obtain rfl := Except.ok.inj h
          exact .some List.mem_cons_self (hcheck.satisfies hs)
      · next hs =>
          cases ih h with
          | some hmem hverdict => exact .some (List.mem_cons_of_mem s hmem) hverdict
          | not_some hnone =>
              exact .not_some (List.forall_mem_cons.2 ⟨hcheck.satisfies hs, hnone⟩)

open Classical in
/-- Whether a schema is satisfied, where there is a verdict. -/
theorem Verdict.decide_satisfies {s : Json} {b : Bool} (h : Verdict root (.meets s v) b) :
    decide (Satisfies root s v) = b := by
  cases b with
  | true => exact decide_eq_true h
  | false => exact decide_eq_false fun hsat => absurd (hsat.unique h) (by simp)

open Classical in
theorem Decides.countSatisfied (hcheck : Decides root check) {schemas : List Json} {n : ℕ}
    (h : countSatisfied check v path schemas = .ok n) :
    (∀ s ∈ schemas, Verdict root (.meets s v) (decide (Satisfies root s v))) ∧
      schemas.countP (fun s => decide (Satisfies root s v)) = n := by
  induction schemas generalizing n with
  | nil =>
      obtain rfl := Except.ok.inj h
      exact ⟨fun s hs => absurd hs List.not_mem_nil, rfl⟩
  | cons s schemas ih =>
      rw [Schema.countSatisfied] at h
      obtain ⟨first, hfirst, h⟩ := exists_of_bind_eq_ok h
      obtain ⟨others, hothers, h⟩ := exists_of_bind_eq_ok h
      obtain rfl := Except.ok.inj h
      have hverdict := hcheck.satisfies hfirst
      obtain ⟨hrest, hcount⟩ := ih hothers
      refine ⟨List.forall_mem_cons.2 ⟨?_, hrest⟩, ?_⟩
      · rwa [hverdict.decide_satisfies]
      · rw [List.countP_cons, hcount, hverdict.decide_satisfies]
        cases first <;> simp [Nat.add_comm]

theorem settles_checkAllOf (hcheck : Decides root check)
    (h : checkAllOf check schema v path = .ok found) :
    Settles root schema v [.allOf] found := by
  rw [checkAllOf] at h
  split at h
  · next schemas hget =>
      refine settles_gather h ?_ fun s hs more hne hrun => ⟨_, .allOf hget hs, hcheck.unmet hne hrun⟩
      intro d hd
      cases hd with
      | @allOf _ s _ hget' hs =>
          obtain rfl := Json.arr.inj (Option.some.inj (hget.symm.trans hget'))
          exact ⟨s, hs, hcheck.met⟩
  · next hnot =>
      obtain rfl := Except.ok.inj h
      refine settles_nil fun d hd => ?_
      cases hd with
      | allOf hget => exact hnot _ hget

theorem settles_checkAnyOf (hcheck : Decides root check)
    (h : checkAnyOf check schema v path = .ok found) :
    Settles root schema v [.anyOf] found := by
  rw [checkAnyOf] at h
  split at h
  · next s schemas hget =>
      obtain ⟨b, hb, h⟩ := exists_of_bind_eq_ok h
      obtain rfl := Except.ok.inj h
      refine settles_single (.anyOf hget (List.cons_ne_nil s schemas)) ?_ ?_
      · intro d hd
        cases hd with
        | anyOf hget' => rw [Json.arr.inj (Option.some.inj (hget.symm.trans hget'))]
      · have hverdict := hcheck.satisfiesSome hb
        cases b <;> exact hverdict
  · next hnot =>
      obtain rfl := Except.ok.inj h
      refine settles_nil fun d hd => ?_
      cases hd with
      | anyOf hget hne =>
          obtain ⟨s, schemas, rfl⟩ := List.exists_cons_of_ne_nil hne
          exact hnot s schemas hget

theorem settles_checkOneOf (hcheck : Decides root check)
    (h : checkOneOf check schema v path = .ok found) :
    Settles root schema v [.oneOf] found := by
  rw [checkOneOf] at h
  split at h
  · next schemas hget =>
      obtain ⟨n, hn, h⟩ := exists_of_bind_eq_ok h
      obtain rfl := Except.ok.inj h
      obtain ⟨hverdicts, hcount⟩ := hcheck.countSatisfied hn
      refine settles_single (.oneOf hget) ?_ ?_
      · intro d hd
        cases hd with
        | oneOf hget' => rw [Json.arr.inj (Option.some.inj (hget.symm.trans hget'))]
      · have hverdict := Verdict.one _ hverdicts
        rw [hcount] at hverdict
        cases hone : n == 1 with
        | true =>
            rw [hone] at hverdict
            rw [reportIf_eq_nil.2 (by simp [bne, hone])]
            exact hverdict
        | false =>
            rw [hone] at hverdict
            rw [List.isEmpty_eq_false_iff.2 fun hnil => by
              simp [reportIf_eq_nil, bne, hone] at hnil]
            exact hverdict
  · next hnot =>
      obtain rfl := Except.ok.inj h
      refine settles_nil fun d hd => ?_
      cases hd with
      | oneOf hget => exact hnot _ hget

/-- A branch that is not given accepts every value. -/
theorem Decides.branch (hcheck : Decides root check) {name : String}
    (h : (match Members.get? name schema with
      | some s => check v s path
      | none => pure []) = .ok found) :
    Verdict root (.meets ((Members.get? name schema).getD (.bool true)) v) found.isEmpty := by
  split at h
  · next s hget =>
      rw [hget]
      exact hcheck v s path found h
  · next hget =>
      obtain rfl := Except.ok.inj h
      rw [hget]
      exact .boolean true v

theorem settles_checkCondition (hcheck : Decides root check)
    (h : checkCondition check schema v path = .ok found) :
    Settles root schema v [.condition] found := by
  rw [checkCondition] at h
  split at h
  · next condition hget =>
      obtain ⟨b, hb, h⟩ := exists_of_bind_eq_ok h
      have hcondition := hcheck.satisfies hb
      refine settles_single (.condition hget) ?_ ?_
      · intro d hd
        cases hd with
        | condition hget' => rw [Json.obj.inj (Option.some.inj (hget.symm.trans hget'))]
      · cases b with
        | true => exact .met hcondition (hcheck.branch h)
        | false => exact .unmet hcondition (hcheck.branch h)
  · next hnot =>
      obtain rfl := Except.ok.inj h
      refine settles_nil fun d hd => ?_
      cases hd with
      | condition hget => exact hnot _ hget

/-! ### Type, constant and enumeration -/

theorem hasType_iff (v : Json) (name : String) : hasType v name = true ↔ OfType v name := by
  rw [hasType]
  split
  · next hname => cases v <;> simp [kind, OfType, hname]
  · next hname => cases v <;> simp [kind, Kind.name, OfType, hname, @eq_comm String _ name]

theorem settles_type (root : Json) (schema : Members) (v : Json) (path : String) :
    Settles root schema v [.type] (typeViolation? schema v path).toList := by
  rw [typeViolation?]
  split
  · next names hget =>
      refine settles_fact (.types hget) ?_ ?_
      · intro d hd
        cases hd with
        | type hget' => exact absurd (hget.symm.trans hget') (by simp)
        | types hget' => rw [Json.arr.inj (Option.some.inj (hget.symm.trans hget'))]
      · simp only [← hasType_iff]
        split
        · next hany => simpa using hany
        · next hany => simpa using hany
  · next name hget =>
      refine settles_fact (.type hget) ?_ ?_
      · intro d hd
        cases hd with
        | type hget' => rw [Json.str.inj (Option.some.inj (hget.symm.trans hget'))]
        | types hget' => exact absurd (hget.symm.trans hget') (by simp)
      · rw [← hasType_iff]
        split
        · next htype => simp [htype]
        · next htype => simp [htype]
  · next harr hstr =>
      refine settles_nil fun d hd => ?_
      cases hd with
      | type hget => exact hstr _ hget
      | types hget => exact harr _ hget

theorem settles_const (root : Json) (schema : Members) (v : Json) (path : String) :
    Settles root schema v [.const] (constViolation? schema v path).toList := by
  rw [constViolation?]
  split
  · next c hget =>
      refine settles_fact (.const hget) ?_ ?_
      · intro d hd
        cases hd with
        | const hget' => rw [Option.some.inj (hget.symm.trans hget')]
      · split
        · next heq => simp [heq]
        · next heq => simp [heq]
  · next hnone =>
      refine settles_nil fun d hd => ?_
      cases hd with
      | const hget => exact absurd (hnone.symm.trans hget) (by simp)

theorem settles_enum (root : Json) (schema : Members) (v : Json) (path : String) :
    Settles root schema v [.enum] (enumViolation? schema v path).toList := by
  rw [enumViolation?]
  split
  · next values hget =>
      refine settles_fact (.enum hget) ?_ ?_
      · intro d hd
        cases hd with
        | enum hget' => rw [Json.arr.inj (Option.some.inj (hget.symm.trans hget'))]
      · rw [memberOf]
        split
        · next hany => simpa using hany
        · next hany => simpa using hany
  · next hnot =>
      refine settles_nil fun d hd => ?_
      cases hd with
      | enum hget => exact hnot _ hget

/-! ### Bounds -/

/-- What a keyword with a bound reports: nothing where it is not given, and otherwise nothing exactly if
what it demands of the bound that was read holds. -/
def ReportsBound {α : Type} (schema : Members) (name : String) (read : Json → Except Fault α)
    (holds : α → Prop) (found : List Violation) : Prop :=
  (keyword? schema name = none ∧ found = []) ∨
    ∃ bound a, keyword? schema name = some bound ∧ read bound = .ok a ∧ (found = [] ↔ holds a)

/-- A keyword that reads its bound and tests it. -/
theorem reportsBound_of_ok {α : Type} {name : String} {read : Json → Except Fault α}
    {crossed : α → Bool} {problem : Json → Violation} {holds : α → Prop}
    (hholds : ∀ a, crossed a = false ↔ holds a)
    (h : (match keyword? schema name with
      | none => .ok []
      | some bound => do
        let a ← read bound
        return reportIf (crossed a) (problem bound) : Outcome) = .ok found) :
    ReportsBound schema name read holds found := by
  split at h
  · next hnone => exact .inl ⟨hnone, (Except.ok.inj h).symm⟩
  · next bound hbound =>
      obtain ⟨a, ha, h⟩ := exists_of_bind_eq_ok h
      obtain rfl := Except.ok.inj h
      exact .inr ⟨bound, a, hbound, ha, by rw [reportIf_eq_nil, hholds]⟩

theorem reportsBound_checkLeast {name unit : String} {count : ℕ}
    (h : checkLeast schema name unit path v count = .ok found) :
    ReportsBound schema name integerOf (fun n => n ≤ count) found :=
  reportsBound_of_ok (fun n => by rw [decide_eq_false_iff_not, not_lt]) h

theorem reportsBound_checkMost {name unit : String} {count : ℕ}
    (h : checkMost schema name unit path v count = .ok found) :
    ReportsBound schema name integerOf (fun n => (count : Int) ≤ n) found :=
  reportsBound_of_ok (fun n => by rw [decide_eq_false_iff_not, not_lt]) h

/-- A keyword with a bound has a single demand, since its bound is read in one way. -/
theorem settles_bound {α : Type} {name : String} {read : Json → Except Fault α} {holds : α → Prop}
    (h : ReportsBound schema name read holds found)
    (hasks : ∀ bound a, keyword? schema name = some bound → read bound = .ok a →
      Asks schema k v (.fact (holds a)))
    (honly : ∀ d, Asks schema k v d → ∃ bound a, keyword? schema name = some bound ∧
      read bound = .ok a ∧ d = .fact (holds a)) : Settles root schema v [k] found := by
  rcases h with ⟨hnone, rfl⟩ | ⟨bound, a, hbound, ha, hiff⟩
  · refine settles_nil fun d hd => ?_
    obtain ⟨bound, -, hbound, -⟩ := honly d hd
    exact absurd (hnone.symm.trans hbound) (by simp)
  · refine settles_fact (hasks bound a hbound ha) (fun d hd => ?_) hiff
    obtain ⟨bound', a', hbound', ha', rfl⟩ := honly d hd
    obtain rfl := Option.some.inj (hbound.symm.trans hbound')
    rw [Except.ok.inj (ha.symm.trans ha')]

/-! ### Texts -/

theorem settles_minLength {text : String}
    (h : checkLeast schema "minLength" "characters" path (.str text) text.length = .ok found) :
    Settles root schema (.str text) [.minLength] found := by
  refine settles_bound (reportsBound_checkLeast h) (fun _ _ => .minLength) fun d hd => ?_
  cases hd with
  | minLength hbound hn => exact ⟨_, _, hbound, hn, rfl⟩

theorem settles_maxLength {text : String}
    (h : checkMost schema "maxLength" "characters" path (.str text) text.length = .ok found) :
    Settles root schema (.str text) [.maxLength] found := by
  refine settles_bound (reportsBound_checkMost h) (fun _ _ => .maxLength) fun d hd => ?_
  cases hd with
  | maxLength hbound hn => exact ⟨_, _, hbound, hn, rfl⟩

theorem settles_checkPattern {text : String} (h : checkPattern schema path text = .ok found) :
    Settles root schema (.str text) [.pattern] found := by
  rw [checkPattern] at h
  split at h
  · next written hget =>
      obtain ⟨p, hp, h⟩ := exists_of_bind_eq_ok h
      obtain rfl := Except.ok.inj h
      refine settles_fact (.pattern hget hp) (fun d hd => ?_) ?_
      · cases hd with
        | pattern hget' hp' =>
            obtain rfl := Json.str.inj (Option.some.inj (hget.symm.trans hget'))
            rw [Except.ok.inj (hp.symm.trans hp')]
      · rw [reportIf_eq_nil, Bool.not_eq_false']
  · next hnot =>
      obtain rfl := Except.ok.inj h
      refine settles_nil fun d hd => ?_
      cases hd with
      | pattern hget => exact hnot _ hget

theorem settles_checkFormat {text : String} (h : checkFormat schema path text = .ok found) :
    Settles root schema (.str text) [.format] found := by
  rw [checkFormat] at h
  split at h
  · next hget =>
      refine settles_fact (.format hget) (fun d hd => ?_) ?_
      · cases hd with
        | format => rfl
      · split at h
        · next t ht =>
            obtain rfl := Except.ok.inj h
            exact iff_of_true rfl ⟨t, ht⟩
        · next e he =>
            obtain rfl := Except.ok.inj h
            refine iff_of_false (by simp) ?_
            rintro ⟨t, ht⟩
            exact absurd (he.symm.trans ht) (by simp)
  · next hnot =>
      obtain rfl := Except.ok.inj h
      refine settles_nil fun d hd => ?_
      cases hd with
      | format hget => exact hnot hget

theorem settles_checkText {text : String} (h : checkText schema path text = .ok found) :
    Settles root schema (.str text) [.minLength, .maxLength, .pattern, .format] found := by
  obtain ⟨short, hshort, h⟩ := exists_of_bind_eq_ok h
  obtain ⟨long, hlong, h⟩ := exists_of_bind_eq_ok h
  obtain ⟨pattern, hpattern, h⟩ := exists_of_bind_eq_ok h
  obtain ⟨format, hformat, h⟩ := exists_of_bind_eq_ok h
  obtain rfl := Except.ok.inj h
  exact (((settles_minLength hshort).append (settles_maxLength hlong)).append
    (settles_checkPattern hpattern)).append (settles_checkFormat hformat)

/-! ### Numbers -/

/-- A number and a bound as the binary numbers that are compared. -/
def binaryPair (v bound : Json) : Except Fault (Binary64 × Binary64) := do
  let x ← binaryOf v
  let b ← binaryOf bound
  return (x, b)

theorem binaryPair_eq_ok {bound : Json} {p : Binary64 × Binary64} :
    binaryPair v bound = .ok p ↔ binaryOf v = .ok p.1 ∧ binaryOf bound = .ok p.2 := by
  constructor
  · intro h
    obtain ⟨x, hx, h⟩ := exists_of_bind_eq_ok h
    obtain ⟨b, hb, h⟩ := exists_of_bind_eq_ok h
    obtain rfl := Except.ok.inj h
    exact ⟨hx, hb⟩
  · rintro ⟨hx, hb⟩
    rw [binaryPair, hx, hb]
    rfl

/-- A keyword that compares a number with its bound. -/
theorem reportsBound_binary {name : String} {crossed : Binary64 → Binary64 → Bool}
    {problem : Json → Violation}
    (h : (match keyword? schema name with
      | none => .ok []
      | some bound => do
        let x ← binaryOf v
        let b ← binaryOf bound
        return reportIf (crossed x b) (problem bound) : Outcome) = .ok found) :
    ReportsBound schema name (binaryPair v) (fun p => crossed p.1 p.2 = false) found := by
  have hpair : (match keyword? schema name with
      | none => .ok []
      | some bound => do
        let p ← binaryPair v bound
        return reportIf (crossed p.1 p.2) (problem bound) : Outcome) = .ok found := by
    simpa only [binaryPair, bind_assoc, pure_bind] using h
  exact reportsBound_of_ok (fun p => Iff.rfl) hpair

theorem settles_checkMinimum (hv : OfType v "number")
    (h : checkMinimum schema path v = .ok found) : Settles root schema v [.minimum] found := by
  refine settles_bound (reportsBound_binary h) (fun bound p hbound hp => ?_) fun d hd => ?_
  · obtain ⟨hx, hleast⟩ := binaryPair_eq_ok.1 hp
    exact .minimum hv hbound hx hleast
  · cases hd with
    | minimum _ hbound hx hleast => exact ⟨_, (_, _), hbound, binaryPair_eq_ok.2 ⟨hx, hleast⟩, rfl⟩

theorem settles_checkMaximum (hv : OfType v "number")
    (h : checkMaximum schema path v = .ok found) : Settles root schema v [.maximum] found := by
  refine settles_bound (reportsBound_binary h) (fun bound p hbound hp => ?_) fun d hd => ?_
  · obtain ⟨hx, hmost⟩ := binaryPair_eq_ok.1 hp
    exact .maximum hv hbound hx hmost
  · cases hd with
    | maximum _ hbound hx hmost => exact ⟨_, (_, _), hbound, binaryPair_eq_ok.2 ⟨hx, hmost⟩, rfl⟩

theorem settles_checkNumber (hv : OfType v "number") (h : checkNumber schema path v = .ok found) :
    Settles root schema v [.minimum, .maximum] found := by
  obtain ⟨below, hbelow, h⟩ := exists_of_bind_eq_ok h
  obtain ⟨above, habove, h⟩ := exists_of_bind_eq_ok h
  obtain rfl := Except.ok.inj h
  exact (settles_checkMinimum hv hbelow).append (settles_checkMaximum hv habove)

/-! ### Objects -/

/-- A required key is present; a key that is no text is in no object. -/
theorem present_iff_of_requiredKey {key : Json} {name : Option String} {ms : Members} :
    requiredKey key = .ok name →
      ((match name with
        | some s => Members.has s ms
        | none => false) = true ↔ ∃ s, key = .str s ∧ Members.has s ms = true) := by
  intro h
  cases key with
  | str s =>
      obtain rfl := Except.ok.inj h
      simp
  | arr xs => exact absurd h (by simp [requiredKey])
  | obj ns => exact absurd h (by simp [requiredKey])
  | null | bool _ | int _ | float _ =>
      obtain rfl := Except.ok.inj h
      simp

theorem settles_checkRequired {ms : Members} (h : checkRequired schema path ms = .ok found) :
    Settles root schema (.obj ms) [.required] found := by
  rw [checkRequired] at h
  split at h
  · next keys hget =>
      refine settles_gather h ?_ ?_
      · intro d hd
        cases hd with
        | @required _ _ key hget' hkey =>
            obtain rfl := Json.arr.inj (Option.some.inj (hget.symm.trans hget'))
            refine ⟨key, hkey, fun hrun => .fact ?_⟩
            obtain ⟨name, hname, hrun⟩ := exists_of_bind_eq_ok hrun
            have hpresent := reportIf_eq_nil.1 (Except.ok.inj hrun)
            rw [Bool.not_eq_false'] at hpresent
            exact (present_iff_of_requiredKey hname).1 hpresent
      · intro key hkey more hne hrun
        obtain ⟨name, hname, hrun⟩ := exists_of_bind_eq_ok hrun
        obtain rfl := Except.ok.inj hrun
        refine ⟨_, .required hget hkey, .no_fact fun hholds => hne (reportIf_eq_nil.2 ?_)⟩
        rw [Bool.not_eq_false']
        exact (present_iff_of_requiredKey hname).2 hholds
  · next hnot =>
      obtain rfl := Except.ok.inj h
      refine settles_nil fun d hd => ?_
      cases hd with
      | required hget => exact hnot _ hget

theorem settles_checkProperties (hcheck : Decides root check) {ms : Members}
    (h : checkProperties check schema path ms = .ok found) :
    Settles root schema (.obj ms) [.properties] found := by
  refine settles_gather h ?_ ?_
  · intro d hd
    cases hd with
    | @properties _ key s v hs hv =>
        refine ⟨key, mem_inOrder.2 (Members.mem_keys_iff.2 (by rw [hs]; rfl)), fun hrun => ?_⟩
        simp only [hs, hv] at hrun
        exact hcheck.met hrun
  · intro key _ more hne hrun
    split at hrun
    · next v s hv hs => exact ⟨_, .properties hs hv, hcheck.unmet hne hrun⟩
    · exact absurd (Except.ok.inj hrun).symm hne

/-! ### Keys that are covered by patterns -/

theorem mem_coveredBy {pattern key : String} {keys covered : List String}
    (h : coveredBy pattern keys = .ok covered) :
    key ∈ covered ↔ key ∈ keys ∧ ∃ p, patternOf pattern = .ok p ∧ p.occursIn key = true := by
  cases keys with
  | nil =>
      obtain rfl := Except.ok.inj h
      simp
  | cons first keys =>
      obtain ⟨p, hp, h⟩ := exists_of_bind_eq_ok h
      obtain rfl := Except.ok.inj h
      simp [List.mem_filter, hp]

/-- Patterns are read one after the other, each with the keys that it covers. -/
theorem checkPatterns_cons_eq_ok {ms : Members} {keys covered : List String}
    {m : String × Json} {rest : List (String × Json)}
    (h : checkPatterns check path ms keys (m :: rest) = .ok (found, covered)) :
    ∃ first part more others, coveredBy m.1 keys = .ok first ∧
      gather (fun k => match Members.get? k ms with
        | some v => check v m.2 (memberPath path k)
        | none => .ok []) first = .ok part ∧
      checkPatterns check path ms keys rest = .ok (more, others) ∧
      found = part ++ more ∧ covered = first ++ others := by
  obtain ⟨first, hfirst, h⟩ := exists_of_bind_eq_ok h
  obtain ⟨part, hpart, h⟩ := exists_of_bind_eq_ok h
  obtain ⟨⟨more, others⟩, hrest, h⟩ := exists_of_bind_eq_ok h
  obtain ⟨rfl, rfl⟩ := Prod.mk.inj (Except.ok.inj h)
  exact ⟨first, part, more, others, hfirst, hpart, hrest, rfl, rfl⟩

/-- The keys are found that some pattern covers. -/
theorem mem_covered {ms : Members} {keys covered : List String} {patterns : List (String × Json)}
    (h : checkPatterns check path ms keys patterns = .ok (found, covered)) (key : String) :
    key ∈ covered ↔
      key ∈ keys ∧ ∃ m ∈ patterns, ∃ p, patternOf m.1 = .ok p ∧ p.occursIn key = true := by
  induction patterns generalizing found covered with
  | nil =>
      obtain ⟨rfl, rfl⟩ := Prod.mk.inj (Except.ok.inj h)
      simp
  | cons m rest ih =>
      obtain ⟨first, part, more, others, hfirst, -, hrest, rfl, rfl⟩ := checkPatterns_cons_eq_ok h
      rw [List.mem_append, mem_coveredBy hfirst, ih hrest, List.exists_mem_cons_iff, and_or_left]

/-- The report for all patterns is empty exactly if every key satisfies the schemas of the patterns
that cover it. -/
theorem checkPatterns_eq_ok (hcheck : Decides root check) {ms : Members}
    {keys covered : List String} {patterns : List (String × Json)}
    (h : checkPatterns check path ms keys patterns = .ok (found, covered)) :
    (found = [] → ∀ m ∈ patterns, ∀ p, patternOf m.1 = .ok p → ∀ key ∈ keys,
      p.occursIn key = true → ∀ v, Members.get? key ms = some v → Verdict root (.meets m.2 v) true) ∧
    (found ≠ [] → ∃ m ∈ patterns, ∃ p, patternOf m.1 = .ok p ∧ ∃ key v,
      p.occursIn key = true ∧ Members.get? key ms = some v ∧ Verdict root (.meets m.2 v) false) := by
  induction patterns generalizing found covered with
  | nil =>
      obtain ⟨rfl, rfl⟩ := Prod.mk.inj (Except.ok.inj h)
      exact ⟨fun _ m hm => absurd hm List.not_mem_nil, fun hne => absurd rfl hne⟩
  | cons m rest ih =>
      obtain ⟨first, part, more, others, hfirst, hpart, hrest, rfl, rfl⟩ :=
        checkPatterns_cons_eq_ok h
      obtain ⟨hnone, hsome⟩ := ih hrest
      constructor
      · intro hnil
        obtain ⟨rfl, rfl⟩ := List.append_eq_nil_iff.1 hnil
        refine List.forall_mem_cons.2 ⟨fun p hp key hkey hoccurs v hv => ?_, hnone rfl⟩
        have hrun := (gather_eq_ok hpart).1 rfl key ((mem_coveredBy hfirst).2 ⟨hkey, p, hp, hoccurs⟩)
        simp only [hv] at hrun
        exact hcheck.met hrun
      · intro hne
        by_cases hnil : part = []
        · obtain ⟨m', hm', hrest'⟩ := hsome (by simpa [hnil] using hne)
          exact ⟨m', List.mem_cons_of_mem m hm', hrest'⟩
        · obtain ⟨key, hkey, more', hmore, hrun⟩ := (gather_eq_ok hpart).2 hnil
          obtain ⟨-, p, hp, hoccurs⟩ := (mem_coveredBy hfirst).1 hkey
          split at hrun
          · next v hv =>
              exact ⟨m, List.mem_cons_self, p, hp, key, v, hoccurs, hv, hcheck.unmet hmore hrun⟩
          · exact absurd (Except.ok.inj hrun).symm hmore

theorem settles_checkPatterns (hcheck : Decides root check) {ms : Members} {covered : List String}
    (h : checkPatterns check path ms (inOrder (Members.keys ms))
      (ordered (fun a b => decide (a.1 ≤ b.1)) (memberSchemas schema "patternProperties")) =
        .ok (found, covered)) :
    Settles root schema (.obj ms) [.patternProperties] found := by
  obtain ⟨hnone, hsome⟩ := checkPatterns_eq_ok hcheck h
  constructor
  · intro hnil k hk d hd
    obtain rfl := List.mem_singleton.1 hk
    cases hd with
    | @patternProperties _ m p key v hm hp hv hoccurs =>
        have hkey := mem_inOrder.2 (Members.mem_keys_iff.2 (by rw [hv]; rfl))
        exact hnone hnil m (mem_ordered.2 hm) p hp key hkey hoccurs v hv
  · intro hne
    obtain ⟨m, hm, p, hp, key, v, hoccurs, hv, hverdict⟩ := hsome hne
    exact ⟨_, _, .patternProperties (mem_ordered.1 hm) hp hv hoccurs, hverdict⟩

/-! ### Keys that nothing covers -/

theorem settles_checkAdditional (hcheck : Decides root check) {ms : Members} {extra : List String}
    (hextra : ∀ key v, Members.get? key ms = some v →
      (key ∈ extra ↔ Members.has key (memberSchemas schema "properties") = false ∧
        ¬ CoveredByPattern schema key))
    (hkeys : ∀ key ∈ extra, ∃ v, Members.get? key ms = some v)
    (h : checkAdditional check schema path ms extra = .ok found) :
    Settles root schema (.obj ms) [.additionalProperties] found := by
  rw [checkAdditional] at h
  split at h
  · next hget =>
      obtain rfl := Except.ok.inj h
      constructor
      · intro hnil k hk d hd
        obtain rfl := List.mem_singleton.1 hk
        cases hd with
        | @additionalProperties _ s key v hget' _ hv hnamed hcovered =>
            have hmem := (hextra key v hv).2 ⟨hnamed, hcovered⟩
            rw [List.map_eq_nil_iff.1 hnil] at hmem
            exact absurd hmem List.not_mem_nil
      · intro hne
        obtain ⟨key, hkey⟩ := List.exists_mem_of_ne_nil extra fun hnil => hne (by rw [hnil]; rfl)
        obtain ⟨v, hv⟩ := hkeys key hkey
        obtain ⟨hnamed, hcovered⟩ := (hextra key v hv).1 hkey
        exact ⟨_, _, .additionalProperties hget (.inl ⟨false, rfl⟩) hv hnamed hcovered,
          .boolean false v⟩
  · next s hget =>
      refine settles_gather h ?_ ?_
      · intro d hd
        cases hd with
        | @additionalProperties _ s' key v hget' _ hv hnamed hcovered =>
            obtain rfl := Option.some.inj (hget.symm.trans hget')
            refine ⟨key, (hextra key v hv).2 ⟨hnamed, hcovered⟩, fun hrun => ?_⟩
            simp only [hv] at hrun
            exact hcheck.met hrun
      · intro key hkey more hne hrun
        obtain ⟨v, hv⟩ := hkeys key hkey
        obtain ⟨hnamed, hcovered⟩ := (hextra key v hv).1 hkey
        simp only [hv] at hrun
        exact ⟨_, .additionalProperties hget (.inr ⟨s, rfl⟩) hv hnamed hcovered,
          hcheck.unmet hne hrun⟩
  · next hfalse hobject =>
      obtain rfl := Except.ok.inj h
      refine ⟨fun _ k hk d hd => ?_, fun hne => absurd rfl hne⟩
      obtain rfl := List.mem_singleton.1 hk
      cases hd with
      | additionalProperties hget hschema =>
          -- only the schema that accepts everything is left
          rcases hschema with ⟨b, rfl⟩ | ⟨ms', rfl⟩
          · cases b with
            | false => exact absurd hget hfalse
            | true => exact .boolean true _
          · exact absurd hget (hobject ms')

theorem settles_checkObject (hcheck : Decides root check) {ms : Members}
    (h : checkObject check schema path ms = .ok found) :
    Settles root schema (.obj ms)
      [.required, .properties, .patternProperties, .additionalProperties] found := by
  rw [checkObject] at h
  obtain ⟨missing, hmissing, h⟩ := exists_of_bind_eq_ok h
  obtain ⟨named, hnamed, h⟩ := exists_of_bind_eq_ok h
  obtain ⟨⟨matched, covered⟩, hmatched, h⟩ := exists_of_bind_eq_ok h
  obtain ⟨additional, hadditional, h⟩ := exists_of_bind_eq_ok h
  obtain rfl := Except.ok.inj h
  have hcovered := mem_covered hmatched
  simp only [mem_inOrder, mem_ordered] at hcovered
  refine (((settles_checkRequired hmissing).append (settles_checkProperties hcheck hnamed)).append
    (settles_checkPatterns hcheck hmatched)).append
    (settles_checkAdditional hcheck ?_ ?_ hadditional)
  · intro key v hv
    have hkey : key ∈ Members.keys ms := Members.mem_keys_iff.2 (by rw [hv]; rfl)
    simp [List.mem_filter, mem_inOrder, hkey, hcovered, CoveredByPattern]
  · intro key hkey
    have hmem := mem_inOrder.1 (List.mem_of_mem_filter hkey)
    exact Option.isSome_iff_exists.1 (Members.mem_keys_iff.1 hmem)

/-! ### Arrays -/

theorem settles_minItems {xs : List Json}
    (h : checkLeast schema "minItems" "items" path (.arr xs) xs.length = .ok found) :
    Settles root schema (.arr xs) [.minItems] found := by
  refine settles_bound (reportsBound_checkLeast h) (fun _ _ => .minItems) fun d hd => ?_
  cases hd with
  | minItems hbound hn => exact ⟨_, _, hbound, hn, rfl⟩

theorem settles_maxItems {xs : List Json}
    (h : checkMost schema "maxItems" "items" path (.arr xs) xs.length = .ok found) :
    Settles root schema (.arr xs) [.maxItems] found := by
  refine settles_bound (reportsBound_checkMost h) (fun _ _ => .maxItems) fun d hd => ?_
  cases hd with
  | maxItems hbound hn => exact ⟨_, _, hbound, hn, rfl⟩

/-- Nothing is reported exactly if no item equals one that was seen, and no two items are equal. -/
theorem duplicates_eq_nil_iff (path : String) (seen : List Json) (i : ℕ) (xs : List Json) :
    duplicates path seen i xs = [] ↔ (∀ x ∈ xs, x.memberOf seen = false) ∧
      xs.Pairwise fun earlier later => earlier.equivalent later = false := by
  induction xs generalizing seen i with
  | nil => simp [duplicates]
  | cons x xs ih =>
      rw [duplicates, List.forall_mem_cons, List.pairwise_cons]
      split
      · next hmem => simp [hmem]
      · next hmem =>
          -- an item that is kept counts as seen from then on
          have hseen : ∀ y : Json, y.memberOf (seen ++ [x]) = false ↔
              y.memberOf seen = false ∧ x.equivalent y = false := by
            intro y
            simp [memberOf, List.any_append]
          simp only [ih, hseen, Bool.eq_false_of_not_eq_true hmem, true_and]
          constructor
          · rintro ⟨hall, hpairwise⟩
            exact ⟨fun y hy => (hall y hy).1, fun y hy => (hall y hy).2, hpairwise⟩
          · rintro ⟨hold, hnew, hpairwise⟩
            exact ⟨fun y hy => ⟨hold y hy, hnew y hy⟩, hpairwise⟩

theorem settles_checkUnique (schema : Members) (path : String) (xs : List Json) :
    Settles root schema (.arr xs) [.uniqueItems] (checkUnique schema path xs) := by
  rw [checkUnique]
  split
  · next hget =>
      refine settles_fact (.uniqueItems hget) (fun d hd => ?_) ?_
      · cases hd with
        | uniqueItems => rfl
      · rw [duplicates_eq_nil_iff]
        simp [memberOf]
  · next hnot =>
      refine settles_nil fun d hd => ?_
      cases hd with
      | uniqueItems hget => exact hnot hget

/-- Items are checked one after the other, each with its position. -/
theorem settles_items (hcheck : Decides root check) {s : Json} {xs : List Json}
    (hget : Members.get? "items" schema = some s) (hs : IsSchema s)
    (h : gatherFrom (fun i x => check x s (itemPath path i)) 0 xs = .ok found) :
    Settles root schema (.arr xs) [.items] found := by
  rw [gatherFrom_eq] at h
  refine settles_gather h ?_ ?_
  · intro d hd
    cases hd with
    | @items _ s' x hget' _ hx =>
        obtain rfl := Option.some.inj (hget.symm.trans hget')
        obtain ⟨i, hi, rfl⟩ := List.getElem_of_mem hx
        exact ⟨(xs[i], i), List.mem_zipIdx_iff_getElem?.2 (List.getElem?_eq_getElem hi), hcheck.met⟩
  · intro x hx more hne hrun
    exact ⟨_, .items hget hs (List.fst_mem_of_mem_zipIdx hx), hcheck.unmet hne hrun⟩

theorem settles_checkItems (hcheck : Decides root check) {xs : List Json}
    (h : checkItems check schema path xs = .ok found) :
    Settles root schema (.arr xs) [.items] found := by
  rw [checkItems] at h
  split at h
  · next s hget => exact settles_items hcheck hget (.inr ⟨s, rfl⟩) h
  · next b hget => exact settles_items hcheck hget (.inl ⟨b, rfl⟩) h
  · next hobject hbool =>
      obtain rfl := Except.ok.inj h
      refine settles_nil fun d hd => ?_
      cases hd with
      | items hget hschema =>
          rcases hschema with ⟨b, rfl⟩ | ⟨ms, rfl⟩
          · exact hbool b hget
          · exact hobject ms hget

theorem settles_checkArray (hcheck : Decides root check) {xs : List Json}
    (h : checkArray check schema path xs = .ok found) :
    Settles root schema (.arr xs) [.minItems, .maxItems, .uniqueItems, .items] found := by
  obtain ⟨few, hfew, h⟩ := exists_of_bind_eq_ok h
  obtain ⟨many, hmany, h⟩ := exists_of_bind_eq_ok h
  obtain ⟨items, hitems, h⟩ := exists_of_bind_eq_ok h
  obtain rfl := Except.ok.inj h
  exact (((settles_minItems hfew).append (settles_maxItems hmany)).append
    (settles_checkUnique schema path xs)).append (settles_checkItems hcheck hitems)

/-! ### All keywords -/

/-- The keywords that are read for every value. -/
def combinationKeywords : List Keyword := [.allOf, .anyOf, .oneOf, .condition]

/-- The keywords after whose violations nothing else is read. -/
def valueKeywords : List Keyword := [.type, .const, .enum]

/-- The keywords that are read for the kind of a value. -/
def kindKeywords : Json → List Keyword
  | .str _ => [.minLength, .maxLength, .pattern, .format]
  | .int _ | .float _ => [.minimum, .maximum]
  | .obj _ => [.required, .properties, .patternProperties, .additionalProperties]
  | .arr _ => [.minItems, .maxItems, .uniqueItems, .items]
  | _ => []

theorem settles_checkByKind (hcheck : Decides root check)
    (h : checkByKind check schema v path = .ok found) :
    Settles root schema v (kindKeywords v) found := by
  cases v with
  | null | bool _ =>
      obtain rfl := Except.ok.inj h
      exact ⟨fun _ k hk => absurd hk List.not_mem_nil, fun hne => absurd rfl hne⟩
  | int n => exact settles_checkNumber (.inr rfl) h
  | float x => exact settles_checkNumber rfl h
  | str s => exact settles_checkText h
  | arr xs => exact settles_checkArray hcheck h
  | obj ms => exact settles_checkObject hcheck h

/-- Every keyword that demands something of a value is read for it. -/
theorem mem_of_asks {d : Demand} (h : Asks schema k v d) :
    k ∈ combinationKeywords ++ valueKeywords ++ kindKeywords v := by
  have hnumber : ∀ w, OfType w "number" → kindKeywords w = [.minimum, .maximum] := by
    intro w hw
    cases w with
    | int _ | float _ => rfl
    | null | bool _ | str _ | arr _ | obj _ => exact absurd hw (by simp [OfType])
  cases h with
  | minimum hv => simp [hnumber v hv]
  | maximum hv => simp [hnumber v hv]
  | _ => simp [combinationKeywords, valueKeywords, kindKeywords]

/-- The first violation of a type, a constant or an enumeration. -/
def valueViolation? (schema : Members) (v : Json) (path : String) : Option Violation :=
  (typeViolation? schema v path).or
    ((constViolation? schema v path).or (enumViolation? schema v path))

/-- A violation of a type, a constant or an enumeration tells of a demand that is not met, and if there
is none all of their demands are met. -/
theorem settles_valueViolation (root : Json) (schema : Members) (v : Json) (path : String) :
    Settles root schema v valueKeywords (valueViolation? schema v path).toList := by
  have htype := settles_type root schema v path
  have hconst := settles_const root schema v path
  have henum := settles_enum root schema v path
  rw [valueViolation?]
  cases hfirst : typeViolation? schema v path with
  | some violation =>
      rw [hfirst] at htype
      exact ⟨fun hnil => absurd hnil (by simp), fun hne => htype.unmet hne⟩
  | none =>
      rw [hfirst] at htype
      cases hsecond : constViolation? schema v path with
      | some violation =>
          rw [hsecond] at hconst
          exact ⟨fun hnil => absurd hnil (by simp), fun hne => hconst.unmet hne⟩
      | none =>
          rw [hsecond] at hconst
          exact (htype.append hconst).append henum

/-- The report of all keywords: it may break off once a demand is known not to be met. -/
theorem settles_checkKeywords (hcheck : Decides root check)
    (h : checkKeywords check schema v path = .ok found) :
    Settles root schema v (combinationKeywords ++ valueKeywords ++ kindKeywords v) found := by
  obtain ⟨all, hall, h⟩ := exists_of_bind_eq_ok h
  obtain ⟨any, hany, h⟩ := exists_of_bind_eq_ok h
  obtain ⟨one, hone, h⟩ := exists_of_bind_eq_ok h
  obtain ⟨condition, hcondition, h⟩ := exists_of_bind_eq_ok h
  have hcombined : Settles root schema v combinationKeywords (all ++ any ++ one ++ condition) :=
    (((settles_checkAllOf hcheck hall).append (settles_checkAnyOf hcheck hany)).append
      (settles_checkOneOf hcheck hone)).append (settles_checkCondition hcheck hcondition)
  have hvalue := settles_valueViolation root schema v path
  rw [← valueViolation?] at h
  -- a violation of a type, a constant or an enumeration ends the report
  cases hviolation : valueViolation? schema v path with
  | some violation =>
      rw [hviolation] at h hvalue
      obtain rfl := Except.ok.inj h
      have hboth := hcombined.append hvalue
      exact ⟨fun hnil => absurd hnil (by simp), hboth.unmet⟩
  | none =>
      rw [hviolation] at h hvalue
      obtain ⟨more, hmore, h⟩ := exists_of_bind_eq_ok h
      obtain rfl := Except.ok.inj h
      have hrest := hvalue.append (settles_checkByKind hcheck hmore)
      rw [List.append_assoc]
      exact hcombined.append hrest

end Keywords

/-! ### Schemas -/

variable {root : Json} {check : Checker}

theorem decides_checkReference (hcheck : Decides root check) {ms : Members} {reference v : Json}
    {path : String} {found : List Violation} (href : Members.get? "$ref" ms = some reference)
    (h : checkReference check root reference v path = .ok found) :
    Verdict root (.meets (.obj ms) v) found.isEmpty := by
  unfold checkReference at h
  split at h
  · next r =>
      split at h
      · next target htarget => exact .reference href htarget (hcheck v target path found h)
      · next e he =>
          obtain rfl := Except.ok.inj h
          refine .no_reference v href ?_
          rintro r' target heq htarget
          obtain rfl := Json.str.inj heq
          exact absurd (he.symm.trans htarget) (by simp)
  · next hnot =>
      obtain rfl := Except.ok.inj h
      exact .no_reference v href fun r _ heq => absurd heq (hnot r)

/-- A check whose checks for what lies below decide decides itself. -/
theorem decides_checkNode (hcheck : Decides root check) : Decides root (checkNode check root) := by
  intro v schema path found h
  unfold checkNode at h
  split at h
  · obtain rfl := Except.ok.inj h
    exact .boolean true v
  · obtain rfl := Except.ok.inj h
    exact .boolean false v
  · next ms =>
      split at h
      · next reference href => exact decides_checkReference hcheck href h
      · next href =>
          have hsettles := settles_checkKeywords hcheck h
          cases hfound : found.isEmpty with
          | true =>
              refine .every href fun k d hd => ?_
              exact hsettles.met (List.isEmpty_iff.1 hfound) k (mem_of_asks hd) d hd
          | false =>
              obtain ⟨k, d, hd, hverdict⟩ := hsettles.unmet (List.isEmpty_eq_false_iff.1 hfound)
              exact .not_every href hd hverdict
  · next htrue hfalse hobject =>
      obtain rfl := Except.ok.inj h
      refine .no_schema v ?_
      rintro (⟨b, rfl⟩ | ⟨ms, rfl⟩)
      · cases b with
        | true => exact htrue rfl
        | false => exact hfalse rfl
      · exact hobject ms rfl

/-- **A check reports nothing exactly where the schema is satisfied.** -/
theorem decides_checkAt (root : Json) (fuel : ℕ) : Decides root (checkAt root fuel) := by
  induction fuel with
  | zero => exact fun v s path found h => absurd h (by simp [checkAt])
  | succ fuel ih => exact decides_checkNode ih

theorem checkAt_eq_nil_iff {fuel : ℕ} {v s : Json} {path : String} {found : List Violation}
    (h : checkAt root fuel v s path = .ok found) : found = [] ↔ Satisfies root s v := by
  have hverdict := decides_checkAt root fuel v s path found h
  rw [← List.isEmpty_iff]
  constructor
  · intro hnil
    rwa [hnil] at hverdict
  · intro hsat
    exact hverdict.unique hsat

end Schema

end DesignRegistry
