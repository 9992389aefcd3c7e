/-
**A scan of a directory is the sum of its files.**

One result is handed from script to script, and every visit adds to it: violations at the end, and counts
to what was counted before.  So a visit is the same as a join with what it finds alone, whatever was found
before; scripts that are only counted are no exception.  The result of a scan is then put together from
the results of its files, each from an empty result.

Main definitions:

* `ScanResult.ofCounts` — violations, all of them counted;
* `ScanResult.sum` — several results together.

Main results:

* `Scan.visit_eq`, `Scan.into_eq` — **a visit joins what it finds alone**;
* `Action.scanFiles_eq_ok` — so files one after the other are a sum;
* `scanDirectory_sum` — **a scan of a directory is the sum of its files**.
-/
import DesignRegistry.Proofs.Keyed
import DesignRegistry.Proofs.Scan.Coverage
import DesignRegistry.Proofs.Workspace.Action
import DesignRegistry.Scan.Directory
import Mathlib.Algebra.GroupWithZero.Nat

set_option relaxedAutoImplicit false
set_option autoImplicit false

namespace DesignRegistry

/-! ### Results together -/

namespace ScanStats

theorem add_assoc (a b c : ScanStats) : (a.add b).add c = a.add (b.add c) := by
  simp only [add, Nat.add_assoc]

theorem add_zero (a : ScanStats) : a.add {} = a := rfl

theorem zero_add (a : ScanStats) : ScanStats.add {} a = a := by
  simp only [add, Nat.zero_add]

end ScanStats

namespace ScanResult

theorem join_assoc (a b c : ScanResult) : (a.join b).join c = a.join (b.join c) := by
  simp only [join, List.append_assoc, ScanStats.add_assoc]

theorem join_empty (a : ScanResult) : a.join {} = a := by
  simp only [join, List.append_nil, ScanStats.add_zero]

theorem empty_join (a : ScanResult) : ScanResult.join {} a = a := by
  simp only [join, List.nil_append, ScanStats.zero_add]

/-- Violations, all of them counted, with counts of components and of attributes. -/
def ofCounts (components tokens : ℕ) (vs : List Violation) : ScanResult :=
  { violations := vs, stats := { components, tokens, violations := vs.length } }

theorem ofCounts_zero : ofCounts 0 0 [] = {} := rfl

theorem join_ofCounts (components tokens components' tokens' : ℕ) (vs vs' : List Violation) :
    (ofCounts components tokens vs).join (ofCounts components' tokens' vs') =
      ofCounts (components + components') (tokens + tokens') (vs ++ vs') := by
  simp only [join, ofCounts, ScanStats.add, List.length_append]

/-- Violations are added at the end, and counted. -/
theorem addAll_eq (r : ScanResult) (vs : List Violation) : r.addAll vs = r.join (ofCounts 0 0 vs) := by
  induction vs generalizing r with
  | nil => exact (join_empty r).symm
  | cons v vs ih =>
      have hadd : r.add v = r.join (ofCounts 0 0 [v]) := rfl
      change (r.add v).addAll vs = _
      rw [ih, hadd, join_assoc, join_ofCounts]
      rfl

/-- Several results together. -/
def sum (results : List ScanResult) : ScanResult := results.foldr join {}

theorem sum_cons (one : ScanResult) (results : List ScanResult) :
    sum (one :: results) = one.join (sum results) := rfl

theorem sum_violations (results : List ScanResult) :
    (sum results).violations = results.flatMap ScanResult.violations := by
  induction results with
  | nil => rfl
  | cons one results ih => rw [sum_cons, List.flatMap_cons, ← ih, join]

/-- Whatever is counted of two scans together is counted of several. -/
theorem sum_count {count : ScanStats → ℕ} (hzero : count {} = 0)
    (hadd : ∀ a b : ScanStats, count (a.add b) = count a + count b) (results : List ScanResult) :
    count (sum results).stats = (results.map fun one => count one.stats).sum := by
  induction results with
  | nil => exact hzero
  | cons one results ih => rw [sum_cons, List.map_cons, List.sum_cons, ← ih, join, hadd]

/-- Several scans are valid together if each of them is. -/
theorem sum_isValid_iff (results : List ScanResult) :
    (sum results).isValid = true ↔ ∀ one ∈ results, one.isValid = true := by
  have hvalid : ∀ r : ScanResult, r.isValid = true ↔ ∀ v ∈ r.violations, v.isError = false := by
    intro r
    simp [isValid]
  simp only [hvalid, sum_violations, List.mem_flatMap, forall_exists_index, and_imp]
  exact ⟨fun h one hone v hv => h v one hone hv, fun h v one hone hv => h one hone v hv⟩

end ScanResult

/-! ### Visits -/

/-- The element of a node, if it is a component. -/
def Script.Node.component? : Script.Node → Option Script.Element
  | .element e => if e.isComponent then some e else none
  | _ => none

theorem Script.Source.filter_isComponent_elements (s : Script.Source) :
    s.elements.filter Script.Element.isComponent = s.nodes.filterMap Script.Node.component? := by
  rw [Script.Source.elements, List.filter_filterMap]
  refine List.filterMap_congr fun n _ => ?_
  cases n with
  | element e => simp [Script.Node.component?, Option.filter]
  | _ => rfl

namespace Scan

open ScanResult

variable {d : Declared} {rules : List Rule} {o : ScanOptions} {file : String}

theorem foldl_visitAttribute_eq (e : Script.Element) (r : ScanResult)
    (attributes : List Script.Attribute) :
    attributes.foldl (visitAttribute d o file e) r =
      r.join (ofCounts 0 attributes.length (attributes.filterMap (tokenViolation? d o file e))) := by
  induction attributes generalizing r with
  | nil => exact (join_empty r).symm
  | cons a attributes ih =>
      have hone : visitAttribute d o file e r a =
          r.join (ofCounts 0 1 (tokenViolation? d o file e a).toList) := by
        rw [visitAttribute, addAll_eq]
        rfl
      rw [List.foldl_cons, ih, hone, join_assoc, join_ofCounts, List.length_cons, Nat.add_comm 1,
        List.filterMap_cons]
      cases tokenViolation? d o file e a <;> rfl

theorem visitComponent_eq (r : ScanResult) (e : Script.Element) :
    visitComponent d o file r e =
      r.join (ofCounts 1 (if o.tokens then e.attributes.length else 0)
        (elementViolations d o file e)) := by
  have hcount : ({ r with stats := { r.stats with components := r.stats.components + 1 } } :
      ScanResult) = r.join (ofCounts 1 0 []) := by
    rw [ofCounts, join, List.append_nil]
    rfl
  rw [visitComponent, elementViolations, hcount]
  simp only [addAll_eq, foldl_visitAttribute_eq]
  -- each comparison that is wanted joins its violations, and the others nothing
  cases Registry.find? d.registry e.name <;> cases o.props <;> cases o.variants <;>
    cases o.tokens <;> simp [join_assoc, join_ofCounts]

/-- **A visit joins what it finds alone.** -/
theorem visit_eq (r : ScanResult) (n : Script.Node) :
    visit d o file r n =
      r.join (ofCounts n.component?.toList.length
        (if o.tokens then (n.component?.toList.flatMap Script.Element.attributes).length else 0)
        (nodeViolations d o file n)) := by
  cases n with
  | element e =>
      rw [visit, nodeViolations, Script.Node.component?]
      cases e.isComponent with
      | true => simp [visitComponent_eq]
      | false => simp [ofCounts_zero, join_empty]
  | string s =>
      have hnone : (Script.Node.string s).component? = none := rfl
      rw [visit, nodeViolations, hnone]
      cases o.tokens <;> simp [addAll_eq, ofCounts_zero, join_empty]
  | template t =>
      have hnone : (Script.Node.template t).component? = none := rfl
      rw [visit, nodeViolations, hnone]
      cases o.tokens <;> simp [addAll_eq, ofCounts_zero, join_empty]
  | _ => simp [visit, nodeViolations, Script.Node.component?, ofCounts_zero, join_empty]

theorem foldl_visit_eq (r : ScanResult) (nodes : List Script.Node) :
    nodes.foldl (visit d o file) r =
      r.join (ofCounts (nodes.filterMap Script.Node.component?).length
        (if o.tokens then
          ((nodes.filterMap Script.Node.component?).flatMap Script.Element.attributes).length
        else 0)
        (nodes.flatMap (nodeViolations d o file))) := by
  induction nodes generalizing r with
  | nil => simp [ofCounts_zero, join_empty]
  | cons n nodes ih =>
      rw [List.foldl_cons, ih, visit_eq, join_assoc, join_ofCounts, List.flatMap_cons,
        List.filterMap_cons]
      cases n.component? <;> cases o.tokens <;> simp [Nat.add_comm]

/-- **A script that is scanned on top of a result** is joined to it. -/
theorem into_eq [Script.Parser] (r : ScanResult) (path text : String) :
    into d rules o r path text = r.join (source d rules o path text) := by
  have hcount : ({ r with stats := { r.stats with files := r.stats.files + 1 } } : ScanResult) =
      r.join { stats := { files := 1 } } := by
    rw [join, List.append_nil]
    rfl
  rw [into, source, hcount]
  cases hasElements text with
  | false => rfl
  | true =>
      simp only [Bool.not_true, Bool.false_eq_true, if_false]
      cases Script.Source.read path text with
      | error f => simp only [join, ScanStats.add, List.append_nil, Nat.add_zero]
      | ok s =>
          simp only [addAll_eq, foldl_visit_eq, join_assoc, join_ofCounts]
          rw [violations, stats, s.filter_isComponent_elements]
          simp [ofCounts, join, ScanStats.add]

/-- A script alone is scanned on top of nothing. -/
theorem into_empty [Script.Parser] (path text : String) :
    into d rules o {} path text = source d rules o path text := by
  rw [into_eq, empty_join]

/-- A script counts as one file, and its violations are counted. -/
theorem source_counts [Script.Parser] (path text : String) :
    (source d rules o path text).stats.files = 1 ∧
      (source d rules o path text).stats.violations =
        (source d rules o path text).violations.length := by
  rw [source]
  split
  · exact ⟨rfl, rfl⟩
  · split <;> exact ⟨rfl, rfl⟩

end Scan

/-! ### Files -/

namespace Glob

theorem namesBefore_total (as bs : List String) : (namesBefore as bs || namesBefore bs as) = true := by
  induction as generalizing bs with
  | nil => rfl
  | cons a as ih =>
      cases bs with
      | nil => rfl
      | cons b bs =>
          rw [namesBefore, namesBefore]
          by_cases h : a = b
          · rw [if_pos h, if_pos h.symm, ih]
          · rw [if_neg h, if_neg (Ne.symm h)]
            rcases lt_or_gt_of_ne h with hlt | hlt <;> simp [hlt]

theorem namesBefore_trans {as bs cs : List String} (h : namesBefore as bs = true)
    (h' : namesBefore bs cs = true) : namesBefore as cs = true := by
  induction as generalizing bs cs with
  | nil => rfl
  | cons a as ih =>
      cases bs with
      | nil => exact absurd h (by simp [namesBefore])
      | cons b bs =>
          cases cs with
          | nil => exact absurd h' (by simp [namesBefore])
          | cons c cs =>
              rw [namesBefore] at h h' ⊢
              split at h
              · next hab =>
                  subst hab
                  split at h'
                  · next hac => rw [if_pos hac, ih h h']
                  · next hac => rwa [if_neg hac]
              · next hab =>
                  rw [decide_eq_true_iff] at h
                  split at h'
                  · next hbc => rw [← hbc, if_neg hab, decide_eq_true h]
                  · next hbc =>
                      rw [decide_eq_true_iff] at h'
                      have hlt := h.trans h'
                      rw [if_neg hlt.ne, decide_eq_true hlt]

/-- **Files are collected in the order of the names on the way to them**, each once. -/
theorem collect_sorted {fs : FileSystem} {source : FilePath} {pattern : String}
    {ignored : List String} {paths : List FilePath}
    (h : collect fs source pattern ignored = .ok paths) :
    (paths.Pairwise fun p q => namesBefore p.names q.names = true) ∧ paths.Nodup := by
  rw [collect] at h
  split at h
  · obtain rfl := Except.ok.inj h
    exact ⟨List.pairwise_singleton _ _, List.nodup_singleton _⟩
  · obtain ⟨found, -, h⟩ := exists_of_bind_eq_ok h
    obtain rfl := Except.ok.inj h
    refine ⟨@List.pairwise_mergeSort _ (fun p q : FilePath => namesBefore p.names q.names)
      (fun _ _ _ => namesBefore_trans) (fun p q => namesBefore_total p.names q.names) _, ?_⟩
    rw [(List.mergeSort_perm _ _).nodup_iff]
    exact nodup_eraseDups _

end Glob

/-! ### Directories -/

namespace Action

variable {d : Declared} {rules : List Rule} {s : ScanSettings} {r r' : ScanResult} {w w' : Workspace}

theorem quiet_sayScan (verbose : Bool) (line : String) : Quiet (sayScan verbose line) := by
  rw [sayScan]
  split
  · exact quiet_say _
  · exact quiet_pure ()

/-- A file that is scanned joins the result of its text alone, and no file changes. -/
theorem scanFile_eq_ok [Script.Parser] {p : FilePath} (h : scanFile d rules s r p w = (.ok r', w')) :
    w.Agrees w' ∧ ∃ text, w.files.lossyTextOf p = .ok text ∧
      r' = r.join (Scan.into d rules s.options {} p.text text) := by
  rw [scanFile, bind_of_ok (show files w = (.ok w.files, w) from rfl)] at h
  obtain ⟨text, w₁, hread, hscan⟩ := bind_ok h
  obtain ⟨htext, rfl⟩ := ofExcept_eq_ok hread
  obtain ⟨_, w₂, hsay, hgive⟩ := bind_ok hscan
  rw [pure_eq] at hgive
  obtain ⟨hr, rfl⟩ := Prod.mk.inj hgive
  refine ⟨(quiet_sayAll _).prints.agrees hsay, text, htext, ?_⟩
  rw [← Except.ok.inj hr, Scan.into_eq, Scan.into_empty]

/-- **Files that are scanned one after the other** join the sum of their results alone. -/
theorem scanFiles_eq_ok [Script.Parser] {paths : List FilePath}
    (h : scanFiles d rules s r paths w = (.ok r', w')) :
    ∃ results, List.Forall₂ (fun p one => ∃ text, w.files.lossyTextOf p = .ok text ∧
        one = Scan.into d rules s.options {} p.text text) paths results ∧
      r' = r.join (ScanResult.sum results) := by
  induction paths generalizing r w with
  | nil =>
      obtain ⟨hr, -⟩ := Prod.mk.inj h
      exact ⟨[], .nil, (Except.ok.inj hr).symm.trans (ScanResult.join_empty r).symm⟩
  | cons p paths ih =>
      obtain ⟨r₁, w₁, hfile, h⟩ := bind_ok h
      obtain ⟨hagree, text, htext, rfl⟩ := scanFile_eq_ok hfile
      obtain ⟨results, hresults, rfl⟩ := ih h
      rw [hagree.files] at hresults
      exact ⟨_ :: results, .cons ⟨text, htext, rfl⟩ hresults, ScanResult.join_assoc _ _ _⟩

/-- A scan of a directory is one of the files that are collected, from an empty result. -/
theorem scanDirectory_eq_ok [Script.Parser] {registry : Json} {source : FilePath}
    (h : scanDirectory registry s source w = (.ok r, w')) :
    ∃ rules paths w₁, s.selectedRules = .ok rules ∧
      Glob.collect w.files source s.pattern s.ignored = .ok paths ∧ w.Agrees w₁ ∧
      scanFiles (.ofRegistry registry) rules s {} paths w₁ = (.ok r, w') := by
  rw [scanDirectory, bind_of_ok (show files w = (.ok w.files, w) from rfl)] at h
  split at h
  · obtain ⟨_, w₁, hfail, -⟩ := bind_ok h
    exact absurd (congrArg Prod.fst hfail) (by simp [fail])
  · obtain ⟨rules, w₁, hselect, h₁⟩ := bind_ok h
    obtain ⟨hrules, rfl⟩ := ofExcept_eq_ok hselect
    obtain ⟨_, w₂, hsay, h₂⟩ := bind_ok h₁
    rw [bind_of_ok (show files w₂ = (.ok w₂.files, w₂) from rfl)] at h₂
    obtain ⟨paths, w₃, hcollect, h₃⟩ := bind_ok h₂
    obtain ⟨hpaths, rfl⟩ := ofExcept_eq_ok hcollect
    obtain ⟨_, w₄, hcount, hscan⟩ := bind_ok h₃
    have hagree := (quiet_sayScan _ _).prints.agrees hsay
    rw [hagree.files] at hpaths
    exact ⟨rules, paths, w₄, hrules, hpaths,
      hagree.trans ((quiet_sayScan _ _).prints.agrees hcount), hscan⟩

end Action

/-- **A scan of a directory is the sum of its files.**  The files that are collected come in order and
once each.  The violations are those of each file alone, one after the other; whatever is counted is
the sum of what is counted for each file, so that violations are counted by the length of their list and
files by the number of those collected; and the scan is valid exactly if that of each file is. -/
theorem scanDirectory_sum [Script.Parser] (registry : Json) (s : ScanSettings)
    (source : FilePath) (w w' : Workspace) (r : ScanResult)
    (h : Action.scanDirectory registry s source w = (.ok r, w')) :
    ∃ rules paths results, s.selectedRules = .ok rules ∧
      Glob.collect w.files source s.pattern s.ignored = .ok paths ∧
      (paths.Pairwise fun p q => Glob.namesBefore p.names q.names = true) ∧ paths.Nodup ∧
      List.Forall₂ (fun p one => ∃ text, w.files.lossyTextOf p = .ok text ∧
        one = Scan.into (.ofRegistry registry) rules s.options {} p.text text) paths results ∧
      r.violations = results.flatMap ScanResult.violations ∧
      (∀ count ∈ [ScanStats.files, ScanStats.components, ScanStats.tokens, ScanStats.violations,
          ScanStats.unreadable], count r.stats = (results.map fun one => count one.stats).sum) ∧
      r.stats.violations = r.violations.length ∧ r.stats.files = paths.length ∧
      (r.isValid = true ↔ ∀ one ∈ results, one.isValid = true) := by
  obtain ⟨rules, paths, w₁, hrules, hpaths, hagree, hscan⟩ := Action.scanDirectory_eq_ok h
  obtain ⟨results, hresults, hr⟩ := Action.scanFiles_eq_ok hscan
  rw [ScanResult.empty_join] at hr
  subst hr
  rw [hagree.files] at hresults
  obtain ⟨hsorted, hnodup⟩ := Glob.collect_sorted hpaths
  have hcount : ∀ count ∈ [ScanStats.files, ScanStats.components, ScanStats.tokens,
      ScanStats.violations, ScanStats.unreadable],
      count (ScanResult.sum results).stats = (results.map fun one => count one.stats).sum := by
    simp only [List.forall_mem_cons, List.not_mem_nil, false_implies, implies_true, and_true]
    refine ⟨?_, ?_, ?_, ?_, ?_⟩ <;> exact ScanResult.sum_count rfl (fun _ _ => rfl) results
  -- each file counts once, and so do its violations
  have hone : ∀ one ∈ results,
      one.stats.files = 1 ∧ one.stats.violations = one.violations.length := by
    refine ((List.forall₂_and_left _ _).1 (hresults.flip.imp fun one p h => ⟨?_, h⟩)).1
    obtain ⟨text, -, rfl⟩ := h
    rw [Scan.into_empty]
    exact Scan.source_counts p.text text
  refine ⟨rules, paths, results, hrules, hpaths, hsorted, hnodup, hresults,
    ScanResult.sum_violations results, hcount, ?_, ?_, ScanResult.sum_isValid_iff results⟩
  · rw [hcount ScanStats.violations (by simp), ScanResult.sum_violations, List.length_flatMap,
      List.map_congr_left fun one h => (hone one h).2]
  · rw [hcount ScanStats.files (by simp), hresults.length_eq,
      List.map_congr_left fun one h => (hone one h).1]
    simp

/-- Three scripts: one does not follow the grammar, one has a field without its label, and one has no
elements. -/
def formDirectory : Workspace where
  files := ⟨[(["src"], .directory), (["src", "a.tsx"], .file "<a>".toUTF8 0),
    (["src", "b.jsx"], .file "<MyField/>".toUTF8 0),
    (["src", "c.js"], .file "let n = 1".toUTF8 0)], [], 1⟩
  clock := ⟨⟨0⟩, 0⟩
  store := .directory ⟨"", ["backups"]⟩

theorem collect_formDirectory : Glob.collect formDirectory.files ⟨"", ["src"]⟩
    ({} : ScanSettings).pattern ({} : ScanSettings).ignored =
      .ok [⟨"", ["src", "a.tsx"]⟩, ⟨"", ["src", "b.jsx"]⟩, ⟨"", ["src", "c.js"]⟩] := by
  have hfile : formDirectory.files.isFile ⟨"", ["src"]⟩ = false := rfl
  have hfound : Glob.filesOfAll formDirectory.files ⟨"", ["src"]⟩
      (Glob.expandBraces ({} : ScanSettings).pattern) =
        .ok [⟨"", ["src", "a.tsx"]⟩, ⟨"", ["src", "b.jsx"]⟩, ⟨"", ["src", "c.js"]⟩] := rfl
  rw [Glob.collect, hfile, hfound]
  change Except.ok (List.mergeSort _ _) = _
  -- they are found in order
  rw [List.mergeSort_of_pairwise (by decide +kernel)]
  rfl

/-- All three scripts are counted, and only the second one makes the scan invalid. -/
theorem scanDirectory_sum_forms :
    ∃ r w', Action.scanDirectory formRegistry {} ⟨"", ["src"]⟩ formDirectory = (.ok r, w') ∧
      r.stats = { files := 3, components := 1, violations := 1, unreadable := 1 } ∧
      r.isValid = false ∧ ∃ results : List ScanResult, results.length = 3 ∧
        r.violations = results.flatMap ScanResult.violations ∧
        ∃ one ∈ results, one.isValid = false := by
  have hdirectory : Action.scanDirectory formRegistry {} ⟨"", ["src"]⟩ formDirectory =
      Action.scanFiles (.ofRegistry formRegistry) Scan.rules {} {}
        [⟨"", ["src", "a.tsx"]⟩, ⟨"", ["src", "b.jsx"]⟩, ⟨"", ["src", "c.js"]⟩] formDirectory := by
    change (Action.ofExcept .scan (Glob.collect formDirectory.files ⟨"", ["src"]⟩
        ({} : ScanSettings).pattern ({} : ScanSettings).ignored) >>= fun paths =>
      Action.scanFiles (.ofRegistry formRegistry) Scan.rules {} {} paths) formDirectory = _
    rw [collect_formDirectory]
    rfl
  have hseen : (Action.scanFiles (.ofRegistry formRegistry) Scan.rules {} {}
      [⟨"", ["src", "a.tsx"]⟩, ⟨"", ["src", "b.jsx"]⟩, ⟨"", ["src", "c.js"]⟩]
        formDirectory).1.toOption.map (fun r => (r.stats, r.isValid)) =
      some ({ files := 3, components := 1, violations := 1, unreadable := 1 }, false) := by
    decide +kernel
  obtain ⟨r, hr, hstats⟩ := exists_ok_of_seen hseen
  obtain ⟨hstats, hvalid⟩ := Prod.mk.inj hstats
  have hrun : Action.scanDirectory formRegistry {} ⟨"", ["src"]⟩ formDirectory = (.ok r, _) :=
    hdirectory.trans (Prod.ext hr rfl)
  obtain ⟨rules, paths, results, -, hpaths, -, -, hresults, hviolations, -, -, -, hall⟩ :=
    scanDirectory_sum _ _ _ _ _ _ hrun
  obtain rfl := Except.ok.inj (hpaths.symm.trans collect_formDirectory)
  refine ⟨r, _, hrun, hstats, hvalid, results, hresults.length_eq.symm, hviolations, ?_⟩
  simpa [hvalid] using hall

end DesignRegistry
