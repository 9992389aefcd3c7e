/-
**The test cases of a report can be read back.**

A report as test cases is a document whatever the violations say, as long as it is said in characters that
documents can hold: messages, names of files and kinds of findings are written so that they end neither a
tag nor an element.  The grammar of documents then leaves one reading, which is the suite that was meant.

Main definitions:

* `Violation.isWritable` — a violation that is told in characters that documents can hold;
* `ScanResult.suiteItem` — the suite that is meant;
* `IsTestCase` — what a test case has to tell of its violation.

Main results:

* `ScanResult.document_renderCases` — a report is a document that denotes the suite;
* `renderCases_read_back` — **each violation is read back as one test case**, which is a failure if it is
  an error.
-/
import DesignRegistry.Proofs.Markup.Reader
import DesignRegistry.Proofs.Markup.Writer
import DesignRegistry.Proofs.Number.Digits
import DesignRegistry.Scan.Report
import Mathlib.Data.List.Forall2

set_option relaxedAutoImplicit false
set_option autoImplicit false

namespace DesignRegistry

open Markup

/-- Whether what is told of a violation is made of characters that documents can hold. -/
def Violation.isWritable (v : Violation) : Bool :=
  ([v.file, v.kind, v.message] ++ v.suggestion.toList).all fun s => s.toList.all isAllowed

/-- What the test case for a violation has to tell: the place and the kind, and one failure with the message
and the kind if the violation is an error, and else none. -/
structure IsTestCase (v : Violation) (e : Item) : Prop where
  name : e.name = "testcase"
  place : e.attribute? "name" =
    some (v.file ++ ":" ++ intText v.line ++ ":" ++ intText v.column)
  className : e.attribute? "classname" = some ("DesignSystemValidation." ++ v.kind)
  failure : v.severity = .error → ∃ f, e.elements = [f] ∧ f.name = "failure" ∧
    f.attribute? "message" = some v.message ∧ f.attribute? "type" = some v.kind
  noFailure : v.severity ≠ .error → e.elements = []

namespace ScanResult

/-! ### What is meant -/

/-- The characters of a text as items. -/
def charItems (s : String) : List Item := s.toList.map .char

/-- The failure of a violation that is an error. -/
def failureItem (v : Violation) : Item :=
  .element "failure" [("message", v.message), ("type", v.kind)]
    ((plainLineEnds (failureText v).toList).map .char)

/-- The attributes of a test case. -/
def caseAttributes (v : Violation) : List (String × String) :=
  [("name", v.place), ("classname", "DesignSystemValidation." ++ v.kind)]

/-- The test case for a violation. -/
def caseItem (v : Violation) : Item :=
  .element "testcase" (caseAttributes v)
    (if v.isError then charItems "\n    " ++ failureItem v :: charItems "\n  " else [])

/-- The attributes of the suite. -/
def suiteAttributes (r : ScanResult) : List (String × String) :=
  [("name", "Design System Validation"), ("tests", natText r.violations.length),
    ("failures", natText r.errors.length), ("errors", "0")]

/-- The suite of the test cases. -/
def suiteItem (r : ScanResult) : Item :=
  .element "testsuite" (suiteAttributes r)
    (charItems "\n" ++ r.violations.flatMap fun v => charItems "  " ++ caseItem v :: charItems "\n")

/-! ### What is written -/

/-- The front of the tag of a test case. -/
def caseTag (v : Violation) : List Char := tagText "testcase" (caseAttributes v)

/-- The front of the tag of a failure. -/
def failureTag (v : Violation) : List Char :=
  tagText "failure" [("message", v.message), ("type", v.kind)]

/-- The text of a test case, with what its failure says. -/
def caseChars (v : Violation) (said : List Char) : List Char :=
  "  ".toList ++ (caseTag v ++
    if v.isError then
      '>' :: ("\n    ".toList ++ (failureTag v ++
        '>' :: (said.flatMap textChar ++ "</failure>\n  </testcase>\n".toList)))
    else " />\n".toList)

/-- The text of the test cases, with what their failures say. -/
def casesChars (vs : List Violation) (said : Violation → List Char) : List Char :=
  vs.flatMap fun v => caseChars v (said v)

/-- The declaration in front of a report. -/
def declarationChars : List Char :=
  "<?xml".toList ++ (attributesText [("version", "1.0"), ("encoding", "UTF-8")] ++ "?>".toList)

/-- The front of the tag of the suite. -/
def suiteTag (r : ScanResult) : List Char := tagText "testsuite" (suiteAttributes r)

/-- The text of a report, with what its failures say. -/
def reportChars (r : ScanResult) (said : Violation → List Char) : List Char :=
  declarationChars ++ ("\n".toList ++ (suiteTag r ++ (">\n".toList ++
    (casesChars r.violations said ++ "</testsuite>\n".toList))))

/-- The lines of a test case are its text. -/
theorem flatMap_caseLines (v : Violation) :
    ((caseLines v).flatMap fun line => line.toList ++ ['\n']) =
      caseChars v (failureText v).toList := by
  rw [caseLines, caseChars, caseTag, failureTag, caseAttributes]
  by_cases h : v.isError = true
  · simp [h, tagText, attributesText, attributeText, escaped]
  · simp [h, tagText, attributesText, attributeText]

theorem attributeChars_natDigits (n : ℕ) :
    attributeChars (natDigits n) = '"' :: (natDigits n ++ ['"']) :=
  attributeChars_of_forall fun c hc hmark => by
    have hall : ∀ d ∈ "\"\n\r\t&<>".toList, d.isDigit = false := by decide
    exact Bool.false_ne_true ((hall c hmark).symm.trans (isDigit_of_mem_natDigits hc))

theorem suiteTag_eq (r : ScanResult) : suiteTag r =
    "<testsuite name=\"Design System Validation\" tests=\"".toList ++
      (natDigits r.violations.length ++ ("\" failures=\"".toList ++
        (natDigits r.errors.length ++ "\" errors=\"0\"".toList))) := by
  rw [suiteTag, suiteAttributes, tagText, attributesText]
  simp only [List.flatMap_cons, List.flatMap_nil, natText, String.toList_ofList,
    attributeChars_natDigits, List.cons_append, List.append_assoc]
  rfl

/-- The report is a declaration and the suite. -/
theorem toList_renderCases (r : ScanResult) :
    r.renderCases.toList = reportChars r fun v => (failureText v).toList := by
  rw [renderCases, toList_withLineEnds, reportChars, casesChars, suiteTag_eq]
  simp only [List.flatMap_append, List.flatMap_cons, List.flatMap_nil, List.flatMap_assoc,
    flatMap_caseLines, String.toList_append, natText, String.toList_ofList, List.append_assoc]
  rfl

/-! ### Line ends -/

theorem return_notMem_tags (v : Violation) : '\r' ∉ caseTag v ∧ '\r' ∉ failureTag v :=
  ⟨return_notMem_tagText (by decide)
      (by decide : ∀ key ∈ ["name", "classname"], '\r' ∉ key.toList),
    return_notMem_tagText (by decide) (by decide : ∀ key ∈ ["message", "type"], '\r' ∉ key.toList)⟩

/-- The only line ends to be made plain are those in the text of a failure. -/
theorem plainLineEnds_caseChars (v : Violation) (s rest : List Char) :
    plainLineEnds (caseChars v s ++ rest) = caseChars v (plainLineEnds s) ++ plainLineEnds rest := by
  obtain ⟨hcase, hfailure⟩ := return_notMem_tags v
  rw [caseChars, caseChars]
  by_cases h : v.isError = true
  · have hfront : '\r' ∉ "  ".toList ++ (caseTag v ++ ('>' :: "\n    ".toList ++
        (failureTag v ++ ['>']))) := by
      simp [hcase, hfailure]
    have hback : '\r' ∉ "</failure>\n  </testcase>\n".toList := by decide
    have hinner : plainLineEnds (s.flatMap textChar ++ ("</failure>\n  </testcase>\n".toList ++ rest)) =
        (plainLineEnds s).flatMap textChar ++
          ("</failure>\n  </testcase>\n".toList ++ plainLineEnds rest) := by
      rw [plainLineEnds_append fun _ => by simp, plainLineEnds_flatMap_textChar,
        plainLineEnds_append_of_notMem hback]
    have hwhole := plainLineEnds_append_of_notMem hfront
      (s.flatMap textChar ++ ("</failure>\n  </testcase>\n".toList ++ rest))
    rw [hinner] at hwhole
    simpa only [if_pos h, List.append_assoc, List.cons_append, List.nil_append] using hwhole
  · have hfront : '\r' ∉ "  ".toList ++ (caseTag v ++ " />\n".toList) := by simp [hcase]
    simp only [if_neg h]
    exact plainLineEnds_append_of_notMem hfront rest

theorem plainLineEnds_casesChars (vs : List Violation) (said : Violation → List Char)
    (rest : List Char) : plainLineEnds (casesChars vs said ++ rest) =
      casesChars vs (fun v => plainLineEnds (said v)) ++ plainLineEnds rest := by
  rw [casesChars, casesChars]
  induction vs with
  | nil => rfl
  | cons v vs ih =>
      rw [List.flatMap_cons, List.append_assoc, plainLineEnds_caseChars, ih, List.flatMap_cons,
        List.append_assoc]

/-- Making the line ends of a report plain makes those plain in what its failures say. -/
theorem plainLineEnds_reportChars (r : ScanResult) (said : Violation → List Char) :
    plainLineEnds (reportChars r said) = reportChars r fun v => plainLineEnds (said v) := by
  have hdeclaration : '\r' ∉ declarationChars := by decide
  have hsuite : '\r' ∉ suiteTag r := return_notMem_tagText (by decide)
    (by decide : ∀ key ∈ ["name", "tests", "failures", "errors"], '\r' ∉ key.toList)
  have hend : plainLineEnds "</testsuite>\n".toList = "</testsuite>\n".toList := rfl
  rw [reportChars, reportChars, plainLineEnds_append_of_notMem hdeclaration,
    plainLineEnds_append_of_notMem (by decide), plainLineEnds_append_of_notMem hsuite,
    plainLineEnds_append_of_notMem (by decide), plainLineEnds_casesChars, hend]

/-! ### What is read -/

theorem tagFront_caseTag (v : Violation) {blanks : List Char} (h : Spaces blanks) :
    TagFront (caseTag v ++ blanks) "testcase" (caseAttributes v) :=
  .written ["name", "classname"] rfl (by decide) (by decide) (by decide) h

theorem tagFront_failureTag (v : Violation) {blanks : List Char} (h : Spaces blanks) :
    TagFront (failureTag v ++ blanks) "failure" [("message", v.message), ("type", v.kind)] :=
  .written ["message", "type"] rfl (by decide) (by decide) (by decide) h

/-- A test case denotes what is meant, and what is behind it is read on its own. -/
theorem content_caseChars {rest : List Char} {items : List Item}
    (hrest : ∀ c ∈ rest.head?, c ∉ "]>".toList) (h : Markup.Content rest items) (v : Violation) :
    Markup.Content (caseChars v (plainLineEnds (failureText v).toList) ++ rest)
      (charItems "  " ++ (caseItem v :: (charItems "\n" ++ items))) := by
  have hend : Markup.Content ("\n".toList ++ rest) (charItems "\n" ++ items) := h.plain rfl hrest
  have hnone : Spaces [] := by simp [Spaces]
  have hspace : Spaces [' '] := by simp [Spaces, isSpace]
  have hless (s : List Char) : ∀ c ∈ ('<' :: s).head?, c ∉ "]>".toList := by simp
  rw [caseChars, caseItem]
  by_cases herror : v.isError = true
  · have hclose : Markup.Content ("\n  ".toList ++ []) (charItems "\n  " ++ []) :=
      .plain rfl (by simp) .nil
    have htext := Markup.Content.escaped (by simp) .nil (plainLineEnds (failureText v).toList)
    have hfailure := Markup.Content.element (tagFront_failureTag v hnone) htext hnone hclose
    have hinside := hfailure.plain (s := "\n    ".toList) rfl (hless _)
    have hcase := Markup.Content.element (tagFront_caseTag v hnone) hinside hnone hend
    have hwhole := hcase.plain (s := "  ".toList) rfl (hless _)
    simp only [if_pos herror]
    simpa [caseTag, failureTag, tagText, failureItem, charItems] using hwhole
  · have hcase := Markup.Content.empty (tagFront_caseTag v hspace) hend
    have hwhole := hcase.plain (s := "  ".toList) rfl (hless _)
    simp only [if_neg herror]
    simpa [caseTag, tagText, charItems] using hwhole

/-- In front of test cases stands a space. -/
theorem head_casesChars (vs : List Violation) (said : Violation → List Char) :
    ∀ c ∈ (casesChars vs said).head?, c ∉ "]>".toList := by
  intro c hc
  cases vs with
  | nil => exact absurd hc (by simp [casesChars])
  | cons v vs =>
      have hspace : c = ' ' := (Option.some.inj hc).symm
      exact hspace ▸ by decide

/-- The test cases of violations denote what is meant. -/
theorem content_casesChars (vs : List Violation) :
    Markup.Content (casesChars vs fun v => plainLineEnds (failureText v).toList)
      (vs.flatMap fun v => charItems "  " ++ caseItem v :: charItems "\n") := by
  induction vs with
  | nil => exact .nil
  | cons v vs ih =>
      have hcases := content_caseChars (head_casesChars vs _) ih v
      simpa only [casesChars, List.flatMap_cons, List.append_assoc, List.cons_append] using hcases

/-! ### Characters that documents can hold -/

theorem isAllowed_of_isDigit {c : Char} (h : c.isDigit = true) : isAllowed c = true := by
  have hcode : 48 ≤ c.toNat ∧ c.toNat ≤ 57 := Char.isDigit_iff_toNat.1 h
  simp only [isAllowed, Bool.or_eq_true, Bool.and_eq_true, decide_eq_true_eq, bne_iff_ne]
  omega

theorem isAllowed_of_mem_intDigits (n : ℤ) : ∀ c ∈ intDigits n, isAllowed c = true := by
  have hdigits : ∀ c ∈ natDigits n.natAbs, isAllowed c = true := fun c hc =>
    isAllowed_of_isDigit (isDigit_of_mem_natDigits hc)
  rw [intDigits]
  split
  · exact List.forall_mem_cons.2 ⟨by decide, hdigits⟩
  · exact hdigits

theorem isAllowed_of_mem_place {v : Violation} (hfile : ∀ c ∈ v.file.toList, isAllowed c = true) :
    ∀ c ∈ v.place.toList, isAllowed c = true := by
  simp only [Violation.place, intText, String.toList_append, String.toList_ofList,
    List.forall_mem_append]
  exact ⟨⟨⟨⟨hfile, by decide⟩, isAllowed_of_mem_intDigits v.line⟩, by decide⟩,
    isAllowed_of_mem_intDigits v.column⟩

/-- What is written for a violation are characters that documents can hold if what it tells is. -/
theorem isAllowed_of_mem_caseChars {v : Violation} (h : v.isWritable = true) :
    ∀ c ∈ caseChars v (failureText v).toList, isAllowed c = true := by
  simp only [Violation.isWritable, List.all_append, List.all_cons, List.all_nil, Bool.and_true,
    Bool.and_eq_true, List.all_eq_true] at h
  obtain ⟨⟨hfile, hkind, hmessage⟩, hsuggestion⟩ := h
  have hplace := isAllowed_of_mem_place hfile
  have hcase : ∀ c ∈ caseTag v, isAllowed c = true := by
    refine isAllowed_of_mem_tagText (by decide) ?_
    simp only [caseAttributes, List.forall_mem_cons, List.forall_mem_append, String.toList_append]
    exact ⟨⟨by decide, hplace⟩, ⟨by decide, by decide, hkind⟩, by simp⟩
  have hfailure : ∀ c ∈ failureTag v, isAllowed c = true := by
    refine isAllowed_of_mem_tagText (by decide) ?_
    simp only [List.forall_mem_cons, List.forall_mem_append]
    exact ⟨⟨by decide, hmessage⟩, ⟨by decide, hkind⟩, by simp⟩
  have htext : ∀ c ∈ (failureText v).toList, isAllowed c = true := by
    unfold failureText
    simp only [String.toList_append, List.forall_mem_append]
    refine ⟨⟨⟨by decide, hplace⟩, by decide⟩, ?_⟩
    split
    · decide
    · decide
    · next s _ hs => exact hsuggestion s (by rw [hs]; simp)
  have hinner : ∀ c ∈ (failureText v).toList.flatMap textChar, isAllowed c = true :=
    List.forall_mem_flatMap.2 fun c hc => forall_mem_textChar (by decide) fun _ => htext c hc
  rw [caseChars]
  split
  · simp only [List.forall_mem_append, List.forall_mem_cons]
    exact ⟨by decide, hcase, by decide, by decide, hfailure, by decide, hinner, by decide⟩
  · simp only [List.forall_mem_append]
    exact ⟨by decide, hcase, by decide⟩

theorem isAllowed_of_mem_renderCases {r : ScanResult}
    (h : ∀ v ∈ r.violations, v.isWritable = true) :
    ∀ c ∈ r.renderCases.toList, isAllowed c = true := by
  have hcount (n : ℕ) : ∀ c ∈ natDigits n, isAllowed c = true := fun c hc =>
    isAllowed_of_isDigit (isDigit_of_mem_natDigits hc)
  rw [toList_renderCases, reportChars, casesChars, suiteTag_eq]
  simp only [List.forall_mem_append, List.forall_mem_flatMap]
  exact ⟨by decide, by decide, ⟨by decide, hcount _, by decide, hcount _, by decide⟩, by decide,
    fun v hv => isAllowed_of_mem_caseChars (h v hv), by decide⟩

/-! ### Reading a report -/

/-- A report is a document that denotes the suite that is meant. -/
theorem document_renderCases {r : ScanResult} (h : ∀ v ∈ r.violations, v.isWritable = true) :
    Document r.renderCases r.suiteItem := by
  have hnone : Spaces [] := by simp [Spaces]
  have hdeclaration : Declaration declarationChars := by
    have has : Attributes (attributesText [("version", "1.0"), ("encoding", "UTF-8")])
        [("version", "1.0"), ("encoding", "UTF-8")] := .written (by decide)
    exact .intro has (by decide) rfl hnone
  have hcases := (content_casesChars r.violations).plain (s := "\n".toList) rfl (head_casesChars _ _)
  have hfront : TagFront (suiteTag r ++ []) "testsuite" (suiteAttributes r) :=
    .written ["name", "tests", "failures", "errors"] rfl (by decide) (by decide) (by decide) hnone
  have hsuite := Element.full hfront hcases hnone
  refine ⟨isAllowed_of_mem_renderCases h, declarationChars, "\n".toList, _, "\n".toList, ?_,
    .inr hdeclaration, .space rfl .nil, hsuite, .space rfl .nil⟩
  rw [toList_renderCases, plainLineEnds_reportChars, reportChars]
  simp

theorem filter_charItems (s : String) : (charItems s).filter Item.isElement = [] := by
  simp [charItems, Item.isElement]

/-- The elements in the suite are the test cases. -/
theorem elements_suiteItem (r : ScanResult) : r.suiteItem.elements = r.violations.map caseItem := by
  rw [suiteItem, Item.elements, List.filter_append, filter_charItems, List.nil_append]
  induction r.violations with
  | nil => rfl
  | cons v vs ih =>
      rw [List.flatMap_cons, List.filter_append, ih, List.filter_append, filter_charItems,
        List.nil_append, List.filter_cons_of_pos rfl, filter_charItems]
      rfl

/-- A test case tells what it has to. -/
theorem isTestCase_caseItem (v : Violation) : IsTestCase v (caseItem v) where
  name := rfl
  place := rfl
  className := by simp [caseItem, caseAttributes, Item.attribute?]
  failure herror := by
    refine ⟨failureItem v, ?_, rfl, rfl, by simp [failureItem, Item.attribute?]⟩
    have hpos : v.isError = true := decide_eq_true herror
    rw [caseItem, if_pos hpos, Item.elements, List.filter_append, filter_charItems, List.nil_append,
      List.filter_cons_of_pos rfl, filter_charItems]
  noFailure herror := by simp [caseItem, Violation.isError, herror, Item.elements]

end ScanResult

/-- If what violations tell is made of characters that documents can hold, a report as test cases is a
document with one reading, and a reader gets it: a suite with the number of violations and the number of
errors among them, and with one test case for each violation, in order, which tells its place and its kind
and is a failure, with the message and the kind, exactly if the violation is an error. -/
theorem renderCases_read_back (r : ScanResult) (h : ∀ v ∈ r.violations, v.isWritable = true) :
    ∃ suite, Document r.renderCases suite ∧ (∀ other, Document r.renderCases other → other = suite) ∧
      readDocument r.renderCases = some suite ∧ suite.name = "testsuite" ∧
      suite.attribute? "tests" = some (natText r.violations.length) ∧
      suite.attribute? "failures" =
        some (natText (r.violations.filter fun v => v.severity = .error).length) ∧
      List.Forall₂ IsTestCase r.violations suite.elements := by
  have hdocument := ScanResult.document_renderCases h
  refine ⟨r.suiteItem, hdocument, fun other => hdocument.unique, hdocument.read, rfl, rfl, rfl, ?_⟩
  rw [ScanResult.elements_suiteItem, List.forall₂_map_right_iff]
  exact List.forall₂_same.2 fun v _ => ScanResult.isTestCase_caseItem v

/-- A result whose texts look like markup. -/
def hostileResult : ScanResult :=
  { violations :=
      [{ kind := "a\"b'c", severity := .error, message := "<a b='\"'>&amp;]]>\r\n\t</failure>"
         file := "src/\"page\".tsx", line := 3, column := 14, suggestion := some "\r\n]]></testsuite>" },
        { kind := "&#0;", severity := .warning, message := "--> ?>", file := "<!--", line := -1
          column := 0 }] }

/-- Texts that look like tags, references or line ends are read back. -/
theorem renderCases_read_back_hostile :
    (∀ v ∈ hostileResult.violations, v.isWritable = true) ∧
      ∃ suite, readDocument hostileResult.renderCases = some suite ∧
        suite.attribute? "tests" = some "2" ∧ suite.attribute? "failures" = some "1" ∧
        List.Forall₂ IsTestCase hostileResult.violations suite.elements :=
  have hwritable : ∀ v ∈ hostileResult.violations, v.isWritable = true := by decide
  let ⟨suite, _, _, hread, _, htests, hfailures, hcases⟩ :=
    renderCases_read_back hostileResult hwritable
  ⟨hwritable, suite, hread, htests, hfailures, hcases⟩

end DesignRegistry
