/-
**Texts of paths.**

The text of a path names the path again if the path is normal: its names hold no slash and are
neither empty nor a single dot, and at most two slashes stand in front.  Every path that is read from
a text is normal, and a normal path stays so when a name is added.

Main definitions:

* `PlainName` — a name that a slash does not cut and that is not dropped;
* `FilePath.Normal` — a path that is made of plain names.

Main results:

* `FilePath.normal_ofText` — paths that are read are normal;
* `FilePath.ofText_text` — **a normal path is read back from its text**.
-/
import DesignRegistry.Proofs.Text.Pieces
import DesignRegistry.Storage.FilePath

set_option relaxedAutoImplicit false
set_option autoImplicit false

namespace DesignRegistry

/-- A name that a slash does not cut and that is not dropped from a path. -/
structure PlainName (name : String) : Prop where
  uncut : '/' ∉ name.toList
  kept : FilePath.isName name.toList = true

namespace FilePath

/-- A path that is made of plain names. -/
structure Normal (p : FilePath) : Prop where
  root : p.root = "" ∨ p.root = "/" ∨ p.root = "//"
  names : ∀ n ∈ p.names, PlainName n

theorem rootOf_cases (s : List Char) : rootOf s = "" ∨ rootOf s = "/" ∨ rootOf s = "//" := by
  rw [rootOf.eq_def]
  split
  · exact .inr (.inl rfl)
  · exact .inr (.inr rfl)
  · exact .inr (.inl rfl)
  · exact .inl rfl

/-- Paths that are read are normal. -/
theorem normal_ofText (s : String) : (ofText s).Normal where
  root := rootOf_cases s.toList
  names := by
    intro n hn
    obtain ⟨part, hpart, rfl⟩ := List.mem_map.1 hn
    obtain ⟨hpiece, hname⟩ := List.mem_filter.1 hpart
    refine ⟨?_, ?_⟩
    · rw [String.toList_ofList]
      exact notMem_of_mem_pieces hpiece
    · rwa [String.toList_ofList]

/-- Adding a plain name keeps a path normal. -/
theorem Normal.child {p : FilePath} (h : p.Normal) {name : String} (hname : PlainName name) :
    (p.child name).Normal where
  root := h.root
  names := by
    intro n hn
    rcases List.mem_append.1 hn with hn | hn
    · exact h.names n hn
    · obtain rfl := List.mem_singleton.1 hn
      exact hname

theorem PlainName.ne_nil {name : String} (h : PlainName name) : name.toList ≠ [] := by
  intro hnil
  have hkept := h.kept
  rw [hnil] at hkept
  exact absurd hkept (by decide)

/-- What stands behind the root does not start with a slash. -/
theorem head?_joinChars {names : List String} (h : ∀ n ∈ names, PlainName n) :
    (joinChars ['/'] (names.map String.toList)).head? ≠ some '/' := by
  cases names with
  | nil => simp [joinChars]
  | cons n names =>
      have hn := h n List.mem_cons_self
      obtain ⟨c, cs, hcs⟩ := List.exists_cons_of_ne_nil (PlainName.ne_nil hn)
      have hc : c ≠ '/' := by
        rintro rfl
        exact hn.uncut (hcs ▸ List.mem_cons_self)
      cases names with
      | nil => simp [joinChars, hcs, hc]
      | cons m names => simp [joinChars, hcs, hc]

/-- The root in front of a text that does not start with a slash. -/
theorem rootOf_append {root : String} (hroot : root = "" ∨ root = "/" ∨ root = "//")
    {body : List Char} (hbody : body.head? ≠ some '/') : rootOf (root.toList ++ body) = root := by
  cases body with
  | nil => rcases hroot with rfl | rfl | rfl <;> rfl
  | cons c body =>
      have hc : c ≠ '/' := fun h => hbody (by rw [h, List.head?_cons])
      rcases hroot with rfl | rfl | rfl
      · rw [show ("" : String).toList ++ c :: body = c :: body from rfl]
        simp [rootOf, hc]
      · rw [show ("/" : String).toList ++ c :: body = '/' :: c :: body from rfl]
        simp [rootOf, hc]
      · rw [show ("//" : String).toList ++ c :: body = '/' :: '/' :: c :: body from rfl]
        simp [rootOf, hc]

/-- The names between slashes do not change when slashes are put in front. -/
theorem filter_pieces_root {root : String} (hroot : root = "" ∨ root = "/" ∨ root = "//")
    (body : List Char) :
    (pieces '/' (root.toList ++ body)).filter isName = (pieces '/' body).filter isName := by
  rcases hroot with rfl | rfl | rfl
  · rfl
  · rw [show ("/" : String).toList ++ body = '/' :: body from rfl, pieces_cons_self,
      List.filter_cons_of_neg (by decide)]
  · rw [show ("//" : String).toList ++ body = '/' :: '/' :: body from rfl, pieces_cons_self,
      pieces_cons_self, List.filter_cons_of_neg (by decide), List.filter_cons_of_neg (by decide)]

/-- A normal path is read back from its text. -/
theorem ofText_text {p : FilePath} (h : p.Normal) : ofText p.text = p := by
  obtain ⟨root, names⟩ := p
  by_cases hdot : root = "" ∧ names = []
  · obtain ⟨rfl, rfl⟩ := hdot
    rfl
  · have htext : (text ⟨root, names⟩).toList =
        root.toList ++ joinChars ['/'] (names.map String.toList) := by
      rw [text, if_neg hdot, String.toList_append, joined, String.toList_ofList]
      rfl
    have hkept : ∀ part ∈ names.map String.toList, isName part = true := by
      intro part hpart
      obtain ⟨n, hn, rfl⟩ := List.mem_map.1 hpart
      exact (h.names n hn).kept
    have huncut : ∀ part ∈ names.map String.toList, '/' ∉ part := by
      intro part hpart
      obtain ⟨n, hn, rfl⟩ := List.mem_map.1 hpart
      exact (h.names n hn).uncut
    have hpieces : (pieces '/' (joinChars ['/'] (names.map String.toList))).filter isName =
        names.map String.toList := by
      cases names with
      | nil => rfl
      | cons n names =>
          rw [pieces_joinChars (by simp) huncut, List.filter_eq_self.2 hkept]
    rw [ofText, htext, rootOf_append h.root (head?_joinChars h.names),
      filter_pieces_root h.root, hpieces, List.map_map]
    have hid : String.ofList ∘ String.toList = id := funext fun _ => String.ofList_toList
    rw [hid, List.map_id]

/-- A plain name is a path of one name. -/
theorem join_ofText {name : String} (h : PlainName name) (p : FilePath) :
    p.join (ofText name) = p.child name := by
  have hnormal : ofText name = ⟨"", [name]⟩ := by
    rw [ofText, pieces_of_not_mem h.uncut, List.filter_cons_of_pos h.kept]
    have hhead : name.toList.head? ≠ some '/' := by
      intro hhead
      exact h.uncut (List.mem_of_head? hhead)
    have hroot := rootOf_append (.inl rfl) hhead
    rw [show ("" : String).toList ++ name.toList = name.toList from rfl] at hroot
    rw [hroot, List.filter_nil, List.map_cons, String.ofList_toList, List.map_nil]
  rw [hnormal]
  rfl

/-- The text of a path that ends in a name. -/
theorem toList_text_child (p : FilePath) (name : String) : (p.child name).text.toList =
    p.root.toList ++ ((p.names.map String.toList).flatMap fun part => part ++ ['/']) ++
      name.toList := by
  have hdot : ¬ ((p.child name).root = "" ∧ (p.child name).names = []) := by
    rintro ⟨-, hnames⟩
    exact absurd hnames (by simp [child])
  rw [text, if_neg hdot, String.toList_append, joined, String.toList_ofList, child, List.map_append,
    List.map_singleton]
  change _ ++ joinChars ['/'] _ = _
  rw [joinChars_concat, List.append_assoc]

/-- Different names in a directory have different texts. -/
theorem text_child_injective {p : FilePath} {name other : String}
    (h : (p.child name).text = (p.child other).text) : name = other := by
  have htexts := congrArg String.toList h
  rw [toList_text_child, toList_text_child] at htexts
  exact String.toList_injective (List.append_cancel_left htexts)

end FilePath

end DesignRegistry
