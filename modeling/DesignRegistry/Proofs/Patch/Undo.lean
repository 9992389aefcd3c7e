/-
**Undo patches undo.**

What edits do to the contents of documents, the operations they become do to documents.  An operation
walks along the tokens of its pointer to the container that it edits; where the content of the
document admits the edit, every step leads somewhere and the container takes the edit, and the
document that comes out holds what the edit makes of the content.

With what is known of differences, the patches that lead from one document to another can be applied
one after the other, and end in a document that equals the second up to the order of members.

Main results:

* `Json.editAt_inside` — an edit of a container is carried to the document around it;
* `Edit.Turns.apply` — an operation does what its edit does;
* `undo_correct` — **undo patches apply and lead to the earlier document**.
-/
import DesignRegistry.Proofs.Patch.Moves

set_option relaxedAutoImplicit false
set_option autoImplicit false

namespace DesignRegistry

namespace Json

/-! ### Steps into a document -/

theorem step_key {ms : Members} {k : String} {v : Json} (h : Members.get? k ms = some v) :
    (Json.obj ms).step k = .ok v := by
  rw [step, h]

theorem step_index {xs : List Json} {i : ℕ} {v : Json} (h : xs[i]? = some v) :
    (Json.arr xs).step (natText i) = .ok v := by
  rw [step, if_neg (natText_ne_dash i), arrayIndex?_natText]
  simp only [h]

/-- An edit of values does to what they hold what a change says, if it can be made. -/
def Realizes {ε : Type} (edit : Json → Except ε Json) (R : Change) : Prop :=
  ∀ v : Json, v.UniqueKeys → ∀ d, R (some v.content) (some d) →
    ∃ w, edit v = .ok w ∧ w.UniqueKeys ∧ w.content = d

theorem content_put {ms : Members} {k : String} {v : Json} {f g : String → Option Content}
    (hms : ∀ l, (Members.get? l ms).map content = f l) (hk : g k = some v.content)
    (hrest : ∀ l, l ≠ k → g l = f l) : (Json.obj (Members.put k v ms)).content = .obj g := by
  rw [content_obj]
  refine congrArg Content.obj (funext fun l => ?_)
  rw [Members.get?_put]
  by_cases hl : l = k
  · rw [if_pos hl, Option.map_some, hl, hk]
  · rw [if_neg hl, hms l, hrest l hl]

theorem content_erase {ms : Members} {k : String} {f g : String → Option Content}
    (hnodup : (Members.keys ms).Nodup) (hms : ∀ l, (Members.get? l ms).map content = f l)
    (hk : g k = none) (hrest : ∀ l, l ≠ k → g l = f l) :
    (Json.obj (Members.erase k ms)).content = .obj g := by
  rw [content_obj]
  refine congrArg Content.obj (funext fun l => ?_)
  rw [Members.get?_erase hnodup]
  by_cases hl : l = k
  · rw [if_pos hl, Option.map_none, hl, hk]
  · rw [if_neg hl, hms l, hrest l hl]

/-- A list of contents that is cut at an item comes from a list that is cut at an item. -/
theorem exists_of_map_content {xs : List Json} {l r : List Content} {c : Content}
    (h : xs.map content = l ++ c :: r) :
    ∃ (front : List Json) (v : Json) (back : List Json), xs = front ++ v :: back ∧
      front.map content = l ∧ v.content = c ∧ back.map content = r := by
  obtain ⟨front, rest, rfl, hfront, hrest⟩ := List.map_eq_append_iff.1 h
  obtain ⟨v, back, rfl, hv, hback⟩ := List.map_eq_cons_iff.1 hrest
  exact ⟨front, v, back, rfl, hfront, hv, hback⟩

/-- A step on the way to a change leads somewhere, and what is put in its place there completes the
change. -/
theorem step_inside {R : Change} (hR : Stays R) {s : PathStep} {p : Place} {v : Json}
    (hv : v.UniqueKeys) {d : Content} (hin : Inside R (s :: p) (some v.content) (some d)) :
    ∃ w e, v.step s.token = .ok w ∧ w.UniqueKeys ∧ Inside R p (some w.content) (some e) ∧
      ∀ w', w'.UniqueKeys → w'.content = e →
        (v.withStep s.token w').UniqueKeys ∧ (v.withStep s.token w').content = d := by
  cases s with
  | key k =>
      obtain ⟨f, g, hf, hg, hin, hrest⟩ := hin
      obtain ⟨ms, rfl, hms⟩ := exists_of_content_obj (Option.some.inj hf)
      -- the change finds a value and leaves one, so that the step has something to lead to
      obtain ⟨hsome, hsome'⟩ := hin.isSome_of_stays fun _ => hR
      obtain ⟨e, he⟩ := Option.isSome_iff_exists.1 hsome'
      rw [← hms k, Option.isSome_map] at hsome
      obtain ⟨w, hw⟩ := Option.isSome_iff_exists.1 hsome
      rw [← hms k, hw, Option.map_some, he] at hin
      refine ⟨w, e, step_key hw, hv.get? hw, hin, ?_⟩
      rintro w' hw' rfl
      rw [Option.some.inj hg]
      exact ⟨hv.put k hw', content_put hms he hrest⟩
  | index i =>
      obtain ⟨l, m, m', r, hc, hd, hlen, hin⟩ := hin
      obtain ⟨hsome, hsome'⟩ := hin.isSome_of_stays fun _ => hR
      obtain ⟨c, rfl⟩ := Option.isSome_iff_exists.1 hsome
      obtain ⟨e, rfl⟩ := Option.isSome_iff_exists.1 hsome'
      obtain ⟨xs, rfl, hxs⟩ := exists_of_content_arr (Option.some.inj hc)
      have hmap : xs.map content = l ++ c :: r := by simpa using hxs
      obtain ⟨front, w, back, rfl, rfl, rfl, rfl⟩ := exists_of_map_content hmap
      rw [List.length_map] at hlen
      subst hlen
      have hget : (front ++ w :: back)[front.length]? = some w := by simp
      refine ⟨w, e, step_index hget, hv.getElem? hget, hin, ?_⟩
      rintro w' hw' rfl
      have hset : (Json.arr (front ++ w :: back)).withStep (natText front.length) w' =
          .arr (front ++ w' :: back) := by simp [withStep]
      rw [PathStep.token, hset, Option.some.inj hd]
      rw [uniqueKeys_arr, List.forall_mem_append, List.forall_mem_cons] at hv ⊢
      exact ⟨⟨hv.1, hw', hv.2.2⟩, by simp⟩

/-- An edit of a container is carried to the document around it. -/
theorem editAt_inside {ε : Type} (fault : StepFault → ε) {edit : Json → Except ε Json}
    {R : Change} (hedit : Realizes edit R) (hR : Stays R) (p : Place) :
    Realizes (editAt fault edit (p.map PathStep.token)) (Inside R p) := by
  induction p with
  | nil => exact hedit
  | cons s p ih =>
      intro v hv d hin
      obtain ⟨w, e, hstep, hw, hin, hback⟩ := step_inside hR hv hin
      obtain ⟨w', hedited, huniq, hcontent⟩ := ih w hw e hin
      refine ⟨v.withStep s.token w', ?_, hback w' huniq hcontent⟩
      simp only [List.map_cons, editAt, hstep, hedited]

/-- The way to a change leads to a value at which the change is made. -/
theorem walkTokens_inside {R : Change} (hR : Stays R) (p : Place) {v : Json} (hv : v.UniqueKeys)
    {d : Content} (hin : Inside R p (some v.content) (some d)) :
    ∃ w e, v.walkTokens (p.map PathStep.token) = .ok w ∧ w.UniqueKeys ∧
      R (some w.content) (some e) := by
  induction p generalizing v d with
  | nil => exact ⟨v, d, rfl, hv, hin⟩
  | cons s p ih =>
      obtain ⟨w, e, hstep, hw, hin, -⟩ := step_inside hR hv hin
      obtain ⟨w', e', hwalk, hrest⟩ := ih hw hin
      refine ⟨w', e', ?_, hrest⟩
      simp only [List.map_cons, walkTokens, hstep, hwalk]

/-! ### Edits of a container -/

theorem realizes_insertAt {v : Json} (hv : v.UniqueKeys) (s : PathStep) :
    Realizes (insertAt v s.token) (Inside (Enters v.content) [s]) := by
  intro w hw d hin
  cases s with
  | key k =>
      obtain ⟨f, g, hf, hg, ⟨hnone, hsome⟩, hrest⟩ := hin
      obtain ⟨ms, rfl, hms⟩ := exists_of_content_obj (Option.some.inj hf)
      refine ⟨_, rfl, hw.put k hv, ?_⟩
      rw [Option.some.inj hg]
      exact content_put hms hsome hrest
  | index i =>
      obtain ⟨l, m, m', r, hc, hd, hlen, rfl, rfl⟩ := hin
      obtain ⟨xs, rfl, hxs⟩ := exists_of_content_arr (Option.some.inj hc)
      have hmap : xs.map content = l ++ r := by simpa using hxs
      obtain ⟨front, back, rfl, rfl, rfl⟩ := List.map_eq_append_iff.1 hmap
      rw [List.length_map] at hlen
      subst hlen
      refine ⟨.arr (front ++ v :: back), ?_, ?_, ?_⟩
      · simp [insertAt, PathStep.token, natText_ne_dash, insertIdx_front]
      · rw [uniqueKeys_arr, List.forall_mem_append] at hw ⊢
        exact ⟨hw.1, List.forall_mem_cons.2 ⟨hv, hw.2⟩⟩
      · rw [content_arr, Option.some.inj hd]
        simp

/-- An item that goes stands between those that stay. -/
theorem exists_of_leaves_index {v d : Content} {i : ℕ} {w : Json}
    (hin : Inside (Leaves v) [.index i] (some w.content) (some d)) :
    ∃ (front : List Json) (u : Json) (back : List Json), w = .arr (front ++ u :: back) ∧
      front.length = i ∧ u.content = v ∧ d = (Json.arr (front ++ back)).content := by
  obtain ⟨l, m, m', r, hc, hd, hlen, rfl, rfl⟩ := hin
  obtain ⟨xs, rfl, hxs⟩ := exists_of_content_arr (Option.some.inj hc)
  obtain ⟨front, u, back, rfl, rfl, rfl, rfl⟩ :=
    exists_of_map_content (c := v) (r := r) (by simpa using hxs)
  refine ⟨front, u, back, rfl, by simpa using hlen, rfl, ?_⟩
  rw [content_arr, Option.some.inj hd]
  simp

theorem realizes_removeAt {v : Content} (s : PathStep) :
    Realizes (removeAt s.token) (Inside (Leaves v) [s]) := by
  intro w hw d hin
  cases s with
  | key k =>
      obtain ⟨f, g, hf, hg, ⟨hsome, hnone⟩, hrest⟩ := hin
      obtain ⟨ms, rfl, hms⟩ := exists_of_content_obj (Option.some.inj hf)
      have hhas : Members.has k ms = true := by
        rw [Members.has, ← Option.isSome_map (f := content), hms k, hsome]
        rfl
      refine ⟨_, if_pos hhas, hw.erase k, ?_⟩
      rw [Option.some.inj hg]
      exact content_erase (uniqueKeys_obj.1 hw).1 hms hnone hrest
  | index i =>
      obtain ⟨front, u, back, rfl, rfl, -, rfl⟩ := exists_of_leaves_index hin
      refine ⟨.arr (front ++ back), ?_, ?_, rfl⟩
      · simp [removeAt, PathStep.token, natText_ne_dash, List.eraseIdx_append_of_length_le]
      · rw [uniqueKeys_arr, List.forall_mem_append, List.forall_mem_cons] at hw
        rw [uniqueKeys_arr, List.forall_mem_append]
        exact ⟨hw.1, hw.2.2⟩

theorem takeAt_inside {v c : Content} (s : PathStep) {w : Json} (hw : w.UniqueKeys)
    (hin : Inside (Leaves v) [s] (some w.content) (some c)) :
    ∃ u, w.takeAt s.token = .ok u ∧ u.UniqueKeys ∧ u.content = v := by
  cases s with
  | key k =>
      obtain ⟨f, g, hf, hg, ⟨hsome, hnone⟩, hrest⟩ := hin
      obtain ⟨ms, rfl, hms⟩ := exists_of_content_obj (Option.some.inj hf)
      rw [← hms k] at hsome
      obtain ⟨u, hu, rfl⟩ := Option.map_eq_some_iff.1 hsome
      exact ⟨u, by simp only [PathStep.token, takeAt, hu], hw.get? hu, rfl⟩
  | index i =>
      obtain ⟨front, u, back, rfl, rfl, rfl, -⟩ := exists_of_leaves_index hin
      refine ⟨u, ?_, hw.getElem? (i := front.length) (by simp), rfl⟩
      simp [takeAt, PathStep.token, natText_ne_dash]

theorem realizes_replaceAt {v : Json} (hv : v.UniqueKeys) (s : PathStep) :
    Realizes (replaceAt v s.token) (Inside (Becomes v.content) [s]) := by
  intro w hw d hin
  cases s with
  | key k =>
      obtain ⟨f, g, hf, hg, ⟨hsome, hsome'⟩, hrest⟩ := hin
      obtain ⟨ms, rfl, hms⟩ := exists_of_content_obj (Option.some.inj hf)
      have hhas : Members.has k ms = true := by
        rw [Members.has, ← Option.isSome_map (f := content), hms k, hsome]
      refine ⟨_, if_pos hhas, hw.put k hv, ?_⟩
      rw [Option.some.inj hg]
      exact content_put hms hsome' hrest
  | index i =>
      obtain ⟨l, m, m', r, hc, hd, hlen, hsome, rfl⟩ := hin
      obtain ⟨c, rfl⟩ := Option.isSome_iff_exists.1 hsome
      obtain ⟨xs, rfl, hxs⟩ := exists_of_content_arr (Option.some.inj hc)
      obtain ⟨front, u, back, rfl, rfl, rfl, rfl⟩ :=
        exists_of_map_content (c := c) (r := r) (by simpa using hxs)
      rw [List.length_map] at hlen
      subst hlen
      refine ⟨.arr (front ++ v :: back), ?_, ?_, ?_⟩
      · simp [replaceAt, PathStep.token, natText_ne_dash]
      · rw [uniqueKeys_arr, List.forall_mem_append, List.forall_mem_cons] at hw ⊢
        exact ⟨hw.1, hv, hw.2.2⟩
      · rw [content_arr, Option.some.inj hd]
        simp

/-! ### Edits at a place -/

theorem lastToken?_concat (p : Place) (s : PathStep) :
    lastToken? ((p ++ [s]).map PathStep.token) = some (p.map PathStep.token, s.token) := by
  simp [lastToken?]

/-- A change at a single step leaves what it finds. -/
theorem stays_inside_singleton (R : Change) (s : PathStep) : Stays (Inside R [s]) :=
  fun _ _ h => h.isSome (by simp)

theorem realizes_insert {v : Json} (hv : v.UniqueKeys) (p : Place) :
    Realizes (fun doc => doc.insert (p.map PathStep.token) v) (Inside (Enters v.content) p) := by
  intro doc hdoc d hin
  rcases List.eq_nil_or_concat' p with rfl | ⟨q, s, rfl⟩
  · exact absurd hin.1 (by simp)
  · simp only [insert, lastToken?_concat]
    exact editAt_inside _ (realizes_insertAt hv s) (stays_inside_singleton _ s) q doc hdoc d
      (inside_append.1 hin)

theorem realizes_remove (v : Content) (p : Place) :
    Realizes (fun doc => doc.remove (p.map PathStep.token)) (Inside (Leaves v) p) := by
  intro doc hdoc d hin
  rcases List.eq_nil_or_concat' p with rfl | ⟨q, s, rfl⟩
  · exact absurd hin.2 (by simp)
  · simp only [remove, lastToken?_concat]
    exact editAt_inside _ (realizes_removeAt s) (stays_inside_singleton _ s) q doc hdoc d
      (inside_append.1 hin)

/-- A value that can leave a place can be taken from it. -/
theorem take_inside {v d : Content} (p : Place) {doc : Json} (hdoc : doc.UniqueKeys)
    (hin : Inside (Leaves v) p (some doc.content) (some d)) :
    ∃ w, doc.take (p.map PathStep.token) = .ok w ∧ w.UniqueKeys ∧ w.content = v := by
  rcases List.eq_nil_or_concat' p with rfl | ⟨q, s, rfl⟩
  · exact absurd hin.2 (by simp)
  · obtain ⟨w, e, hwalk, hw, hin⟩ :=
      walkTokens_inside (stays_inside_singleton _ s) q hdoc (inside_append.1 hin)
    obtain ⟨u, htake, hu⟩ := takeAt_inside s hw hin
    refine ⟨u, ?_, hu⟩
    simp only [take, lastToken?_concat, hwalk, htake]

theorem realizes_replace {v : Json} (hv : v.UniqueKeys) (p : Place) :
    Realizes (fun doc => doc.replace (p.map PathStep.token) v) (Inside (Becomes v.content) p) := by
  intro doc hdoc d hin
  rcases List.eq_nil_or_concat' p with rfl | ⟨q, s, rfl⟩
  · exact ⟨v, rfl, hv, (Option.some.inj hin.2).symm⟩
  · simp only [replace, lastToken?_concat]
    exact editAt_inside _ (realizes_replaceAt hv s) (stays_inside_singleton _ s) q doc hdoc d
      (inside_append.1 hin)

/-- A value is moved from one place to another, neither of which leads through the other. -/
theorem realizes_relocate {s t : Place}
    (hst : ¬ s.map PathStep.token <+: t.map PathStep.token) (v : Content) :
    Realizes (fun doc => doc.relocate (s.map PathStep.token) (t.map PathStep.token))
      (fun a b => ∃ m, Inside (Leaves v) s a m ∧ Inside (Enters v) t m b) := by
  rintro doc hdoc d ⟨m, hout, hin⟩
  have hs : s ≠ [] := by
    rintro rfl
    exact hst List.nil_prefix
  obtain ⟨c, rfl⟩ := Option.isSome_iff_exists.1 (hout.isSome hs).2
  obtain ⟨w, htake, hw, rfl⟩ := take_inside s hdoc hout
  obtain ⟨doc', hremove, hdoc', rfl⟩ := realizes_remove w.content s doc hdoc c hout
  obtain ⟨doc'', hinsert, hdone⟩ := realizes_insert hw t doc' hdoc' d hin
  refine ⟨doc'', ?_, hdone⟩
  have hne : s.map PathStep.token ≠ t.map PathStep.token := fun h => hst (h ▸ List.prefix_rfl)
  have hnot : ¬ (s.map PathStep.token).isPrefixOf (t.map PathStep.token) = true := by
    rwa [List.isPrefixOf_iff_prefix]
  change doc.relocate _ _ = _
  rw [relocate, if_neg (by simp only [Bool.and_eq_true]; exact fun h => hnot h.1)]
  simp only [htake, if_neg hne, hremove, hinsert]

end Json

/-! ### Operations -/

@[simp] theorem pointerTokens_pointerTo (p : Place) :
    pointerTokens (pointerTo p) = .ok (p.map Json.PathStep.token) := by
  rw [pointerTokens, pointerTo, Json.Pointer.read_text]

/-- The document that describes an operation is read as the operation. -/
@[simp] theorem Operation.read_toJson (o : Operation) : Operation.read o.toJson = .ok o := by
  cases o <;> rfl

/-- An operation does to a document what its edit does to the content. -/
theorem Edit.Turns.apply {x y : Json} {e : Edit} (he : e.Fits (Slot x y)) {doc : Json}
    (hdoc : doc.UniqueKeys) {d : Content} (h : e.Turns (some doc.content) (some d)) :
    ∃ doc', applyPatch doc e.toOperation.toJson = .ok doc' ∧ doc'.UniqueKeys ∧
      doc'.content = d := by
  rw [applyPatch, Operation.read_toJson]
  cases e with
  | add p v =>
      simp only [Edit.toOperation, Operation.apply, Operation.path, pointerTokens_pointerTo]
      exact Json.realizes_insert he.2 p doc hdoc d h
  | remove p v =>
      simp only [Edit.toOperation, Operation.apply, Operation.path, pointerTokens_pointerTo]
      exact Json.realizes_remove v.content p doc hdoc d h
  | replace p v =>
      simp only [Edit.toOperation, Operation.apply, Operation.path, pointerTokens_pointerTo]
      exact Json.realizes_replace he.2 p doc hdoc d h
  | move s t =>
      simp only [Edit.toOperation, Operation.apply, Operation.path, pointerTokens_pointerTo]
      obtain ⟨v, hmove⟩ := h
      have hapart : Apart (Leaves v) (Enters v) s t :=
        he.1.apart he.2 (by simp) (by simp) (by simp)
      exact Json.realizes_relocate hapart.not_prefix v doc hdoc d hmove

/-- What an edit makes of a document is a document. -/
theorem Edit.Turns.isSome {x y : Json} {e : Edit} (he : e.Fits (Slot x y))
    {a b : Option Content} (h : e.Turns a b) : b.isSome := by
  cases e with
  | add p v => exact (Inside.isSome h (he.1.ne_nil (by simp))).2
  | remove p v => exact (Inside.isSome h (Slot.ne_nil he (by simp))).2
  | replace p v => exact (Inside.isSome_of_stays h fun _ => stays_becomes _).2
  | move s t =>
      obtain ⟨v, m, hout, hin⟩ := h
      exact (hin.isSome (he.2.ne_nil (by simp))).2

/-- Operations one after the other do to a document what their edits do to the content. -/
theorem Steps.apply {x y : Json} {es : List Edit} (hes : ∀ e ∈ es, e.Fits (Slot x y)) {doc : Json}
    (hdoc : doc.UniqueKeys) {d : Content} (h : Steps es (some doc.content) (some d)) :
    ∃ doc', (es.map fun e => e.toOperation.toJson).foldlM applyPatch doc = .ok doc' ∧
      doc'.UniqueKeys ∧ doc'.content = d := by
  induction es generalizing doc with
  | nil => exact ⟨doc, rfl, hdoc, Option.some.inj h⟩
  | cons e es ih =>
      rw [List.forall_mem_cons] at hes
      obtain ⟨m, hturn, hsteps⟩ := h
      obtain ⟨c, rfl⟩ := Option.isSome_iff_exists.1 (hturn.isSome hes.1)
      obtain ⟨doc', happly, hdoc', rfl⟩ := hturn.apply hes.1 hdoc
      obtain ⟨doc'', hfold, hdone⟩ := ih hes.2 hdoc' hsteps
      refine ⟨doc'', ?_, hdone⟩
      rw [List.map_cons, List.foldlM_cons, happly]
      exact hfold

/-! ### Undo patches -/

theorem fits_slots {x y : Json} (hx : x.UniqueKeys) (hy : y.UniqueKeys) :
    ∀ e ∈ edits [] x y, e.Fits (Slot x y) := by
  intro e he
  refine (fits_edits [] x y hx hy e he).mono ?_
  rintro r p ⟨q, rfl, hq⟩
  exact hq

theorem undoPatches_eq (mutated earlier : Json) : undoPatches mutated earlier =
    (withMoves (edits [] mutated earlier)).map fun e => e.toOperation.toJson := by
  rw [undoPatches, undoOperations, List.map_map]
  rfl

/-- The undo patches apply one after the other and lead to the earlier document. -/
theorem exists_foldlM_undoPatches {mutated earlier : Json} (hm : mutated.UniqueKeys)
    (he : earlier.UniqueKeys) :
    ∃ doc, (undoPatches mutated earlier).foldlM applyPatch mutated = .ok doc ∧
      doc.alike earlier = true := by
  obtain ⟨hfits, hmoves⟩ := steps_withMoves (fits_slots hm he)
  have hplain : Steps (edits [] mutated earlier) (some mutated.content) (some earlier.content) :=
    steps_edits [] mutated earlier hm he ⟨rfl, rfl⟩
  obtain ⟨doc, hfold, hdoc, hcontent⟩ := Steps.apply hfits hm (hmoves _ _ hplain)
  rw [undoPatches_eq]
  exact ⟨doc, hfold, (Json.alike_iff hdoc he).2 hcontent⟩

/-- There is nothing to undo exactly where the documents are alike. -/
theorem undoPatches_eq_nil_iff {mutated earlier : Json} (hm : mutated.UniqueKeys)
    (he : earlier.UniqueKeys) :
    undoPatches mutated earlier = [] ↔ mutated.alike earlier = true := by
  constructor
  · intro hnil
    obtain ⟨doc, hfold, halike⟩ := exists_foldlM_undoPatches hm he
    rw [hnil] at hfold
    obtain rfl : mutated = doc := by simpa [pure, Except.pure] using hfold
    exact halike
  · intro halike
    rw [undoPatches_eq, edits_eq_nil [] mutated earlier hm he ((Json.alike_iff hm he).1 halike)]
    rfl

/-- **Undo patches apply and lead to the earlier document.**  From the mutated document every patch
succeeds in its turn, the last leaves a document that equals the earlier one up to the order of
members, and there is none exactly if the mutated document already does.  Documents that were read
have no key twice in an object. -/
theorem undo_correct (mutated earlier : Json) (hm : mutated.UniqueKeys) (he : earlier.UniqueKeys) :
    (∃ doc, (undoPatches mutated earlier).foldlM applyPatch mutated = .ok doc ∧
      doc.alike earlier = true) ∧
    (undoPatches mutated earlier = [] ↔ mutated.alike earlier = true) :=
  ⟨exists_foldlM_undoPatches hm he, undoPatches_eq_nil_iff hm he⟩

/-- Two values are moved, one of them out of an array that shrinks from three items to one. -/
theorem undo_correct_moves :
    undoPatches (.obj [("tokens", .arr [.str "x", .str "y", .str "z"]), ("old", .int 2)])
        (.obj [("tokens", .arr [.str "z"]), ("new", .int 2), ("first", .str "x")]) =
      [(Operation.move "/old" "/new").toJson, (Operation.move "/tokens/0" "/first").toJson,
        (Operation.remove "/tokens/0").toJson] ∧
    ∃ doc, (undoPatches (.obj [("tokens", .arr [.str "x", .str "y", .str "z"]), ("old", .int 2)])
        (.obj [("tokens", .arr [.str "z"]), ("new", .int 2), ("first", .str "x")])).foldlM
          applyPatch (.obj [("tokens", .arr [.str "x", .str "y", .str "z"]), ("old", .int 2)]) =
        .ok doc ∧
      doc.alike (.obj [("tokens", .arr [.str "z"]), ("new", .int 2), ("first", .str "x")]) = true :=
  ⟨rfl, (undo_correct (.obj [("tokens", .arr [.str "x", .str "y", .str "z"]), ("old", .int 2)])
    (.obj [("tokens", .arr [.str "z"]), ("new", .int 2), ("first", .str "x")])
    (by simp [Json.UniqueKeys, Json.UniqueKeysItems, Json.UniqueKeysMembers])
    (by simp [Json.UniqueKeys, Json.UniqueKeysItems, Json.UniqueKeysMembers])).1⟩

end DesignRegistry
