/-
**Documents that differ in the order of keys.**

Two documents without repeated keys are alike when one is the other with the keys of its objects in another
order, at any depth.  `Json.Reordered` says so constructor by constructor, which makes it a principle of
induction for statements about two such documents.  The first of these is that equality by value, in
any reading of numbers, does not tell them apart: neither to the left of it nor to the right.

Main definitions:

* `Json.Reordered` — documents that differ in the order of keys only.

Main results:

* `Json.reordered_iff` — **these are the documents without repeated keys that are alike**;
* `Json.Reordered.equalBy_congr` — **equality by value does not see the order of keys**.
-/
import DesignRegistry.Proofs.Json.Content

set_option relaxedAutoImplicit false
set_option autoImplicit false

namespace DesignRegistry

namespace Json

/-- Documents without repeated keys that differ in the order of keys only. -/
inductive Reordered : Json → Json → Prop
  /-- A value that holds no others stays as it is. -/
  | scalar {v : Json} : v.items? = none → v.members? = none → Reordered v v
  | nil : Reordered (.arr []) (.arr [])
  | cons {x y : Json} {xs ys : List Json} : Reordered x y → Reordered (.arr xs) (.arr ys) →
      Reordered (.arr (x :: xs)) (.arr (y :: ys))
  /-- The same keys, none of them twice, lead to values that differ in this way. -/
  | obj {ms ns : Members} : (Members.keys ms).Nodup → (Members.keys ms).Perm (Members.keys ns) →
      (∀ key x y, Members.get? key ms = some x → Members.get? key ns = some y → Reordered x y) →
      Reordered (.obj ms) (.obj ns)

/-- Where no key stands twice, the members are what the keys lead to. -/
theorem Members.forall_mem_iff {ms : Members} (h : (keys ms).Nodup) {P : String × Json → Prop} :
    (∀ m ∈ ms, P m) ↔ ∀ key x, get? key ms = some x → P (key, x) := by
  constructor
  · exact fun hall key x hx => hall (key, x) (mem_of_get? hx)
  · exact fun hall m hm => hall m.1 m.2 (get?_of_mem h hm)

/-- A key of two objects with the same keys leads nowhere in both or to related values. -/
theorem Members.get?_cases {R : Json → Json → Prop} {ms ns : Members}
    (hperm : (keys ms).Perm (keys ns))
    (h : ∀ key x y, get? key ms = some x → get? key ns = some y → R x y) (key : String) :
    (get? key ms = none ∧ get? key ns = none) ∨
      ∃ x y, get? key ms = some x ∧ get? key ns = some y ∧ R x y := by
  cases hms : get? key ms with
  | none =>
      refine .inl ⟨rfl, ?_⟩
      rwa [get?_eq_none_iff, ← hperm.mem_iff, ← get?_eq_none_iff]
  | some x =>
      obtain ⟨y, hns⟩ : ∃ y, get? key ns = some y := by
        rw [← Option.isSome_iff_exists, ← mem_keys_iff, ← hperm.mem_iff, mem_keys_iff, hms]
        rfl
      exact .inr ⟨x, y, rfl, hns, h key x y hms hns⟩

/-- Members with the same keys, which lead to values that differ in the order of keys only. -/
structure ReorderedMembers (ms ns : Members) : Prop where
  keys : (Members.keys ms).Perm (Members.keys ns)
  get? : ∀ key, (Members.get? key ms = none ∧ Members.get? key ns = none) ∨
    ∃ x y, Members.get? key ms = some x ∧ Members.get? key ns = some y ∧ Reordered x y

namespace Reordered

variable {v w : Json} {xs ys : List Json} {ms ns : Members}

/-! ### Arrays and objects -/

theorem arr (h : List.Forall₂ Reordered xs ys) : Reordered (.arr xs) (.arr ys) := by
  induction h with
  | nil => exact .nil
  | cons hx _ ih => exact .cons hx ih

theorem items (h : Reordered (.arr xs) (.arr ys)) : List.Forall₂ Reordered xs ys := by
  induction xs generalizing ys with
  | nil =>
      cases h with
      | scalar hitems => exact absurd hitems (by simp [items?])
      | nil => exact .nil
  | cons x xs ih =>
      cases h with
      | scalar hitems => exact absurd hitems (by simp [items?])
      | cons hx hxs => exact .cons hx (ih hxs)

theorem exists_items (h : Reordered (.arr xs) w) :
    ∃ ys, w = .arr ys ∧ List.Forall₂ Reordered xs ys := by
  have hw : ∃ ys, w = .arr ys := by
    cases h with
    | scalar hitems => exact absurd hitems (by simp [items?])
    | nil => exact ⟨_, rfl⟩
    | cons => exact ⟨_, rfl⟩
  obtain ⟨ys, rfl⟩ := hw
  exact ⟨ys, rfl, h.items⟩

theorem exists_members (h : Reordered (.obj ms) w) : ∃ ns, w = .obj ns ∧ ReorderedMembers ms ns := by
  cases h with
  | scalar _ hmembers => exact absurd hmembers (by simp [members?])
  | obj _ hperm h => exact ⟨_, rfl, hperm, Members.get?_cases hperm h⟩

theorem kind_eq (h : Reordered v w) : v.kind = w.kind := by
  cases h <;> rfl

/-! ### Documents that are alike -/

theorem content_eq (h : Reordered v w) : v.content = w.content := by
  induction h with
  | scalar => rfl
  | nil => rfl
  | cons _ _ hx hxs =>
      rw [content_arr, content_arr, Content.arr.injEq] at hxs ⊢
      rw [List.map_cons, List.map_cons, hx, hxs]
  | obj _ hperm _ ih =>
      rw [content_obj, content_obj, Content.obj.injEq]
      funext key
      rcases Members.get?_cases hperm ih key with ⟨hms, hns⟩ | ⟨x, y, hms, hns, hxy⟩
      · rw [hms, hns]
      · rw [hms, hns, Option.map_some, Option.map_some, hxy]

/-- No key is repeated on either side. -/
theorem uniqueKeys (h : Reordered v w) : v.UniqueKeys ∧ w.UniqueKeys := by
  induction h with
  | @scalar v hitems hmembers =>
      cases v with
      | arr xs => exact absurd hitems (by simp [items?])
      | obj ms => exact absurd hmembers (by simp [members?])
      | null | bool _ | int _ | float _ | str _ => exact ⟨trivial, trivial⟩
  | nil => exact ⟨trivial, trivial⟩
  | cons _ _ hx hxs => exact ⟨⟨hx.1, hxs.1⟩, ⟨hx.2, hxs.2⟩⟩
  | @obj ms ns hnodup hperm _ ih =>
      have hnodup' := hperm.nodup_iff.1 hnodup
      have hboth := Members.get?_cases hperm ih
      rw [uniqueKeys_obj, uniqueKeys_obj, Members.forall_mem_iff hnodup,
        Members.forall_mem_iff hnodup']
      refine ⟨⟨hnodup, fun key x hx => ?_⟩, ⟨hnodup', fun key y hy => ?_⟩⟩
      · rcases hboth key with ⟨hms, -⟩ | ⟨x', y, hms, -, hxy⟩
        · exact absurd (hms.symm.trans hx) (by simp)
        · obtain rfl := Option.some.inj (hms.symm.trans hx)
          exact hxy.1
      · rcases hboth key with ⟨-, hns⟩ | ⟨x, y', -, hns, hxy⟩
        · exact absurd (hns.symm.trans hy) (by simp)
        · obtain rfl := Option.some.inj (hns.symm.trans hy)
          exact hxy.2

mutual

/-- Documents with one content differ in the order of keys only. -/
theorem of_content : ∀ v w : Json, v.UniqueKeys → w.UniqueKeys → v.content = w.content →
    Reordered v w
  | .arr xs, w, hv, hw, h => by
      obtain ⟨ys, rfl, hys⟩ := exists_of_content_arr (h.symm.trans (content_arr xs))
      exact arr (of_contents xs ys (uniqueKeys_arr.1 hv) (uniqueKeys_arr.1 hw) hys.symm)
  | .obj ms, w, hv, hw, h => by
      obtain ⟨ns, rfl, hns⟩ := exists_of_content_obj (h.symm.trans (content_obj ms))
      rw [uniqueKeys_obj] at hv hw
      refine .obj hv.1 (keys_perm_of_content_obj hv.1 hw.1 h) fun key x y hx hy => ?_
      have hxy := hns key
      rw [hx, hy, Option.map_some, Option.map_some, Option.some.injEq] at hxy
      exact of_contentMember ms key x y hx (hv.2 _ (Members.mem_of_get? hx))
        (hw.2 _ (Members.mem_of_get? hy)) hxy.symm
  | .null, w, _, _, h | .bool _, w, _, _, h | .int _, w, _, _, h | .float _, w, _, _, h
  | .str _, w, _, _, h => by
      obtain rfl := eq_of_content_scalar h.symm
      exact .scalar rfl rfl
termination_by structural v => v

theorem of_contents : ∀ xs ys : List Json, (∀ x ∈ xs, x.UniqueKeys) → (∀ y ∈ ys, y.UniqueKeys) →
    xs.map content = ys.map content → List.Forall₂ Reordered xs ys
  | [], ys, _, _, h => by
      rw [List.map_nil, eq_comm, List.map_eq_nil_iff] at h
      subst h
      exact .nil
  | x :: xs, [], _, _, h => absurd h (by simp)
  | x :: xs, y :: ys, hxs, hys, h => by
      rw [List.forall_mem_cons] at hxs hys
      rw [List.map_cons, List.map_cons, List.cons.injEq] at h
      exact .cons (of_content x y hxs.1 hys.1 h.1) (of_contents xs ys hxs.2 hys.2 h.2)
termination_by structural xs => xs

theorem of_contentMember : ∀ (ms : Members) (key : String) (x y : Json),
    Members.get? key ms = some x → x.UniqueKeys → y.UniqueKeys → x.content = y.content →
    Reordered x y
  | [], _, _, _, hx, _, _, _ => absurd hx (by simp)
  | (k, v) :: ms, key, x, y, hx, hxu, hyu, h => by
      rw [Members.get?_cons] at hx
      split at hx
      · obtain rfl := Option.some.inj hx
        exact of_content v y hxu hyu h
      · exact of_contentMember ms key x y hx hxu hyu h
termination_by structural ms => ms

end

end Reordered

/-- **Documents that differ in the order of keys only are those without repeated keys that are alike.** -/
theorem reordered_iff {v w : Json} :
    Reordered v w ↔ v.UniqueKeys ∧ w.UniqueKeys ∧ v.alike w = true := by
  constructor
  · intro h
    have hunique := h.uniqueKeys
    exact ⟨hunique.1, hunique.2, (alike_iff hunique.1 hunique.2).2 h.content_eq⟩
  · rintro ⟨hv, hw, h⟩
    exact Reordered.of_content v w hv hw ((alike_iff hv hw).1 h)

/-! ### Equality by value -/

theorem equalMembersBy_iff {reading : NumberReading} {ms us : Members} :
    equalMembersBy reading ms us = true ↔
      ∀ m ∈ ms, ∃ u, Members.get? m.1 us = some u ∧ equalBy reading m.2 u = true := by
  induction ms with
  | nil => simp [equalMembersBy]
  | cons m ms ih =>
      obtain ⟨k, v⟩ := m
      rw [equalMembersBy, Bool.and_eq_true, ih, List.forall_mem_cons]
      refine and_congr_left fun _ => ?_
      cases Members.get? k us <;> simp

/-- **Equality by value does not see the order of keys**, on either side. -/
theorem Reordered.equalBy_congr (reading : NumberReading) {v w : Json} (h : Reordered v w) :
    ∀ u, equalBy reading v u = equalBy reading w u ∧ equalBy reading u v = equalBy reading u w := by
  induction h with
  | scalar => exact fun u => ⟨rfl, rfl⟩
  | nil => exact fun u => ⟨rfl, rfl⟩
  | cons _ _ hx hxs =>
      intro u
      cases u with
      | arr us =>
          cases us with
          | nil => simp [equalBy, equalItemsBy]
          | cons u us =>
              have hrest := hxs (.arr us)
              rw [equalBy, equalBy, equalBy, equalBy] at hrest
              simp only [equalBy, equalItemsBy, (hx u).1, (hx u).2, hrest.1, hrest.2, and_self]
      | null | bool _ | int _ | float _ | str _ | obj _ => simp [equalBy, numericEqual, numeric?]
  | @obj ms ns hnodup hperm _ ih =>
      intro u
      cases u with
      | obj us =>
          have hlength : ms.length = ns.length := by simpa [Members.keys] using hperm.length_eq
          have hboth := Members.get?_cases hperm ih
          have hleft : equalMembersBy reading ms us = equalMembersBy reading ns us := by
            rw [Bool.eq_iff_iff, equalMembersBy_iff, equalMembersBy_iff,
              Members.forall_mem_iff hnodup, Members.forall_mem_iff (hperm.nodup_iff.1 hnodup)]
            refine forall_congr' fun key => ?_
            rcases hboth key with ⟨hms, hns⟩ | ⟨x, y, hms, hns, hxy⟩
            · simp [hms, hns]
            · simp [hms, hns, hxy]
          have hright : equalMembersBy reading us ms = equalMembersBy reading us ns := by
            rw [Bool.eq_iff_iff, equalMembersBy_iff, equalMembersBy_iff]
            refine forall₂_congr fun m _ => ?_
            rcases hboth m.1 with ⟨hms, hns⟩ | ⟨x, y, hms, hns, hxy⟩
            · simp [hms, hns]
            · simp [hms, hns, hxy]
          simp only [equalBy, hlength, hleft, hright, and_self]
      | null | bool _ | int _ | float _ | str _ | arr _ => simp [equalBy, numericEqual, numeric?]

theorem Reordered.memberOf_eq {x y : Json} (h : Reordered x y) (us : List Json) :
    x.memberOf us = y.memberOf us := by
  have hequal : (fun u => equivalent u x) = fun u => equivalent u y :=
    funext fun u => (h.equalBy_congr .loose u).2
  rw [memberOf, memberOf, hequal]

theorem memberOf_eq_of_forall₂ {us vs : List Json} (h : List.Forall₂ Reordered us vs) (x : Json) :
    x.memberOf us = x.memberOf vs := by
  induction h with
  | nil => rfl
  | cons hu _ ih =>
      rw [memberOf, memberOf] at ih ⊢
      rw [List.any_cons, List.any_cons, ih, equivalent, equivalent, (hu.equalBy_congr .loose x).1]

end Json

end DesignRegistry
