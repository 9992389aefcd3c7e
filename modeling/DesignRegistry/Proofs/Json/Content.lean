/-
**What a document holds.**

The order of an object's members is kept by a document and ignored by whoever asks for its values.
`Json.content` forgets it: an array becomes the list of what its items hold, an object the function
that sends a key to what its value holds.  Two documents that differ in the order of members only
have one content, so that statements about documents up to that order are equations of contents.

An object of the library is a list of members, and nothing in its type keeps a key from standing in
it twice.  No document that is read or written does so; `Json.UniqueKeys` says it.

Main definitions:

* `Json.UniqueKeys` — no object inside a document has a key twice;
* `Content`, `Json.content` — what documents hold, and what a document holds.

Main results:

* `Json.same_iff` — identity of documents is equality;
* `Json.contentMembers_eq` — an object holds what its keys lead to;
* `Json.alike_iff` — **equality up to the order of members is equality of contents**.
-/
import DesignRegistry.Json.Basic
import DesignRegistry.Proofs.Prelude
import Mathlib.Data.List.Perm.Subperm
import Mathlib.Logic.Function.Basic
import Mathlib.Tactic.Common

set_option relaxedAutoImplicit false
set_option autoImplicit false

namespace DesignRegistry

/-! ### Members of an object -/

namespace Json.Members

theorem get?_cons (key k : String) (v : Json) (ms : Members) :
    get? key ((k, v) :: ms) = if k = key then some v else get? key ms := rfl

@[simp] theorem keys_nil : keys [] = [] := rfl

@[simp] theorem keys_cons (m : String × Json) (ms : Members) :
    keys (m :: ms) = m.1 :: keys ms := rfl

/-- A key leads somewhere exactly when it is one of the keys. -/
theorem mem_keys_iff {key : String} {ms : Members} : key ∈ keys ms ↔ (get? key ms).isSome := by
  induction ms with
  | nil => simp
  | cons m ms ih =>
      obtain ⟨k, v⟩ := m
      by_cases h : k = key
      · simp [get?_cons, h]
      · have h' : ¬ key = k := fun e => h e.symm
        simp [get?_cons, h, h', ih]

theorem has_iff {key : String} {ms : Members} : has key ms = true ↔ key ∈ keys ms :=
  mem_keys_iff.symm

theorem get?_eq_none_iff {key : String} {ms : Members} : get? key ms = none ↔ key ∉ keys ms := by
  rw [mem_keys_iff, Option.not_isSome_iff_eq_none]

/-- A key leads to a member. -/
theorem mem_of_get? {key : String} {v : Json} {ms : Members} (h : get? key ms = some v) :
    (key, v) ∈ ms := by
  induction ms with
  | nil => simp at h
  | cons m ms ih =>
      obtain ⟨k, w⟩ := m
      rw [get?_cons] at h
      split at h
      · next hk =>
          obtain rfl := Option.some.inj h
          exact hk ▸ List.mem_cons_self ..
      · exact List.mem_cons_of_mem _ (ih h)

/-- Where no key stands twice, every member is what its key leads to. -/
theorem get?_of_mem {key : String} {v : Json} {ms : Members} (hu : (keys ms).Nodup)
    (h : (key, v) ∈ ms) : get? key ms = some v := by
  induction ms with
  | nil => simp at h
  | cons m ms ih =>
      obtain ⟨k, w⟩ := m
      rw [keys_cons, List.nodup_cons] at hu
      rcases List.mem_cons.1 h with h | h
      · obtain ⟨rfl, rfl⟩ := Prod.mk.inj h
        rw [get?_cons, if_pos rfl]
      · have hk : k ≠ key := by
          rintro rfl
          exact hu.1 (List.mem_map.2 ⟨_, h, rfl⟩)
        rw [get?_cons, if_neg hk]
        exact ih hu.2 h

theorem get?_put (key other : String) (v : Json) (ms : Members) :
    get? other (put key v ms) = if other = key then some v else get? other ms := by
  split
  · next h => rw [h, get?_put_self]
  · next h => rw [get?_put_of_ne h]

theorem mem_put {key : String} {v : Json} {ms : Members} {m : String × Json}
    (h : m ∈ put key v ms) : m = (key, v) ∨ m ∈ ms := by
  induction ms with
  | nil => exact .inl (List.mem_singleton.1 h)
  | cons n ms ih =>
      obtain ⟨k, w⟩ := n
      rw [put] at h
      split at h
      · exact (List.mem_cons.1 h).imp_right (List.mem_cons_of_mem _)
      · rcases List.mem_cons.1 h with rfl | h
        · exact .inr List.mem_cons_self
        · exact (ih h).imp_right (List.mem_cons_of_mem _)

theorem mem_keys_put {key other : String} {v : Json} {ms : Members} :
    other ∈ keys (put key v ms) ↔ other = key ∨ other ∈ keys ms := by
  rw [mem_keys_iff, mem_keys_iff, get?_put]
  by_cases h : other = key <;> simp [h]

/-- A key that is there keeps its place. -/
theorem keys_put_of_mem {key : String} {ms : Members} (h : key ∈ keys ms) (v : Json) :
    keys (put key v ms) = keys ms := by
  induction ms with
  | nil => exact absurd h List.not_mem_nil
  | cons m ms ih =>
      obtain ⟨k, w⟩ := m
      rw [keys_cons] at h ⊢
      by_cases hk : k = key
      · rw [put, if_pos hk, keys_cons, hk]
      · rw [put, if_neg hk, keys_cons, ih ((List.mem_cons.1 h).resolve_left (Ne.symm hk))]

theorem nodup_keys_put {ms : Members} (h : (keys ms).Nodup) (key : String) (v : Json) :
    (keys (put key v ms)).Nodup := by
  induction ms with
  | nil => simp [put]
  | cons m ms ih =>
      obtain ⟨k, w⟩ := m
      rw [keys_cons, List.nodup_cons] at h
      rw [put]
      split
      · next hk => exact List.nodup_cons.2 ⟨hk ▸ h.1, h.2⟩
      · next hk =>
          have hnot : k ∉ keys (put key v ms) := by
            rw [mem_keys_put, not_or]
            exact ⟨hk, h.1⟩
          exact List.nodup_cons.2 ⟨hnot, ih h.2⟩

theorem erase_sublist (key : String) (ms : Members) : (erase key ms).Sublist ms := by
  induction ms with
  | nil => exact List.Sublist.refl _
  | cons m ms ih =>
      obtain ⟨k, v⟩ := m
      rw [erase]
      split
      · exact List.sublist_cons_self _ _
      · exact ih.cons_cons _

theorem nodup_keys_erase {ms : Members} (h : (keys ms).Nodup) (key : String) :
    (keys (erase key ms)).Nodup :=
  ((erase_sublist key ms).map Prod.fst).nodup h

/-- An erased key leads nowhere, the others where they led before. -/
theorem get?_erase {ms : Members} (h : (keys ms).Nodup) (key other : String) :
    get? other (erase key ms) = if other = key then none else get? other ms := by
  induction ms with
  | nil => simp [erase]
  | cons m ms ih =>
      obtain ⟨k, v⟩ := m
      rw [keys_cons, List.nodup_cons] at h
      rw [erase]
      split
      · next hk =>
          subst hk
          split
          · next hother => rw [hother, get?_eq_none_iff.2 h.1]
          · next hother => rw [get?_cons, if_neg (Ne.symm hother)]
      · next hk =>
          rw [get?_cons, get?_cons, ih h.2]
          by_cases hother : other = key
          · rw [if_pos hother, if_pos hother, if_neg (hother ▸ hk)]
          · rw [if_neg hother, if_neg hother]

end Json.Members

/-! ### Keys that stand once -/

namespace Json

mutual

/-- No object inside a document has a key twice. -/
def UniqueKeys : Json → Prop
  | .arr xs => UniqueKeysItems xs
  | .obj ms => (Members.keys ms).Nodup ∧ UniqueKeysMembers ms
  | _ => True

/-- No object inside the items has a key twice. -/
def UniqueKeysItems : List Json → Prop
  | [] => True
  | x :: xs => UniqueKeys x ∧ UniqueKeysItems xs

/-- No object inside the values of members has a key twice. -/
def UniqueKeysMembers : List (String × Json) → Prop
  | [] => True
  | (_, v) :: ms => UniqueKeys v ∧ UniqueKeysMembers ms

end

theorem uniqueKeysItems_iff {xs : List Json} :
    UniqueKeysItems xs ↔ ∀ x ∈ xs, x.UniqueKeys := by
  induction xs with
  | nil => simp [UniqueKeysItems]
  | cons x xs ih => simp [UniqueKeysItems, ih]

theorem uniqueKeysMembers_iff {ms : Members} :
    UniqueKeysMembers ms ↔ ∀ m ∈ ms, m.2.UniqueKeys := by
  induction ms with
  | nil => simp [UniqueKeysMembers]
  | cons m ms ih => obtain ⟨k, v⟩ := m; simp [UniqueKeysMembers, ih]

theorem uniqueKeys_arr {xs : List Json} : (Json.arr xs).UniqueKeys ↔ ∀ x ∈ xs, x.UniqueKeys := by
  rw [UniqueKeys, uniqueKeysItems_iff]

theorem uniqueKeys_obj {ms : Members} :
    (Json.obj ms).UniqueKeys ↔ (Members.keys ms).Nodup ∧ ∀ m ∈ ms, m.2.UniqueKeys := by
  rw [UniqueKeys, uniqueKeysMembers_iff]

theorem UniqueKeys.get? {ms : Members} (h : (Json.obj ms).UniqueKeys) {key : String} {v : Json}
    (hv : Members.get? key ms = some v) : v.UniqueKeys :=
  (uniqueKeys_obj.1 h).2 _ (Members.mem_of_get? hv)

theorem UniqueKeys.getElem? {xs : List Json} (h : (Json.arr xs).UniqueKeys) {i : ℕ} {v : Json}
    (hv : xs[i]? = some v) : v.UniqueKeys :=
  uniqueKeys_arr.1 h _ (List.mem_of_getElem? hv)

theorem UniqueKeys.put {ms : Members} (h : (Json.obj ms).UniqueKeys) (key : String) {v : Json}
    (hv : v.UniqueKeys) : (Json.obj (Members.put key v ms)).UniqueKeys := by
  rw [uniqueKeys_obj] at h ⊢
  refine ⟨Members.nodup_keys_put h.1 key v, fun m hm => ?_⟩
  rcases Members.mem_put hm with rfl | hm
  · exact hv
  · exact h.2 m hm

theorem UniqueKeys.erase {ms : Members} (h : (Json.obj ms).UniqueKeys) (key : String) :
    (Json.obj (Members.erase key ms)).UniqueKeys := by
  rw [uniqueKeys_obj] at h ⊢
  exact ⟨Members.nodup_keys_erase h.1 key,
    fun m hm => h.2 m ((Members.erase_sublist key ms).subset hm)⟩

/-! ### Identity -/

/-- Identity of documents is equality. -/
theorem same_iff (x y : Json) : x.same y = true ↔ x = y := by
  refine same.induct (fun x y => x.same y = true ↔ x = y)
    (fun xs ys => sameMembers xs ys = true ↔ xs = ys)
    (fun xs ys => sameItems xs ys = true ↔ xs = ys)
    ?_ ?_ ?_ ?_ ?_ ?_ ?_ ?_ ?_ ?_ ?_ ?_ ?_ ?_ x y
  · simp [same]
  · intro a b; simp [same]
  · intro a b; simp [same]
  · intro a b; simp [same]
  · intro a b; simp [same]
  · intro xs ys ih; simpa [same] using ih
  · intro xs ys ih; simpa [same] using ih
  · -- values of different kinds: no clause before the last one reads a value against itself
    intro x y h₁ h₂ h₃ h₄ h₅ h₆ h₇
    rw [same.eq_8 x y h₁ h₂ h₃ h₄ h₅ h₆ h₇]
    refine iff_of_false Bool.false_ne_true ?_
    rintro rfl
    cases x with
    | null => exact h₁ rfl rfl
    | bool a => exact h₂ a a rfl rfl
    | int a => exact h₃ a a rfl rfl
    | float a => exact h₄ a a rfl rfl
    | str a => exact h₅ a a rfl rfl
    | arr xs => exact h₆ xs xs rfl rfl
    | obj ms => exact h₇ ms ms rfl rfl
  · simp [sameItems]
  · intro x xs y ys hx hxs; simp [sameItems, hx, hxs]
  · intro xs ys h₁ h₂
    cases xs <;> cases ys
    · exact absurd rfl (h₁ rfl)
    · simp [sameItems]
    · simp [sameItems]
    · exact (h₂ _ _ _ _ rfl rfl).elim
  · simp [sameMembers]
  · intro k x xs l y ys hx hxs; simp [sameMembers, hx, hxs, and_assoc]
  · intro xs ys h₁ h₂
    cases xs <;> cases ys
    · exact absurd rfl (h₁ rfl)
    · simp [sameMembers]
    · simp [sameMembers]
    · exact (h₂ _ _ _ _ _ _ rfl rfl).elim

@[simp] theorem same_self (x : Json) : x.same x = true := (same_iff x x).2 rfl

end Json

/-! ### Contents -/

/-- What a document holds. -/
inductive Content where
  /-- A value that holds no others. -/
  | scalar (value : Json)
  | arr (items : List Content)
  /-- An object: what each key leads to. -/
  | obj (member : String → Option Content)

namespace Json

mutual

/-- What a document holds. -/
def content : Json → Content
  | .arr xs => .arr (contentItems xs)
  | .obj ms => .obj (contentMembers ms)
  | v => .scalar v

/-- What items hold. -/
def contentItems : List Json → List Content
  | [] => []
  | x :: xs => content x :: contentItems xs

/-- What the keys of members lead to. -/
def contentMembers : List (String × Json) → String → Option Content
  | [] => fun _ => none
  | (k, v) :: ms => fun key => if k = key then some (content v) else contentMembers ms key

end

@[simp] theorem contentItems_eq (xs : List Json) : contentItems xs = xs.map content := by
  induction xs with
  | nil => rfl
  | cons x xs ih => rw [contentItems, ih, List.map_cons]

/-- An object holds what its keys lead to. -/
theorem contentMembers_eq (ms : Members) (key : String) :
    contentMembers ms key = (Members.get? key ms).map content := by
  induction ms with
  | nil => rfl
  | cons m ms ih =>
      obtain ⟨k, v⟩ := m
      simp only [contentMembers, Members.get?_cons, ih]
      split <;> rfl

@[simp] theorem content_arr (xs : List Json) : (Json.arr xs).content = .arr (xs.map content) := by
  rw [content, contentItems_eq]

@[simp] theorem content_obj (ms : Members) :
    (Json.obj ms).content = .obj fun key => (Members.get? key ms).map content := by
  rw [content]
  exact congrArg Content.obj (funext (contentMembers_eq ms))

/-- A document whose content holds no others is what it holds. -/
theorem eq_of_content_scalar {v u : Json} (h : v.content = .scalar u) : v = u := by
  cases v <;> simp [content] at h <;> exact h

/-- A document whose content is an array is one. -/
theorem exists_of_content_arr {v : Json} {cs : List Content} (h : v.content = .arr cs) :
    ∃ xs, v = .arr xs ∧ xs.map content = cs := by
  cases v with
  | arr xs => exact ⟨xs, rfl, by simpa using h⟩
  | _ => simp [content] at h

/-- A document whose content is an object is one. -/
theorem exists_of_content_obj {v : Json} {f : String → Option Content} (h : v.content = .obj f) :
    ∃ ms, v = .obj ms ∧ ∀ key, (Members.get? key ms).map content = f key := by
  cases v with
  | obj ms => exact ⟨ms, rfl, fun key => congrFun (by simpa using h) key⟩
  | _ => simp [content] at h

/-- Documents that hold the same are equal, unless both are objects or both are arrays. -/
theorem eq_of_content_eq {x y : Json} (h : x.content = y.content)
    (hobj : ∀ xs ys, x = .obj xs → y = .obj ys → False)
    (harr : ∀ xs ys, x = .arr xs → y = .arr ys → False) : x = y := by
  cases x with
  | obj ms =>
      obtain ⟨ns, rfl, -⟩ := exists_of_content_obj (h.symm.trans (content_obj ms))
      exact (hobj ms ns rfl rfl).elim
  | arr xs =>
      obtain ⟨ys, rfl, -⟩ := exists_of_content_arr (h.symm.trans (content_arr xs))
      exact (harr xs ys rfl rfl).elim
  | null | bool _ | int _ | float _ | str _ => exact (eq_of_content_scalar h.symm).symm

/-! ### Equality up to the order of members -/

/-- The keys of members whose keys are all among those of other members, of which there are no more,
are the same keys. -/
theorem Members.keys_subset_of_length {xs ys : Members} (hx : (keys xs).Nodup)
    (hlen : xs.length = ys.length) (hsub : ∀ k ∈ keys xs, k ∈ keys ys) :
    ∀ k ∈ keys ys, k ∈ keys xs := by
  have hle : (keys ys).length ≤ (keys xs).length := by simp [keys, hlen]
  have hperm := (List.subperm_of_subset hx hsub).perm_of_length_le hle
  exact fun k hk => hperm.mem_iff.2 hk

/-- Two objects hold the same exactly when they have as many members and each member of the first
has an equal counterpart in the second. -/
theorem content_obj_eq_iff {xs ys : Members} (hx : (Members.keys xs).Nodup) :
    (xs.length = ys.length ∧ ∀ m ∈ xs, (Members.get? m.1 ys).map content = some m.2.content) ↔
      (Json.obj xs).content = (Json.obj ys).content ∧ xs.length = ys.length := by
  rw [content_obj, content_obj, Content.obj.injEq, funext_iff]
  constructor
  · rintro ⟨hlen, hm⟩
    refine ⟨fun key => ?_, hlen⟩
    have hsub : ∀ k ∈ Members.keys xs, k ∈ Members.keys ys := by
      intro k hk
      obtain ⟨m, hmem, rfl⟩ := List.mem_map.1 hk
      have hsome := hm m hmem
      rw [Members.mem_keys_iff]
      cases hg : Members.get? m.1 ys with
      | none => simp [hg] at hsome
      | some y => rfl
    cases hg : Members.get? key xs with
    | some v => exact (hm _ (Members.mem_of_get? hg)).symm
    | none =>
        have hnot : key ∉ Members.keys ys := fun hk =>
          Members.get?_eq_none_iff.1 hg (Members.keys_subset_of_length hx hlen hsub key hk)
        rw [Members.get?_eq_none_iff.2 hnot]
  · rintro ⟨hkey, hlen⟩
    refine ⟨hlen, fun m hm => ?_⟩
    rw [← hkey m.1, Members.get?_of_mem hx hm, Option.map_some]

/-- Objects that hold the same have the same keys. -/
theorem keys_perm_of_content_obj {xs ys : Members} (hx : (Members.keys xs).Nodup)
    (hy : (Members.keys ys).Nodup) (h : (Json.obj xs).content = (Json.obj ys).content) :
    (Members.keys xs).Perm (Members.keys ys) := by
  rw [content_obj, content_obj, Content.obj.injEq, funext_iff] at h
  refine (List.perm_ext_iff_of_nodup hx hy).2 fun k => ?_
  rw [Members.mem_keys_iff, Members.mem_keys_iff, ← Option.isSome_map (f := content), h k,
    Option.isSome_map]

/-- Objects that hold the same have as many members. -/
theorem length_eq_of_content_obj {xs ys : Members} (hx : (Members.keys xs).Nodup)
    (hy : (Members.keys ys).Nodup) (h : (Json.obj xs).content = (Json.obj ys).content) :
    xs.length = ys.length := by
  simpa [Members.keys] using (keys_perm_of_content_obj hx hy h).length_eq

/-- Read exactly, only numbers are equal as numbers, and only to themselves. -/
theorem numericEqual_exact_iff {x y : Json} :
    numericEqual .exact x y = true ↔ x = y ∧ (x.numeric? .exact).isSome := by
  rw [numericEqual]
  cases hx : x.numeric? .exact with
  | none => simp
  | some a =>
      cases hy : y.numeric? .exact with
      | none =>
          refine iff_of_false Bool.false_ne_true ?_
          rintro ⟨rfl, -⟩
          simp [hx] at hy
      | some b => simp [same_iff]

/-- **Equality up to the order of members is equality of contents.** -/
theorem alike_iff {x y : Json} (hx : x.UniqueKeys) (hy : y.UniqueKeys) :
    x.alike y = true ↔ x.content = y.content := by
  refine equalBy.induct
    (fun x y => x.UniqueKeys → y.UniqueKeys →
      (equalBy .exact x y = true ↔ x.content = y.content))
    (fun xs ys => (∀ m ∈ xs, m.2.UniqueKeys) → (∀ m ∈ ys, m.2.UniqueKeys) →
      (equalMembersBy .exact xs ys = true ↔
        ∀ m ∈ xs, (Members.get? m.1 ys).map content = some m.2.content))
    (fun xs ys => (∀ x ∈ xs, x.UniqueKeys) → (∀ y ∈ ys, y.UniqueKeys) →
      (equalItemsBy .exact xs ys = true ↔ xs.map content = ys.map content))
    ?_ ?_ ?_ ?_ ?_ ?_ ?_ ?_ ?_ ?_ ?_ x y hx hy
  case refine_1 => simp [equalBy]
  case refine_2 => intro a b _ _; simp [equalBy, content]
  case refine_3 => intro a b _ _; simp [equalBy, content]
  case refine_4 =>
    intro xs ys ih hx hy
    rw [equalBy, ih (uniqueKeys_arr.1 hx) (uniqueKeys_arr.1 hy)]
    simp
  case refine_5 =>
    intro xs ys ih hx hy
    have hxo := uniqueKeys_obj.1 hx
    have hyo := uniqueKeys_obj.1 hy
    rw [equalBy, Bool.and_eq_true, ih hxo.2 hyo.2, beq_iff_eq, content_obj_eq_iff hxo.1]
    exact ⟨And.left, fun h => ⟨h, length_eq_of_content_obj hxo.1 hyo.1 h⟩⟩
  case refine_6 =>
    -- numbers are compared as they are, and values of other kinds differ in kind
    intro x y h₁ h₂ h₃ h₄ h₅ _ _
    rw [equalBy.eq_6 .exact x y h₁ h₂ h₃ h₄ h₅, numericEqual_exact_iff]
    refine ⟨fun h => congrArg content h.1, fun h => ?_⟩
    obtain rfl := eq_of_content_eq h h₅ h₄
    cases x with
    | null => exact (h₁ rfl rfl).elim
    | str a => exact (h₂ a a rfl rfl).elim
    | bool a => exact (h₃ a a rfl rfl).elim
    | arr xs => exact (h₄ xs xs rfl rfl).elim
    | obj ms => exact (h₅ ms ms rfl rfl).elim
    | int _ | float _ => exact ⟨rfl, rfl⟩
  case refine_7 => simp [equalItemsBy]
  case refine_8 =>
    intro x xs y ys ihx ihxs hx hy
    rw [List.forall_mem_cons] at hx hy
    simp [equalItemsBy, ihx hx.1 hy.1, ihxs hx.2 hy.2]
  case refine_9 =>
    intro xs ys h₁ h₂ _ _
    cases xs <;> cases ys
    · exact absurd rfl (h₁ rfl)
    · simp [equalItemsBy]
    · simp [equalItemsBy]
    · exact (h₂ _ _ _ _ rfl rfl).elim
  case refine_10 => intro ys; simp [equalMembersBy]
  case refine_11 =>
    intro k x rest ys ihx ihrest hx hy
    rw [List.forall_mem_cons] at hx
    rw [equalMembersBy, Bool.and_eq_true, ihrest hx.2 hy, List.forall_mem_cons]
    refine and_congr_left fun _ => ?_
    cases hg : Members.get? k ys with
    | none => simp
    | some y =>
        simp only [Option.map_some, Option.some.injEq]
        rw [ihx y hx.1 (hy _ (Members.mem_of_get? hg)), eq_comm]

end Json

end DesignRegistry
