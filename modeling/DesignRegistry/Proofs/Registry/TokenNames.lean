/-
**Names of tokens.**

The walk through a tree of tokens goes from group to group.  It comes to the members of the tree itself,
whatever they are called, and to the members of each group that it comes to; an object with a value ends
it.  A token is listed under the keys on the way to it, with dots between them.  Names are put together
with no regard to the keys, so two tokens can end up under one name; where keys are not empty and hold no
dots this cannot happen, and a name tells the way.

Main definitions:

* `Json.at?` — where keys lead in a document;
* `Token.IsGroup`, `Token.IsToken` — what the walk goes through, and what it takes for a token;
* `Token.Visits` — the places that the walk comes to;
* `Token.Precedes` — the order of ways as the tree is written.

Main results:

* `Token.leavesOf_eq` — a name is put together from the keys on a way;
* `Token.mem_waysOf_iff` — **the walk comes to every token and to nothing else**;
* `Token.pairwise_waysOf` — it comes to tokens as they are written;
* `Token.flatten_lists` — **the tokens of a tree are listed in order, once, under names that lead back**.
-/
import DesignRegistry.Json.Reference
import DesignRegistry.Proofs.Json.Legible
import DesignRegistry.Proofs.Text.Pieces
import DesignRegistry.Registry.Token

set_option relaxedAutoImplicit false
set_option autoImplicit false

namespace DesignRegistry

/-! ### Ways of keys -/

namespace Json

/-- The value that keys lead to. -/
def at? (way : List String) (v : Json) : Option Json := v.walk? (way.map .key)

variable {key : String} {way : List String} {v w : Json} {ms : Members}

theorem at?_nil : v.at? [] = some v := rfl

theorem at?_cons : (Json.obj ms).at? (key :: way) = (Members.get? key ms).bind (at? way) := rfl

/-- Only an object has keys that lead on. -/
theorem exists_obj_of_at? (hway : way ≠ []) (h : v.at? way = some w) : ∃ ms, v = .obj ms := by
  obtain ⟨key, way, rfl⟩ := List.exists_cons_of_ne_nil hway
  cases v with
  | obj ms => exact ⟨ms, rfl⟩
  | null | bool _ | int _ | float _ | str _ | arr _ => exact absurd h (by simp [at?, walk?, child?])

/-- What holds of a value if it holds of the values of its members holds of all values. -/
theorem memberwise_induction {P : Json → Prop}
    (h : ∀ v, (∀ ms, v = .obj ms → ∀ m ∈ ms, P m.2) → P v) (v : Json) : P v := by
  induction hsize : sizeOf v using Nat.strong_induction_on generalizing v with
  | _ n ih =>
      refine h v fun ms hms m hm => ih (sizeOf m.2) ?_ m.2 rfl
      obtain ⟨key, w⟩ := m
      have hless := List.sizeOf_lt_of_mem hm
      rw [← hsize, hms]
      simp only [Prod.mk.sizeOf_spec, Json.obj.sizeOf_spec] at hless ⊢
      omega

/-- Keys lead to values in which no key stands twice either. -/
theorem UniqueKeys.at? (hv : v.UniqueKeys) (h : v.at? way = some w) : w.UniqueKeys := by
  induction way generalizing v with
  | nil => exact Option.some.inj h ▸ hv
  | cons key way ih =>
      obtain ⟨ms, rfl⟩ := exists_obj_of_at? (List.cons_ne_nil _ _) h
      obtain ⟨u, hu, hw⟩ := Option.bind_eq_some_iff.1 (at?_cons.symm.trans h)
      exact ih (hv.get? hu) hw

end Json

open Json

namespace Token

variable {key : String} {way : List String} {tree v w leaf : Json} {ms : Members}

/-! ### The walk -/

/-- A group: an object without a value. -/
def IsGroup (v : Json) : Prop := ∃ ms, v = .obj ms ∧ Members.has "value" ms = false

instance : DecidablePred IsGroup
  | .obj ms => decidable_of_iff (Members.has "value" ms = false) (by simp [IsGroup])
  | .null | .bool _ | .int _ | .float _ | .str _ | .arr _ => isFalse (by simp [IsGroup])

/-- The token that a value is taken for. -/
inductive IsToken : Json → Json → Prop
  /-- An object with a value is a token. -/
  | token {ms : Members} : Members.has "value" ms = true → IsToken (.obj ms) (.obj ms)
  /-- A value that holds no others is the value of a token. -/
  | scalar {v : Json} : v.members? = none → v.items? = none → IsToken v (.obj [("value", v)])

/-- The walk through a tree comes to a place: keys lead there, and on the way there are groups only.  The
tree itself need not be a group. -/
structure Visits (tree : Json) (way : List String) (v : Json) : Prop where
  ne_nil : way ≠ []
  leads : tree.at? way = some v
  groups : ∀ front, front <+: way → front ≠ [] → front ≠ way →
    ∃ group, tree.at? front = some group ∧ IsGroup group

/-- The walk through a tree comes to a token. -/
def TokenAt (tree : Json) (way : List String) (leaf : Json) : Prop :=
  ∃ v, Visits tree way v ∧ IsToken v leaf

/-- From a value there is a way to a token: it is the token itself, or a group and the walk goes on. -/
def LeadsTo (v : Json) (way : List String) (leaf : Json) : Prop :=
  (way = [] ∧ IsToken v leaf) ∨ (IsGroup v ∧ TokenAt v way leaf)

/-- One way stands before another in a tree: where they part, its key is written first. -/
def Precedes (tree : Json) (way other : List String) : Prop :=
  ∃ front ms key next rest rest', tree.at? front = some (.obj ms) ∧
    [key, next].Sublist (Members.keys ms) ∧ way = front ++ key :: rest ∧
    other = front ++ next :: rest'

/-- Only a tree that is an object has places to come to. -/
theorem Visits.exists_obj (h : Visits tree way v) : ∃ ms, tree = .obj ms :=
  exists_obj_of_at? h.ne_nil h.leads

/-- The walk comes to a member, and goes on from it if it is a group. -/
theorem visits_cons : Visits (.obj ms) (key :: way) v ↔
    ∃ w, Members.get? key ms = some w ∧ ((way = [] ∧ w = v) ∨ (IsGroup w ∧ Visits w way v)) := by
  constructor
  · intro h
    obtain ⟨w, hw, hleads⟩ := Option.bind_eq_some_iff.1 (at?_cons.symm.trans h.leads)
    refine ⟨w, hw, ?_⟩
    by_cases hway : way = []
    · subst hway
      exact .inl ⟨rfl, Option.some.inj hleads⟩
    · obtain ⟨group, hgroup, hisGroup⟩ := h.groups [key] (List.prefix_append [key] way)
        (List.cons_ne_nil _ _) (by simpa using Ne.symm hway)
      rw [at?_cons, hw, Option.bind_some, at?_nil] at hgroup
      obtain rfl := Option.some.inj hgroup
      refine .inr ⟨hisGroup, hway, hleads, fun front hfront hne hpart => ?_⟩
      have hgroups := h.groups (key :: front) ((List.prefix_cons_inj key).2 hfront)
        (List.cons_ne_nil _ _) (by simpa using hpart)
      rwa [at?_cons, hw, Option.bind_some] at hgroups
  · rintro ⟨w, hw, hrest⟩
    refine ⟨List.cons_ne_nil _ _, ?_, fun front hfront hne hpart => ?_⟩
    · rw [at?_cons, hw, Option.bind_some]
      rcases hrest with ⟨rfl, rfl⟩ | ⟨-, hvisits⟩
      · exact at?_nil
      · exact hvisits.leads
    · obtain ⟨k, front, rfl⟩ := List.exists_cons_of_ne_nil hne
      obtain ⟨rfl, hbelow⟩ := List.cons_prefix_cons.1 hfront
      rw [at?_cons, hw, Option.bind_some]
      rcases hrest with ⟨rfl, rfl⟩ | ⟨hgroup, hvisits⟩
      · exact absurd (congrArg (k :: ·) (List.prefix_nil.1 hbelow)) hpart
      · by_cases hnil : front = []
        · subst hnil
          exact ⟨w, at?_nil, hgroup⟩
        · exact hvisits.groups front hbelow hnil fun heq => hpart (congrArg (k :: ·) heq)

theorem tokenAt_cons : TokenAt (.obj ms) (key :: way) leaf ↔
    ∃ w, Members.get? key ms = some w ∧ LeadsTo w way leaf := by
  constructor
  · rintro ⟨v, hvisits, htoken⟩
    obtain ⟨w, hw, ⟨rfl, rfl⟩ | ⟨hgroup, hvisits⟩⟩ := visits_cons.1 hvisits
    · exact ⟨w, hw, .inl ⟨rfl, htoken⟩⟩
    · exact ⟨w, hw, .inr ⟨hgroup, v, hvisits, htoken⟩⟩
  · rintro ⟨w, hw, ⟨rfl, htoken⟩ | ⟨hgroup, v, hvisits, htoken⟩⟩
    · exact ⟨w, visits_cons.2 ⟨w, hw, .inl ⟨rfl, rfl⟩⟩, htoken⟩
    · exact ⟨v, visits_cons.2 ⟨w, hw, .inr ⟨hgroup, hvisits⟩⟩, htoken⟩

/-- Where no key stands twice, there is a way to a token from every member that leads to one. -/
theorem tokenAt_obj (hu : (Members.keys ms).Nodup) : TokenAt (.obj ms) way leaf ↔
    ∃ m ∈ ms, ∃ rest, way = m.1 :: rest ∧ LeadsTo m.2 rest leaf := by
  constructor
  · intro h
    obtain ⟨v, hvisits, -⟩ := id h
    obtain ⟨key, rest, rfl⟩ := List.exists_cons_of_ne_nil hvisits.ne_nil
    obtain ⟨w, hw, hleads⟩ := tokenAt_cons.1 h
    exact ⟨(key, w), Members.mem_of_get? hw, rest, rfl, hleads⟩
  · rintro ⟨⟨key, w⟩, hm, rest, rfl, hleads⟩
    exact tokenAt_cons.2 ⟨w, Members.get?_of_mem hu hm, hleads⟩

/-! ### Tokens with the ways to them -/

mutual

/-- The tokens that a value gives, with the ways to them. -/
def ways : Json → List (List String × Json)
  | .obj ms => if Members.has "value" ms then [([], .obj ms)] else waysOf ms
  | .arr _ => []
  | v => [([], .obj [("value", v)])]

/-- The tokens in the members of an object, with the ways to them. -/
def waysOf : List (String × Json) → List (List String × Json)
  | [] => []
  | (k, v) :: rest => (ways v).map (fun t => (k :: t.1, t.2)) ++ waysOf rest

end

theorem waysOf_eq (ms : Members) :
    waysOf ms = ms.flatMap fun m => (ways m.2).map fun t => (m.1 :: t.1, t.2) := by
  induction ms with
  | nil => rfl
  | cons m ms ih => rw [waysOf, ih, List.flatMap_cons]

theorem leavesOf_eq_flatMap (group : String) (ms : Members) :
    leavesOf group ms = ms.flatMap fun m => leaves (pathName group m.1) m.2 := by
  induction ms with
  | nil => rfl
  | cons m ms ih => rw [leavesOf, ih, List.flatMap_cons]

/-- The name of a token is put together from the keys on the way to it. -/
theorem leaves_eq (v : Json) (name : String) :
    leaves name v = (ways v).map fun t => (t.1.foldl pathName name, t.2) := by
  induction v using memberwise_induction generalizing name with
  | h v ih =>
      cases v with
      | obj ms =>
          rw [leaves, ways]
          split
          · rfl
          · rw [leavesOf_eq_flatMap, waysOf_eq, List.map_flatMap]
            refine List.flatMap_congr fun m hm => ?_
            rw [ih ms rfl m hm, List.map_map]
            rfl
      | null | bool _ | int _ | float _ | str _ | arr _ => rfl

theorem leavesOf_eq (group : String) (ms : Members) :
    leavesOf group ms = (waysOf ms).map fun t => (t.1.foldl pathName group, t.2) := by
  rw [leavesOf_eq_flatMap, waysOf_eq, List.map_flatMap]
  refine List.flatMap_congr fun m _ => ?_
  rw [leaves_eq, List.map_map]
  rfl

/-- The tokens that a value gives are those to which there is a way. -/
theorem mem_ways_iff (hu : v.UniqueKeys) : (way, leaf) ∈ ways v ↔ LeadsTo v way leaf := by
  induction v using memberwise_induction generalizing way with
  | h v ih =>
      cases v with
      | obj ms =>
          obtain ⟨hkeys, hmembers⟩ := uniqueKeys_obj.1 hu
          rw [ways]
          split
          · next hvalue =>
              rw [List.mem_singleton, Prod.mk.injEq, LeadsTo]
              constructor
              · rintro ⟨rfl, rfl⟩
                exact .inl ⟨rfl, .token hvalue⟩
              · rintro (⟨rfl, htoken⟩ | ⟨⟨_, ⟨⟩, hnone⟩, -⟩)
                · cases htoken with
                  | token => exact ⟨rfl, rfl⟩
                  | scalar hscalar => exact absurd hscalar (by simp [members?])
                · exact absurd hvalue (by simp [hnone])
          · next hvalue =>
              have hgroup : IsGroup (.obj ms) := ⟨ms, rfl, by simpa using hvalue⟩
              have hleads : LeadsTo (.obj ms) way leaf ↔ TokenAt (.obj ms) way leaf := by
                refine ⟨?_, fun h => .inr ⟨hgroup, h⟩⟩
                rintro (⟨-, htoken⟩ | ⟨-, h⟩)
                · cases htoken with
                  | token hhas => exact absurd hhas hvalue
                  | scalar hscalar => exact absurd hscalar (by simp [members?])
                · exact h
              rw [hleads, tokenAt_obj hkeys, waysOf_eq]
              simp only [List.mem_flatMap, List.mem_map, Prod.mk.injEq, Prod.exists]
              constructor
              · rintro ⟨key, w, hm, rest, _, hrest, rfl, rfl⟩
                exact ⟨key, w, hm, rest, rfl, (ih ms rfl _ hm (hmembers _ hm)).1 hrest⟩
              · rintro ⟨key, w, hm, rest, rfl, hrest⟩
                exact ⟨key, w, hm, rest, leaf, (ih ms rfl _ hm (hmembers _ hm)).2 hrest, rfl, rfl⟩
      | arr xs =>
          refine ⟨fun h => absurd h List.not_mem_nil, ?_⟩
          rintro (⟨-, htoken⟩ | ⟨⟨_, ⟨⟩, -⟩, -⟩)
          cases htoken with
          | scalar _ hitems => exact absurd hitems (by simp [items?])
      | null | bool _ | int _ | float _ | str _ =>
          simp only [ways, List.mem_singleton, Prod.mk.injEq, LeadsTo]
          constructor
          · rintro ⟨rfl, rfl⟩
            exact .inl ⟨rfl, .scalar rfl rfl⟩
          · rintro (⟨rfl, ⟨⟩⟩ | ⟨⟨_, ⟨⟩, -⟩, -⟩)
            exact ⟨rfl, rfl⟩

/-- The walk through an object comes to every token and to nothing else. -/
theorem mem_waysOf_iff (hu : (Json.obj ms).UniqueKeys) :
    (way, leaf) ∈ waysOf ms ↔ TokenAt (.obj ms) way leaf := by
  obtain ⟨hkeys, hmembers⟩ := uniqueKeys_obj.1 hu
  rw [tokenAt_obj hkeys, waysOf_eq]
  simp only [List.mem_flatMap, List.mem_map, Prod.mk.injEq]
  constructor
  · rintro ⟨m, hm, ⟨rest, _⟩, hrest, rfl, rfl⟩
    exact ⟨m, hm, rest, rfl, (mem_ways_iff (hmembers m hm)).1 hrest⟩
  · rintro ⟨m, hm, rest, rfl, hrest⟩
    exact ⟨m, hm, (rest, leaf), (mem_ways_iff (hmembers m hm)).2 hrest, rfl, rfl⟩

/-! ### Order -/

/-- Ways through a member are in the order that they have in it. -/
theorem Precedes.cons {other : List String} (hw : Members.get? key ms = some w)
    (h : Precedes w way other) : Precedes (.obj ms) (key :: way) (key :: other) := by
  obtain ⟨front, group, k, next, rest, rest', hfront, hsub, rfl, rfl⟩ := h
  refine ⟨key :: front, group, k, next, rest, rest', ?_, hsub, rfl, rfl⟩
  rw [at?_cons, hw, Option.bind_some, hfront]

/-- No way stands before itself. -/
theorem Precedes.irrefl (hu : tree.UniqueKeys) : ¬ Precedes tree way way := by
  rintro ⟨front, ms, key, next, rest, rest', hfront, hsub, hway, hother⟩
  rw [hway] at hother
  obtain ⟨rfl, -⟩ := List.cons.inj (List.append_cancel_left hother)
  have hpair := hsub.nodup (uniqueKeys_obj.1 (hu.at? hfront)).1
  exact absurd hpair (by simp)

/-- Ways through the members of an object are in order if those within each member are. -/
theorem pairwise_flatMap_members (hkeys : (Members.keys ms).Nodup)
    (h : ∀ m ∈ ms, (ways m.2).Pairwise fun s t => Precedes m.2 s.1 t.1) :
    (waysOf ms).Pairwise fun s t => Precedes (.obj ms) s.1 t.1 := by
  rw [waysOf_eq, List.pairwise_flatMap]
  constructor
  · rintro ⟨key, w⟩ hm
    rw [List.pairwise_map]
    exact (h _ hm).imp fun hst => hst.cons (Members.get?_of_mem hkeys hm)
  · rw [List.pairwise_iff_forall_sublist]
    intro m n hsub s hs t ht
    obtain ⟨s, -, rfl⟩ := List.mem_map.1 hs
    obtain ⟨t, -, rfl⟩ := List.mem_map.1 ht
    exact ⟨[], ms, m.1, n.1, s.1, t.1, at?_nil, hsub.map Prod.fst, rfl, rfl⟩

theorem pairwise_ways (hu : v.UniqueKeys) :
    (ways v).Pairwise fun s t => Precedes v s.1 t.1 := by
  induction v using memberwise_induction with
  | h v ih =>
      cases v with
      | obj ms =>
          obtain ⟨hkeys, hmembers⟩ := uniqueKeys_obj.1 hu
          rw [ways]
          split
          · exact List.pairwise_singleton _ _
          · exact pairwise_flatMap_members hkeys fun m hm => ih ms rfl m hm (hmembers m hm)
      | arr xs => exact List.Pairwise.nil
      | null | bool _ | int _ | float _ | str _ => exact List.pairwise_singleton _ _

/-- The walk comes to tokens as they are written. -/
theorem pairwise_waysOf (hu : (Json.obj ms).UniqueKeys) :
    (waysOf ms).Pairwise fun s t => Precedes (.obj ms) s.1 t.1 := by
  obtain ⟨hkeys, hmembers⟩ := uniqueKeys_obj.1 hu
  exact pairwise_flatMap_members hkeys fun m hm => pairwise_ways (hmembers m hm)

/-! ### Names -/

/-- A name is the keys on a way with dots between them, unless the first one is empty. -/
theorem foldl_pathName {name : String} (hname : name ≠ "") (way : List String) :
    way.foldl pathName name = joined "." (name :: way) := by
  induction way generalizing name with
  | nil => exact (String.ofList_toList).symm
  | cons key way ih =>
      have hlonger : name ++ "." ++ key ≠ "" := by
        simp [String.append_eq_empty_iff]
      rw [List.foldl_cons, pathName, if_neg hname, ih hlonger, joined_append_cons]

theorem foldl_pathName_eq_joined (hway : way ≠ []) (hkeys : ∀ key ∈ way, key ≠ "") :
    way.foldl pathName "" = joined "." way := by
  obtain ⟨key, way, rfl⟩ := List.exists_cons_of_ne_nil hway
  rw [List.foldl_cons, pathName, if_pos rfl, foldl_pathName (hkeys key List.mem_cons_self)]

/-- The keys on the ways through a tree of tokens are not empty and hold no dots. -/
def PlainKeys (tree : Json) : Prop :=
  ∀ way v, Visits tree way v → ∀ key ∈ way, key ≠ "" ∧ '.' ∉ key.toList

theorem plainKeys_obj (h : ∀ m ∈ ms, (m.1 ≠ "" ∧ '.' ∉ m.1.toList) ∧ (IsGroup m.2 → PlainKeys m.2)) :
    PlainKeys (.obj ms) := by
  intro way v hvisits
  obtain ⟨key, way, rfl⟩ := List.exists_cons_of_ne_nil hvisits.ne_nil
  obtain ⟨w, hw, hrest⟩ := visits_cons.1 hvisits
  obtain ⟨hkey, hgroup⟩ := h _ (Members.mem_of_get? hw)
  rw [List.forall_mem_cons]
  refine ⟨hkey, ?_⟩
  rcases hrest with ⟨rfl, -⟩ | ⟨hisGroup, hvisits⟩
  · exact fun k hk => absurd hk List.not_mem_nil
  · exact hgroup hisGroup way v hvisits

/-- The name of a token tells the way to it. -/
theorem piecesOf_foldl_pathName (hkeys : PlainKeys tree) (h : TokenAt tree way leaf) :
    way.foldl pathName "" = joined "." way ∧ piecesOf '.' (way.foldl pathName "") = way := by
  obtain ⟨v, hvisits, -⟩ := h
  have hplain := hkeys way v hvisits
  have hname := foldl_pathName_eq_joined hvisits.ne_nil fun key hkey => (hplain key hkey).1
  refine ⟨hname, ?_⟩
  rw [hname]
  exact piecesOf_joined hvisits.ne_nil fun key hkey => (hplain key hkey).2

/-- The names of tokens differ. -/
theorem nodup_keys_leavesOf (hu : (Json.obj ms).UniqueKeys) (hkeys : PlainKeys (.obj ms)) :
    (Members.keys (leavesOf "" ms)).Nodup := by
  rw [leavesOf_eq, Members.keys, List.map_map, List.Nodup, List.pairwise_map]
  refine (pairwise_waysOf hu).imp_of_mem fun {s t} hs ht hst heq => ?_
  have hsway := (piecesOf_foldl_pathName hkeys ((mem_waysOf_iff hu).1 hs)).2
  have htway := (piecesOf_foldl_pathName hkeys ((mem_waysOf_iff hu).1 ht)).2
  have hways : s.1 = t.1 := by rw [← hsway, ← htway]; exact congrArg _ heq
  rw [hways] at hst
  exact Precedes.irrefl hu hst

/-- The tokens of an object under their names. -/
theorem flatten_obj (hu : (Json.obj ms).UniqueKeys) (hkeys : PlainKeys (.obj ms)) :
    flatten "" (.obj ms) = (waysOf ms).map fun t => (joined "." t.1, t.2) := by
  rw [flatten, Members.ofPairs_of_nodup (nodup_keys_leavesOf hu hkeys), leavesOf_eq]
  refine List.map_congr_left fun t ht => ?_
  rw [(piecesOf_foldl_pathName hkeys ((mem_waysOf_iff hu).1 ht)).1]

/-- **The tokens of a tree are listed in order, once, under names that lead back to them.**  If keys are
not empty and hold no dots, the list is made of the tokens that the walk through the tree comes to, each
of them once, as the tree is written; a token's name is the keys on the way to it with dots between them,
no name is listed twice, and the pieces of a name are the way to its token. -/
theorem flatten_lists (tree : Json) (hu : tree.UniqueKeys) (hkeys : PlainKeys tree) :
    ∃ tokens : List (List String × Json),
      flatten "" tree = tokens.map (fun t => (joined "." t.1, t.2)) ∧
      (∀ way leaf, (way, leaf) ∈ tokens ↔ ∃ v, Visits tree way v ∧ IsToken v leaf) ∧
      (tokens.map Prod.fst).Pairwise (Precedes tree) ∧
      (Members.keys (flatten "" tree)).Nodup ∧
      ∀ m ∈ flatten "" tree, ∃ v, Visits tree (piecesOf '.' m.1) v ∧ IsToken v m.2 := by
  by_cases hobj : ∃ ms, tree = .obj ms
  · obtain ⟨ms, rfl⟩ := hobj
    have hflat := flatten_obj hu hkeys
    refine ⟨waysOf ms, hflat, fun way leaf => mem_waysOf_iff hu, ?_, ?_, ?_⟩
    · rw [List.pairwise_map]
      exact pairwise_waysOf hu
    · exact Members.nodup_keys_ofPairs _
    · rw [hflat]
      rintro m hm
      obtain ⟨t, ht, rfl⟩ := List.mem_map.1 hm
      have htoken := (mem_waysOf_iff hu).1 ht
      obtain ⟨hname, hpieces⟩ := piecesOf_foldl_pathName hkeys htoken
      rw [hname] at hpieces
      rwa [hpieces]
  · -- without members there is nothing to walk through
    have hnone : flatten "" tree = [] := by
      cases tree with
      | obj ms => exact absurd ⟨ms, rfl⟩ hobj
      | null | bool _ | int _ | float _ | str _ | arr _ => rfl
    refine ⟨[], hnone, fun way leaf => ?_, List.Pairwise.nil, by simp [hnone], by simp [hnone]⟩
    refine ⟨fun h => absurd h List.not_mem_nil, ?_⟩
    rintro ⟨v, hvisits, -⟩
    exact absurd hvisits.exists_obj hobj

/-- Tokens of two groups, one of them a number in place of an object, beside a list. -/
def paletteTree : Json :=
  .obj [("color", .obj [("brand", .obj [("primary", .obj [("value", .str "#0af"), ("v.1", .null)])])]),
    ("radius", .obj [("sm", .int 2), ("scale", .arr [.int 1])])]

/-- Names lead back to tokens, also to a number; keys inside a token are no part of names. -/
theorem flatten_lists_palette :
    paletteTree.UniqueKeys ∧ PlainKeys paletteTree ∧
      flatten "" paletteTree =
        [("color.brand.primary", .obj [("value", .str "#0af"), ("v.1", .null)]),
          ("radius.sm", .obj [("value", .int 2)])] ∧
      ∃ v, Visits paletteTree ["radius", "sm"] v ∧ IsToken v (.obj [("value", .int 2)]) := by
  have hu : paletteTree.UniqueKeys := by
    simp [paletteTree, UniqueKeys, UniqueKeysMembers, UniqueKeysItems, Members.keys]
  have hkeys : PlainKeys paletteTree := by
    refine plainKeys_obj ?_
    simp only [List.forall_mem_cons, List.not_mem_nil, false_implies, implies_true, and_true]
    refine ⟨⟨by decide, fun _ => plainKeys_obj ?_⟩, by decide, fun _ => plainKeys_obj ?_⟩
    · simp only [List.forall_mem_singleton]
      refine ⟨by decide, fun _ => plainKeys_obj ?_⟩
      simpa only [List.forall_mem_singleton] using ⟨by decide, fun h => absurd h (by decide)⟩
    · simp only [List.forall_mem_cons, List.not_mem_nil, false_implies, implies_true, and_true]
      exact ⟨⟨by decide, fun h => absurd h (by decide)⟩, by decide,
        fun h => absurd h (by decide)⟩
  have hflat : flatten "" paletteTree =
      [("color.brand.primary", .obj [("value", .str "#0af"), ("v.1", .null)]),
        ("radius.sm", .obj [("value", .int 2)])] := rfl
  obtain ⟨-, -, -, -, -, hlead⟩ := flatten_lists paletteTree hu hkeys
  have hsm := hlead ("radius.sm", .obj [("value", .int 2)]) (by rw [hflat]; simp)
  exact ⟨hu, hkeys, hflat, hsm⟩

/-- A tree whose only member is a token called value. -/
def valuedTree : Json := .obj [("value", .obj [("value", .int 1)])]

/-- The tree itself is walked even if it has a value, though then no way starts from a group. -/
theorem flatten_walks_valued_tree :
    valuedTree.UniqueKeys ∧ PlainKeys valuedTree ∧
      flatten "" valuedTree = [("value", .obj [("value", .int 1)])] ∧
      ∀ way, way ≠ [] → ¬ ∀ front, front <+: way → front ≠ way →
        ∃ group, valuedTree.at? front = some group ∧ IsGroup group := by
  refine ⟨?_, plainKeys_obj ?_, rfl, ?_⟩
  · simp [valuedTree, UniqueKeys, UniqueKeysMembers, Members.keys]
  · rintro m hm
    obtain rfl := List.mem_singleton.1 hm
    exact ⟨by decide, fun h => absurd h (by decide)⟩
  · intro way hway h
    obtain ⟨group, hgroup, hisGroup⟩ := h [] List.nil_prefix (Ne.symm hway)
    obtain rfl := Option.some.inj hgroup
    exact absurd hisGroup (by decide)

end Token

end DesignRegistry
