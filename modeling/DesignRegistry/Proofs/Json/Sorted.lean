/-
**Documents with their keys in order.**

A document whose keys are put in order says the same: each key of an object that has no key twice has the
value that it had, with its own keys in order.  So it can be read where the document can.

Main results:

* `Json.Legible.sortKeys` — a legible document stays legible;
* `Json.field?_sortKeys` — **a key has the value that it had**.
-/
import DesignRegistry.Json.Printer
import DesignRegistry.Proofs.Json.Legible

set_option relaxedAutoImplicit false
set_option autoImplicit false

namespace DesignRegistry

namespace Json

theorem sortKeysMembers_eq (ms : Members) :
    sortKeysMembers ms = ms.map fun m => (m.1, m.2.sortKeys) := by
  induction ms with
  | nil => rfl
  | cons m ms ih =>
      obtain ⟨k, v⟩ := m
      rw [sortKeysMembers, ih, List.map_cons]

theorem keys_sortKeysMembers (ms : Members) : Members.keys (sortKeysMembers ms) = Members.keys ms := by
  rw [sortKeysMembers_eq, Members.keys, Members.keys, List.map_map]
  rfl

/-- The members of an object in order are those with their keys in order. -/
theorem exists_sortKeys_obj (ms : Members) :
    ∃ ns : Members, (Json.obj ms).sortKeys = .obj ns ∧ ns.Perm (sortKeysMembers ms) :=
  ⟨_, by rw [sortKeys], List.mergeSort_perm _ _⟩

theorem nodup_of_perm_sortKeys {ms ns : Members} (h : (Members.keys ms).Nodup)
    (hns : ns.Perm (sortKeysMembers ms)) : (Members.keys ns).Nodup := by
  have hperm : (Members.keys ns).Perm (Members.keys ms) :=
    keys_sortKeysMembers ms ▸ hns.map Prod.fst
  exact hperm.nodup_iff.2 h

mutual

/-- A legible document stays legible. -/
theorem Legible.sortKeys : ∀ v : Json, v.Legible → v.sortKeys.Legible
  | .null, h => h
  | .bool _, h => h
  | .int _, h => h
  | .float _, h => h
  | .str _, h => h
  | .arr xs, h => by
      rw [Json.sortKeys]
      exact LegibleItems.sortKeys xs h
  | .obj ms, h => by
      obtain ⟨ns, heq, hperm⟩ := exists_sortKeys_obj ms
      have hmembers := legibleMembers_iff.1 (LegibleMembers.sortKeys ms h.2)
      rw [heq]
      exact ⟨nodup_of_perm_sortKeys h.1 hperm,
        legibleMembers_iff.2 fun m hm => hmembers m (hperm.mem_iff.1 hm)⟩

theorem LegibleItems.sortKeys : ∀ xs : List Json, LegibleItems xs → LegibleItems (sortKeysItems xs)
  | [], h => h
  | x :: xs, h => ⟨Legible.sortKeys x h.1, LegibleItems.sortKeys xs h.2⟩

theorem LegibleMembers.sortKeys : ∀ ms : Members, LegibleMembers ms →
    LegibleMembers (sortKeysMembers ms)
  | [], h => h
  | (_, v) :: ms, h => ⟨Legible.sortKeys v h.1, LegibleMembers.sortKeys ms h.2⟩

end

/-- **A key has the value that it had**, with its own keys in order. -/
theorem field?_sortKeys {ms : Members} (h : (Members.keys ms).Nodup) {key : String} {v : Json}
    (hv : Members.get? key ms = some v) : (Json.obj ms).sortKeys.field? key = some v.sortKeys := by
  obtain ⟨ns, heq, hperm⟩ := exists_sortKeys_obj ms
  rw [heq, field?]
  refine Members.get?_of_mem (nodup_of_perm_sortKeys h hperm) (hperm.mem_iff.2 ?_)
  rw [sortKeysMembers_eq]
  exact List.mem_map.2 ⟨(key, v), Members.mem_of_get? hv, rfl⟩

end Json

end DesignRegistry
