/-
**Patches keep keys apart.**

A document that was read has no key twice in an object.  An edit of a container puts a value under
one key, takes a key away, or changes the items of an array, so it has no key twice either; and what
is carried back to the document around the container replaces the value of a key that is there.

A patch therefore leads from such documents to such documents, provided the value that it brings is
one.  Copied and moved values are parts of the document.

Main results:

* `Json.UniqueKeys.editAt` — an edit of a container keeps the keys of the whole document apart;
* `Operation.apply_uniqueKeys`, `applyPatch_uniqueKeys` — **so does a patch**.
-/
import DesignRegistry.Patch.Apply
import DesignRegistry.Proofs.Json.Content

set_option relaxedAutoImplicit false
set_option autoImplicit false

namespace DesignRegistry

namespace Json

/-! ### Ways into a document -/

/-- A part of a document has its keys apart. -/
theorem UniqueKeys.step {v w : Json} {token : String} (hv : v.UniqueKeys)
    (h : v.step token = .ok w) : w.UniqueKeys := by
  cases v with
  | obj ms =>
      rw [Json.step] at h
      split at h
      · next u hu =>
          obtain rfl := Except.ok.inj h
          exact hv.get? hu
      · exact absurd h (by simp)
  | arr xs =>
      rw [Json.step] at h
      split at h
      · exact absurd h (by simp)
      split at h
      · exact absurd h (by simp)
      split at h
      · next u hu =>
          obtain rfl := Except.ok.inj h
          exact hv.getElem? hu
      · exact absurd h (by simp)
  | _ => exact absurd h (by simp [Json.step])

theorem UniqueKeys.walkTokens {tokens : List String} {v w : Json} (hv : v.UniqueKeys)
    (h : walkTokens tokens v = .ok w) : w.UniqueKeys := by
  induction tokens generalizing v with
  | nil =>
      obtain rfl := Except.ok.inj h
      exact hv
  | cons t ts ih =>
      rw [Json.walkTokens] at h
      split at h
      · next u hu => exact ih (hv.step hu) h
      · exact absurd h (by simp)

/-- An array whose items are parts of another, or new, has its keys apart. -/
theorem UniqueKeys.arr_of_mem {xs ys : List Json} {value : Json} (hx : (arr xs).UniqueKeys)
    (hvalue : value.UniqueKeys) (h : ∀ y ∈ ys, y = value ∨ y ∈ xs) : (arr ys).UniqueKeys := by
  rw [uniqueKeys_arr] at hx ⊢
  intro y hy
  rcases h y hy with rfl | hmem
  · exact hvalue
  · exact hx y hmem

theorem UniqueKeys.withStep {v part : Json} (hv : v.UniqueKeys) (hpart : part.UniqueKeys)
    (token : String) : (v.withStep token part).UniqueKeys := by
  cases v with
  | obj ms => exact hv.put token hpart
  | arr xs =>
      rw [Json.withStep]
      split
      · exact hv.arr_of_mem hpart fun y hy => (List.mem_or_eq_of_mem_set hy).symm
      · exact hv
  | _ => exact hv

/-- An edit that keeps the keys of a container apart keeps those of the document around it apart. -/
theorem UniqueKeys.editAt {ε : Type} {fault : StepFault → ε} {edit : Json → Except ε Json}
    (hedit : ∀ v w, v.UniqueKeys → edit v = .ok w → w.UniqueKeys) {tokens : List String}
    {v w : Json} (hv : v.UniqueKeys) (h : editAt fault edit tokens v = .ok w) : w.UniqueKeys := by
  induction tokens generalizing v w with
  | nil => exact hedit v w hv h
  | cons t ts ih =>
      rw [Json.editAt] at h
      split at h
      · exact absurd h (by simp)
      · next u hu =>
          split at h
          · exact absurd h (by simp)
          · next u' hu' =>
              obtain rfl := Except.ok.inj h
              exact hv.withStep (ih (hv.step hu) hu') t

/-! ### Edits of a container -/

theorem UniqueKeys.insertAt {value v w : Json} {token : String} (hvalue : value.UniqueKeys)
    (hv : v.UniqueKeys) (h : Json.insertAt value token v = .ok w) : w.UniqueKeys := by
  cases v with
  | obj ms =>
      obtain rfl := Except.ok.inj h
      exact hv.put token hvalue
  | arr xs =>
      rw [Json.insertAt] at h
      split at h
      · obtain rfl := Except.ok.inj h
        refine hv.arr_of_mem hvalue fun y hy => ?_
        rcases List.mem_append.1 hy with hy | hy
        · exact .inr hy
        · exact .inl (List.mem_singleton.1 hy)
      split at h
      · exact absurd h (by simp)
      split at h
      · next hle =>
          obtain rfl := Except.ok.inj h
          exact hv.arr_of_mem hvalue fun y hy => (List.mem_insertIdx hle).1 hy
      · exact absurd h (by simp)
  | _ => exact absurd h (by simp [Json.insertAt])

theorem UniqueKeys.removeAt {v w : Json} {token : String} (hv : v.UniqueKeys)
    (h : v.removeAt token = .ok w) : w.UniqueKeys := by
  cases v with
  | obj ms =>
      rw [Json.removeAt] at h
      split at h
      · obtain rfl := Except.ok.inj h
        exact hv.erase token
      · exact absurd h (by simp)
  | arr xs =>
      rw [Json.removeAt] at h
      split at h
      · exact absurd h (by simp)
      split at h
      · exact absurd h (by simp)
      split at h
      · obtain rfl := Except.ok.inj h
        rw [uniqueKeys_arr] at hv ⊢
        exact fun y hy => hv y (List.mem_of_mem_eraseIdx hy)
      · exact absurd h (by simp)
  | _ => exact absurd h (by simp [Json.removeAt])

theorem UniqueKeys.replaceAt {value v w : Json} {token : String} (hvalue : value.UniqueKeys)
    (hv : v.UniqueKeys) (h : Json.replaceAt value token v = .ok w) : w.UniqueKeys := by
  cases v with
  | obj ms =>
      rw [Json.replaceAt] at h
      split at h
      · obtain rfl := Except.ok.inj h
        exact hv.put token hvalue
      · exact absurd h (by simp)
  | arr xs =>
      rw [Json.replaceAt] at h
      split at h
      · exact absurd h (by simp)
      split at h
      · exact absurd h (by simp)
      split at h
      · obtain rfl := Except.ok.inj h
        exact hv.arr_of_mem hvalue fun y hy => (List.mem_or_eq_of_mem_set hy).symm
      · exact absurd h (by simp)
  | _ => exact absurd h (by simp [Json.replaceAt])

theorem UniqueKeys.takeAt {v w : Json} {token : String} (hv : v.UniqueKeys)
    (h : v.takeAt token = .ok w) : w.UniqueKeys := by
  cases v with
  | obj ms =>
      rw [Json.takeAt] at h
      split at h
      · next u hu =>
          obtain rfl := Except.ok.inj h
          exact hv.get? hu
      · exact absurd h (by simp)
  | arr xs =>
      rw [Json.takeAt] at h
      split at h
      · exact absurd h (by simp)
      split at h
      · exact absurd h (by simp)
      split at h
      · next u hu =>
          obtain rfl := Except.ok.inj h
          exact hv.getElem? hu
      · exact absurd h (by simp)
  | _ => exact absurd h (by simp [Json.takeAt])

/-! ### Edits at a place -/

theorem UniqueKeys.insert {doc value doc' : Json} {tokens : List String} (hdoc : doc.UniqueKeys)
    (hvalue : value.UniqueKeys) (h : doc.insert tokens value = .ok doc') : doc'.UniqueKeys := by
  rw [Json.insert] at h
  split at h
  · obtain rfl := Except.ok.inj h
    exact hvalue
  · exact hdoc.editAt (fun _ _ hv => hvalue.insertAt hv) h

theorem UniqueKeys.remove {doc doc' : Json} {tokens : List String} (hdoc : doc.UniqueKeys)
    (h : doc.remove tokens = .ok doc') : doc'.UniqueKeys := by
  rw [Json.remove] at h
  split at h
  · exact absurd h (by simp)
  · exact hdoc.editAt (fun _ _ hv => hv.removeAt) h

theorem UniqueKeys.replace {doc value doc' : Json} {tokens : List String} (hdoc : doc.UniqueKeys)
    (hvalue : value.UniqueKeys) (h : doc.replace tokens value = .ok doc') : doc'.UniqueKeys := by
  rw [Json.replace] at h
  split at h
  · obtain rfl := Except.ok.inj h
    exact hvalue
  · exact hdoc.editAt (fun _ _ hv => hvalue.replaceAt hv) h

theorem UniqueKeys.take {doc value : Json} {tokens : List String} (hdoc : doc.UniqueKeys)
    (h : doc.take tokens = .ok value) : value.UniqueKeys := by
  rw [Json.take] at h
  split at h
  · obtain rfl := Except.ok.inj h
    exact hdoc
  · split at h
    · exact absurd h (by simp)
    · next container hwalk => exact (hdoc.walkTokens hwalk).takeAt h

/-- A moved value is a part of the document. -/
theorem UniqueKeys.relocate {doc doc' : Json} {source target : List String} (hdoc : doc.UniqueKeys)
    (h : doc.relocate source target = .ok doc') : doc'.UniqueKeys := by
  rw [Json.relocate] at h
  split at h
  · exact absurd h (by simp)
  split at h
  · exact absurd h (by simp)
  · next value htake =>
      split at h
      · obtain rfl := Except.ok.inj h
        exact hdoc
      split at h
      · exact absurd h (by simp)
      · next rest hremove => exact (hdoc.remove hremove).insert (hdoc.take htake) h

theorem UniqueKeys.duplicate {doc doc' : Json} {source target : List String}
    (hdoc : doc.UniqueKeys) (h : doc.duplicate source target = .ok doc') : doc'.UniqueKeys := by
  rw [Json.duplicate] at h
  split at h
  · exact absurd h (by simp)
  · next value htake => exact hdoc.insert (hdoc.take htake) h

end Json

/-! ### Patches -/

namespace Operation

/-- The value that an operation brings. -/
def value? : Operation → Option Json
  | add _ v => some v
  | replace _ v => some v
  | test _ v => some v
  | _ => none

theorem valueOf_eq_ok {name : String} {ms : Json.Members} {v : Json}
    (h : valueOf name ms = .ok v) : Json.Members.get? "value" ms = some v := by
  rw [valueOf] at h
  split at h
  · next u hu => rw [hu, Except.ok.inj h]
  · exact absurd h (by simp)

/-- An operation that is read brings no value, or the member `value` of its patch. -/
theorem value?_of_read {patch : Json} {o : Operation} {v : Json} (h : read patch = .ok o)
    (hv : o.value? = some v) : ∃ ms, patch = .obj ms ∧ Json.Members.get? "value" ms = some v := by
  cases patch with
  | obj ms =>
      refine ⟨ms, rfl, ?_⟩
      rw [read] at h
      split at h
      case h_1 | h_3 | h_6 =>
        obtain ⟨p, -, h⟩ := exists_of_bind_eq_ok h
        obtain ⟨u, hvalue, h⟩ := exists_of_bind_eq_ok h
        obtain rfl := Except.ok.inj h
        obtain rfl := Option.some.inj hv
        exact valueOf_eq_ok hvalue
      case h_2 =>
        obtain ⟨p, -, h⟩ := exists_of_bind_eq_ok h
        obtain rfl := Except.ok.inj h
        exact absurd hv (by simp [value?])
      case h_4 | h_5 =>
        obtain ⟨p, -, h⟩ := exists_of_bind_eq_ok h
        obtain ⟨s, -, h⟩ := exists_of_bind_eq_ok h
        obtain rfl := Except.ok.inj h
        exact absurd hv (by simp [value?])
      case h_7 => exact absurd h (by simp)
  | _ => exact absurd h (by simp [read])

/-- An operation leads to a document with its keys apart if the value that it brings has them
apart. -/
theorem apply_uniqueKeys {o : Operation} {doc doc' : Json} (hdoc : doc.UniqueKeys)
    (hvalue : ∀ v, o.value? = some v → v.UniqueKeys) (h : o.apply doc = .ok doc') :
    doc'.UniqueKeys := by
  rw [apply] at h
  split at h
  · exact absurd h (by simp)
  cases o with
  | add p v => exact hdoc.insert (hvalue v rfl) h
  | remove p => exact hdoc.remove h
  | replace p v => exact hdoc.replace (hvalue v rfl) h
  | move s p =>
      dsimp only at h
      split at h
      · exact hdoc.relocate h
      · exact absurd h (by simp)
  | copy s p =>
      dsimp only at h
      split at h
      · exact hdoc.duplicate h
      · exact absurd h (by simp)
  | test p v =>
      dsimp only at h
      split at h
      · obtain rfl := Except.ok.inj h
        exact hdoc
      · exact absurd h (by simp)

end Operation

/-- **A patch keeps the keys of objects apart.** -/
theorem applyPatch_uniqueKeys {doc patch doc' : Json} (hdoc : doc.UniqueKeys)
    (hpatch : patch.UniqueKeys) (h : applyPatch doc patch = .ok doc') : doc'.UniqueKeys := by
  rw [applyPatch] at h
  split at h
  · exact absurd h (by simp)
  · next o ho =>
      refine Operation.apply_uniqueKeys hdoc (fun v hv => ?_) h
      obtain ⟨ms, rfl, hmember⟩ := Operation.value?_of_read ho hv
      exact hpatch.get? hmember

end DesignRegistry
