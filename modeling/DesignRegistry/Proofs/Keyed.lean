/-
**What is found under a key.**

Values that come one after the other leave under each key what came last, or, where they are gathered, all
that came in the order in which they came.  The keys stand in the order in which they first came up.  Each
statement is carried from the values so far to one more value.

Main definitions:

* `Keyed.valuesOf` — the values that are given under a key.

Main results:

* `Keyed.get?_ofPairs` — **the last value of each key**;
* `Keyed.get?_gather`, `Keyed.keys_gather`, `Keyed.gather_eq` — **all values of each key**.
-/
import DesignRegistry.Keyed
import DesignRegistry.Proofs.Prelude
import Mathlib.Data.List.Induction

set_option relaxedAutoImplicit false
set_option autoImplicit false

namespace DesignRegistry

namespace Keyed

variable {α : Type}

/-- The values that are given under a key, in order. -/
def valuesOf (key : String) (pairs : List (String × α)) : List α :=
  (pairs.filter fun p => p.1 == key).map Prod.snd

theorem valuesOf_concat_self (key : String) (pairs : List (String × α)) (value : α) :
    valuesOf key (pairs ++ [(key, value)]) = valuesOf key pairs ++ [value] := by
  simp [valuesOf]

theorem valuesOf_concat_of_ne {key other : String} (h : other ≠ key) (pairs : List (String × α))
    (value : α) : valuesOf other (pairs ++ [(key, value)]) = valuesOf other pairs := by
  simp [valuesOf, Ne.symm h]

theorem valuesOf_eq_nil_iff {key : String} {pairs : List (String × α)} :
    valuesOf key pairs = [] ↔ key ∉ pairs.map Prod.fst := by
  rw [valuesOf, List.map_eq_nil_iff, List.filter_eq_nil_iff]
  simp only [beq_iff_eq, List.mem_map, not_exists, not_and]

/-! ### One after the other -/

theorem ofPairs_concat (pairs : List (String × α)) (key : String) (value : α) :
    ofPairs (pairs ++ [(key, value)]) = put key value (ofPairs pairs) := by
  rw [ofPairs, List.foldl_append]
  rfl

theorem gather_concat (pairs : List (String × α)) (key : String) (value : α) :
    gather (pairs ++ [(key, value)]) = add key value (gather pairs) := by
  rw [gather, List.foldl_append]
  rfl

/-- Under a key stands what came last. -/
theorem get?_ofPairs (key : String) (pairs : List (String × α)) :
    get? key (ofPairs pairs) = (valuesOf key pairs).getLast? := by
  induction pairs using List.reverseRecOn with
  | nil => rfl
  | append_singleton pairs p ih =>
      obtain ⟨k, v⟩ := p
      rw [ofPairs_concat]
      by_cases h : key = k
      · subst h
        rw [get?_put_self, valuesOf_concat_self, List.getLast?_concat]
      · rw [get?_put_of_ne h, valuesOf_concat_of_ne h, ih]

/-- Under a key stands all that came, if anything did. -/
theorem get?_gather (key : String) (pairs : List (String × α)) :
    get? key (gather pairs) =
      if valuesOf key pairs = [] then none else some (valuesOf key pairs) := by
  induction pairs using List.reverseRecOn with
  | nil => rfl
  | append_singleton pairs p ih =>
      obtain ⟨k, v⟩ := p
      rw [gather_concat]
      by_cases h : key = k
      · subst h
        have hsome : valuesOf key pairs ++ [v] ≠ [] := List.concat_ne_nil v _
        rw [get?_add_self, ih, valuesOf_concat_self, if_neg hsome]
        split
        · next hnone => rw [hnone, Option.getD_none]
        · rw [Option.getD_some]
      · rw [get?_add_of_ne h, valuesOf_concat_of_ne h, ih]

/-! ### Keys -/

/-- A key that is set keeps its place or comes last. -/
theorem keys_put (key : String) (value : α) (ks : Keyed α) :
    (put key value ks).map Prod.fst =
      if (ks.map Prod.fst).contains key then ks.map Prod.fst else ks.map Prod.fst ++ [key] := by
  induction ks with
  | nil => rfl
  | cons p ks ih =>
      obtain ⟨k, v⟩ := p
      rw [put]
      by_cases h : k = key
      · subst h
        simp
      · rw [if_neg h, List.map_cons, ih, List.map_cons, List.contains_cons,
          beq_false_of_ne (Ne.symm h), Bool.false_or]
        split <;> rfl

/-- A key that is added to keeps its place or comes last. -/
theorem keys_add (key : String) (value : α) (ks : Keyed (List α)) :
    (add key value ks).map Prod.fst =
      if (ks.map Prod.fst).contains key then ks.map Prod.fst else ks.map Prod.fst ++ [key] := by
  rw [add_eq_put, keys_put]

/-- The keys stand in the order in which they first came up, if each one keeps its place or comes last. -/
theorem keys_foldl {β : Type} {step : Keyed β → String × α → Keyed β}
    (hstep : ∀ ks p, (step ks p).map Prod.fst =
      if (ks.map Prod.fst).contains p.1 then ks.map Prod.fst else ks.map Prod.fst ++ [p.1])
    (pairs : List (String × α)) :
    (pairs.foldl step []).map Prod.fst = (pairs.map Prod.fst).eraseDups := by
  induction pairs using List.reverseRecOn with
  | nil => rfl
  | append_singleton pairs p ih =>
      rw [List.foldl_append, List.foldl_cons, List.foldl_nil, hstep, ih, List.map_append,
        List.map_singleton, eraseDups_concat, contains_eraseDups]

theorem keys_gather (pairs : List (String × α)) :
    (gather pairs).map Prod.fst = (pairs.map Prod.fst).eraseDups :=
  keys_foldl (fun ks p => keys_add p.1 p.2 ks) pairs

/-- Values under different keys are told by the keys and what each of them holds. -/
theorem eq_map_of_keys {ks : Keyed α} {value : String → α} (hdistinct : (ks.map Prod.fst).Nodup)
    (h : ∀ key ∈ ks.map Prod.fst, get? key ks = some (value key)) :
    ks = (ks.map Prod.fst).map fun key => (key, value key) := by
  induction ks with
  | nil => rfl
  | cons p ks ih =>
      obtain ⟨k, v⟩ := p
      obtain ⟨hk, hdistinct⟩ := List.nodup_cons.1 hdistinct
      obtain ⟨hfirst, hothers⟩ := List.forall_mem_cons.1 h
      have hv : v = value k := by simpa [get?] using hfirst
      have hrest : ∀ key ∈ ks.map Prod.fst, get? key ks = some (value key) := by
        intro key hkey
        have hne : k ≠ key := fun heq => hk (heq ▸ hkey)
        have hget := hothers key hkey
        rwa [get?, if_neg hne] at hget
      rw [List.map_cons, List.map_cons, ← ih hdistinct hrest, ← hv]

/-- **All values of each key**, the keys in the order in which they first came up. -/
theorem gather_eq (pairs : List (String × α)) :
    gather pairs = (pairs.map Prod.fst).eraseDups.map fun key => (key, valuesOf key pairs) := by
  rw [← keys_gather]
  refine eq_map_of_keys ?_ fun key hkey => ?_
  · rw [keys_gather]
    exact nodup_eraseDups _
  · rw [keys_gather, List.mem_eraseDups] at hkey
    rw [get?_gather, if_neg fun hnone => valuesOf_eq_nil_iff.1 hnone hkey]

end Keyed

end DesignRegistry
