/-
**Lists of pairs by key.**

Some results are looked up by a name and still shown in the order in which the names first came up.
They are lists of pairs; setting or adding under a name that is present leaves the order alone.

Main definitions

* `Keyed` — such a list;
* `Keyed.put`, `Keyed.add` — a value set under a key, and one added to those under a key.

Main results

* `Keyed.get?_put_self`, `Keyed.get?_put_of_ne` — what a key holds after `put`;
* `Keyed.get?_add_self`, `Keyed.get?_add_of_ne` — what a key holds after `add`.
-/

namespace DesignRegistry

/-- Values by key, in the order in which the keys first came up. -/
abbrev Keyed (α : Type) := List (String × α)

namespace Keyed

variable {α : Type}

/-- The value of a key. -/
def get? (key : String) : Keyed α → Option α
  | [] => none
  | (k, v) :: rest => if k = key then some v else get? key rest

/-- Sets a key: a present key keeps its place, a new one goes last. -/
def put (key : String) (value : α) : Keyed α → Keyed α
  | [] => [(key, value)]
  | (k, v) :: rest => if k = key then (key, value) :: rest else (k, v) :: put key value rest

/-- Adds a value to those under a key. -/
def add (key : String) (value : α) : Keyed (List α) → Keyed (List α)
  | [] => [(key, [value])]
  | (k, vs) :: rest =>
    if k = key then (key, vs ++ [value]) :: rest else (k, vs) :: add key value rest

/-- Values given one after the other: a later value replaces an earlier one in its place. -/
def ofPairs (pairs : List (String × α)) : Keyed α :=
  pairs.foldl (fun ks (k, v) => put k v ks) []

/-- Values gathered by key. -/
def gather (pairs : List (String × α)) : Keyed (List α) :=
  pairs.foldl (fun ks (k, v) => add k v ks) []

@[simp] theorem get?_nil (key : String) : get? key ([] : Keyed α) = none := rfl

/-- A key that was set has the value it was set to. -/
@[simp] theorem get?_put_self (key : String) (value : α) (ks : Keyed α) :
    get? key (put key value ks) = some value := by
  induction ks with
  | nil => simp [put, get?]
  | cons p rest ih =>
    obtain ⟨k, v⟩ := p
    by_cases h : k = key <;> simp [put, get?, h, ih]

/-- Setting a key leaves the others alone. -/
theorem get?_put_of_ne {key other : String} (h : other ≠ key) (value : α) (ks : Keyed α) :
    get? other (put key value ks) = get? other ks := by
  induction ks with
  | nil => simp [put, get?, Ne.symm h]
  | cons p rest ih =>
    obtain ⟨k, v⟩ := p
    by_cases hk : k = key
    · subst hk
      simp [put, get?, Ne.symm h]
    · simp [put, get?, hk, ih]

/-- Adding to a key sets it to what it had and one more. -/
theorem add_eq_put (key : String) (value : α) (ks : Keyed (List α)) :
    add key value ks = put key ((get? key ks).getD [] ++ [value]) ks := by
  induction ks with
  | nil => rfl
  | cons p rest ih =>
    obtain ⟨k, vs⟩ := p
    by_cases h : k = key <;> simp [add, put, get?, h, ih]

/-- A value that was added comes after those that the key had. -/
@[simp] theorem get?_add_self (key : String) (value : α) (ks : Keyed (List α)) :
    get? key (add key value ks) = some ((get? key ks).getD [] ++ [value]) := by
  rw [add_eq_put, get?_put_self]

/-- Adding under a key leaves the others alone. -/
theorem get?_add_of_ne {key other : String} (h : other ≠ key) (value : α) (ks : Keyed (List α)) :
    get? other (add key value ks) = get? other ks := by
  rw [add_eq_put, get?_put_of_ne h]

end Keyed

end DesignRegistry
