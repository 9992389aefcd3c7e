/-
**What the reader gives.**

Not every document has a text that denotes it: an integer may have more digits than are read, a number
with a fraction may be none that 64 bits hold, and an object may have a key twice.  The reader gives
only documents that have one.

Main definitions:

* `Json.Legible` — a document whose numbers can be read, without an object that has a key twice.

Main results:

* `Json.Members.ofPairs_of_nodup` — members with different keys stay as they are;
* `Json.hasText_of_legible` — a legible document has a text;
* `Json.legible_of_parse` — **a document that was read is legible**.
-/
import DesignRegistry.Json.Printer
import DesignRegistry.Json.Reader
import DesignRegistry.Proofs.Json.Content
import DesignRegistry.Proofs.Number.Decimal

set_option relaxedAutoImplicit false
set_option autoImplicit false

namespace DesignRegistry

namespace Json

/-! ### Legible documents -/

mutual

/-- A document whose numbers can be read, without an object that has a key twice. -/
def Legible : Json → Prop
  | .int n => (natDigits n.natAbs).length ≤ maxIntegerDigits
  | .float x => x.Member
  | .arr xs => LegibleItems xs
  | .obj ms => (Members.keys ms).Nodup ∧ LegibleMembers ms
  | _ => True

/-- Items that are legible. -/
def LegibleItems : List Json → Prop
  | [] => True
  | x :: xs => Legible x ∧ LegibleItems xs

/-- Members whose values are legible. -/
def LegibleMembers : List (String × Json) → Prop
  | [] => True
  | (_, v) :: ms => Legible v ∧ LegibleMembers ms

end

theorem legibleMembers_iff {ms : Members} : LegibleMembers ms ↔ ∀ m ∈ ms, m.2.Legible := by
  induction ms with
  | nil => simp [LegibleMembers]
  | cons m ms ih =>
      obtain ⟨k, v⟩ := m
      simp [LegibleMembers, ih]

/-- The integers that are read have only so many digits. -/
theorem not_legible_of_le {n : ℕ} (h : maxIntegerDigits ≤ n) : ¬ (Json.int (10 ^ n)).Legible := by
  intro hlegible
  rw [Legible, Int.natAbs_pow] at hlegible
  have hless : 10 ^ n < 10 ^ (natDigits (10 ^ n)).length := lt_ten_pow_length (10 ^ n)
  exact absurd (hlegible.trans h) (Nat.not_le.2 ((Nat.pow_lt_pow_iff_right (by decide)).1 hless))

/-! ### Documents with a text -/

@[simp] theorem hasText_null : hasText .null = true := rfl
@[simp] theorem hasText_bool (b : Bool) : hasText (.bool b) = true := rfl
@[simp] theorem hasText_float (x : Binary64) : hasText (.float x) = true := rfl
@[simp] theorem hasText_str (s : String) : hasText (.str s) = true := rfl

theorem hasText_int_iff {n : Int} : hasText (.int n) = true ↔ (Json.int n).Legible := by
  rw [hasText, Legible, decide_eq_true_iff]

@[simp] theorem hasText_arr {xs : List Json} :
    hasText (.arr xs) = true ↔ ∀ x ∈ xs, x.hasText = true := by
  rw [hasText]
  induction xs with
  | nil => simp [hasTextItems]
  | cons x xs ih => simp [hasTextItems, ih]

@[simp] theorem hasText_obj {ms : Members} :
    hasText (.obj ms) = true ↔ ∀ m ∈ ms, m.2.hasText = true := by
  rw [hasText]
  induction ms with
  | nil => simp [hasTextMembers]
  | cons m ms ih =>
      obtain ⟨k, v⟩ := m
      simp [hasTextMembers, ih]

mutual

/-- A legible document has a text. -/
theorem hasText_of_legible : ∀ v : Json, v.Legible → v.hasText = true
  | .null, _ => rfl
  | .bool _, _ => rfl
  | .int _, h => hasText_int_iff.2 h
  | .float _, _ => rfl
  | .str _, _ => rfl
  | .arr xs, h => hasTextItems_of_legible xs h
  | .obj ms, h => hasTextMembers_of_legible ms h.2

theorem hasTextItems_of_legible : ∀ xs : List Json, LegibleItems xs → hasTextItems xs = true
  | [], _ => rfl
  | x :: xs, h => Bool.and_eq_true_iff.2 ⟨hasText_of_legible x h.1, hasTextItems_of_legible xs h.2⟩

theorem hasTextMembers_of_legible : ∀ ms : Members, LegibleMembers ms → hasTextMembers ms = true
  | [], _ => rfl
  | (_, v) :: ms, h =>
      Bool.and_eq_true_iff.2 ⟨hasText_of_legible v h.1, hasTextMembers_of_legible ms h.2⟩

end

/-- A power of ten that is too long has no text. -/
theorem hasText_int_pow {n : ℕ} (h : maxIntegerDigits ≤ n) : hasText (.int (10 ^ n)) = false := by
  rw [Bool.eq_false_iff]
  exact fun htext => not_legible_of_le h (hasText_int_iff.1 htext)

/-- Neither has an object that holds it. -/
theorem hasText_obj_int_pow {key : String} {n : ℕ} (h : maxIntegerDigits ≤ n) :
    hasText (.obj [(key, .int (10 ^ n))]) = false := by
  rw [Bool.eq_false_iff, ne_eq, hasText_obj]
  intro hall
  have hlong := hall _ List.mem_cons_self
  rw [hasText_int_pow h] at hlong
  exact nomatch hlong

/-! ### Members in turn -/

namespace Members

theorem put_of_notMem {key : String} {ms : Members} (h : key ∉ keys ms) (v : Json) :
    put key v ms = ms ++ [(key, v)] := by
  induction ms with
  | nil => rfl
  | cons m ms ih =>
      obtain ⟨k, w⟩ := m
      rw [keys_cons, List.mem_cons, not_or] at h
      rw [put, if_neg (Ne.symm h.1), ih h.2, List.cons_append]

/-- What holds of no members, and is kept when one of the pairs is put, holds of the members that
pairs give. -/
theorem ofPairs_induction {P : Members → Prop} {pairs : List (String × Json)} (hnil : P [])
    (hput : ∀ ms, P ms → ∀ m ∈ pairs, P (put m.1 m.2 ms)) : P (ofPairs pairs) := by
  have hfold : ∀ rest ⊆ pairs, ∀ ms, P ms →
      P (rest.foldl (fun ms m => put m.1 m.2 ms) ms) := by
    intro rest
    induction rest with
    | nil => exact fun _ ms h => h
    | cons m rest ih =>
        intro hsub ms h
        obtain ⟨hm, hrest⟩ := List.cons_subset.1 hsub
        exact ih hrest _ (hput ms h m hm)
  exact hfold pairs (List.Subset.refl _) [] hnil

theorem nodup_keys_ofPairs (pairs : List (String × Json)) : (keys (ofPairs pairs)).Nodup :=
  ofPairs_induction (P := fun ms => (keys ms).Nodup) List.nodup_nil
    fun _ h m _ => nodup_keys_put h m.1 m.2

/-- Members with different keys stay as they are. -/
theorem ofPairs_of_nodup {ms : Members} (h : (keys ms).Nodup) : ofPairs ms = ms := by
  have hfold : ∀ rest front : Members, (keys (front ++ rest)).Nodup →
      rest.foldl (fun ms m => put m.1 m.2 ms) front = front ++ rest := by
    intro rest
    induction rest with
    | nil => exact fun front _ => (List.append_nil front).symm
    | cons m rest ih =>
        intro front hfront
        have hnot : m.1 ∉ keys front := by
          rw [keys, List.map_append, List.nodup_append] at hfront
          exact fun hmem => hfront.2.2 _ hmem _ List.mem_cons_self rfl
        rw [List.foldl_cons, put_of_notMem hnot, ih (front ++ [m]) (by simpa using hfront),
          List.append_assoc]
        rfl
  exact hfold ms [] h

end Members

/-- Pairs of legible values give a legible object. -/
theorem legible_ofPairs {pairs : List (String × Json)} (h : ∀ m ∈ pairs, m.2.Legible) :
    (Json.obj (Members.ofPairs pairs)).Legible := by
  refine ⟨Members.nodup_keys_ofPairs pairs, legibleMembers_iff.2 ?_⟩
  refine Members.ofPairs_induction (P := fun ms => ∀ m ∈ ms, m.2.Legible)
    (fun m hm => absurd hm List.not_mem_nil) fun ms hms m hm n hn => ?_
  rcases Members.mem_put hn with rfl | hn
  · exact h m hm
  · exact hms n hn

/-! ### Numbers -/

theorem digits_of_integerPart? {s ds rest : List Char} (h : integerPart? s = some (ds, rest)) :
    ds ≠ [] ∧ ∀ c ∈ ds, c.isDigit = true := by
  rw [integerPart?.eq_def] at h
  split at h
  · obtain ⟨rfl, -⟩ := Prod.mk.inj (Option.some.inj h)
    exact ⟨List.cons_ne_nil _ _, List.all_eq_true.1 (by decide)⟩
  · next c cs =>
      split at h
      · next hc =>
          obtain ⟨rfl, -⟩ := Prod.mk.inj (Option.some.inj h)
          rw [List.takeWhile_cons_of_pos hc]
          refine ⟨List.cons_ne_nil _ _, fun d hd => ?_⟩
          rcases List.mem_cons.1 hd with rfl | hd
          · exact hc
          · exact List.all_eq_true.1 List.all_takeWhile d hd
      · exact absurd h (by simp)
  · exact absurd h (by simp)

theorem legible_of_numberAt {s rest : List Char} {v : Json} (h : numberAt s = .ok (v, rest)) :
    v.Legible := by
  rw [numberAt.eq_def] at h
  split at h
  next negative body hsign =>
    split at h
    · exact absurd h (by simp)
    · next digits rest₁ hwhole =>
        obtain ⟨hne, hdigits⟩ := digits_of_integerPart? hwhole
        split at h
        split at h
        split at h
        · split at h
          · exact absurd h (by simp)
          · next hcount =>
              obtain ⟨rfl, -⟩ := Prod.mk.inj (Except.ok.inj h)
              -- an integer has no more digits than its literal, whose digits were counted
              have habs : (if negative = true then -(natOfDigits digits : Int)
                  else natOfDigits digits).natAbs = natOfDigits digits := by
                split
                · rw [Int.natAbs_neg, Int.natAbs_natCast]
                · rw [Int.natAbs_natCast]
              rw [Legible, habs]
              exact (length_natDigits_natOfDigits hne hdigits).trans (Nat.not_lt.1 hcount)
        · obtain ⟨rfl, -⟩ := Prod.mk.inj (Except.ok.inj h)
          exact Decimal.member_toBinary64 _

theorem legible_of_mem_words {w : String × Json} (h : w ∈ words) : w.2.Legible := by
  simp only [words, List.mem_cons, List.not_mem_nil, or_false] at h
  rcases h with rfl | rfl | rfl | rfl | rfl | rfl <;> trivial

theorem legible_of_scalarAt {s rest : List Char} {v : Json} (h : scalarAt s = .ok (v, rest)) :
    v.Legible := by
  rw [scalarAt] at h
  split at h
  · next found hfound =>
      obtain rfl := Except.ok.inj h
      obtain ⟨w, hw, hword⟩ := List.exists_of_findSome?_eq_some hfound
      obtain ⟨rest', -, heq⟩ := Option.map_eq_some_iff.1 hword
      obtain ⟨rfl, -⟩ := Prod.mk.inj heq
      exact legible_of_mem_words hw
  · exact legible_of_numberAt h

/-! ### Values -/

/-- What the three readers of values give, with one fuel. -/
structure GivesLegible (fuel : ℕ) : Prop where
  value : ∀ s v rest, valueAt fuel s = .ok (v, rest) → v.Legible
  items : ∀ s xs rest, itemsAt fuel s = .ok (xs, rest) → LegibleItems xs
  members : ∀ s ms rest, membersAt fuel s = .ok (ms, rest) → ∀ m ∈ ms, m.2.Legible

theorem GivesLegible.value_succ {fuel : ℕ} (h : GivesLegible fuel) {s rest : List Char} {v : Json}
    (hread : valueAt (fuel + 1) s = .ok (v, rest)) : v.Legible := by
  rw [valueAt.eq_def] at hread
  dsimp only at hread
  split at hread
  · obtain ⟨⟨t, rest'⟩, -, heq⟩ := exists_of_map_eq_ok hread
    obtain ⟨rfl, -⟩ := Prod.mk.inj heq
    trivial
  · split at hread
    · obtain ⟨rfl, -⟩ := Prod.mk.inj (Except.ok.inj hread)
      trivial
    · obtain ⟨⟨xs, rest'⟩, hitems, heq⟩ := exists_of_map_eq_ok hread
      obtain ⟨rfl, -⟩ := Prod.mk.inj heq
      exact h.items _ _ _ hitems
  · split at hread
    · obtain ⟨rfl, -⟩ := Prod.mk.inj (Except.ok.inj hread)
      exact ⟨List.nodup_nil, trivial⟩
    · obtain ⟨⟨ms, rest'⟩, hmembers, heq⟩ := exists_of_map_eq_ok hread
      obtain ⟨rfl, -⟩ := Prod.mk.inj heq
      exact legible_ofPairs (h.members _ _ _ hmembers)
  · exact legible_of_scalarAt hread

theorem GivesLegible.items_succ {fuel : ℕ} (h : GivesLegible fuel) {s rest : List Char}
    {xs : List Json} (hread : itemsAt (fuel + 1) s = .ok (xs, rest)) : LegibleItems xs := by
  rw [itemsAt] at hread
  obtain ⟨⟨x, rest₁⟩, hx, hread⟩ := exists_of_bind_eq_ok hread
  dsimp only at hread
  split at hread
  · obtain ⟨rfl, -⟩ := Prod.mk.inj (Except.ok.inj hread)
    exact ⟨h.value _ _ _ hx, trivial⟩
  · obtain ⟨⟨ys, rest'⟩, hitems, heq⟩ := exists_of_map_eq_ok hread
    obtain ⟨rfl, -⟩ := Prod.mk.inj heq
    exact ⟨h.value _ _ _ hx, h.items _ _ _ hitems⟩
  · exact absurd hread (by simp)

theorem GivesLegible.members_succ {fuel : ℕ} (h : GivesLegible fuel) {s rest : List Char}
    {ms : List (String × Json)} (hread : membersAt (fuel + 1) s = .ok (ms, rest)) :
    ∀ m ∈ ms, m.2.Legible := by
  rw [membersAt.eq_def] at hread
  dsimp only at hread
  split at hread
  · obtain ⟨⟨k, rest₁⟩, -, hread⟩ := exists_of_bind_eq_ok hread
    dsimp only at hread
    split at hread
    · obtain ⟨⟨v, rest₂⟩, hv, hread⟩ := exists_of_bind_eq_ok hread
      dsimp only at hread
      split at hread
      · obtain ⟨rfl, -⟩ := Prod.mk.inj (Except.ok.inj hread)
        exact List.forall_mem_singleton.2 (h.value _ _ _ hv)
      · obtain ⟨⟨ns, rest'⟩, hmembers, heq⟩ := exists_of_map_eq_ok hread
        obtain ⟨rfl, -⟩ := Prod.mk.inj heq
        exact List.forall_mem_cons.2 ⟨h.value _ _ _ hv, h.members _ _ _ hmembers⟩
      · exact absurd hread (by simp)
    · exact absurd hread (by simp)
  · exact absurd hread (by simp)

theorem givesLegible (fuel : ℕ) : GivesLegible fuel := by
  induction fuel with
  | zero =>
      exact ⟨fun s v rest h => absurd h (by simp [valueAt]),
        fun s xs rest h => absurd h (by simp [itemsAt]),
        fun s ms rest h => absurd h (by simp [membersAt])⟩
  | succ fuel ih =>
      exact ⟨fun _ _ _ h => ih.value_succ h, fun _ _ _ h => ih.items_succ h,
        fun _ _ _ h => ih.members_succ h⟩

/-- A document that was read is legible. -/
theorem legible_of_parse {text : String} {v : Json} (h : parse text = .ok v) : v.Legible := by
  rw [parse] at h
  split at h
  · next found hfound =>
      obtain rfl := Except.ok.inj h
      rw [documentAt] at hfound
      split at hfound
      · exact absurd hfound (by simp [throw, throwThe, MonadExceptOf.throw, bind, Except.bind])
      · obtain ⟨⟨v, rest⟩, hv, hend⟩ := exists_of_bind_eq_ok hfound
        dsimp only at hend
        split at hend
        · obtain rfl := Except.ok.inj hend
          exact (givesLegible _).value _ _ _ hv
        · exact absurd hend (by simp)
  · exact absurd h (by simp)

end Json

end DesignRegistry
