/-
**Moves keep what a difference does.**

A removal and a later addition of one value become a move, as an addition and a later removal do.  The
edits in between then run with the value still in the document, or not yet in it, at places that are
shifted beside it.  That they do the same there is a commutation: a square of two documents that
differ in the value alone, and of what an edit makes of them.  The places of the value are those at
which the documents differ, so that sources and targets never move each other, and only places of one
role in one array are shifted.

Main results:

* `Slot.apart_or_beside` — places at which two documents differ are apart, or beside each other and
  of one role;
* `carries_keeping`, `carries_lacking` — an edit does the same with a value still, or not yet, in
  the document;
* `steps_joinEdit` — joining an edit to others keeps what they do;
* `steps_withMoves` — **a difference with moves does what the plain difference does**.
-/
import DesignRegistry.Proofs.Patch.Difference

set_option relaxedAutoImplicit false
set_option autoImplicit false

namespace DesignRegistry

variable {x y : Json}

/-! ### Slots and their shifts -/

theorem Slot.ne_nil {r : Role} {p : Place} (h : Slot x y r p) (hr : r ≠ .leaf) : p ≠ [] := by
  cases h <;> first | exact absurd rfl hr | simp

/-- Places at which two documents differ are apart, or of one role and beside each other. -/
theorem Slot.apart_or_beside {R S : Change} {r r' : Role} {p q : Place} (hp : Slot x y r p)
    (hq : Slot x y r' q) (hR : r = .leaf → Stays R) (hS : r' = .leaf → Stays S) :
    Apart R S p q ∨ r = r' ∧ (r = .leaf ∨ Beside p q) := by
  -- the first place says of which kind the two documents are, and that leaves few kinds of second
  -- place
  induction hp generalizing q with
  | @gone xs ys k hkx hky =>
      cases hq with
      | gone _ _ => exact .inr ⟨rfl, .inr (.keys _ _)⟩
      | fresh hlx _ => exact .inl (.key fun h => hlx (h ▸ hkx))
      | leaf hobj _ => exact (hobj _ _ rfl rfl).elim
      | member _ hly _ =>
          refine .inl (.key fun h => hky ?_)
          rw [h, Json.Members.mem_keys_iff, hly]
          rfl
  | @fresh xs ys k hkx hky =>
      cases hq with
      | gone hlx _ => exact .inl (.key fun h => hkx (h ▸ hlx))
      | fresh _ _ => exact .inr ⟨rfl, .inr (.keys _ _)⟩
      | leaf hobj _ => exact (hobj _ _ rfl rfl).elim
      | member hlx _ _ =>
          refine .inl (.key fun h => hkx ?_)
          rw [h, Json.Members.mem_keys_iff, hlx]
          rfl
  | surplus hle hi =>
      cases hq with
      | surplus _ _ => exact .inr ⟨rfl, .inr (.items _ _)⟩
      | shortage hlt _ => exact absurd hlt (Nat.not_lt_of_le hle)
      | leaf _ harr => exact (harr _ _ rfl rfl).elim
      | item hj _ _ hq =>
          refine .inl (.back (Nat.lt_of_lt_of_le hj hi) ?_)
          rintro rfl
          by_contra hstays
          exact hq.ne_nil (fun hr' => hstays (hS hr')) rfl
  | shortage hlt hi =>
      cases hq with
      | surplus hle _ => exact absurd hlt (Nat.not_lt_of_le hle)
      | shortage _ _ => exact .inr ⟨rfl, .inr (.items _ _)⟩
      | leaf _ harr => exact (harr _ _ rfl rfl).elim
      | item hj _ _ hq =>
          refine .inl (.back (Nat.lt_of_lt_of_le hj hi) ?_)
          rintro rfl
          by_contra hstays
          exact hq.ne_nil (fun hr' => hstays (hS hr')) rfl
  | leaf hobj harr =>
      cases hq with
      | leaf _ _ => exact .inr ⟨rfl, .inl rfl⟩
      | gone _ _ | fresh _ _ | member _ _ _ => exact (hobj _ _ rfl rfl).elim
      | surplus _ _ | shortage _ _ | item _ _ _ _ => exact (harr _ _ rfl rfl).elim
  | @member xs ys k x y r p hx hy hp ih =>
      cases hq with
      | gone _ hly =>
          refine .inl (.key fun h => hly ?_)
          rw [← h, Json.Members.mem_keys_iff, hy]
          rfl
      | fresh hlx _ =>
          refine .inl (.key fun h => hlx ?_)
          rw [← h, Json.Members.mem_keys_iff, hx]
          rfl
      | leaf hobj _ => exact (hobj _ _ rfl rfl).elim
      | @member _ _ l x' y' _ q hx' hy' hq =>
          by_cases hkl : k = l
          · subst hkl
            obtain rfl := Option.some.inj (hx.symm.trans hx')
            obtain rfl := Option.some.inj (hy.symm.trans hy')
            rcases ih hq hR with hapart | ⟨hr, hleaf | hbeside⟩
            · exact .inl hapart.step
            · exact .inr ⟨hr, .inl hleaf⟩
            · exact .inr ⟨hr, .inr (.step _ hbeside)⟩
          · exact .inl (.key hkl)
  | @item xs ys i x y r p hi hx hy hp ih =>
      have hpR : p = [] → Stays R := by
        rintro rfl
        by_contra hstays
        exact hp.ne_nil (fun hr => hstays (hR hr)) rfl
      cases hq with
      | surplus _ hj => exact .inl (.front (Nat.lt_of_lt_of_le hi hj) hpR)
      | shortage _ hj => exact .inl (.front (Nat.lt_of_lt_of_le hi hj) hpR)
      | leaf _ harr => exact (harr _ _ rfl rfl).elim
      | @item _ _ j x' y' _ q hj hx' hy' hq =>
          rcases Nat.lt_trichotomy i j with hij | rfl | hij
          · exact .inl (.front hij hpR)
          · obtain rfl := Option.some.inj (hx.symm.trans hx')
            obtain rfl := Option.some.inj (hy.symm.trans hy')
            rcases ih hq hR with hapart | ⟨hr, hleaf | hbeside⟩
            · exact .inl hapart.step
            · exact .inr ⟨hr, .inl hleaf⟩
            · exact .inr ⟨hr, .inr (.step _ hbeside)⟩
          · refine .inl (.back hij ?_)
            rintro rfl
            by_contra hstays
            exact hq.ne_nil (fun hr => hstays (hS hr)) rfl

/-- Places of different roles are apart. -/
theorem Slot.apart {R S : Change} {r r' : Role} {p q : Place} (hp : Slot x y r p)
    (hq : Slot x y r' q) (hne : r ≠ r') (hR : r = .leaf → Stays R) (hS : r' = .leaf → Stays S) :
    Apart R S p q :=
  (hp.apart_or_beside hq hR hS).resolve_right fun h => hne h.1

theorem besideItem_single_key (change : ℕ → Bool → ℕ → ℕ) (k : String) (q : Place) :
    besideItem change [.key k] q = q := by
  cases q with
  | nil => rfl
  | cons s q =>
      cases s with
      | key l => by_cases h : k = l <;> simp [besideItem, h]
      | index j => simp [besideItem]

/-- A shift beside a place at which two documents differ leads to such a place. -/
theorem Slot.besideItem {change : ℕ → Bool → ℕ → ℕ} (hc : IsShift change) {r r' : Role}
    {p q : Place} (hp : Slot x y r p) (hr : r ≠ .leaf) (hq : Slot x y r' q) :
    Slot x y r' (besideItem change p q) := by
  -- the induction follows the first place; only an item of the array that it ends in can be shifted
  induction hp generalizing q with
  | gone _ _ => rwa [besideItem_single_key]
  | fresh _ _ => rwa [besideItem_single_key]
  | surplus hle hi =>
      cases hq with
      | surplus _ hj => exact .surplus hle (hc.bound _ _ _ _ hi hj)
      | shortage hlt _ => exact absurd hlt (Nat.not_lt_of_le hle)
      | leaf _ harr => exact (harr _ _ rfl rfl).elim
      | item hj hx hy hq =>
          rw [DesignRegistry.besideItem, hc.front _ _ _ (Nat.lt_of_lt_of_le hj hi)]
          exact .item hj hx hy hq
  | shortage hlt hi =>
      cases hq with
      | surplus hle _ => exact absurd hlt (Nat.not_lt_of_le hle)
      | shortage _ hj => exact .shortage hlt (hc.bound _ _ _ _ hi hj)
      | leaf _ harr => exact (harr _ _ rfl rfl).elim
      | item hj hx hy hq =>
          rw [DesignRegistry.besideItem, hc.front _ _ _ (Nat.lt_of_lt_of_le hj hi)]
          exact .item hj hx hy hq
  | leaf _ _ => exact absurd rfl hr
  | @member xs ys k x y r p hx hy hp ih =>
      cases hq with
      | gone hlx hly =>
          have hk : k ∈ Json.Members.keys ys := by rw [Json.Members.mem_keys_iff, hy]; rfl
          rw [besideItem_key _ _ _ _ _ (ne_of_mem_of_not_mem hk hly)]
          exact .gone hlx hly
      | fresh hlx hly =>
          have hk : k ∈ Json.Members.keys xs := by rw [Json.Members.mem_keys_iff, hx]; rfl
          rw [besideItem_key _ _ _ _ _ (ne_of_mem_of_not_mem hk hlx)]
          exact .fresh hlx hly
      | leaf hobj _ => exact (hobj _ _ rfl rfl).elim
      | @member _ _ l x' y' _ q hx' hy' hq =>
          by_cases hkl : k = l
          · subst hkl
            obtain rfl := Option.some.inj (hx.symm.trans hx')
            obtain rfl := Option.some.inj (hy.symm.trans hy')
            rw [besideItem_step _ _ _ (hp.ne_nil hr)]
            exact .member hx hy (ih hr hq)
          · rw [besideItem_key _ _ _ _ _ hkl]
            exact .member hx' hy' hq
  | @item xs ys i x y r p hi hx hy hp ih =>
      cases hq with
      | surplus hle hj =>
          rw [besideItem_index_of_ne _ _ _ _ (hp.ne_nil hr) (by omega)]
          exact .surplus hle hj
      | shortage hlt hj =>
          rw [besideItem_index_of_ne _ _ _ _ (hp.ne_nil hr) (by omega)]
          exact .shortage hlt hj
      | leaf _ harr => exact (harr _ _ rfl rfl).elim
      | @item _ _ j x' y' _ q hj hx' hy' hq =>
          by_cases hij : i = j
          · subst hij
            obtain rfl := Option.some.inj (hx.symm.trans hx')
            obtain rfl := Option.some.inj (hy.symm.trans hy')
            rw [besideItem_step _ _ _ (hp.ne_nil hr)]
            exact .item hi hx hy (ih hr hq)
          · rw [besideItem_index_of_ne _ _ _ _ (hp.ne_nil hr) hij]
            exact .item hj hx' hy' hq

theorem Slot.afterAddition {r r' : Role} {p q : Place} (hp : Slot x y r p) (hr : r ≠ .leaf)
    (hq : Slot x y r' q) : Slot x y r' (afterAddition p q) :=
  hp.besideItem isShift_addition hr hq

theorem Slot.afterRemoval {r r' : Role} {p q : Place} (hp : Slot x y r p) (hr : r ≠ .leaf)
    (hq : Slot x y r' q) : Slot x y r' (afterRemoval p q) :=
  hp.besideItem isShift_removal hr hq

/-- A shift beside a place moves no place of another role. -/
theorem Slot.besideItem_of_ne {change : ℕ → Bool → ℕ → ℕ} (hc : IsShift change) {r r' : Role}
    {p q : Place} (hp : Slot x y r p) (hr : r ≠ .leaf) (hq : Slot x y r' q) (hne : r ≠ r') :
    DesignRegistry.besideItem change p q = q := by
  have hapart : Apart (Enters (.scalar .null)) (Becomes (.scalar .null)) p q :=
    hp.apart hq hne (fun h => absurd h hr) fun _ => stays_becomes _
  exact hapart.besideItem (not_stays_enters _) hc

/-! ### Squares -/

/-- Two additions at places of one role commute, with the places shifted. -/
theorem Slot.swap {r : Role} {p q : Place} (hp : Slot x y r p) (hq : Slot x y r q)
    (hr : r ≠ .leaf) {v w : Content} {a b c : Option Content} (hv : Inside (Enters v) p a b)
    (hw : Inside (Enters w) q b c) :
    ∃ d, Inside (Enters w) (DesignRegistry.afterRemoval p q) a d ∧
      Inside (Enters v) (DesignRegistry.afterAddition q p) d c := by
  rcases hp.apart_or_beside (R := flip (Enters v)) (S := Enters w) hq (fun h => absurd h hr)
    (fun h => absurd h hr) with hapart | ⟨_, hleaf | hbeside⟩
  · have hstays : ¬ Stays (flip (Enters v)) := fun h =>
      not_stays_enters v fun o o' ho => (h o' o ho).symm
    rw [DesignRegistry.afterRemoval, DesignRegistry.afterAddition,
      hapart.besideItem hstays isShift_removal,
      hapart.symm.besideItem (not_stays_enters w) isShift_addition]
    exact hapart.swap hv hw
  · exact absurd hleaf hr
  · exact hbeside.swap hv hw

/-- Where a place is after a removal does not depend on whether the removal was shifted by it. -/
theorem Slot.afterRemoval_afterAddition {r : Role} {p q : Place} (hp : Slot x y r p)
    (hq : Slot x y r q) (hr : r ≠ .leaf) :
    DesignRegistry.afterRemoval (DesignRegistry.afterAddition p q) p =
      DesignRegistry.afterRemoval q p := by
  rcases hp.apart_or_beside (R := Enters (.scalar .null)) (S := Enters (.scalar .null)) hq
    (fun h => absurd h hr) (fun h => absurd h hr) with hapart | ⟨_, hleaf | hbeside⟩
  · rw [DesignRegistry.afterAddition, hapart.besideItem (not_stays_enters _) isShift_addition]
  · exact absurd hleaf hr
  · exact hbeside.afterRemoval_afterAddition

/-- A change of edits beside a place carries the change `R` there over them: where two documents
differ by `R` at the place and one is edited, the changed edit does to the other what leaves the
results different by `R` at the new place. -/
def Carries (x y : Json) (change : Place → Edit → Edit × Place) (R : Change) (r : Role) : Prop :=
  ∀ p e, Slot x y r p → e.Fits (Slot x y) →
    (change p e).1.Fits (Slot x y) ∧ Slot x y r (change p e).2 ∧
      ∀ a b c, Inside R p a b → e.Turns a c →
        ∃ d, (change p e).1.Turns b d ∧ Inside R (change p e).2 c d

/-- A removal with a value still in the document. -/
theorem Slot.keep_removal {p q : Place} (hp : Slot x y .source p) (hq : Slot x y .source q)
    {v w : Content} {a b c : Option Content} (hv : Inside (Enters v) p a b)
    (hw : Inside (Leaves w) q a c) :
    ∃ d, Inside (Leaves w) (DesignRegistry.afterAddition p q) b d ∧
      Inside (Enters v)
        (DesignRegistry.afterRemoval (DesignRegistry.afterAddition p q) p) c d := by
  obtain ⟨d, hvd, hwd⟩ := hq.swap hp (by simp) (inside_leaves.1 hw) hv
  rw [hp.afterRemoval_afterAddition hq (by simp)]
  exact ⟨d, inside_leaves.2 hwd, hvd⟩

/-- An addition with a value still in the document. -/
theorem Slot.keep_addition {p q : Place} (hp : Slot x y .source p) (hq : Slot x y .target q)
    {v w : Content} {a b c : Option Content} (hv : Inside (Enters v) p a b)
    (hw : Inside (Enters w) q a c) :
    ∃ d, Inside (Enters w) (additionBeside p q) b d ∧
      Inside (Enters v) (DesignRegistry.afterAddition (additionBeside p q) p) c d := by
  have hadd : additionBeside p q = q :=
    hp.besideItem_of_ne isShift_additionBeside (by simp) hq (by simp)
  have hback : DesignRegistry.afterAddition q p = p :=
    hq.besideItem_of_ne isShift_addition (by simp) hp (by simp)
  rw [hadd, hback]
  exact (hp.apart hq (by simp) (by simp) (by simp)).diamond hv hw

/-- **An edit does the same with a value still in the document.** -/
theorem carries_keeping (v : Content) : Carries x y Edit.keeping (Enters v) .source := by
  intro p e hp he
  cases e with
  | add q w =>
      have hadd : additionBeside p q = q :=
        hp.besideItem_of_ne isShift_additionBeside (by simp) he.1 (by simp)
      refine ⟨⟨?_, he.2⟩, ?_, ?_⟩
      · rw [hadd]
        exact he.1
      · simp only [Edit.keeping, hadd]
        exact he.1.afterAddition (by simp) hp
      · exact fun a b c hv hw => hp.keep_addition he.1 hv hw
  | remove q w =>
      have hq := hp.afterAddition (by simp) he
      exact ⟨hq, hq.afterRemoval (by simp) hp, fun a b c hv hw => hp.keep_removal he hv hw⟩
  | replace q w =>
      have hstay : DesignRegistry.afterAddition p q = q :=
        hp.besideItem_of_ne isShift_addition (by simp) he.1 (by simp)
      simp only [Edit.keeping, hstay]
      exact ⟨he, hp, fun a b c hv hw =>
        (hp.apart he.1 (by simp) (by simp) fun _ => stays_becomes _).diamond hv hw⟩
  | move s t =>
      have hs := hp.afterAddition (by simp) he.1
      have hbetween := hs.afterRemoval (by simp) hp
      have ht := hbetween.besideItem isShift_additionBeside (by simp) he.2
      refine ⟨⟨hs, ht⟩, ht.afterAddition (by simp) hbetween, ?_⟩
      rintro a b c hv ⟨u, m, hout, hin⟩
      obtain ⟨d, hout', hv'⟩ := hp.keep_removal he.1 hv hout
      obtain ⟨d', hin', hv''⟩ := hbetween.keep_addition he.2 hv' hin
      exact ⟨d', ⟨u, d, hout', hin'⟩, hv''⟩

/-- A removal with a value not yet in the document. -/
theorem Slot.lack_removal {p q : Place} (hp : Slot x y .target p) (hq : Slot x y .source q)
    {v w : Content} {a b c : Option Content} (hv : Inside (Leaves v) p a b)
    (hw : Inside (Leaves w) q a c) :
    ∃ d, Inside (Leaves w) (DesignRegistry.afterRemoval p q) b d ∧
      Inside (Leaves v) (DesignRegistry.afterRemoval q p) c d := by
  have hremove : DesignRegistry.afterRemoval p q = q :=
    hp.besideItem_of_ne isShift_removal (by simp) hq (by simp)
  have hback : DesignRegistry.afterRemoval q p = p :=
    hq.besideItem_of_ne isShift_removal (by simp) hp (by simp)
  rw [hremove, hback]
  exact (hp.apart hq (by simp) (by simp) (by simp)).diamond hv hw

/-- An addition with a value not yet in the document. -/
theorem Slot.lack_addition {p q : Place} (hp : Slot x y .target p) (hq : Slot x y .target q)
    {v w : Content} {a b c : Option Content} (hv : Inside (Leaves v) p a b)
    (hw : Inside (Enters w) q a c) :
    ∃ d, Inside (Enters w) (DesignRegistry.afterRemoval p q) b d ∧
      Inside (Leaves v) (DesignRegistry.afterAddition q p) c d := by
  obtain ⟨d, hwd, hvd⟩ := hp.swap hq (by simp) (inside_leaves.1 hv) hw
  exact ⟨d, hwd, inside_leaves.2 hvd⟩

/-- **An edit does the same with a value not yet in the document.** -/
theorem carries_lacking (v : Content) : Carries x y Edit.lacking (Leaves v) .target := by
  intro p e hp he
  cases e with
  | add q w =>
      exact ⟨⟨hp.afterRemoval (by simp) he.1, he.2⟩, he.1.afterAddition (by simp) hp,
        fun a b c hv hw => hp.lack_addition he.1 hv hw⟩
  | remove q w =>
      exact ⟨hp.afterRemoval (by simp) he, Slot.afterRemoval he (by simp) hp,
        fun a b c hv hw => hp.lack_removal he hv hw⟩
  | replace q w =>
      have hstay : DesignRegistry.afterRemoval p q = q :=
        hp.besideItem_of_ne isShift_removal (by simp) he.1 (by simp)
      simp only [Edit.lacking, hstay]
      exact ⟨he, hp, fun a b c hv hw =>
        (hp.apart he.1 (by simp) (by simp) fun _ => stays_becomes _).diamond hv hw⟩
  | move s t =>
      have hs := hp.afterRemoval (by simp) he.1
      have hbetween := he.1.afterRemoval (by simp) hp
      refine ⟨⟨hs, hbetween.afterRemoval (by simp) he.2⟩,
        he.2.afterAddition (by simp) hbetween, ?_⟩
      rintro a b c hv ⟨u, m, hout, hin⟩
      obtain ⟨d, hout', hv'⟩ := hp.lack_removal he.1 hv hout
      obtain ⟨d', hin', hv''⟩ := hbetween.lack_addition he.2 hv' hin
      exact ⟨d', ⟨u, d, hout', hin'⟩, hv''⟩

/-- A change is carried over edits one after the other. -/
theorem Carries.besideAll {change : Place → Edit → Edit × Place} {R : Change} {r : Role}
    (hcarry : Carries x y change R r) {p : Place} (hp : Slot x y r p) {es : List Edit}
    (hes : ∀ e ∈ es, e.Fits (Slot x y)) :
    (∀ e ∈ (besideAll change p es).1, e.Fits (Slot x y)) ∧
      Slot x y r (besideAll change p es).2 ∧
      ∀ a b c, Inside R p a b → Steps es a c →
        ∃ d, Steps (besideAll change p es).1 b d ∧ Inside R (besideAll change p es).2 c d := by
  induction es generalizing p with
  | nil =>
      refine ⟨by simp [DesignRegistry.besideAll], hp, fun a b c hR hac => ?_⟩
      obtain rfl : a = c := hac
      exact ⟨b, rfl, hR⟩
  | cons e es ih =>
      rw [List.forall_mem_cons] at hes
      obtain ⟨hfit, hslot, hturn⟩ := hcarry p e hp hes.1
      obtain ⟨hfits, hslots, hturns⟩ := ih hslot hes.2
      refine ⟨List.forall_mem_cons.2 ⟨hfit, hfits⟩, hslots, ?_⟩
      rintro a b c hR ⟨m, ham, hmc⟩
      obtain ⟨d, hbd, hR'⟩ := hturn a b m hR ham
      obtain ⟨d', hdd', hR''⟩ := hturns m d c hR' hmc
      exact ⟨d', ⟨d, hbd, hdd'⟩, hR''⟩

/-! ### Joining edits -/

/-- What is picked last stands between what comes before and after it. -/
theorem eq_append_of_lastPick? {pick : Edit → Option Place} {es before after : List Edit}
    {p : Place} (h : lastPick? pick es = some (before, p, after)) :
    ∃ e, es = before ++ e :: after ∧ pick e = some p := by
  induction es generalizing before with
  | nil => simp [lastPick?] at h
  | cons e es ih =>
      rw [lastPick?] at h
      split at h
      · next before' p' after' hlater =>
          obtain ⟨rfl, rfl, rfl⟩ : e :: before' = before ∧ p' = p ∧ after' = after := by
            simpa using h
          obtain ⟨e', rfl, hpick⟩ := ih hlater
          exact ⟨e', rfl, hpick⟩
      · obtain ⟨p', hpick, heq⟩ := Option.map_eq_some_iff.1 h
        obtain ⟨rfl, rfl, rfl⟩ : [] = before ∧ p' = p ∧ es = after := by simpa using heq
        exact ⟨e, rfl, hpick⟩

theorem eq_remove_of_removalOf? {v : Json} {e : Edit} {p : Place}
    (h : Edit.removalOf? v e = some p) : e = .remove p v := by
  cases e with
  | remove q w =>
      by_cases hsame : w.same v = true
      · obtain rfl := (Json.same_iff w v).1 hsame
        simpa [Edit.removalOf?] using h
      · simp [Edit.removalOf?, hsame] at h
  | _ => simp [Edit.removalOf?] at h

theorem eq_add_of_additionOf? {v : Json} {e : Edit} {p : Place}
    (h : Edit.additionOf? v e = some p) : e = .add p v := by
  cases e with
  | add q w =>
      by_cases hsame : w.same v = true
      · obtain rfl := (Json.same_iff w v).1 hsame
        simpa [Edit.additionOf?] using h
      · simp [Edit.additionOf?, hsame] at h
  | _ => simp [Edit.additionOf?] at h

/-- A move from a source to a target leads somewhere. -/
theorem moveBetween_eq {s t : Place} (hs : Slot x y .source s) (ht : Slot x y .target t) :
    moveBetween s t = [.move s t] := by
  have hapart : Apart (Leaves (.scalar .null)) (Enters (.scalar .null)) s t :=
    hs.apart ht (by simp) (by simp) (by simp)
  rw [moveBetween, if_neg]
  rintro rfl
  exact hapart.not_prefix (List.prefix_refl _)

/-- Joining an edit to others keeps what they do, and where they are made. -/
theorem steps_joinEdit {done : List Edit} {e : Edit} (hdone : ∀ e ∈ done, e.Fits (Slot x y))
    (he : e.Fits (Slot x y)) :
    (∀ e' ∈ joinEdit done e, e'.Fits (Slot x y)) ∧
      ∀ a b, Steps (done ++ [e]) a b → Steps (joinEdit done e) a b := by
  have happend : ∀ e' ∈ done ++ [e], e'.Fits (Slot x y) :=
    List.forall_mem_append.2 ⟨hdone, by simpa using he⟩
  cases e with
  | replace p v => exact ⟨happend, fun a b h => h⟩
  | move s t => exact ⟨happend, fun a b h => h⟩
  -- an addition joins the last removal of its value, whose value is kept in the document until then
  | add target v =>
      rw [joinEdit]
      split
      · next before p after hlast =>
          obtain ⟨e, rfl, hpick⟩ := eq_append_of_lastPick? hlast
          obtain rfl := eq_remove_of_removalOf? hpick
          rw [List.forall_mem_append, List.forall_mem_cons] at hdone
          obtain ⟨hfits, hslot, hsteps⟩ :=
            (carries_keeping v.content).besideAll hdone.2.1 hdone.2.2
          generalize besideAll Edit.keeping p after = moved at hfits hslot hsteps ⊢
          obtain ⟨after', p'⟩ := moved
          dsimp only at hfits hslot hsteps ⊢
          rw [moveBetween_eq hslot he.1]
          refine ⟨?_, ?_⟩
          · rw [List.forall_mem_append, List.forall_mem_append]
            exact ⟨⟨hdone.1, hfits⟩, by simpa using ⟨hslot, he.1⟩⟩
          · intro a b h
            obtain ⟨c, hac, hcb⟩ := steps_append.1 h
            obtain ⟨m, ham, n, hmn, hnc⟩ := steps_append.1 hac
            obtain ⟨d, hmd, hcd⟩ := hsteps n m c (inside_leaves.1 hmn) hnc
            refine steps_append.2 ⟨d, steps_append.2 ⟨m, ham, hmd⟩, ?_⟩
            rw [steps_singleton] at hcb ⊢
            exact ⟨v.content, c, inside_leaves.2 hcd, hcb⟩
      · exact ⟨happend, fun a b h => h⟩
  -- a removal joins the last addition of its value, which the edits after it then do without
  | remove source v =>
      rw [joinEdit]
      split
      · next before p after hlast =>
          obtain ⟨e, rfl, hpick⟩ := eq_append_of_lastPick? hlast
          obtain rfl := eq_add_of_additionOf? hpick
          rw [List.forall_mem_append, List.forall_mem_cons] at hdone
          obtain ⟨hfits, hslot, hsteps⟩ :=
            (carries_lacking v.content).besideAll hdone.2.1.1 hdone.2.2
          generalize besideAll Edit.lacking p after = moved at hfits hslot hsteps ⊢
          obtain ⟨after', p'⟩ := moved
          dsimp only at hfits hslot hsteps ⊢
          have hsource : DesignRegistry.afterRemoval p' source = source :=
            hslot.besideItem_of_ne isShift_removal (by simp) he (by simp)
          have htarget : DesignRegistry.afterRemoval source p' = p' :=
            Slot.besideItem_of_ne isShift_removal he (by simp) hslot (by simp)
          rw [hsource, htarget, moveBetween_eq he hslot]
          refine ⟨?_, ?_⟩
          · rw [List.forall_mem_append, List.forall_mem_append]
            exact ⟨⟨hdone.1, hfits⟩, by simpa using ⟨he, hslot⟩⟩
          · intro a b h
            obtain ⟨c, hac, hcb⟩ := steps_append.1 h
            obtain ⟨m, ham, n, hmn, hnc⟩ := steps_append.1 hac
            obtain ⟨d, hmd, hcd⟩ := hsteps n m c (inside_leaves.2 hmn) hnc
            refine steps_append.2 ⟨d, steps_append.2 ⟨m, ham, hmd⟩, ?_⟩
            rw [steps_singleton] at hcb ⊢
            have hapart : Apart (Leaves v.content) (Leaves v.content) _ source :=
              hslot.apart he (by simp) (by simp) (by simp)
            obtain ⟨k, hdk, hbk⟩ := hapart.diamond hcd hcb
            exact ⟨v.content, k, hdk, inside_leaves.1 hbk⟩
      · exact ⟨happend, fun a b h => h⟩

/-- **A difference with moves does what the plain difference does**, and is made where the documents
differ. -/
theorem steps_withMoves {es : List Edit} (hes : ∀ e ∈ es, e.Fits (Slot x y)) :
    (∀ e ∈ withMoves es, e.Fits (Slot x y)) ∧
      ∀ a b, Steps es a b → Steps (withMoves es) a b := by
  -- the induction is on the edits still to come, for all edits that are joined already
  have hjoin : ∀ done : List Edit, (∀ e ∈ done, e.Fits (Slot x y)) →
      (∀ e ∈ es.foldl joinEdit done, e.Fits (Slot x y)) ∧
        ∀ a b, Steps (done ++ es) a b → Steps (es.foldl joinEdit done) a b := by
    induction es with
    | nil =>
        intro done hdone
        exact ⟨hdone, fun a b h => by simpa using h⟩
    | cons e es ih =>
        intro done hdone
        rw [List.forall_mem_cons] at hes
        obtain ⟨hfits, hsteps⟩ := steps_joinEdit hdone hes.1
        obtain ⟨hfits', hsteps'⟩ := ih hes.2 _ hfits
        refine ⟨hfits', fun a b h => hsteps' a b ?_⟩
        rw [List.append_cons, steps_append] at h
        obtain ⟨m, ham, hmb⟩ := h
        exact steps_append.2 ⟨m, hsteps a m ham, hmb⟩
  exact hjoin [] (by simp)

end DesignRegistry
