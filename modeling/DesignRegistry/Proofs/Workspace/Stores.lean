/-
**A directory and a list in memory are interchangeable stores.**

What a store answers is seen through the references that it has returned itself, and these differ from
store to store.  So each reference is told by the number of the save that returned it, the last one if
there are several: a path is free again once its snapshot is removed.  In these terms both stores answer
like a stock of numbered documents, call by call, and hence like each other, whatever their clocks show.

The directory has to be empty in the beginning, and each of its snapshots newer than those that are there
when it is saved.  A front that is cut by a slash is refused by a directory only, and only a list in
memory gives back an integer with more digits than the reader of documents takes.

Main definitions:

* `StoreCall`, `StoreAnswer`, `Ledger` — what is asked, what is seen, and the references so far;
* `Turn.answers` — the answers of a store, call by call;
* `SavesLater` — each snapshot is newer than those that are there when it is saved;
* `Stock`, `Stock.answers` — numbered documents, and what they answer;
* `Workspace.Shelves`, `Stock.Matches` — the shelf of a store, and a store that stands for a stock.

Main results:

* `Stock.Matches.perform` — one call;
* `Stock.Matches.answers` — **all calls**;
* `stores_interchangeable` — **both stores answer alike**;
* `stores_differ` — a front with a slash, and an integer that is too long.
-/
import DesignRegistry.Proofs.Storage.Shelf
import DesignRegistry.Proofs.Workspace.Saving

set_option relaxedAutoImplicit false
set_option autoImplicit false

namespace DesignRegistry

/-! ### Calls -/

/-- What is asked of a store.  Snapshots are called by the numbers of the saves that made them. -/
inductive StoreCall where
  | save (front : String) (doc : Json)
  | load (number : ℕ)
  | list
  | prune (keep : Int)
  | discard (number : ℕ)

/-- What is seen of an answer: documents, outcomes, and the numbers of references. -/
inductive StoreAnswer where
  | saved
  | document (doc : Json)
  | listing (numbers : List (Option ℕ))
  | pruned (outcomes : List (Option ℕ × Bool))
  | discarded (number : Option ℕ) (ok : Bool)
  | failed (cause : Failure)
  | unknown

/-- The references that saves have returned, with the numbers of the saves, the last one first. -/
abbrev Ledger : Type := List (String × ℕ)

namespace Ledger

/-- The reference that a save returned. -/
def reference? (l : Ledger) (number : ℕ) : Option String :=
  (l.find? fun e => e.2 == number).map Prod.fst

/-- The number of the last save that returned a reference. -/
def number? (l : Ledger) (ref : String) : Option ℕ := l.lookup ref

end Ledger

/-- The answer of a store to a call, with the references afterwards. -/
def StoreCall.perform (call : StoreCall) (l : Ledger) (w : Workspace) :
    StoreAnswer × Ledger × Workspace :=
  match call with
  | .save front doc =>
    match Action.saveSnapshot front doc w with
    | (.ok ref, w) => (.saved, (ref, l.length) :: l, w)
    | (.error f, w) => (.failed f, l, w)
  | .load number =>
    match l.reference? number with
    | none => (.unknown, l, w)
    | some ref =>
      match Action.loadSnapshot ref w with
      | (.ok doc, w) => (.document doc, l, w)
      | (.error f, w) => (.failed f, l, w)
  | .list =>
    match Action.listSnapshots w with
    | (.ok ss, w) => (.listing (ss.map fun s => l.number? s.path), l, w)
    | (.error f, w) => (.failed f, l, w)
  | .prune keep =>
    match Action.pruneSnapshots keep w with
    | (.ok ds, w) => (.pruned (ds.map fun d => (l.number? d.path, d.ok)), l, w)
    | (.error f, w) => (.failed f, l, w)
  | .discard number =>
    match l.reference? number with
    | none => (.unknown, l, w)
    | some ref =>
      match Action.discardSnapshot ref w with
      | (.ok d, w) => (.discarded (l.number? d.path) d.ok, l, w)
      | (.error f, w) => (.failed f, l, w)

/-- A call, what the clock shows then, and the time that files are marked with. -/
structure Turn where
  call : StoreCall
  clock : Clock
  time : Int

namespace Turn

/-- The workspace when it is called. -/
def enter (t : Turn) (w : Workspace) : Workspace :=
  { w with clock := t.clock, files := w.files.atTime t.time }

/-- The answer of a store to a call when it comes. -/
def perform (t : Turn) (l : Ledger) (w : Workspace) : StoreAnswer × Ledger × Workspace :=
  t.call.perform l (t.enter w)

/-- The answers of a store, call by call. -/
def answers : List Turn → Ledger → Workspace → List StoreAnswer
  | [], _, _ => []
  | t :: ts, l, w => (t.perform l w).1 :: answers ts (t.perform l w).2.1 (t.perform l w).2.2

end Turn

/-- All snapshots that are listed are older than what is saved now. -/
def Workspace.Later (w : Workspace) : Prop :=
  ∀ d, w.store = .directory d → ∀ s ∈ w.files.snapshots d, s.created < w.files.now

/-- Each snapshot is newer than those that are there when it is saved. -/
def SavesLater : List Turn → Ledger → Workspace → Prop
  | [], _, _ => True
  | t :: ts, l, w => (∀ front doc, t.call = .save front doc → (t.enter w).Later) ∧
      SavesLater ts (t.perform l w).2.1 (t.perform l w).2.2

/-! ### Numbered documents -/

/-- Documents by the numbers of their saves, the newest first. -/
structure Stock where
  items : List (ℕ × Json) := []
  next : ℕ := 0

namespace Stock

/-- The answer of a stock to a call. -/
def perform (s : Stock) : StoreCall → StoreAnswer × Stock
  | .save _ doc => (.saved, ⟨(s.next, doc) :: s.items, s.next + 1⟩)
  | .load number =>
    match s.items.lookup number with
    | some doc => (.document doc, s)
    | none => (.unknown, s)
  | .list => (.listing (s.items.map fun x => some x.1), s)
  | .prune keep =>
    if keep < 0 then (.failed (.negativeKeep "keep_count"), s)
    else
      (.pruned ((s.items.drop keep.toNat).map fun x => (some x.1, true)),
        { s with items := s.items.take keep.toNat })
  | .discard number =>
    (.discarded (some number) true, { s with items := s.items.filter fun x => x.1 != number })

/-- The answers of a stock, call by call. -/
def answers : List StoreCall → Stock → List StoreAnswer
  | [], _ => []
  | call :: calls, s => (s.perform call).1 :: answers calls (s.perform call).2

/-- A call that a stock can answer: what is saved can be named and read back, and what is asked for is
there. -/
def Admits (s : Stock) : StoreCall → Prop
  | .save front doc => Nameable front ∧ doc.Legible
  | .load number => number ∈ s.items.map Prod.fst
  | .discard number => number ∈ s.items.map Prod.fst
  | .list => True
  | .prune _ => True

/-- Calls that a stock can answer one after the other. -/
def AdmitsAll : List StoreCall → Stock → Prop
  | [], _ => True
  | call :: calls, s => s.Admits call ∧ AdmitsAll calls (s.perform call).2

end Stock

/-! ### The shelf of a store -/

/-- What is on the shelf of a store. -/
def Workspace.Shelves (w : Workspace) (shelf : Shelf) : Prop :=
  (∃ d, w.store = .directory d ∧ w.files.Shelves d shelf) ∨
    ∃ m, w.store = .memory m ∧ m.Shelves shelf

namespace Workspace.Shelves

variable {w : Workspace} {shelf : Shelf}

theorem enter (h : w.Shelves shelf) (t : Turn) : (t.enter w).Shelves shelf := by
  rcases h with ⟨d, hstore, hfiles⟩ | ⟨m, hstore, hm⟩
  · exact .inl ⟨d, hstore, hfiles.atTime t.time⟩
  · exact .inr ⟨m, hstore, hm⟩

theorem distinct (h : w.Shelves shelf) : shelf.references.Nodup := by
  rcases h with ⟨d, -, hfiles⟩ | ⟨m, -, hm⟩
  · exact hfiles.distinct
  · exact hm.distinct

theorem save (h : w.Shelves shelf) (hlater : w.Later) {front : String} (hfront : Nameable front)
    {doc : Json} (hdoc : doc.Legible) :
    ∃ ref w', Action.saveSnapshot front doc w = (.ok ref, w') ∧ w'.Shelves ((ref, doc) :: shelf) := by
  rcases h with ⟨d, hstore, hfiles⟩ | ⟨m, hstore, hm⟩
  · obtain ⟨made, p, fs', hmake, hadd, hshelf⟩ :=
      hfiles.save hfront.uncut hdoc (hlater d hstore) w.clock.read.1
    refine ⟨p.text, { w with clock := w.clock.read.2, files := fs' }, ?_, .inl ⟨d, hstore, hshelf⟩⟩
    simp only [Action.saveSnapshot, hstore, hmake, hadd]
  · let timestamp := w.clock.read.1.timestamp
    refine ⟨MemorySnapshots.reference front timestamp m.next,
      { w with clock := w.clock.read.2, store := .memory (m.save front timestamp doc).2 }, ?_,
      .inr ⟨_, rfl, hm.save front timestamp doc⟩⟩
    simp only [Action.saveSnapshot, hstore]
    rfl

theorem load (h : w.Shelves shelf) {x : String × Json} (hx : x ∈ shelf) :
    Action.loadSnapshot x.1 w = (.ok x.2, w) := by
  rcases h with ⟨d, hstore, hfiles⟩ | ⟨m, hstore, hm⟩
  · simp only [Action.loadSnapshot, hstore, hfiles.held x hx]
  · simp only [Action.loadSnapshot, hstore, hm.load hx]

theorem list (h : w.Shelves shelf) : ∃ ss, Action.listSnapshots w = (.ok ss, w) ∧
    ss.map SnapshotEntry.path = shelf.references := by
  rcases h with ⟨d, hstore, hfiles⟩ | ⟨m, hstore, hm⟩
  · exact ⟨_, by simp only [Action.listSnapshots, hstore], hfiles.listed⟩
  · exact ⟨_, by simp only [Action.listSnapshots, hstore], hm.items ▸ m.references_list⟩

theorem prune (h : w.Shelves shelf) {keep : Int} (hkeep : ¬ keep < 0) :
    ∃ w', Action.pruneSnapshots keep w =
        (.ok ((Shelf.references (shelf.drop keep.toNat)).map fun r => ⟨r, none⟩), w') ∧
      w'.Shelves (shelf.take keep.toNat) := by
  rcases h with ⟨d, hstore, hfiles⟩ | ⟨m, hstore, hm⟩
  · obtain ⟨fs', hprune, hshelf⟩ := hfiles.prune keep.toNat
    refine ⟨{ w with files := fs' }, ?_, .inl ⟨d, hstore, hshelf⟩⟩
    simp only [Action.pruneSnapshots, if_neg hkeep, hstore, hprune]
  · obtain ⟨houtcomes, hshelf⟩ := hm.prune keep.toNat
    refine ⟨{ w with store := .memory (m.prune keep.toNat).2 }, ?_, .inr ⟨_, rfl, hshelf⟩⟩
    simp only [Action.pruneSnapshots, if_neg hkeep, hstore, ← houtcomes]

theorem discard (h : w.Shelves shelf) {ref : String} (href : ref ∈ shelf.references) :
    ∃ w', Action.discardSnapshot ref w = (.ok ⟨ref, none⟩, w') ∧ w'.Shelves (shelf.without [ref]) := by
  rcases h with ⟨d, hstore, hfiles⟩ | ⟨m, hstore, hm⟩
  · obtain ⟨fs', hdelete, hshelf⟩ := hfiles.discard href
    refine ⟨{ w with files := fs' }, ?_, .inl ⟨d, hstore, hshelf⟩⟩
    simp only [Action.discardSnapshot, hstore, Action.tryDelete, hdelete]
  · have hthere : (m.items.any fun item => item.1 == ref) = true := by
      obtain ⟨x, hx, rfl⟩ := List.mem_map.1 href
      exact List.any_eq_true.2 ⟨x, hm.mem_items.2 hx, beq_self_eq_true x.1⟩
    refine ⟨{ w with store := .memory (m.without [ref]) }, ?_, .inr ⟨_, rfl, hm.without [ref]⟩⟩
    simp only [Action.discardSnapshot, hstore, MemorySnapshots.discard, if_pos hthere]

end Workspace.Shelves

/-! ### References and numbers -/

namespace Ledger

variable {l : Ledger} {ref : String} {number : ℕ}

theorem number?_cons_self (l : Ledger) (ref : String) (number : ℕ) :
    number? ((ref, number) :: l) ref = some number := List.lookup_cons_self

theorem number?_cons_of_ne {other : String} (h : other ≠ ref) :
    number? ((ref, number) :: l) other = l.number? other := by
  rw [number?, List.lookup_cons, beq_false_of_ne h]
  rfl

theorem reference?_cons_self (l : Ledger) (ref : String) (number : ℕ) :
    reference? ((ref, number) :: l) number = some ref := by
  simp [reference?]

theorem reference?_cons_of_ne {other : ℕ} (h : other ≠ number) :
    reference? ((ref, number) :: l) other = l.reference? other := by
  rw [reference?, List.find?_cons_of_neg]
  · rfl
  · simpa using h.symm

theorem exists_of_reference? (h : l.reference? number = some ref) : ∃ e ∈ l, e.2 = number := by
  obtain ⟨e, he, -⟩ := Option.map_eq_some_iff.1 h
  exact ⟨e, List.mem_of_find?_eq_some he, by simpa using List.find?_some he⟩

end Ledger

/-! ### One call -/

/-- A snapshot with its number and its document. -/
abbrev Tagged : Type := String × ℕ × Json

/-- The snapshot on a shelf. -/
def Tagged.shelved (x : Tagged) : String × Json := (x.1, x.2.2)

namespace Stock

/-- A store stands for a stock: its shelf has the documents of the stock, under references that stand for
the numbers. -/
structure Tells (s : Stock) (l : Ledger) (w : Workspace) (tagged : List Tagged) : Prop where
  shelves : w.Shelves (tagged.map Tagged.shelved)
  items : s.items = tagged.map Prod.snd
  number : ∀ x ∈ tagged, l.number? x.1 = some x.2.1
  reference : ∀ x ∈ tagged, l.reference? x.2.1 = some x.1
  next : s.next = l.length
  below : ∀ e ∈ l, e.2 < l.length

/-- A store stands for a stock. -/
def Matches (s : Stock) (l : Ledger) (w : Workspace) : Prop := ∃ tagged, s.Tells l w tagged

namespace Tells

variable {s : Stock} {l : Ledger} {w w' : Workspace} {tagged : List Tagged} {x : Tagged}

theorem mem_references (hx : x ∈ tagged) : x.1 ∈ Shelf.references (tagged.map Tagged.shelved) :=
  List.mem_map_of_mem (List.mem_map_of_mem hx)

theorem distinct (h : s.Tells l w tagged) : (tagged.map Prod.fst).Nodup := by
  have hrefs := h.shelves.distinct
  rwa [Shelf.references, List.map_map] at hrefs

/-- Numbers tell the snapshots apart, as references do. -/
theorem distinct_numbers (h : s.Tells l w tagged) : (s.items.map Prod.fst).Nodup := by
  have hrefs : (s.items.map Prod.fst).map l.reference? = (tagged.map Prod.fst).map some := by
    rw [h.items, List.map_map, List.map_map, List.map_map]
    exact List.map_congr_left h.reference
  refine List.Nodup.of_map l.reference? ?_
  rw [hrefs]
  exact h.distinct.map (Option.some_injective String)

theorem exists_of_mem (h : s.Tells l w tagged) {number : ℕ} (hn : number ∈ s.items.map Prod.fst) :
    ∃ x ∈ tagged, x.2.1 = number := by
  rw [h.items, List.map_map] at hn
  exact List.mem_map.1 hn

theorem save (h : s.Tells l w tagged) {ref : String} {doc : Json}
    (hw : w'.Shelves ((ref, doc) :: tagged.map Tagged.shelved)) :
    Tells ⟨(s.next, doc) :: s.items, s.next + 1⟩ ((ref, l.length) :: l) w'
      ((ref, s.next, doc) :: tagged) where
  shelves := hw
  items := by rw [h.items, List.map_cons]
  number := by
    refine List.forall_mem_cons.2 ⟨?_, fun x hx => ?_⟩
    · rw [h.next]
      exact Ledger.number?_cons_self l ref l.length
    · have hne : x.1 ≠ ref := by
        rintro rfl
        exact (List.nodup_cons.1 hw.distinct).1 (mem_references hx)
      rw [Ledger.number?_cons_of_ne hne, h.number x hx]
  reference := by
    refine List.forall_mem_cons.2 ⟨?_, fun x hx => ?_⟩
    · rw [h.next]
      exact Ledger.reference?_cons_self l ref l.length
    · have hne : x.2.1 ≠ l.length := by
        obtain ⟨e, he, heq⟩ := Ledger.exists_of_reference? (h.reference x hx)
        exact Nat.ne_of_lt (heq ▸ h.below e he)
      rw [Ledger.reference?_cons_of_ne hne, h.reference x hx]
  next := by rw [h.next, List.length_cons]
  below := by
    rw [List.length_cons]
    exact List.forall_mem_cons.2 ⟨Nat.lt_succ_self _, fun e he => Nat.lt_succ_of_lt (h.below e he)⟩

/-- Fewer snapshots. -/
theorem restrict (h : s.Tells l w tagged) {fewer : List Tagged} {items : List (ℕ × Json)}
    (hsub : fewer ⊆ tagged) (hw : w'.Shelves (fewer.map Tagged.shelved))
    (hitems : items = fewer.map Prod.snd) : Tells { s with items } l w' fewer where
  shelves := hw
  items := hitems
  number := fun x hx => h.number x (hsub hx)
  reference := fun x hx => h.reference x (hsub hx)
  next := h.next
  below := h.below

/-- References and numbers leave out the same snapshots. -/
theorem ne_iff (h : s.Tells l w tagged) {x y : Tagged} (hx : x ∈ tagged) (hy : y ∈ tagged) :
    y.1 ≠ x.1 ↔ y.2.1 ≠ x.2.1 := by
  refine not_congr ⟨fun heq => ?_, fun heq => ?_⟩
  · have hnumber := h.number y hy
    rw [heq, h.number x hx] at hnumber
    exact (Option.some.inj hnumber).symm
  · have hreference := h.reference y hy
    rw [heq, h.reference x hx] at hreference
    exact (Option.some.inj hreference).symm

end Tells

variable {s : Stock} {l : Ledger} {w : Workspace}

theorem Matches.enter (h : s.Matches l w) (t : Turn) : s.Matches l (t.enter w) := by
  obtain ⟨tagged, h⟩ := h
  exact ⟨tagged, h.shelves.enter t, h.items, h.number, h.reference, h.next, h.below⟩

/-- **One call**: a store that stands for a stock answers like it, and stands for it afterwards. -/
theorem Matches.perform (h : s.Matches l w) {call : StoreCall} (hadmits : s.Admits call)
    (hlater : ∀ front doc, call = .save front doc → w.Later) :
    (call.perform l w).1 = (s.perform call).1 ∧
      (s.perform call).2.Matches (call.perform l w).2.1 (call.perform l w).2.2 := by
  obtain ⟨tagged, h⟩ := h
  cases call with
  | save front doc =>
      obtain ⟨hfront, hdoc⟩ := hadmits
      obtain ⟨ref, w', hsave, hshelves⟩ := h.shelves.save (hlater front doc rfl) hfront hdoc
      simp only [StoreCall.perform, hsave, Stock.perform]
      exact ⟨trivial, _, h.save hshelves⟩
  | load number =>
      obtain ⟨x, hx, rfl⟩ := h.exists_of_mem hadmits
      have hload := h.shelves.load (List.mem_map_of_mem hx)
      have hitem : s.items.lookup x.2.1 = some x.2.2 :=
        lookup_of_mem h.distinct_numbers (h.items ▸ List.mem_map_of_mem hx)
      simp only [StoreCall.perform, h.reference x hx, Stock.perform, hitem]
      rw [show Action.loadSnapshot x.1 w = _ from hload]
      exact ⟨rfl, tagged, h⟩
  | list =>
      obtain ⟨ss, hlist, hpaths⟩ := h.shelves.list
      -- the lines are references, and the ledger turns them into numbers
      have hnumbers : ss.map (fun e => l.number? e.path) = s.items.map fun x => some x.1 := by
        have hmapped := congrArg (List.map l.number?) hpaths
        rw [List.map_map, Shelf.references, List.map_map, List.map_map] at hmapped
        rw [h.items, List.map_map]
        exact hmapped.trans (List.map_congr_left h.number)
      simp only [StoreCall.perform, hlist, Stock.perform, hnumbers]
      exact ⟨trivial, tagged, h⟩
  | prune keep =>
      by_cases hkeep : keep < 0
      · have hprune : Action.pruneSnapshots keep w = (.error (.negativeKeep "keep_count"), w) := by
          simp only [Action.pruneSnapshots, if_pos hkeep]
        simp only [StoreCall.perform, hprune, Stock.perform, if_pos hkeep]
        exact ⟨trivial, tagged, h⟩
      · obtain ⟨w', hprune, hshelves⟩ := h.shelves.prune hkeep
        have houtcomes : ((Shelf.references ((tagged.map Tagged.shelved).drop keep.toNat)).map
            fun r => (⟨r, none⟩ : Deletion)).map (fun d => (l.number? d.path, d.ok)) =
              (s.items.drop keep.toNat).map fun x => (some x.1, true) := by
          rw [h.items, Shelf.references, ← List.map_drop, ← List.map_drop, List.map_map, List.map_map,
            List.map_map, List.map_map]
          refine List.map_congr_left fun x hx => ?_
          exact Prod.ext (h.number x (List.mem_of_mem_drop hx)) rfl
        simp only [StoreCall.perform, hprune, Stock.perform, if_neg hkeep, houtcomes]
        refine ⟨trivial, tagged.take keep.toNat, h.restrict (List.take_subset keep.toNat tagged) ?_ ?_⟩
        · rwa [List.map_take]
        · rw [h.items, List.map_take]
  | discard number =>
      obtain ⟨x, hx, rfl⟩ := h.exists_of_mem hadmits
      obtain ⟨w', hdiscard, hshelves⟩ := h.shelves.discard (Tells.mem_references hx)
      simp only [StoreCall.perform, h.reference x hx, hdiscard, Stock.perform, h.number x hx]
      refine ⟨rfl, tagged.filter fun y => y.1 != x.1, h.restrict (List.filter_subset_self _) ?_ ?_⟩
      · have hfewer : Shelf.without [x.1] (tagged.map Tagged.shelved) =
            (tagged.filter fun y => y.1 != x.1).map Tagged.shelved := by
          rw [Shelf.without, List.filter_map]
          refine congrArg _ (List.filter_congr fun y _ => ?_)
          rw [Bool.eq_iff_iff, Function.comp_apply, Bool.not_eq_true', ← Bool.not_eq_true,
            List.contains_iff_mem, List.mem_singleton, bne_iff_ne]
          exact Iff.rfl
        rwa [← hfewer]
      · rw [h.items, List.filter_map]
        refine congrArg _ (List.filter_congr fun y hy => ?_)
        rw [Bool.eq_iff_iff, Function.comp_apply, bne_iff_ne, bne_iff_ne, h.ne_iff hx hy]

/-- **All calls**, by induction on the turns: a store that stands for a stock answers like it throughout. -/
theorem Matches.answers {turns : List Turn} (h : s.Matches l w)
    (hadmits : AdmitsAll (turns.map Turn.call) s) (hlater : SavesLater turns l w) :
    Turn.answers turns l w = Stock.answers (turns.map Turn.call) s := by
  induction turns generalizing s l w with
  | nil => rfl
  | cons t ts ih =>
      obtain ⟨hcall, hcalls⟩ := hadmits
      obtain ⟨hnow, hthen⟩ := hlater
      obtain ⟨hanswer, hmatches⟩ : (t.perform l w).1 = (s.perform t.call).1 ∧
          (s.perform t.call).2.Matches (t.perform l w).2.1 (t.perform l w).2.2 :=
        (h.enter t).perform hcall hnow
      rw [Turn.answers, List.map_cons, Stock.answers, ih hmatches hcalls hthen]
      exact congrArg (· :: _) hanswer

end Stock

/-! ### Both stores -/

/-- A list in memory stays one. -/
theorem StoreCall.perform_memory (call : StoreCall) (l : Ledger) {w : Workspace}
    (h : ∃ m, w.store = .memory m) : ∃ m, (call.perform l w).2.2.store = .memory m := by
  obtain ⟨m, hstore⟩ := h
  cases call with
  | save front doc =>
      simp only [perform, Action.saveSnapshot, hstore]
      exact ⟨_, rfl⟩
  | load number =>
      simp only [perform]
      split
      · exact ⟨m, hstore⟩
      · next ref _ =>
          have hsame := Action.reads_loadSnapshot ref w
          split
          · next hload => exact ⟨m, by rw [← hstore, ← hsame, hload]⟩
          · next hload => exact ⟨m, by rw [← hstore, ← hsame, hload]⟩
  | list =>
      simp only [perform, Action.listSnapshots, hstore]
      exact ⟨m, rfl⟩
  | prune keep =>
      by_cases hkeep : keep < 0
      · simp only [perform, Action.pruneSnapshots, if_pos hkeep]
        exact ⟨m, hstore⟩
      · simp only [perform, Action.pruneSnapshots, if_neg hkeep, hstore]
        exact ⟨_, rfl⟩
  | discard number =>
      simp only [perform]
      split
      · exact ⟨m, hstore⟩
      · simp only [Action.discardSnapshot, hstore]
        exact ⟨_, rfl⟩

/-- No file is saved in memory, so none has to be newer than others. -/
theorem savesLater_of_memory {turns : List Turn} {l : Ledger} {w : Workspace}
    (h : ∃ m, w.store = .memory m) : SavesLater turns l w := by
  induction turns generalizing l w with
  | nil => trivial
  | cons t ts ih =>
      refine ⟨fun _ _ _ d hd => ?_, ih (t.call.perform_memory l h)⟩
      obtain ⟨m, hm⟩ := h
      exact absurd (hm.symm.trans hd) (by simp)

/-- **Both stores answer alike**, and like numbered documents: a directory in which there is nothing yet,
and a list in memory without snapshots, whatever their clocks show. -/
theorem stores_interchangeable (turns turns' : List Turn) (files memory : Workspace)
    (directory : FilePath) (hcalls : turns'.map Turn.call = turns.map Turn.call)
    (hfiles : files.Sound) (hdirectory : files.store = .directory directory)
    (hempty : ∃ fs, files.files.makeDirectories directory = .ok fs ∧ fs.snapshots directory = [])
    (hmemory : memory.store = .memory {}) (hadmits : Stock.AdmitsAll (turns.map Turn.call) {})
    (hlater : SavesLater turns [] files) :
    Turn.answers turns [] files = Turn.answers turns' [] memory ∧
      Turn.answers turns [] files = Stock.answers (turns.map Turn.call) {} := by
  obtain ⟨fs, hmake, hnone⟩ := hempty
  have hshelf : files.Shelves [] := .inl ⟨directory, hdirectory,
    FileSystem.shelves_nil hfiles.files (hfiles.directory directory hdirectory) hmake hnone⟩
  have hlist : memory.Shelves [] := .inr ⟨{}, hmemory, MemorySnapshots.shelves_nil⟩
  have hnew : ∀ {w : Workspace}, w.Shelves [] → Stock.Matches {} [] w := fun hw =>
    ⟨[], hw, rfl, fun _ hx => absurd hx List.not_mem_nil, fun _ hx => absurd hx List.not_mem_nil, rfl,
      fun _ he => absurd he List.not_mem_nil⟩
  have hfirst := (hnew hshelf).answers hadmits hlater
  have hsecond := (hnew hlist).answers (hcalls ▸ hadmits) (savesLater_of_memory ⟨{}, hmemory⟩)
  exact ⟨by rw [hfirst, hsecond, hcalls], hfirst⟩

/-- A workspace in which snapshots are kept in a directory that is not there yet. -/
def freshWorkspace : Workspace where
  files := .empty ["home"] 0
  clock := ⟨⟨0⟩, 0⟩
  store := .directory ⟨"", ["backups"]⟩

theorem sound_freshWorkspace : freshWorkspace.Sound where
  files := FileSystem.sound_empty ["home"] 0
  memory := fun m hm => absurd hm (by simp [freshWorkspace])
  directory := by
    intro d hd
    obtain rfl := SnapshotStore.directory.inj hd
    exact FilePath.normal_ofText "backups"

theorem room_freshWorkspace :
    ∃ fs, freshWorkspace.files.makeDirectories ⟨"", ["backups"]⟩ = .ok fs ∧
      fs.snapshots ⟨"", ["backups"]⟩ = [] := by
  obtain ⟨fs, hmake⟩ : ∃ fs, freshWorkspace.files.makeDirectories ⟨"", ["backups"]⟩ = .ok fs :=
    ⟨_, rfl⟩
  refine ⟨fs, hmake, ?_⟩
  rw [(FileSystem.gains_makeDirectories hmake).snapshots sound_freshWorkspace.files
    (sound_freshWorkspace.files.makeDirectories hmake)
    (FileSystem.anchored_of_notMem (by decide))]
  rfl

/-- Nothing is listed there. -/
theorem later_freshWorkspace (t : Turn) : (t.enter freshWorkspace).Later := by
  intro d hd s hs
  obtain rfl := SnapshotStore.directory.inj hd
  exact absurd hs List.not_mem_nil

/-- A workspace in which snapshots are kept in memory. -/
def memoryWorkspace : Workspace where
  files := .empty ["home"] 0
  clock := ⟨⟨0⟩, 0⟩
  store := .memory {}

/-- Two snapshots under one clock reading; the first is removed from the back, the second by its number. -/
def pairTurns : List Turn :=
  [⟨.save "dcp" (.int 1), ⟨⟨0⟩, 0⟩, 1⟩, ⟨.save "dcp" (.int 2), ⟨⟨0⟩, 0⟩, 2⟩, ⟨.list, ⟨⟨0⟩, 0⟩, 3⟩,
    ⟨.load 0, ⟨⟨0⟩, 0⟩, 3⟩, ⟨.prune 1, ⟨⟨0⟩, 0⟩, 3⟩, ⟨.discard 1, ⟨⟨0⟩, 0⟩, 3⟩]

/-- The files after the first of them. -/
def pairFiles : FileSystem :=
  ((Turn.perform ⟨.save "dcp" (.int 1), ⟨⟨0⟩, 0⟩, 1⟩ [] freshWorkspace).2.2).files

theorem time_pairFiles {p : FilePath} {bytes : ByteArray} {time : Int}
    (h : pairFiles.at? p = some (.file bytes time)) : time = 1 := by
  obtain ⟨l, -, hentry⟩ := FileSystem.at?_eq_some.1 h
  have hne : l ≠ [] := by
    rintro rfl
    exact absurd hentry (by simp)
  rw [FileSystem.entryAt?_of_ne_nil _ hne] at hentry
  have hmem : (l, Entry.file bytes time) ∈ [(["home"], .directory), (["home", "backups"], .directory),
      (["home", "backups", "dcp-backup-1970-01-01T00-00-00-000Z.json"],
        .file (Json.pretty (.int 1)).toUTF8 1)] := FileSystem.mem_of_find hentry
  have hlast : l = ["home", "backups", "dcp-backup-1970-01-01T00-00-00-000Z.json"] ∧
      bytes = (Json.pretty (.int 1)).toUTF8 ∧ time = 1 := by simpa using hmem
  exact hlast.2.2

theorem savesLater_pairTurns : SavesLater pairTurns [] freshWorkspace := by
  refine ⟨fun _ _ _ => later_freshWorkspace _, fun _ _ _ d hd s hs => ?_, nofun, nofun, nofun, nofun,
    trivial⟩
  obtain ⟨name, bytes, time, -, hat, rfl⟩ := FileSystem.exists_of_mem_snapshots hs
  have hsaved : pairFiles.at? (d.child name) = some (.file bytes time) :=
    (FileSystem.at?_atTime _).symm.trans hat
  rw [time_pairFiles hsaved]
  exact (by decide : (1 : Int) < 2)

theorem stores_interchangeable_pair :
    Turn.answers pairTurns [] freshWorkspace = Turn.answers pairTurns [] memoryWorkspace ∧
      Turn.answers pairTurns [] freshWorkspace =
        [.saved, .saved, .listing [some 1, some 0], .document (.int 1), .pruned [(some 0, true)],
          .discarded (some 1) true] :=
  stores_interchangeable pairTurns pairTurns freshWorkspace memoryWorkspace ⟨"", ["backups"]⟩ rfl
    sound_freshWorkspace rfl room_freshWorkspace rfl
    ⟨⟨⟨by decide, by decide⟩, show (natDigits 1).length ≤ maxIntegerDigits by decide⟩,
      ⟨⟨by decide, by decide⟩, show (natDigits 2).length ≤ maxIntegerDigits by decide⟩,
      trivial, show 0 ∈ [1, 0] by decide, trivial, show 1 ∈ [1] by decide, trivial⟩
    savesLater_pairTurns

/-- What a directory answers to a load is legible. -/
theorem StoreCall.legible_of_load {l : Ledger} {w : Workspace} {directory : FilePath} {number : ℕ}
    {doc : Json} (hstore : w.store = .directory directory)
    (h : (StoreCall.perform (.load number) l w).1 = .document doc) : doc.Legible := by
  simp only [perform] at h
  split at h
  · exact absurd h (by simp)
  · next ref _ =>
      split at h
      · next found w' hload =>
          rw [← StoreAnswer.document.inj h]
          exact Action.legible_of_loadSnapshot hstore (congrArg Prod.fst hload)
      · exact absurd h (by simp)

/-- A snapshot is saved under a front with a slash. -/
def slashTurns : List Turn := [⟨.save "a/b" .null, ⟨⟨0⟩, 0⟩, 1⟩]

/-- An integer with too many digits is saved and loaded. -/
def longTurns : List Turn :=
  [⟨.save "dcp" (.int (10 ^ maxIntegerDigits)), ⟨⟨0⟩, 0⟩, 1⟩, ⟨.load 0, ⟨⟨0⟩, 0⟩, 1⟩]

/-- A front with a slash is refused by a directory only, and an integer with too many digits is given back
by a list in memory only. -/
theorem stores_differ :
    freshWorkspace.Sound ∧
      (∃ fs, freshWorkspace.files.makeDirectories ⟨"", ["backups"]⟩ = .ok fs ∧
        fs.snapshots ⟨"", ["backups"]⟩ = []) ∧
      (SavesLater slashTurns [] freshWorkspace ∧
        Turn.answers slashTurns [] freshWorkspace ≠ Turn.answers slashTurns [] memoryWorkspace) ∧
      SavesLater longTurns [] freshWorkspace ∧
        Turn.answers longTurns [] freshWorkspace ≠ Turn.answers longTurns [] memoryWorkspace := by
  refine ⟨sound_freshWorkspace, room_freshWorkspace,
    ⟨⟨fun _ _ _ => later_freshWorkspace _, trivial⟩, ?_⟩,
    ⟨fun _ _ _ => later_freshWorkspace _, nofun, trivial⟩, ?_⟩
  · have hmemory : Turn.answers slashTurns [] memoryWorkspace = [.saved] := rfl
    have hfiles : ∃ f, Turn.answers slashTurns [] freshWorkspace = [.failed f] := ⟨_, rfl⟩
    obtain ⟨f, hf⟩ := hfiles
    rw [hf, hmemory]
    simp
  · intro hsame
    have hloaded := (List.cons.inj (List.cons.inj hsame).2).1
    exact Json.not_legible_of_le (Nat.le_refl _) (StoreCall.legible_of_load (by rfl) hloaded)

end DesignRegistry
