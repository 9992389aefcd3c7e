/-
**References in memory are never given twice.**

The number in a reference counts the snapshots that were ever saved, and not those that are there.  So
each reference differs from all that were given before, whatever was removed in between and whatever the
clock shows.  It leads to its own document until that is removed, and to nothing from then on.

Main definitions:

* `StoreRequest`, `StoreReply` — what is asked of a store by reference, and what it gives;
* `Exchange`, `converse` — a request with its outcome, and requests that come one after the other;
* `Exchange.saved?`, `Exchange.leave`, `leftOver` — what an exchange saves, what it leaves of what was
  saved before, and what is left of all that was saved;
* `Workspace.Recalls` — a workspace whose snapshots in memory are what is left of what was saved.

Main results:

* `Workspace.Recalls.serve`, `Workspace.Recalls.converse` — one request, and all of them;
* `references_never_reused` — **references are distinct, and each leads to its own document**.
-/
import DesignRegistry.Proofs.Storage.Shelf
import DesignRegistry.Workspace.Basic

set_option relaxedAutoImplicit false
set_option autoImplicit false

namespace DesignRegistry

/-! ### Requests -/

/-- What is asked of a store.  Snapshots are called by their references. -/
inductive StoreRequest where
  | save (front : String) (doc : Json)
  | load (ref : String)
  | list
  | prune (keep : Int)
  | discard (ref : String)

/-- What a store gives. -/
inductive StoreReply where
  | reference (ref : String)
  | document (doc : Json)
  | listing (entries : List SnapshotEntry)
  | outcomes (removals : List Deletion)

/-- What a request does. -/
def StoreRequest.serve : StoreRequest → Action StoreReply
  | .save front doc => do return .reference (← Action.saveSnapshot front doc)
  | .load ref => do return .document (← Action.loadSnapshot ref)
  | .list => do return .listing (← Action.listSnapshots)
  | .prune keep => do return .outcomes (← Action.pruneSnapshots keep)
  | .discard ref => do return .outcomes [← Action.discardSnapshot ref]

/-- A request and what came of it. -/
structure Exchange where
  request : StoreRequest
  outcome : Except Failure StoreReply

/-- Requests that come one after the other, each with what the clock shows then. -/
def converse : List (Clock × StoreRequest) → Workspace → List Exchange × Workspace
  | [], w => ([], w)
  | (clock, request) :: rest, w =>
    let (outcome, w) := request.serve { w with clock }
    let (exchanges, w) := converse rest w
    (⟨request, outcome⟩ :: exchanges, w)

/-! ### What is saved and what is left -/

namespace Exchange

/-- What an exchange saves: the reference that is returned, and the document. -/
def saved? : Exchange → Option (String × Json)
  | ⟨.save _ doc, .ok (.reference ref)⟩ => some (ref, doc)
  | _ => none

/-- What an exchange leaves on a shelf, which has the newest first. -/
def leave (shelf : Shelf) (x : Exchange) : Shelf :=
  match x.request with
  | .save _ _ => x.saved?.toList ++ shelf
  | .prune keep => if keep < 0 then shelf else shelf.take keep.toNat
  | .discard ref => shelf.without [ref]
  | .load _ => shelf
  | .list => shelf

end Exchange

/-- What was saved, the oldest first. -/
def savedIn (exchanges : List Exchange) : List (String × Json) := exchanges.filterMap Exchange.saved?

/-- What is left of what was saved. -/
def leftOver (exchanges : List Exchange) : Shelf := exchanges.foldl Exchange.leave []

theorem savedIn_concat (xs : List Exchange) (x : Exchange) :
    savedIn (xs ++ [x]) = savedIn xs ++ x.saved?.toList := by
  rw [savedIn, savedIn, List.filterMap_append]
  cases hx : x.saved? <;> simp [hx]

theorem leftOver_concat (xs : List Exchange) (x : Exchange) :
    leftOver (xs ++ [x]) = x.leave (leftOver xs) := by
  rw [leftOver, List.foldl_append]
  rfl

/-! ### One request -/

namespace MemorySnapshots

variable {m : MemorySnapshots} {shelf : Shelf}

/-- Taking a reference away leaves the shelf without it, also if it was not there. -/
theorem Shelves.discard (h : m.Shelves shelf) (ref : String) :
    (m.discard ref).2.Shelves (shelf.without [ref]) := by
  rw [MemorySnapshots.discard]
  split
  · exact h.without [ref]
  · next habsent =>
      have hall : ∀ x ∈ shelf, x.1 ∉ [ref] := by
        intro x hx hmem
        refine habsent (List.any_eq_true.2 ⟨x, h.mem_items.2 hx, ?_⟩)
        rw [List.mem_singleton.1 hmem]
        exact beq_self_eq_true ref
      have hsame : shelf.without [ref] = shelf := by
        refine List.filter_eq_self.2 fun x hx => ?_
        rw [Bool.not_eq_true', ← Bool.not_eq_true, List.contains_iff_mem]
        exact hall x hx
      rw [hsame]
      exact h

/-- What is not on the shelf is not found. -/
theorem Shelves.load?_eq_none (h : m.Shelves shelf) {ref : String} (href : ref ∉ shelf.references) :
    m.load? ref = none := by
  refine List.lookup_eq_none_iff.2 fun x hx => ?_
  rw [bne_iff_ne]
  rintro rfl
  exact href (List.mem_map_of_mem (h.mem_items.1 hx))

end MemorySnapshots

/-- The snapshots of a workspace are in memory, and they are what is left of what was saved: references
were never given twice, and none of them has a number that is still to be given. -/
structure Workspace.Recalls (w : Workspace) (m : MemorySnapshots) (xs : List Exchange) : Prop where
  store : w.store = .memory m
  shelves : m.Shelves (leftOver xs)
  saved : leftOver xs ⊆ savedIn xs
  distinct : ((savedIn xs).map Prod.fst).Nodup
  given : ∀ s ∈ savedIn xs, ∃ front timestamp n, n < m.next ∧
    s.1 = MemorySnapshots.reference front timestamp n
  answered : ∀ x ∈ xs, ∀ front doc, x.request = .save front doc →
    ∃ ref, x.outcome = .ok (.reference ref)

namespace Workspace.Recalls

variable {w w' : Workspace} {m m' : MemorySnapshots} {xs : List Exchange} {x : Exchange}

/-- An exchange that saves nothing. -/
theorem keep (h : w.Recalls m xs) (hx : ∀ front doc, x.request ≠ .save front doc)
    (hstore : w'.store = .memory m') (hnext : m'.next = m.next)
    (hshelves : m'.Shelves (x.leave (leftOver xs))) (hsub : x.leave (leftOver xs) ⊆ leftOver xs) :
    w'.Recalls m' (xs ++ [x]) := by
  have hnone : x.saved? = none := by
    obtain ⟨request, outcome⟩ := x
    cases request with
    | save front doc => exact absurd rfl (hx front doc)
    | load ref => rfl
    | list => rfl
    | prune keep => rfl
    | discard ref => rfl
  have hsaved : savedIn (xs ++ [x]) = savedIn xs := by
    rw [savedIn_concat, hnone]
    exact List.append_nil _
  rw [← leftOver_concat] at hshelves hsub
  refine ⟨hstore, hshelves, ?_, ?_, ?_, ?_⟩
  · rw [hsaved]
    exact fun s hs => h.saved (hsub hs)
  · rw [hsaved]
    exact h.distinct
  · rw [hsaved, hnext]
    exact h.given
  · refine List.forall_mem_append.2 ⟨h.answered, List.forall_mem_singleton.2 fun front doc heq => ?_⟩
    exact absurd heq (hx front doc)

/-- A snapshot is saved under a reference that was never given. -/
theorem save (h : w.Recalls m xs) (front timestamp : String) (doc : Json)
    (hstore : w'.store = .memory (m.save front timestamp doc).2) :
    w'.Recalls (m.save front timestamp doc).2
      (xs ++ [⟨.save front doc, .ok (.reference (MemorySnapshots.reference front timestamp m.next))⟩]) := by
  have hfresh : MemorySnapshots.reference front timestamp m.next ∉ (savedIn xs).map Prod.fst := by
    intro hmem
    obtain ⟨s, hs, href⟩ := List.mem_map.1 hmem
    obtain ⟨f, t, n, hn, hgiven⟩ := h.given s hs
    exact Nat.ne_of_lt hn (MemorySnapshots.reference_number (hgiven.symm.trans href))
  refine ⟨hstore, ?_, ?_, ?_, ?_, ?_⟩
  · rw [leftOver_concat]
    exact h.shelves.save front timestamp doc
  · rw [leftOver_concat, savedIn_concat]
    refine List.cons_subset.2 ⟨List.mem_append_right _ List.mem_cons_self, fun s hs => ?_⟩
    exact List.mem_append_left _ (h.saved hs)
  · rw [savedIn_concat, List.map_append]
    refine List.nodup_append.2 ⟨h.distinct, List.nodup_singleton _, ?_⟩
    intro ref href other hother heq
    have hnew : ref = MemorySnapshots.reference front timestamp m.next :=
      heq.trans (List.mem_singleton.1 hother)
    exact hfresh (hnew ▸ href)
  · rw [savedIn_concat]
    refine List.forall_mem_append.2 ⟨fun s hs => ?_, List.forall_mem_singleton.2 ?_⟩
    · obtain ⟨f, t, n, hn, hgiven⟩ := h.given s hs
      exact ⟨f, t, n, Nat.lt_succ_of_lt hn, hgiven⟩
    · exact ⟨front, timestamp, m.next, Nat.lt_succ_self _, rfl⟩
  · refine List.forall_mem_append.2 ⟨h.answered, List.forall_mem_singleton.2 fun _ _ _ => ?_⟩
    exact ⟨_, rfl⟩

/-- **One request**, whatever the clock shows. -/
theorem serve (h : w.Recalls m xs) (clock : Clock) (request : StoreRequest) :
    ∃ m', (request.serve { w with clock }).2.Recalls m'
      (xs ++ [⟨request, (request.serve { w with clock }).1⟩]) := by
  have hstore := h.store
  cases request with
  | save front doc =>
      have hserve : StoreRequest.serve (.save front doc) { w with clock } =
          (.ok (.reference (MemorySnapshots.reference front clock.read.1.timestamp m.next)),
            { w with clock := clock.read.2,
                     store := .memory (m.save front clock.read.1.timestamp doc).2 }) := by
        simp only [StoreRequest.serve, bind, Action.andThen, Action.saveSnapshot, hstore]
        rfl
      rw [hserve]
      exact ⟨_, h.save front clock.read.1.timestamp doc rfl⟩
  | load ref =>
      refine ⟨m, h.keep (by simp) ?_ rfl h.shelves (List.Subset.refl _)⟩
      simp only [StoreRequest.serve, bind, Action.andThen, Action.loadSnapshot, hstore]
      cases m.load? ref <;> rfl
  | list =>
      refine ⟨m, h.keep (by simp) ?_ rfl h.shelves (List.Subset.refl _)⟩
      simp only [StoreRequest.serve, bind, Action.andThen, Action.listSnapshots, hstore]
      rfl
  | prune keep =>
      by_cases hkeep : keep < 0
      · have hleave : ∀ outcome, Exchange.leave (leftOver xs) ⟨.prune keep, outcome⟩ = leftOver xs :=
          fun _ => if_pos hkeep
        refine ⟨m, h.keep (by simp) ?_ rfl (by rw [hleave]; exact h.shelves)
          (by rw [hleave]; exact List.Subset.refl _)⟩
        simp only [StoreRequest.serve, bind, Action.andThen, Action.pruneSnapshots, if_pos hkeep, hstore]
      · have hleave : ∀ outcome, Exchange.leave (leftOver xs) ⟨.prune keep, outcome⟩ =
            (leftOver xs).take keep.toNat := fun _ => if_neg hkeep
        refine ⟨(m.prune keep.toNat).2, h.keep (by simp) ?_ rfl
          (by rw [hleave]; exact (h.shelves.prune keep.toNat).2)
          (by rw [hleave]; exact List.take_subset _ _)⟩
        simp only [StoreRequest.serve, bind, Action.andThen, Action.pruneSnapshots, if_neg hkeep, hstore]
        rfl
  | discard ref =>
      have hnext : (m.discard ref).2.next = m.next := by
        rw [MemorySnapshots.discard]
        split <;> rfl
      refine ⟨(m.discard ref).2, h.keep (by simp) ?_ hnext (h.shelves.discard ref)
        fun s hs => (Shelf.mem_without.1 hs).1⟩
      simp only [StoreRequest.serve, bind, Action.andThen, Action.discardSnapshot, hstore]
      rfl

/-- **All requests**, by induction on them. -/
theorem converse (h : w.Recalls m xs) (requests : List (Clock × StoreRequest)) :
    ∃ m', (DesignRegistry.converse requests w).2.Recalls m'
      (xs ++ (DesignRegistry.converse requests w).1) := by
  induction requests generalizing w m xs with
  | nil =>
      refine ⟨m, ?_⟩
      rw [DesignRegistry.converse, List.append_nil]
      exact h
  | cons r requests ih =>
      obtain ⟨clock, request⟩ := r
      obtain ⟨m₁, h₁⟩ := h.serve clock request
      obtain ⟨m₂, h₂⟩ := ih h₁
      rw [List.append_assoc] at h₂
      exact ⟨m₂, h₂⟩

/-- What is left leads to its document. -/
theorem load (h : w.Recalls m xs) {s : String × Json} (hs : s ∈ leftOver xs) :
    Action.loadSnapshot s.1 w = (.ok s.2, w) := by
  simp only [Action.loadSnapshot, h.store, h.shelves.load hs]

/-- What was saved and is not left leads to nothing: no other snapshot has its reference. -/
theorem load_removed (h : w.Recalls m xs) {s : String × Json} (hs : s ∈ savedIn xs)
    (hgone : s ∉ leftOver xs) :
    Action.loadSnapshot s.1 w = (.error (.snapshot (.missing s.1)), w) := by
  have href : s.1 ∉ (leftOver xs).references := by
    intro hmem
    obtain ⟨other, hother, heq⟩ := List.mem_map.1 hmem
    rw [List.inj_on_of_nodup_map h.distinct (h.saved hother) hs heq] at hother
    exact hgone hother
  simp only [Action.loadSnapshot, h.store, h.shelves.load?_eq_none href]

end Workspace.Recalls

theorem request_converse (requests : List (Clock × StoreRequest)) (w : Workspace) :
    (converse requests w).1.map Exchange.request = requests.map Prod.snd := by
  induction requests generalizing w with
  | nil => rfl
  | cons r requests ih => exact congrArg (r.2 :: ·) (ih _)

/-- **References are never given twice.**  Whatever is saved in memory, loaded, listed and removed, and
whatever the clock shows, all saves return references, no two of them the same.  Each reference leads to
the document that was saved under it as long as it is not removed, and to nothing afterwards. -/
theorem references_never_reused (w : Workspace) (hw : w.store = .memory {})
    (requests : List (Clock × StoreRequest)) :
    ∃ exchanges w', converse requests w = (exchanges, w')
      ∧ exchanges.map Exchange.request = requests.map Prod.snd
      ∧ (∀ x ∈ exchanges, ∀ front doc, x.request = .save front doc →
        ∃ ref, x.outcome = .ok (.reference ref))
      ∧ ((savedIn exchanges).map Prod.fst).Nodup
      ∧ ∀ s ∈ savedIn exchanges,
        (s ∈ leftOver exchanges → Action.loadSnapshot s.1 w' = (.ok s.2, w'))
          ∧ (s ∉ leftOver exchanges →
            Action.loadSnapshot s.1 w' = (.error (.snapshot (.missing s.1)), w')) := by
  have hstart : w.Recalls {} [] :=
    ⟨hw, MemorySnapshots.shelves_nil, List.Subset.refl _, List.nodup_nil, List.forall_mem_nil _,
      List.forall_mem_nil _⟩
  obtain ⟨m, h⟩ := hstart.converse requests
  rw [List.nil_append] at h
  exact ⟨_, _, rfl, request_converse requests w, h.answered, h.distinct,
    fun _ hs => ⟨h.load, h.load_removed hs⟩⟩

/-- A workspace with nothing in memory. -/
def forgetfulWorkspace : Workspace where
  files := .empty ["home"] 0
  clock := ⟨⟨0⟩, 0⟩
  store := .memory {}

/-- Two documents that are saved at one instant, and a third one once the first is discarded. -/
def hastyRequests : List (Clock × StoreRequest) :=
  [.save "dcp" (.int 1), .save "dcp" (.int 2),
    .discard "memory://dcp-backup-1970-01-01T00-00-00-000Z.json#0", .save "dcp" (.int 3)].map
      fun request => (⟨⟨0⟩, 0⟩, request)

/-- The reference of the first document is not given to the third, and leads to nothing. -/
theorem references_never_reused_hasty :
    forgetfulWorkspace.store = .memory {} ∧ ∃ exchanges w',
      converse hastyRequests forgetfulWorkspace = (exchanges, w')
        ∧ savedIn exchanges =
          [("memory://dcp-backup-1970-01-01T00-00-00-000Z.json#0", .int 1),
            ("memory://dcp-backup-1970-01-01T00-00-00-000Z.json#1", .int 2),
            ("memory://dcp-backup-1970-01-01T00-00-00-000Z.json#2", .int 3)]
        ∧ Action.loadSnapshot "memory://dcp-backup-1970-01-01T00-00-00-000Z.json#0" w' =
          (.error (.snapshot (.missing "memory://dcp-backup-1970-01-01T00-00-00-000Z.json#0")), w')
        ∧ Action.loadSnapshot "memory://dcp-backup-1970-01-01T00-00-00-000Z.json#2" w' =
          (.ok (.int 3), w') := by
  obtain ⟨exchanges, w', hrun, -, -, -, hload⟩ :=
    references_never_reused forgetfulWorkspace rfl hastyRequests
  have hexchanges : exchanges = (converse hastyRequests forgetfulWorkspace).1 := by rw [hrun]
  have hsaved : savedIn exchanges =
      [("memory://dcp-backup-1970-01-01T00-00-00-000Z.json#0", .int 1),
        ("memory://dcp-backup-1970-01-01T00-00-00-000Z.json#1", .int 2),
        ("memory://dcp-backup-1970-01-01T00-00-00-000Z.json#2", .int 3)] := by
    rw [hexchanges]
    rfl
  have hleft : leftOver exchanges =
      [("memory://dcp-backup-1970-01-01T00-00-00-000Z.json#2", .int 3),
        ("memory://dcp-backup-1970-01-01T00-00-00-000Z.json#1", .int 2)] := by
    rw [hexchanges]
    rfl
  rw [hsaved, hleft] at hload
  refine ⟨rfl, exchanges, w', hrun, hsaved, ?_, ?_⟩
  · exact (hload (_, .int 1) (by simp)).2 (by simp)
  · exact (hload (_, .int 3) (by simp)).1 (by simp)

end DesignRegistry
