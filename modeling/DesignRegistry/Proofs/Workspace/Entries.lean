/-
**The lines of the audit log.**

An entry is written on a line of its own: its text has no line end in it, since those of its strings are
escaped, and it starts and ends with a brace.  So what is added behind the last line end of a log is read
as one more entry, and nothing before it is read in another way.

Main definitions:

* `entriesOf` — the entries that a text holds;
* `WholeLines` — a text whose last line has an end;
* `AuditRecord.ToldBy` — an entry that tells what a record does.

Main results:

* `readEntries_append` — the entries of some lines and of others behind them;
* `entriesOf_append_line` — **an entry that is added to whole lines is read after the others**;
* `AuditRecord.legible_members`, `AuditRecord.toldBy_entry` — an entry can be read back, and its keys have
  the values of its record.
-/
import DesignRegistry.Proofs.Json.Sorted
import DesignRegistry.Proofs.Storage.Document
import DesignRegistry.Proofs.Text.LineEnds
import DesignRegistry.Proofs.Text.Pieces
import DesignRegistry.Workspace.Audit

set_option relaxedAutoImplicit false
set_option autoImplicit false

namespace DesignRegistry

/-! ### Lines -/

/-- The entries of some lines and of others behind them. -/
theorem readEntries_append (xs ys : List (List Char)) : readEntries (xs ++ ys) =
    (readEntries xs).bind fun es => (readEntries ys).map (es ++ ·) := by
  induction xs with
  | nil => cases hys : readEntries ys <;> simp [hys, readEntries, Except.bind, Except.map]
  | cons line xs ih =>
      rw [List.cons_append, readEntries, readEntries, ih]
      by_cases hblank : (trimBlanks line).isEmpty
      · simp only [if_pos hblank]
      · simp only [if_neg hblank]
        cases Json.parse (String.ofList (trimBlanks line)) with
        | error e => rfl
        | ok v => cases readEntries xs <;> cases readEntries ys <;> rfl

/-- The entries that a text holds. -/
def entriesOf (s : List Char) : Except Json.ReadError (List Json) :=
  readEntries (pieces '\n' (plainLineEnds s))

/-- A text whose last line has an end, unless it has no line. -/
def WholeLines (s : List Char) : Prop := s = [] ∨ ∃ front, s = front ++ ['\n']

/-- Behind whole lines a text is read as if it were alone. -/
theorem entriesOf_append {s : List Char} (hs : WholeLines s) {es : List Json}
    (h : entriesOf s = .ok es) (back : List Char) :
    entriesOf (s ++ back) = (entriesOf back).map (es ++ ·) := by
  rcases hs with rfl | ⟨front, rfl⟩
  · obtain rfl := Except.ok.inj h
    rw [List.nil_append]
    cases hback : entriesOf back <;> simp [Except.map]
  · obtain ⟨plain, hplain⟩ := exists_plainLineEnds_append front
    have hfront : entriesOf (front ++ ['\n']) = readEntries (pieces '\n' plain) := by
      rw [entriesOf, hplain [], pieces_append, readEntries_append]
      cases readEntries (pieces '\n' plain) with
      | error e => rfl
      | ok read => exact congrArg Except.ok (List.append_nil read)
    rw [entriesOf, List.append_assoc, List.singleton_append, hplain back, pieces_append,
      readEntries_append, ← hfront, h]
    rfl

/-- An object on one line stands between braces. -/
theorem exists_renderAt_obj (ms : Json.Members) :
    ∃ inner, Json.renderAt .compact 0 (.obj ms) = '{' :: (inner ++ ['}']) := by
  cases ms with
  | nil => exact ⟨[], rfl⟩
  | cons m ms =>
      obtain ⟨k, v⟩ := m
      exact ⟨Json.stringLiteral false k ++ [':'] ++ Json.renderAt .compact 1 v ++
        Json.renderMembers .compact 1 ms ++ [], by rw [Json.renderAt]; rfl⟩

/-- The line of an object holds the object. -/
theorem entriesOf_line {ms : Json.Members} (hentry : (Json.obj ms).Legible) :
    entriesOf (Json.renderAt .compact 0 (.obj ms) ++ ['\n']) = .ok [.obj ms] := by
  have hvisible := Json.visible_of_mem_compact hentry
  have hplain : plainLineEnds (Json.renderAt .compact 0 (.obj ms) ++ ['\n']) =
      Json.renderAt .compact 0 (.obj ms) ++ ['\n'] := by
    refine plainLineEnds_of_notMem fun hmem => ?_
    rcases List.mem_append.1 hmem with hmem | hmem
    · exact absurd (hvisible _ hmem) (by decide)
    · exact absurd hmem (by decide)
  have hline : '\n' ∉ Json.renderAt .compact 0 (.obj ms) := fun hmem =>
    absurd (hvisible _ hmem) (by decide)
  have hparse := Json.parse_renderAt Json.plain_compact hentry (List.forall_mem_nil _)
  rw [List.append_nil] at hparse
  obtain ⟨inner, hinner⟩ := exists_renderAt_obj ms
  rw [entriesOf, hplain, pieces_append, pieces_of_not_mem hline, hinner]
  rw [hinner] at hparse
  have htrim : trimBlanks ('{' :: (inner ++ ['}'])) = '{' :: (inner ++ ['}']) :=
    trimBlanks_of_ends (by decide) (by decide) inner
  simp only [List.singleton_append, readEntries, htrim, hparse]
  rfl

/-- **An entry that is added to whole lines is read after the others.** -/
theorem entriesOf_append_line {s : List Char} (hs : WholeLines s) {es : List Json}
    (h : entriesOf s = .ok es) {ms : Json.Members} (hentry : (Json.obj ms).Legible) :
    entriesOf (s ++ (Json.renderAt .compact 0 (.obj ms) ++ ['\n'])) = .ok (es ++ [Json.obj ms]) := by
  rw [entriesOf_append hs h, entriesOf_line hentry]
  rfl

/-! ### Records -/

namespace AuditRecord

variable {r : AuditRecord} {timestamp : String}

/-- The members of an entry. -/
def members (r : AuditRecord) (timestamp : String) : Json.Members :=
  r.extra.foldl addMember (r.baseMembers timestamp)

/-- What holds of the members without the further ones, and is kept when a further one is put, holds of the
members. -/
theorem members_induction {P : Json.Members → Prop} (hbase : P (r.baseMembers timestamp))
    (hput : ∀ ms, P ms → ∀ m ∈ r.extra, P (Json.Members.put m.1 m.2 ms)) :
    P (r.members timestamp) := by
  have hfold : ∀ rest ⊆ r.extra, ∀ ms, P ms → P (rest.foldl addMember ms) := by
    intro rest
    induction rest with
    | nil => exact fun _ ms h => h
    | cons m rest ih =>
        intro hsub ms h
        obtain ⟨hm, hrest⟩ := List.cons_subset.1 hsub
        refine ih hrest _ ?_
        rw [addMember]
        split
        · exact h
        · exact hput ms h m hm
  exact hfold r.extra (List.Subset.refl _) _ hbase

theorem nodup_keys_members (r : AuditRecord) (timestamp : String) :
    (Json.Members.keys (r.members timestamp)).Nodup :=
  members_induction (P := fun ms => (Json.Members.keys ms).Nodup)
    (show ["timestamp", "type", "sourcePath", "outputPath", "backupPath", "appliedOpsCount"].Nodup by
      decide)
    fun _ h m _ => Json.Members.nodup_keys_put h m.1 m.2

theorem legible_ofText? (s : Option String) : (Json.ofText? s).Legible := by
  cases s <;> trivial

/-- An entry whose count can be read back, and whose further members can, can be read back. -/
theorem legible_members (hcount : (Json.int r.count).Legible) (hextra : ∀ m ∈ r.extra, m.2.Legible) :
    (Json.obj (r.members timestamp)).Legible := by
  refine ⟨nodup_keys_members r timestamp, Json.legibleMembers_iff.2 ?_⟩
  refine members_induction (P := fun ms => ∀ m ∈ ms, m.2.Legible) ?_ fun ms h m hm other hother => ?_
  · simp only [baseMembers, List.forall_mem_cons]
    exact ⟨trivial, trivial, legible_ofText? _, legible_ofText? _, legible_ofText? _, hcount,
      List.forall_mem_nil _⟩
  · rcases Json.Members.mem_put hother with rfl | hother
    · exact hextra m hm
    · exact h other hother

/-- The further members replace none of the others. -/
theorem get?_members {key : String} (h : key ∉ Json.Members.keys r.extra) :
    Json.Members.get? key (r.members timestamp) =
      Json.Members.get? key (r.baseMembers timestamp) := by
  refine members_induction (P := fun ms => Json.Members.get? key ms = _) rfl fun ms hms m hm => ?_
  have hne : key ≠ m.1 := fun heq => h (heq ▸ List.mem_map_of_mem hm)
  rw [Json.Members.get?_put, if_neg hne, hms]

/-- The keys that every entry has. -/
def baseKeys : List String :=
  ["timestamp", "type", "sourcePath", "outputPath", "backupPath", "appliedOpsCount"]

/-- An entry that tells what a record does, but for the further members. -/
structure ToldBy (r : AuditRecord) (entry : Json) : Prop where
  type : entry.field? "type" = some (.str r.type)
  source : entry.field? "sourcePath" = some (.ofText? r.source)
  target : entry.field? "outputPath" = some (.ofText? r.target)
  backup : entry.field? "backupPath" = some (.ofText? r.backup)
  count : entry.field? "appliedOpsCount" = some (.int r.count)

theorem sortKeys_ofText? (s : Option String) : (Json.ofText? s).sortKeys = Json.ofText? s := by
  cases s <;> rfl

/-- An entry of a record, with its keys in order, tells what the record does. -/
theorem toldBy_entry (hextra : ∀ m ∈ r.extra, m.1 ∉ baseKeys) (timestamp : String) :
    r.ToldBy (r.entry timestamp).sortKeys := by
  have hfield : ∀ {key v}, key ∈ baseKeys → v.sortKeys = v →
      Json.Members.get? key (r.baseMembers timestamp) = some v →
      (r.entry timestamp).sortKeys.field? key = some v := by
    intro key v hkey hsorted hv
    have hnot : key ∉ Json.Members.keys r.extra := by
      intro hmem
      obtain ⟨m, hm, rfl⟩ := List.mem_map.1 hmem
      exact hextra m hm hkey
    rw [← get?_members hnot] at hv
    rw [← hsorted]
    exact Json.field?_sortKeys (nodup_keys_members r timestamp) hv
  exact ⟨hfield (by decide) rfl rfl, hfield (by decide) (sortKeys_ofText? _) rfl,
    hfield (by decide) (sortKeys_ofText? _) rfl, hfield (by decide) (sortKeys_ofText? _) rfl,
    hfield (by decide) rfl rfl⟩

end AuditRecord

end DesignRegistry
