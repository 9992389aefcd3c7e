/-
**Documents in files.**

A text that is written as UTF-8 is read back, and a text whose line ends are line feeds is read as it
stands.  What a file holds is then a matter of the reader of documents alone.

Main results:

* `decodeText_toUTF8` — a text is read back from its bytes;
* `FileSystem.documentOf_of_text` — the document of a file is the one that its text denotes;
* `FileSystem.documentOf_of_create` — **a document that is written is read back**.
-/
import DesignRegistry.Proofs.Json.RoundTrip
import DesignRegistry.Proofs.Storage.FileSystem
import DesignRegistry.Proofs.Text.LineEnds

set_option relaxedAutoImplicit false
set_option autoImplicit false

namespace DesignRegistry

/-- A text is read back from its bytes. -/
theorem decodeText_toUTF8 (s : String) : decodeText s.toUTF8 = .ok s := by
  have hdecoded : String.fromUTF8? s.toUTF8 = some s := by
    rw [String.fromUTF8?, dif_pos (show s.toUTF8.IsValidUTF8 from s.isValidUTF8)]
    rfl
  rw [decodeText, hdecoded]

/-- What is found to be the same document is the document that is read. -/
theorem Json.eq_ok_of_same {ε : Type} {r : Except ε Json} {doc : Json}
    (h : r.toOption.map (·.same doc) = some true) : r = .ok doc := by
  cases r with
  | error e => exact absurd h (by simp [Except.toOption])
  | ok found => rw [(Json.same_iff found doc).1 (Option.some.inj h)]

/-- The document of a file is the one that its text denotes. -/
theorem FileSystem.documentOf_of_text {fs : FileSystem} {p : FilePath} {s : String} {doc : Json}
    (hbytes : fs.bytesOf p = .ok s.toUTF8) (hends : '\r' ∉ s.toList)
    (hparse : Json.parse s = .ok doc) : fs.documentOf p = .ok doc := by
  have htext : fs.textOf p = .ok s := by
    rw [textOf, hbytes]
    simp only [decodeText_toUTF8]
    rw [withPlainLineEnds, plainLineEnds_of_notMem hends, String.ofList_toList]
  rw [FileSystem.documentOf, htext]
  simp only [hparse]

/-- A document that was read from a file can be written so that it is read again. -/
theorem FileSystem.legible_of_documentOf {fs : FileSystem} {p : FilePath} {doc : Json}
    (h : fs.documentOf p = .ok doc) : doc.Legible := by
  rw [documentOf] at h
  split at h
  · exact absurd h (by simp)
  · next text _ =>
      split at h
      · exact absurd h (by simp)
      · next found hparse => exact Except.ok.inj h ▸ Json.legible_of_parse hparse

/-- **A document that is written is read back.** -/
theorem FileSystem.documentOf_of_create {fs fs' : FileSystem} {p : FilePath} {doc : Json}
    (hdoc : doc.Legible) (h : fs.create p doc.pretty.toUTF8 = .ok fs') : fs'.documentOf p = .ok doc :=
  documentOf_of_text (bytesOf_eq_ok.2 ⟨_, at?_of_create h⟩) (Json.return_notMem_pretty hdoc)
    (Json.parse_pretty hdoc)

end DesignRegistry
