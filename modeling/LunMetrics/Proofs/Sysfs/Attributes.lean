import LunMetrics.Proofs.FileTree.Contents
import LunMetrics.Proofs.Text.Blank
import LunMetrics.Proofs.Text.Utf8
import LunMetrics.Proofs.Topology.Exports
import Mathlib.Logic.Relation

/- Reading an attribute. Of the bytes of a file nothing counts but the text that they encode, and of that text nothing
   but what stands between the blanks at its ends, with every line end written `\n` (`read_eq_ok_iff`). A file is refused
   if and only if its bytes encode no text, and what is read is canonical: written back it is read as it was, and any
   other spelling of the text is read as the same. -/
namespace LunMetrics.FileTree

theorem content_encode (text : Text) : content (Utf8.encode text) = .ok (Text.strip (Text.unifyLineEnds text)) := by
  rw [content, Utf8.decode_encode]
  rfl

theorem content_eq_ok_iff {bytes : List UInt8} {r : Text} :
    content bytes = .ok r ↔ ∃ text, bytes = Utf8.encode text ∧ r = Text.strip (Text.unifyLineEnds text) := by
  unfold content
  simp only [Except.map_eq_ok_iff, Utf8.decode_eq_ok_iff, eq_comm (a := r)]

variable {t : FileTree} {path : Text}

theorem read_file {bytes : List UInt8} (file : t.target? path = some (.file bytes)) :
    t.read path = (content bytes).mapError (.undecodable path) := by
  unfold read
  rw [file]

/-- An attribute is read if and only if its path leads to a file of well-formed text. -/
theorem read_eq_ok_iff {r : Text} :
    t.read path = .ok r ↔
      ∃ text, t.target? path = some (.file (Utf8.encode text)) ∧ r = Text.strip (Text.unifyLineEnds text) := by
  constructor
  · intro h
    unfold read at h
    split at h
    · cases h
    · cases h
    · next bytes file =>
      obtain ⟨text, rfl, hr⟩ := content_eq_ok_iff.1 (Except.mapError_eq_ok_iff.1 h)
      exact ⟨text, file, hr⟩
    · cases h
  · rintro ⟨text, file, rfl⟩
    rw [read_file file, content_encode]
    rfl

theorem read_file_eq_error_iff {bytes : List UInt8} (file : t.target? path = some (.file bytes)) {f : SysfsFault} :
    t.read path = .error f ↔ ∃ fault, Utf8.decode bytes = .error fault ∧ .undecodable path fault = f := by
  rw [read_file file, Except.mapError_eq_error_iff]
  simp only [content, Except.map_eq_error_iff]

/-- A text in place of the one that the file held is read where that was. -/
theorem read_store {bytes : List UInt8} (file : t.target? path = some (.file bytes)) (text : Text) :
    (t.store path (Utf8.encode text)).read path = .ok (Text.strip (Text.unifyLineEnds text)) :=
  read_eq_ok_iff.2 ⟨text, target?_store file _, rfl⟩

/-- A file is refused if and only if its bytes are no well-formed text, and then for the first ill-formed piece. Of a text
    what stands between the blanks at its ends is read, with line ends of one kind. Put back into the file it is read as
    it was, and so is every other spelling of the text. -/
theorem read_canonical {bytes : List UInt8} (file : t.target? path = some (.file bytes)) :
    ((∃ f, t.read path = .error f) ↔ ¬∃ text, bytes = Utf8.encode text) ∧
    (∀ f, t.read path = .error f → ∃ fault, Utf8.decode bytes = .error fault ∧ f = .undecodable path fault) ∧
    ∀ text, bytes = Utf8.encode text → ∃ r,
      t.read path = .ok r ∧ '\r' ∉ r ∧ Text.Trimmed r ∧
      (∃ before after, Text.Blank before ∧ Text.Blank after ∧ Text.unifyLineEnds text = before ++ r ++ after) ∧
      (t.store path (Utf8.encode r)).read path = .ok r ∧
      ∀ text', Relation.ReflTransGen Text.Respells text text' →
        (t.store path (Utf8.encode text')).read path = .ok r := by
  refine ⟨⟨?_, ?_⟩, ?_, ?_⟩
  · rintro ⟨f, h⟩ ⟨text, e⟩
    obtain ⟨fault, hf, _⟩ := (read_file_eq_error_iff file).1 h
    rw [Utf8.decode_eq_ok_iff.2 e] at hf
    cases hf
  · intro illFormed
    cases h : t.read path with
    | error f => exact ⟨f, rfl⟩
    | ok r =>
      obtain ⟨text, file', _⟩ := read_eq_ok_iff.1 h
      cases file.symm.trans file'
      exact absurd ⟨text, rfl⟩ illFormed
  · intro f h
    obtain ⟨fault, hf, rfl⟩ := (read_file_eq_error_iff file).1 h
    exact ⟨fault, hf, rfl⟩
  · rintro text rfl
    have noCr : '\r' ∉ Text.strip (Text.unifyLineEnds text) := by
      rw [Text.strip_unifyLineEnds]
      exact Text.cr_not_mem_unifyLineEnds _
    obtain ⟨before, after, hb, trimmed, ha, whole⟩ := Text.exists_around (Text.unifyLineEnds text)
    refine ⟨_, read_eq_ok_iff.2 ⟨text, file, rfl⟩, noCr, trimmed, ⟨before, after, hb, ha, whole⟩, ?_, ?_⟩
    · rw [read_store file, Text.unifyLineEnds_of_not_mem noCr, trimmed.strip_eq]
    · intro text' respelled
      rw [read_store file]
      -- one change of spelling after another
      induction respelled with
      | refl => rfl
      | tail _ change ih => rw [change.same, ih]

def enablePath : Text := "c/target/iscsi/iqn.a/tpgt_1/enable".toList

/-- The switch of the only group in the small tree reads as `1` with any line end. -/
theorem enable_read_canonical :
    specimen.target? enablePath = some (.file (Utf8.encode "1\n".toList)) ∧
      ∃ r, specimen.read enablePath = .ok r ∧
        (specimen.store enablePath (Utf8.encode "1\r\n".toList)).read enablePath = .ok r ∧
        (specimen.store enablePath (Utf8.encode "1\r".toList)).read enablePath = .ok r := by
  have file : specimen.target? enablePath = some (.file (Utf8.encode "1\n".toList)) := rfl
  obtain ⟨r, read, _, _, _, _, respelled⟩ := (read_canonical file).2.2 _ rfl
  refine ⟨file, r, read, respelled _ (.single ?_), respelled _ (.single ?_)⟩
  · exact Text.Respells.crlf (t := ['1']) (u := []) (by decide)
  · exact Text.Respells.cr (t := ['1']) (u := []) (by decide) (by decide)

end LunMetrics.FileTree
