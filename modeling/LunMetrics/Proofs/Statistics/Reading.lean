import LunMetrics.Proofs.Sysfs.Attributes
import LunMetrics.Proofs.Text.Numerals
import LunMetrics.Statistics.Reading

/- When counters are read and what they come to. An attribute gives an unsigned integer if and only if it is a file of
   well-formed text that is a numeral up to blanks at its ends (`FileTree.natural_eq_ok_iff`); so do three of them give
   the counters of a LUN, and in every other case the reading fails for the fault of one of the three
   (`counters_read_iff`). A number that is written with blanks and zeros around it is such a text
   (`Written.Legible.counts`). -/
namespace LunMetrics

namespace FileTree

/-- Whether a path leads to a file of well-formed text that denotes a number without the blanks at its ends. -/
def Counts (t : FileTree) (path : Text) (n : Nat) : Prop :=
  ∃ text, t.target? path = some (.file (Utf8.encode text)) ∧ Text.IsNumeral (Text.strip text) ∧
    n = Text.number (Text.strip text)

variable {t : FileTree} {path : Text}

/-- An unsigned integer is read if and only if the attribute holds one. The weaker test for digits refuses nothing that
    the stronger one would pass. -/
theorem natural_eq_ok_iff {n : Nat} : t.sysfs.natural path = .ok n ↔ t.Counts path n := by
  constructor
  · intro h
    unfold Sysfs.natural at h
    rw [sysfs_read] at h
    cases read : t.read path with
    | error f => rw [read] at h; cases h
    | ok raw =>
      rw [read] at h
      simp only at h
      split at h
      · obtain ⟨text, file, rfl⟩ := read_eq_ok_iff.1 read
        obtain ⟨numeral, rfl⟩ := Text.natural_eq_ok_iff.1 (Except.mapError_eq_ok_iff.1 h)
        rw [Text.strip_unifyLineEnds, Text.isNumeral_unifyLineEnds_iff] at numeral
        exact ⟨text, file, numeral, by rw [Text.strip_unifyLineEnds, numeral.unifyLineEnds_eq]⟩
      · cases h
  · rintro ⟨text, file, numeral, rfl⟩
    have read : t.read path = .ok (Text.strip text) :=
      read_eq_ok_iff.2 ⟨text, file, by rw [Text.strip_unifyLineEnds, numeral.unifyLineEnds_eq]⟩
    unfold Sysfs.natural
    rw [sysfs_read, read]
    simp only
    rw [if_pos numeral.areDigits, Text.natural_eq_ok_iff.2 ⟨numeral, rfl⟩]
    rfl

end FileTree

namespace Statistics

/-! Numbers as they may be written. -/

/-- A number as it may stand in an attribute: with zeros before it and blanks around it. -/
structure Written where
  before : Text
  zeros : Nat
  value : Nat
  after : Text

def Written.text (w : Written) : Text := w.before ++ Text.padded w.zeros w.value ++ w.after

/-- Whether the number is written with blanks around it only, and with no more digits than are read. -/
structure Written.Legible (w : Written) : Prop where
  before : Text.Blank w.before
  after : Text.Blank w.after
  short : (Text.padded w.zeros w.value).length ≤ Text.maxDigits

instance (w : Written) : Decidable w.Legible :=
  decidable_of_iff (Text.Blank w.before ∧ Text.Blank w.after ∧ (Text.padded w.zeros w.value).length ≤ Text.maxDigits)
    ⟨fun ⟨h₁, h₂, h₃⟩ => ⟨h₁, h₂, h₃⟩, fun ⟨h₁, h₂, h₃⟩ => ⟨h₁, h₂, h₃⟩⟩

theorem Written.Legible.counts {w : Written} (legible : w.Legible) {t : FileTree} {path : Text}
    (file : t.target? path = some (.file (Utf8.encode w.text))) : t.Counts path w.value := by
  have numeral := Text.isNumeral_padded legible.short
  have bare : Text.strip w.text = Text.padded w.zeros w.value :=
    Text.strip_around legible.before numeral.trimmed legible.after
  refine ⟨w.text, file, ?_, ?_⟩
  · rw [bare]
    exact numeral
  · rw [bare, Text.number_padded]

/-! Three attributes. -/

/-- The attributes that hold the counters, in the order in which they are read. -/
def attributes : List Text := [Layout.readUnits, Layout.writeUnits, Layout.commands]

theorem readIn_eq_ok_iff {fs : Sysfs} {dir : Text} {a b n : Nat} :
    readIn fs dir = .ok (a, b, n) ↔
      fs.natural (Path.join dir Layout.readUnits) = .ok a ∧ fs.natural (Path.join dir Layout.writeUnits) = .ok b ∧
      fs.natural (Path.join dir Layout.commands) = .ok n := by
  unfold readIn
  simp only [Except.bind_eq_ok_iff, Except.pure_eq_ok_iff, Prod.mk.injEq]
  constructor
  · rintro ⟨_, ha, _, hb, _, hn, rfl, rfl, rfl⟩
    exact ⟨ha, hb, hn⟩
  · rintro ⟨ha, hb, hn⟩
    exact ⟨a, ha, b, hb, n, hn, rfl, rfl, rfl⟩

/-- Where the three attributes are not read, one of them fails for the same cause. -/
theorem readIn_error {fs : Sysfs} {dir : Text} {cause : CounterFault} (h : readIn fs dir = .error cause) :
    ∃ name ∈ attributes, fs.natural (Path.join dir name) = .error cause := by
  unfold readIn at h
  simp only [Except.bind_eq_error_iff] at h
  rcases h with first | ⟨_, _, second | ⟨_, _, third | ⟨_, _, done⟩⟩⟩
  · exact ⟨_, by simp [attributes], first⟩
  · exact ⟨_, by simp [attributes], second⟩
  · exact ⟨_, by simp [attributes], third⟩
  · cases done

theorem value_read (fs : Sysfs) (r : Roots) (iqn tpgt lun : Text) :
    (read fs r iqn tpgt lun).value =
      match readIn fs (r.statistics iqn tpgt lun) with
      | .error cause => .error ⟨iqn, tpgt, lun, cause⟩
      | .ok (a, b, n) => .ok ⟨a, b, n⟩ := by
  unfold read
  cases readIn fs (r.statistics iqn tpgt lun) with
  | error cause => rfl
  | ok c => rfl

/-- Whether the three attributes in a directory hold these numbers. -/
structure Holds (t : FileTree) (dir : Text) (a b n : Nat) : Prop where
  read : t.Counts (Path.join dir Layout.readUnits) a
  written : t.Counts (Path.join dir Layout.writeUnits) b
  commands : t.Counts (Path.join dir Layout.commands) n

theorem readIn_eq_ok_iff_holds {t : FileTree} {dir : Text} {a b n : Nat} :
    readIn t.sysfs dir = .ok (a, b, n) ↔ Holds t dir a b n := by
  rw [readIn_eq_ok_iff, FileTree.natural_eq_ok_iff, FileTree.natural_eq_ok_iff, FileTree.natural_eq_ok_iff]
  exact ⟨fun ⟨h₁, h₂, h₃⟩ => ⟨h₁, h₂, h₃⟩, fun ⟨h₁, h₂, h₃⟩ => ⟨h₁, h₂, h₃⟩⟩

theorem value_read_eq_ok_iff {fs : Sysfs} {r : Roots} {iqn tpgt lun : Text} {c : Counters} :
    (read fs r iqn tpgt lun).value = .ok c ↔
      ∃ a b n : Nat, c = ⟨a, b, n⟩ ∧ readIn fs (r.statistics iqn tpgt lun) = .ok (a, b, n) := by
  rw [value_read]
  cases readIn fs (r.statistics iqn tpgt lun) with
  | error cause => simp
  | ok found =>
    obtain ⟨a, b, n⟩ := found
    constructor
    · intro h
      cases h
      exact ⟨a, b, n, rfl, rfl⟩
    · rintro ⟨a', b', n', rfl, h⟩
      cases h
      rfl

theorem value_read_eq_ok_iff_holds {t : FileTree} {r : Roots} {iqn tpgt lun : Text} {c : Counters} :
    (read t.sysfs r iqn tpgt lun).value = .ok c ↔
      ∃ a b n : Nat, c = ⟨a, b, n⟩ ∧ Holds t (r.statistics iqn tpgt lun) a b n := by
  simp only [value_read_eq_ok_iff, readIn_eq_ok_iff_holds]

/-- Counters are read if and only if each of the three attributes is a file of well-formed text that denotes a number
    without the blanks at its ends, and then they are these numbers. In every other case the LUN has no counters, for the
    fault of one of the three. Numbers are read as they were written. -/
theorem counters_read_iff (t : FileTree) (r : Roots) (iqn tpgt lun : Text) :
    (∀ c, (read t.sysfs r iqn tpgt lun).value = .ok c ↔
      ∃ a b n : Nat, c = ⟨a, b, n⟩ ∧ Holds t (r.statistics iqn tpgt lun) a b n) ∧
    ((¬∃ a b n, Holds t (r.statistics iqn tpgt lun) a b n) → ∃ cause,
      (read t.sysfs r iqn tpgt lun).value = .error ⟨iqn, tpgt, lun, cause⟩ ∧
      ∃ name ∈ attributes, t.sysfs.natural (Path.join (r.statistics iqn tpgt lun) name) = .error cause) ∧
    ∀ a b n : Written, a.Legible → b.Legible → n.Legible →
      t.target? (Path.join (r.statistics iqn tpgt lun) Layout.readUnits) = some (.file (Utf8.encode a.text)) →
      t.target? (Path.join (r.statistics iqn tpgt lun) Layout.writeUnits) = some (.file (Utf8.encode b.text)) →
      t.target? (Path.join (r.statistics iqn tpgt lun) Layout.commands) = some (.file (Utf8.encode n.text)) →
      (read t.sysfs r iqn tpgt lun).value = .ok ⟨a.value, b.value, n.value⟩ := by
  refine ⟨fun _ => value_read_eq_ok_iff_holds, ?_, ?_⟩
  · intro missing
    rw [value_read]
    cases h : readIn t.sysfs (r.statistics iqn tpgt lun) with
    | error cause => exact ⟨cause, rfl, readIn_error h⟩
    | ok found => exact absurd ⟨_, _, _, readIn_eq_ok_iff_holds.1 h⟩ missing
  · intro a b n ha hb hn fa fb fn
    exact value_read_eq_ok_iff_holds.2 ⟨_, _, _, rfl, ha.counts fa, hb.counts fb, hn.counts fn⟩

def readUnitsPath : Text :=
  Path.join (Roots.specimen.statistics "iqn.a".toList "1".toList "0".toList) Layout.readUnits

/-- Zeros and blanks around a counter in the small tree do not change it. -/
theorem specimen_counters_read :
    (read (FileTree.specimen.store readUnitsPath (Utf8.encode "\t007\r\n".toList)).sysfs Roots.specimen "iqn.a".toList
      "1".toList "0".toList).value = .ok ⟨7, 0, 12⟩ := by
  let t := FileTree.specimen.store readUnitsPath (Utf8.encode "\t007\r\n".toList)
  have written := (counters_read_iff t Roots.specimen "iqn.a".toList "1".toList "0".toList).2.2
  exact written ⟨"\t".toList, 2, 7, "\r\n".toList⟩ ⟨[], 0, 0, []⟩ ⟨[], 0, 12, []⟩ (by decide) (by decide) (by decide)
    rfl rfl rfl

end Statistics
end LunMetrics
