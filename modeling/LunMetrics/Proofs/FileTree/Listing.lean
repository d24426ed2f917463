import LunMetrics.Sysfs
import LunMetrics.Proofs.Text.CodePointOrder

/- Listings of a file tree. A tree is legal (`Legal`) if no location occurs twice and every name is one that
   a file system takes. `Holds` says what a directory contains, hidden or not, without any order; the listing
   is told by it:

   1. a name is listed exactly if the directory holds it and it is not hidden (`mem_list_iff`);
   2. in a legal tree the listed names are in strict code-point order (`list_before`), so none occurs
      twice. -/
namespace LunMetrics.FileTree

/-! Legal trees. -/

/-- What a file system takes as a name. -/
structure IsName (name : Text) : Prop where
  notEmpty : name ≠ []
  notDot : name ≠ ['.'] ∧ name ≠ ['.', '.']
  noSlash : '/' ∉ name
  noNull : '\x00' ∉ name
  short : Utf8.size name ≤ maxName

instance (name : Text) : Decidable (IsName name) :=
  decidable_of_iff
    (name ≠ [] ∧ (name ≠ ['.'] ∧ name ≠ ['.', '.']) ∧ '/' ∉ name ∧ '\x00' ∉ name ∧ Utf8.size name ≤ maxName)
    ⟨fun ⟨h₁, h₂, h₃, h₄, h₅⟩ => ⟨h₁, h₂, h₃, h₄, h₅⟩, fun ⟨h₁, h₂, h₃, h₄, h₅⟩ => ⟨h₁, h₂, h₃, h₄, h₅⟩⟩

/-- A tree that a file system can hold. -/
structure Legal (t : FileTree) : Prop where
  distinct : (t.entries.map (·.1)).Nodup
  named : ∀ e ∈ t.entries, ∀ name ∈ e.1, IsName name

instance (t : FileTree) : Decidable t.Legal :=
  decidable_of_iff ((t.entries.map (·.1)).Nodup ∧ ∀ e ∈ t.entries, ∀ name ∈ e.1, IsName name)
    ⟨fun ⟨h₁, h₂⟩ => ⟨h₁, h₂⟩, fun ⟨h₁, h₂⟩ => ⟨h₁, h₂⟩⟩

theorem length_le_size (name : Text) : name.length ≤ Utf8.size name := by
  unfold Utf8.size Utf8.encode
  induction name with
  | nil => exact Nat.le_refl 0
  | cons c name ih =>
    have hc : 0 < (String.utf8EncodeChar c).length := by
      rw [String.length_utf8EncodeChar]
      exact Char.utf8Size_pos c
    rw [List.flatMap_cons, List.length_append, List.length_cons]
    omega

/-! Entries of a directory. -/

/-- Whether the directory that a path leads to has an entry of the given name, hidden or not. -/
def Holds (t : FileTree) (path name : Text) : Prop :=
  ∃ p, t.locate true path = .ok p ∧ t.entry? p = some .directory ∧ name ∈ t.names p

theorem holds_iff_of_locate {t : FileTree} {path : Text} {p : Place} (here : t.locate true path = .ok p)
    (directory : t.entry? p = some .directory) (name : Text) : t.Holds path name ↔ name ∈ t.names p := by
  refine ⟨?_, fun hn => ⟨p, here, directory, hn⟩⟩
  rintro ⟨q, hq, _, hn⟩
  cases here.symm.trans hq
  exact hn

theorem eq_concat_of_getLast? {l : Location} {name : Text} (h : l.getLast? = some name) :
    l = l.dropLast ++ [name] := by
  obtain ⟨dir, rfl⟩ := List.getLast?_eq_some_iff.1 h
  rw [List.dropLast_concat]

theorem mem_names_iff (t : FileTree) (p : Place) (name : Text) :
    name ∈ t.names p ↔ ∃ l, p = .inside l ∧ l ++ [name] ∈ t.entries.map (·.1) := by
  cases p with
  | outside => simp [names]
  | inside l =>
    simp only [names, List.mem_filterMap, Place.inside.injEq, List.mem_map]
    refine ⟨?_, ?_⟩
    · intro h
      obtain ⟨e, he, hn⟩ := h
      split at hn
      · next hd =>
        have hl : e.1 = l ++ [name] := by
          rw [← hd]
          exact eq_concat_of_getLast? hn
        exact ⟨l, rfl, e, he, hl⟩
      · cases hn
    · intro h
      obtain ⟨l', rfl, e, he, hl⟩ := h
      refine ⟨e, he, ?_⟩
      rw [hl, List.dropLast_concat, if_pos rfl, List.getLast?_concat]

theorem Holds.isName {t : FileTree} (legal : t.Legal) {path name : Text} (h : t.Holds path name) :
    IsName name := by
  obtain ⟨p, _, _, hn⟩ := h
  obtain ⟨l, _, hl⟩ := (mem_names_iff t p name).1 hn
  obtain ⟨e, he, hel⟩ := List.mem_map.1 hl
  apply legal.named e he
  rw [hel]
  simp

/-- A directory of a legal tree has no name twice. -/
theorem names_nodup {t : FileTree} (legal : t.Legal) (p : Place) : (t.names p).Nodup := by
  cases p with
  | outside => exact List.nodup_nil
  | inside l =>
    have hd := legal.distinct
    unfold List.Nodup at hd ⊢
    rw [List.pairwise_map] at hd
    rw [names, List.pairwise_filterMap]
    -- entries of one directory with one name would have one location
    apply hd.imp
    intro e e' hne a ha b hb hab
    apply hne
    split at ha
    · split at hb
      · next h h' =>
        rw [eq_concat_of_getLast? ha, eq_concat_of_getLast? hb, h, h', hab]
      · cases hb
    · cases ha

/-! Listings. -/

@[simp] theorem sysfs_list (t : FileTree) (path : Text) : t.sysfs.list path = t.list path := rfl

@[simp] theorem sysfs_read (t : FileTree) (path : Text) : t.sysfs.read path = t.read path := rfl

theorem list_eq_ok {t : FileTree} {path : Text} {names : List Text} (h : t.list path = .ok names) :
    ∃ p, t.locate true path = .ok p ∧ t.entry? p = some .directory ∧
      names = Text.sorted ((t.names p).filter (!isHidden ·)) := by
  unfold list at h
  split at h
  · cases h
  · next p hp =>
    split at h
    · next he =>
      cases h
      exact ⟨p, hp, he, rfl⟩
    · cases h
    · cases h
    · cases h

theorem Holds.listed {t : FileTree} {path name : Text} (h : t.Holds path name) :
    ∃ names, t.list path = .ok names := by
  obtain ⟨p, hp, he, _⟩ := h
  refine ⟨Text.sorted ((t.names p).filter (!isHidden ·)), ?_⟩
  simp only [list, hp, he]

theorem mem_list_iff {t : FileTree} {path : Text} {names : List Text} (h : t.list path = .ok names)
    (name : Text) : name ∈ names ↔ t.Holds path name ∧ isHidden name = false := by
  obtain ⟨p, hp, he, rfl⟩ := list_eq_ok h
  have hs : name ∈ Text.sorted ((t.names p).filter (!isHidden ·)) ↔
      name ∈ t.names p ∧ isHidden name = false := by
    rw [Text.sorted, (sortBy_perm _ _).mem_iff, List.mem_filter, Bool.not_eq_true']
  rw [hs]
  refine ⟨?_, ?_⟩
  · intro h
    exact ⟨⟨p, hp, he, h.1⟩, h.2⟩
  · intro h
    obtain ⟨⟨q, hq, _, hn⟩, hh⟩ := h
    rw [hp] at hq
    cases hq
    exact ⟨hn, hh⟩

theorem list_before {t : FileTree} (legal : t.Legal) {path : Text} {names : List Text}
    (h : t.list path = .ok names) : names.Pairwise Text.Before := by
  obtain ⟨p, _, _, rfl⟩ := list_eq_ok h
  apply Text.sorted_before
  exact (names_nodup legal p).filter _

end LunMetrics.FileTree
