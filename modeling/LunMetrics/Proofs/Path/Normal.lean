import LunMetrics.Proofs.Path.Descent

/- The normal form of a path. Its components (`normalParts`) are pushed one by one, so what holds of them is an
   invariant of `pushPart` (`IsNormal`): none is empty, has a slash or is `.`, and only further `..` come before a
   `..`. Where a component before it is no `..`, a component is thus a plain name (`IsPlain`). -/
namespace LunMetrics.Path

/-- A name that leads down from a directory. -/
structure IsPlain (name : Text) : Prop extends IsPart name where
  notDot : name ≠ ['.']
  notDotDot : name ≠ ['.', '.']

instance (name : Text) : Decidable (IsPlain name) :=
  decidable_of_iff (IsPart name ∧ name ≠ ['.'] ∧ name ≠ ['.', '.'])
    ⟨fun ⟨h₁, h₂, h₃⟩ => ⟨h₁, h₂, h₃⟩, fun ⟨h₁, h₂, h₃⟩ => ⟨h₁, h₂, h₃⟩⟩

theorem IsPart.plain {name : Text} (h : IsPart name) (noDot : name.head? ≠ some '.') : IsPlain name where
  toIsPart := h
  notDot := by
    intro e
    rw [e] at noDot
    exact noDot rfl
  notDotDot := by
    intro e
    rw [e] at noDot
    exact noDot rfl

theorem isPlain_append {start rest : Text} (h : IsPart start) (noDot : start.head? ≠ some '.') (noSlash : '/' ∉ rest) :
    IsPlain (start ++ rest) := by
  apply (isPart_append h noSlash).plain
  rw [List.head?_append_of_ne_nil start h.notEmpty]
  exact noDot

/-- Normal components, the last one first. -/
structure IsNormal (done : List Text) : Prop where
  parts : ∀ part ∈ done, IsPart part ∧ part ≠ ['.']
  climbs : done.Pairwise fun later earlier => later = ['.', '.'] → earlier = ['.', '.']

theorem IsNormal.cons {done : List Text} (h : IsNormal done) {part : Text} (hp : IsPart part) (notDot : part ≠ ['.'])
    (climb : part = ['.', '.'] → ∀ earlier ∈ done, earlier = ['.', '.']) : IsNormal (part :: done) where
  parts p hm := by
    rcases List.mem_cons.1 hm with rfl | hm
    · exact ⟨hp, notDot⟩
    · exact h.parts p hm
  climbs := List.pairwise_cons.2 ⟨fun earlier he hd => climb hd earlier he, h.climbs⟩

theorem IsNormal.tail {last : Text} {before : List Text} (h : IsNormal (last :: before)) : IsNormal before where
  parts p hm := h.parts p (List.mem_cons_of_mem last hm)
  climbs := (List.pairwise_cons.1 h.climbs).2

/-- One more component keeps normal components normal. -/
theorem pushPart_normal (absolute : Bool) {done : List Text} (h : IsNormal done) {part : Text}
    (noSlash : '/' ∉ part) : IsNormal (pushPart absolute done part) := by
  unfold pushPart
  split
  · exact h
  · next hne =>
    rw [Bool.or_eq_true, decide_eq_true_eq, decide_eq_true_eq, not_or] at hne
    have hp : IsPart part := ⟨hne.1, noSlash⟩
    split
    · next hdd =>
      cases done with
      | nil =>
        simp only
        split
        · exact h
        · exact h.cons hp hne.2 fun _ earlier he => by cases he
      | cons last before =>
        simp only
        split
        · next hl =>
          -- before a climb there are only climbs
          apply h.cons hp hne.2
          intro _ earlier he
          rcases List.mem_cons.1 he with rfl | he
          · exact hl
          · exact (List.pairwise_cons.1 h.climbs).1 earlier he hl
        · exact h.tail
    · next hdd => exact h.cons hp hne.2 fun hd => absurd hd hdd

theorem noSlash_of_mem_splitOn (p : Text) : ∀ part ∈ p.splitOn '/', '/' ∉ part := by
  induction p with
  | nil => simp
  | cons c p ih =>
    intro part h
    rw [List.splitOn_cons_eq_if_modifyHead] at h
    split at h
    · rcases List.mem_cons.1 h with rfl | h
      · exact List.not_mem_nil
      · exact ih part h
    · next hc =>
      -- the character goes to the first piece
      obtain ⟨f, fs, hf⟩ := List.exists_cons_of_ne_nil (List.splitOn_ne_nil '/' p)
      rw [hf, List.modifyHead_cons] at h
      rw [hf] at ih
      rcases List.mem_cons.1 h with rfl | h
      · have other : '/' ≠ c := fun e => hc (beq_iff_eq.2 e.symm)
        simp [other, ih f List.mem_cons_self]
      · exact ih part (List.mem_cons_of_mem f h)

theorem normalParts_normal (p : Text) : IsNormal (normalParts p).reverse := by
  unfold normalParts
  rw [List.reverse_reverse]
  have start : IsNormal [] := ⟨fun part h => absurd h List.not_mem_nil, List.Pairwise.nil⟩
  -- the invariant goes through the fold
  have step : ∀ (parts done : List Text), IsNormal done → (∀ part ∈ parts, '/' ∉ part) →
      IsNormal (parts.foldl (pushPart (isAbsolute p)) done) := by
    intro parts
    induction parts with
    | nil => exact fun done h _ => h
    | cons part parts ih =>
      intro done h noSlash
      exact ih _ (pushPart_normal _ h (noSlash part List.mem_cons_self))
        fun q hq => noSlash q (List.mem_cons_of_mem part hq)
  exact step _ _ start (noSlash_of_mem_splitOn p)

end LunMetrics.Path
