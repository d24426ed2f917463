import LunMetrics.Backstore.Basic
import LunMetrics.Proofs.Path.Normal

/- Links to storage objects. A target is taken for one exactly if its normal form ends in a directory name with an
   underscore and an object name (`parse?_eq_some_iff`); what is then read off it are plain names, whatever the
   target looked like (`parse?_plain`). -/
namespace LunMetrics.BackstoreLink

def dirName (link : BackstoreLink) : Text := link.store ++ '_' :: link.number

theorem underscore_mem_dirName (link : BackstoreLink) : '_' ∈ link.dirName := by simp [dirName]

theorem parse?_eq_some_iff (target : Text) (link : BackstoreLink) :
    parse? target = some link ↔
      (∃ front, Path.normalParts target = front ++ [link.dirName, link.object]) ∧ '_' ∉ link.number ∧
        link.store ≠ [] := by
  -- the last two components are the first two of the reversed ones
  have ends : (∃ front, Path.normalParts target = front ++ [link.dirName, link.object]) ↔
      ∃ rest, (Path.normalParts target).reverse = link.object :: link.dirName :: rest := by
    refine ⟨?_, ?_⟩
    · intro h
      obtain ⟨front, h⟩ := h
      exact ⟨front.reverse, by simp [h]⟩
    · intro h
      obtain ⟨rest, h⟩ := h
      refine ⟨rest.reverse, ?_⟩
      rw [← List.reverse_reverse (Path.normalParts target), h]
      simp
  rw [ends]
  unfold parse?
  rcases (Path.normalParts target).reverse with _ | ⟨object, _ | ⟨dir, rest⟩⟩
  · simp
  · simp
  · cases hc : Text.cutLast? '_' dir with
    | none =>
      have hn := (Text.cutLast?_eq_none_iff '_' dir).1 hc
      simp only [hc, List.cons.injEq, reduceCtorEq, false_iff]
      intro h
      obtain ⟨⟨rest', _, rfl, _⟩, _⟩ := h
      exact hn (by simp [dirName])
    | some cut =>
      obtain ⟨store, number⟩ := cut
      obtain ⟨rfl, hu⟩ := (Text.cutLast?_eq_some_iff '_' store number dir).1 hc
      simp only [hc, List.cons.injEq]
      refine ⟨?_, ?_⟩
      · intro h
        split at h
        · cases h
        · next hs =>
          cases h
          exact ⟨⟨rest, rfl, rfl, rfl⟩, hu, hs⟩
      · intro h
        obtain ⟨⟨rest', rfl, hd, rfl⟩, hu', hs⟩ := h
        have cut := (Text.cutLast?_eq_some_iff '_' link.store link.number _).2 ⟨hd, hu'⟩
        rw [(Text.cutLast?_eq_some_iff '_' store number _).2 ⟨rfl, hu⟩] at cut
        cases cut
        rw [if_neg hs]

theorem parse?_plain {target : Text} {link : BackstoreLink} (h : parse? target = some link) :
    '/' ∉ link.store ∧ '/' ∉ link.number ∧ Path.IsPlain link.object := by
  obtain ⟨⟨front, hf⟩, _, _⟩ := (parse?_eq_some_iff target link).1 h
  have normal := Path.normalParts_normal target
  rw [hf, List.reverse_append] at normal
  have hd := (normal.parts link.dirName (by simp)).1.noSlash
  obtain ⟨ho, notDot⟩ := normal.parts link.object (by simp)
  simp only [dirName, List.mem_append, List.mem_cons, not_or] at hd
  refine ⟨hd.1, hd.2.2, ho, notDot, ?_⟩
  -- a directory name with an underscore does not climb, so neither does what follows it
  intro climb
  have before := (List.pairwise_cons.1 normal.climbs).1 link.dirName List.mem_cons_self climb
  have underscore := link.underscore_mem_dirName
  rw [before] at underscore
  simp at underscore

end LunMetrics.BackstoreLink
