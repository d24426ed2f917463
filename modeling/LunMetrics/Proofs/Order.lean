import Mathlib.Data.List.Sort
import LunMetrics.Order

/- Sorted elements, and first hits among them. `sortBy` is the insertion sort of the library (`sortBy_eq_insertionSort`),
   so it keeps every element and leaves a sorted sublist as it is; from the latter it follows that elements which precede
   each other keep their order (`sortBy_stable`). Among elements in a strict order the first hit of a search is the least
   one (`findSome?_eq_some_iff_least`, `find?_eq_some_iff_least`). -/
namespace LunMetrics

variable {α : Type}

/-! Sorting. -/

theorem insertBy_eq_orderedInsert (le : α → α → Bool) (a : α) (as : List α) :
    insertBy le a as = as.orderedInsert (le · ·) a := by
  induction as with
  | nil => rfl
  | cons b bs ih => rw [insertBy, ih, List.orderedInsert_cons]

theorem sortBy_eq_insertionSort (le : α → α → Bool) (as : List α) : sortBy le as = as.insertionSort (le · ·) := by
  induction as with
  | nil => rfl
  | cons a as ih => rw [sortBy, ih, insertBy_eq_orderedInsert, List.insertionSort_cons]

theorem sortBy_perm (le : α → α → Bool) (as : List α) : (sortBy le as).Perm as := by
  rw [sortBy_eq_insertionSort]
  exact List.perm_insertionSort _ as

theorem sortBy_map {β : Type} (le : β → β → Bool) (f : α → β) (as : List α) :
    sortBy le (as.map f) = (sortBy (fun b c => le (f b) (f c)) as).map f := by
  rw [sortBy_eq_insertionSort, sortBy_eq_insertionSort]
  exact (List.map_insertionSort _ _ f as fun _ _ _ _ => Iff.rfl).symm

section
variable {le : α → α → Bool} (total : ∀ a b, le a b || le b a) (trans : ∀ a b c, le a b → le b c → le a c)
include trans

theorem filter_sortBy (b : α) (as : List α) :
    (sortBy le as).filter (fun a => le a b && le b a) = as.filter fun a => le a b && le b a := by
  have ordered : (as.filter fun a => le a b && le b a).Pairwise (le · ·) := by
    rw [List.pairwise_filter]
    apply List.pairwise_of_forall
    intro a a' ha ha'
    rw [Bool.and_eq_true] at ha ha'
    exact trans a b a' ha.1 ha'.2
  have kept : (as.filter fun a => le a b && le b a).Sublist (sortBy le as) := by
    rw [sortBy_eq_insertionSort]
    exact List.sublist_insertionSort ordered List.filter_sublist
  have among := kept.filter fun a => le a b && le b a
  rw [List.filter_filter] at among
  simp only [Bool.and_self] at among
  exact (among.eq_of_length ((sortBy_perm le as).filter _).length_eq.symm).symm

include total

theorem sortBy_pairwise (as : List α) : (sortBy le as).Pairwise (le · ·) := by
  have : Std.Total (fun a b => le a b = true) := ⟨fun a b => by simpa using total a b⟩
  have : IsTrans α (fun a b => le a b = true) := ⟨trans⟩
  rw [sortBy_eq_insertionSort]
  exact List.pairwise_insertionSort _ as

/-- Elements that precede each other stand as they stood before. -/
theorem sortBy_stable {R : α → α → Prop} {as : List α} (h : as.Pairwise R) :
    (sortBy le as).Pairwise fun b c => le b c ∧ (le c b → R b c) := by
  rw [List.pairwise_iff_forall_sublist] at h ⊢
  intro b c sub
  have hbc := List.pairwise_iff_forall_sublist.1 (sortBy_pairwise total trans as) sub
  refine ⟨hbc, fun hcb => h ?_⟩
  have hbb : le b b = true := by simpa using total b b
  have pair := sub.filter fun a => le a b && le b a
  rw [filter_sortBy trans] at pair
  simp only [List.filter_cons, List.filter_nil, hbb, hbc, hcb, Bool.and_self, if_true] at pair
  exact pair.trans List.filter_sublist

end

/-! First hits. -/

/-- Whether an element is the least of those with a property. -/
structure Least (R : α → α → Prop) (P : α → Prop) (a : α) : Prop where
  has : P a
  least : ∀ b, P b → b = a ∨ R a b

section
variable {R : α → α → Prop} (asymm : ∀ a b, R a b → ¬ R b a)
include asymm

theorem findSome?_eq_some_iff_least {β : Type} (f : α → Option β) (b : β) :
    ∀ as : List α, as.Pairwise R →
      (as.findSome? f = some b ↔
        ∃ a, (a ∈ as ∧ f a = some b) ∧ ∀ a' b', a' ∈ as ∧ f a' = some b' → a' = a ∨ R a a')
  | [], _ => by simp
  | a :: as, h => by
    obtain ⟨ha, has⟩ := List.pairwise_cons.1 h
    rw [List.findSome?_cons]
    cases hf : f a with
    | some c =>
      refine ⟨?_, ?_⟩
      · intro e
        cases e
        refine ⟨a, ⟨List.mem_cons_self, hf⟩, ?_⟩
        intro a' b' hit
        rcases List.mem_cons.1 hit.1 with e | later
        · exact Or.inl e
        · exact Or.inr (ha a' later)
      · rintro ⟨a', ⟨hm, hit⟩, least⟩
        rcases List.mem_cons.1 hm with rfl | later
        · rw [← hf, hit]
        · -- a later hit would have the first one before and after it
          rcases least a c ⟨List.mem_cons_self, hf⟩ with rfl | before
          · rw [← hf, hit]
          · exact absurd before (asymm _ _ (ha a' later))
    | none =>
      rw [findSome?_eq_some_iff_least f b as has]
      have skip : ∀ a' b', a' ∈ a :: as ∧ f a' = some b' ↔ a' ∈ as ∧ f a' = some b' := by
        intro a' b'
        refine ⟨?_, fun hit => ⟨List.mem_cons_of_mem a hit.1, hit.2⟩⟩
        rintro ⟨hm, hit⟩
        rcases List.mem_cons.1 hm with rfl | later
        · rw [hf] at hit
          cases hit
        · exact ⟨later, hit⟩
      simp only [skip]

/-- Of elements in a strict order the first one with a property is the least one. -/
theorem find?_eq_some_iff_least (p : α → Bool) (a : α) {as : List α} (h : as.Pairwise R) :
    as.find? p = some a ↔ Least R (fun a => a ∈ as ∧ p a = true) a := by
  rw [List.find?_eq_findSome?_guard, findSome?_eq_some_iff_least asymm _ a as h]
  simp only [Option.guard_eq_some_iff]
  refine ⟨?_, ?_⟩
  · rintro ⟨a', ⟨hm, rfl, hp⟩, least⟩
    exact ⟨⟨hm, hp⟩, fun b hit => least b b ⟨hit.1, rfl, hit.2⟩⟩
  · intro h
    exact ⟨a, ⟨h.has.1, rfl, h.has.2⟩, fun a' b' hit => h.least a' ⟨hit.1, hit.2.2⟩⟩

end

end LunMetrics
