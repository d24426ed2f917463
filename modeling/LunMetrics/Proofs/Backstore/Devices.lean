import LunMetrics.Proofs.Backstore.Resolution
import LunMetrics.Proofs.Outcome

/- The order of the mapped devices. They are listed by the numbers that their names denote. Different names can denote
   one number, as `1` and `01` do; these stay in code-point order, since the names are sorted before the numbers are
   and the second sorting leaves alone what it need not move. So the order of the devices is a matter of their names
   alone (`Text.ByNumber`):

   1. reading numbers changes no name (`numbered_eq`);
   2. the devices are the names made of digits (`mem_deviceIds`), in this order (`deviceIds_byNumber`). -/
namespace LunMetrics

namespace Text

/-- Whether a text denotes a lower number than another one, or the same number and comes first in code-point order. -/
def ByNumber (t u : Text) : Prop := number t < number u ∨ number t = number u ∧ Before t u

theorem ByNumber.asymm {t u : Text} (h : ByNumber t u) : ¬ ByNumber u t := by
  intro h'
  rcases h with h | ⟨he, hb⟩ <;> rcases h' with h' | ⟨he', hb'⟩
  · omega
  · omega
  · omega
  · exact hb.asymm hb'

theorem ByNumber.ne {t u : Text} (h : ByNumber t u) : t ≠ u := by
  rintro rfl
  exact h.asymm h

end Text

namespace Backstore

theorem numbered_eq (ids : List Text) {ns : List (Nat × Text)} (h : numbered ids = .ok ns) :
    ns = ids.map fun id => (Text.number id, id) := by
  induction ids generalizing ns with
  | nil =>
    cases h
    rfl
  | cons id ids ih =>
    simp only [numbered, Except.bind_eq_ok_iff, Except.pure_eq_ok_iff] at h
    obtain ⟨n, hn, rest, hr, rfl⟩ := h
    rw [List.map_cons, ih hr, Text.eq_number_of_natural hn]

theorem deviceIds_eq {names ids : List Text} (h : deviceIds names = .ok ids) :
    ids = sortBy (fun t u => decide (Text.number t ≤ Text.number u)) (names.filter Text.areDigits) := by
  obtain ⟨ns, hn, rfl⟩ := Except.map_eq_ok_iff.1 h
  simp only [numbered_eq _ hn, sortBy_map, List.map_map]
  exact List.map_id _

theorem mem_deviceIds {names ids : List Text} (h : deviceIds names = .ok ids) (id : Text) :
    id ∈ ids ↔ id ∈ names ∧ Text.areDigits id = true := by
  rw [deviceIds_eq h, (sortBy_perm _ _).mem_iff, List.mem_filter]

/-- Of names in code-point order the devices stand in the order of their numbers, and those of one number in
    code-point order. -/
theorem deviceIds_byNumber {names ids : List Text} (h : deviceIds names = .ok ids)
    (ordered : names.Pairwise Text.Before) : ids.Pairwise Text.ByNumber := by
  have total : ∀ t u : Text, decide (Text.number t ≤ Text.number u) || decide (Text.number u ≤ Text.number t) := by
    intro t u
    rw [Bool.or_eq_true, decide_eq_true_eq, decide_eq_true_eq]
    exact Nat.le_total _ _
  have trans : ∀ t u v : Text, decide (Text.number t ≤ Text.number u) → decide (Text.number u ≤ Text.number v) →
      decide (Text.number t ≤ Text.number v) := by
    simp only [decide_eq_true_eq]
    intro t u v
    exact Nat.le_trans
  rw [deviceIds_eq h]
  apply (sortBy_stable total trans (ordered.filter Text.areDigits)).imp
  intro t u htu
  simp only [decide_eq_true_eq] at htu
  rcases Nat.lt_or_eq_of_le htu.1 with lower | same
  · exact Or.inl lower
  · exact Or.inr ⟨same, htu.2 (Nat.le_of_eq same.symm)⟩

end Backstore
end LunMetrics
