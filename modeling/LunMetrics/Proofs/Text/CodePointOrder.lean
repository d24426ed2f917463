import Mathlib.Data.List.Lex
import LunMetrics.Proofs.Order
import LunMetrics.Text.Basic

/- The strict order of texts by code point. `Text.Before` is the lexicographic order of the code points;
   the Boolean `Text.le` that sorting uses is its reflexive closure (`le_iff`). Two facts about it carry the
   order of a walk:

   1. a common beginning does not matter (`before_append_iff`), so names of one level stand in the order of
      what follows their fixed beginning;
   2. sorting distinct texts puts each strictly before all that follow (`sorted_before`). -/
namespace LunMetrics.Text

/-- Whether a text comes strictly before another one in the order of code points. -/
def Before : Text → Text → Prop := List.Lex fun c d => c.toNat < d.toNat

theorem before_irrefl (t : Text) : ¬ Before t t :=
  List.lex_irrefl (fun c => Nat.lt_irrefl c.toNat) t

theorem Before.ne {t u : Text} (h : Before t u) : t ≠ u := by
  intro e
  subst e
  exact before_irrefl t h

theorem Before.trans {t u v : Text} (h : Before t u) (h' : Before u v) : Before t v :=
  List.lex_trans (fun hc hd => Nat.lt_trans hc hd) h h'

theorem Before.asymm {t u : Text} (h : Before t u) : ¬ Before u t :=
  List.lex_asymm (fun hc => Nat.lt_asymm hc) h

theorem before_append_iff (start t u : Text) : Before (start ++ t) (start ++ u) ↔ Before t u := by
  induction start with
  | nil => rfl
  | cons c start ih =>
    have step : Before (c :: (start ++ t)) (c :: (start ++ u)) ↔
        c.toNat < c.toNat ∨ c = c ∧ Before (start ++ t) (start ++ u) := List.cons_lex_cons_iff
    simpa [ih] using step

theorem eq_of_not_before {t u : Text} (h : ¬ Before t u) (h' : ¬ Before u t) : t = u := by
  have : Std.Trichotomous fun c d : Char => c.toNat < d.toNat :=
    ⟨fun c d hc hd => Char.toNat_inj.1 (Nat.le_antisymm (Nat.not_lt.1 hd) (Nat.not_lt.1 hc))⟩
  exact Std.Trichotomous.trichotomous (r := List.Lex fun c d : Char => c.toNat < d.toNat) t u h h'

theorem le_iff_not_before (t u : Text) : le t u = true ↔ ¬ Before u t := by
  simp only [le, Before, Bool.not_eq_true', List.lex_eq_false_iff_not_lex, decide_eq_true_eq]

theorem le_iff (t u : Text) : le t u = true ↔ t = u ∨ Before t u := by
  rw [le_iff_not_before]
  constructor
  · intro h
    by_cases before : Before t u
    · exact Or.inr before
    · exact Or.inl (eq_of_not_before before h)
  · intro h
    rcases h with rfl | before
    · exact before_irrefl t
    · exact before.asymm

theorem le_total (t u : Text) : le t u || le u t := by
  rw [Bool.or_eq_true, le_iff_not_before, le_iff]
  by_cases before : Before u t
  · exact Or.inr (Or.inr before)
  · exact Or.inl before

theorem le_trans (t u v : Text) (h : le t u) (h' : le u v) : le t v := by
  rw [le_iff] at h h' ⊢
  rcases h with rfl | before
  · exact h'
  · rcases h' with rfl | before'
    · exact Or.inr before
    · exact Or.inr (before.trans before')

theorem sorted_perm (ts : List Text) : (sorted ts).Perm ts := sortBy_perm le ts

theorem sorted_pairwise (ts : List Text) : (sorted ts).Pairwise (le · ·) :=
  sortBy_pairwise le_total le_trans ts

/-- Distinct texts stand in strict order once they are sorted. -/
theorem sorted_before {ts : List Text} (distinct : ts.Nodup) : (sorted ts).Pairwise Before := by
  have hne : (sorted ts).Nodup := (sorted_perm ts).nodup_iff.2 distinct
  apply (List.Pairwise.and (sorted_pairwise ts) hne).imp
  intro t u h
  rcases (le_iff t u).1 h.1 with e | hb
  · exact absurd e h.2
  · exact hb

end LunMetrics.Text
