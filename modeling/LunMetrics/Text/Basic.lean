import LunMetrics.Order

/- Texts: names, paths, labels and attribute values as lists of characters. This file

   1. fixes the type (`Text`) and the way a text enters a message (`str`);
   2. cuts a text at the last occurrence of a character (`cutLast?`) and after a given beginning (`after?`), and
      says what the pieces are (`cutLast?_eq_some_iff`, `after?_eq_some_iff`);
   3. orders texts by code point (`le`, `sorted`). -/
namespace LunMetrics

/-- A text is its characters in order. -/
abbrev Text := List Char

abbrev str (t : Text) : String := String.ofList t

namespace Text

/-! Cutting. -/

/-- What comes before and after the last `sep` of a text. -/
def cutLast? (sep : Char) : Text → Option (Text × Text)
  | [] => none
  | c :: t =>
    match cutLast? sep t with
    | some (before, rest) => some (c :: before, rest)
    | none => if c = sep then some ([], t) else none

theorem cutLast?_eq_none_iff (sep : Char) : ∀ t : Text, cutLast? sep t = none ↔ sep ∉ t
  | [] => by simp [cutLast?]
  | c :: t => by
    have ih := cutLast?_eq_none_iff sep t
    cases h : cutLast? sep t with
    | none =>
      have ht : sep ∉ t := ih.1 h
      by_cases hc : c = sep
      · simp [cutLast?, h, hc]
      · simp [cutLast?, h, hc, ht, Ne.symm hc]
    | some p =>
      have : sep ∈ t := by
        apply Classical.byContradiction
        intro hn
        rw [ih.2 hn] at h
        cases h
      simp [cutLast?, h, this]

theorem cutLast?_append {sep : Char} {rest : Text} (h : sep ∉ rest) (before : Text) :
    cutLast? sep (before ++ sep :: rest) = some (before, rest) := by
  induction before with
  | nil => simp [cutLast?, (cutLast?_eq_none_iff sep rest).2 h]
  | cons c before ih => simp [cutLast?, ih]

theorem cutLast?_eq_some_iff (sep : Char) (before rest t : Text) :
    cutLast? sep t = some (before, rest) ↔ t = before ++ sep :: rest ∧ sep ∉ rest := by
  constructor
  · intro h
    by_cases there : sep ∈ t
    · -- the last occurrence is the first one from behind
      obtain ⟨after, front, ht, last⟩ := List.eq_append_cons_of_mem (List.mem_reverse.2 there)
      have cut : t = front.reverse ++ sep :: after.reverse := by
        rw [← List.reverse_reverse t, ht]
        simp
      rw [← List.mem_reverse] at last
      rw [cut, cutLast?_append last] at h
      cases h
      exact ⟨cut, last⟩
    · rw [(cutLast?_eq_none_iff sep t).2 there] at h
      cases h
  · rintro ⟨rfl, h⟩
    exact cutLast?_append h before

/-- What follows `start` in a text that begins with it. -/
def after? (start t : Text) : Option Text := if start.isPrefixOf t then some (t.drop start.length) else none

theorem after?_eq_some_iff (start t rest : Text) : after? start t = some rest ↔ t = start ++ rest := by
  unfold after?
  constructor
  · intro h
    split at h
    · next begins =>
      obtain ⟨u, rfl⟩ := List.isPrefixOf_iff_prefix.1 begins
      rw [List.drop_left] at h
      rw [Option.some.inj h]
    · cases h
  · rintro rfl
    rw [if_pos (List.isPrefixOf_iff_prefix.2 (List.prefix_append start rest)), List.drop_left]

/-! Order. -/

/-- Whether a text comes no later than another one in the order of code points. -/
def le (t u : Text) : Bool := !List.lex u t fun c d => c.toNat < d.toNat

def sorted (ts : List Text) : List Text := sortBy le ts

end Text
end LunMetrics
