import Mathlib.Logic.Relation
import LunMetrics.Proofs.Path.Normal

/- Lexical normalisation as rewriting. Among the components of a path an empty one and a `.` mean nothing, a name is
   undone by the `..` after it, and at the root a `..` leads nowhere (`Collapses`). What is proved:

   1. the components that `normalParts` computes are reached by such steps and allow no further one, and no other
      components are (`normalForm_iff`), so that the order of the steps does not matter;
   2. a path keeps its normal form if it is written with further slashes, `.` components, or detours through a name
      (`normalParts_of_respelled`). -/
namespace LunMetrics.Path

/-! Steps. -/

/-- One step that leaves out components of a path without changing what it means lexically. -/
inductive Collapses (absolute : Bool) : List Text → List Text → Prop
  | blank (front back : List Text) : Collapses absolute (front ++ [] :: back) (front ++ back)
  | dot (front back : List Text) : Collapses absolute (front ++ ['.'] :: back) (front ++ back)
  | climb (front back : List Text) {name : Text} :
      IsPlain name → Collapses absolute (front ++ name :: ['.', '.'] :: back) (front ++ back)
  | root (back : List Text) : absolute = true → Collapses absolute (['.', '.'] :: back) back

/-- Whether components are what is left of a path when no step can be made any more. -/
structure NormalForm (p : Text) (parts : List Text) : Prop where
  reached : Relation.ReflTransGen (Collapses (isAbsolute p)) (p.splitOn '/') parts
  settled : ∀ fewer, ¬ Collapses (isAbsolute p) parts fewer

theorem part_cases {part : Text} (noSlash : '/' ∉ part) :
    part = [] ∨ part = ['.'] ∨ part = ['.', '.'] ∨ IsPlain part := by
  by_cases blank : part = []
  · exact Or.inl blank
  · by_cases dot : part = ['.']
    · exact Or.inr (Or.inl dot)
    · by_cases climb : part = ['.', '.']
      · exact Or.inr (Or.inr (Or.inl climb))
      · exact Or.inr (Or.inr (Or.inr ⟨⟨blank, noSlash⟩, dot, climb⟩))

section
variable (absolute : Bool) (done : List Text)

theorem pushPart_blank : pushPart absolute done [] = done := by simp [pushPart]

theorem pushPart_dot : pushPart absolute done ['.'] = done := by simp [pushPart]

theorem pushPart_plain {name : Text} (h : IsPlain name) : pushPart absolute done name = name :: done := by
  simp [pushPart, h.notEmpty, h.notDot, h.notDotDot]

theorem pushPart_climb {last : Text} (h : last ≠ ['.', '.']) :
    pushPart absolute (last :: done) ['.', '.'] = done := by
  simp [pushPart, h]

end

theorem pushPart_root : pushPart true [] ['.', '.'] = [] := by simp [pushPart]

variable {absolute : Bool} {parts fewer : List Text}

theorem Collapses.foldl_eq (h : Collapses absolute parts fewer) :
    parts.foldl (pushPart absolute) [] = fewer.foldl (pushPart absolute) [] := by
  cases h with
  | blank front back => rw [List.foldl_append, List.foldl_cons, pushPart_blank, ← List.foldl_append]
  | dot front back => rw [List.foldl_append, List.foldl_cons, pushPart_dot, ← List.foldl_append]
  | climb front back plain =>
    rw [List.foldl_append, List.foldl_cons, List.foldl_cons, pushPart_plain _ _ plain,
      pushPart_climb _ _ plain.notDotDot, ← List.foldl_append]
  | root back h =>
    subst h
    rw [List.foldl_cons, pushPart_root]

theorem foldl_eq_of_collapses (h : Relation.ReflTransGen (Collapses absolute) parts fewer) :
    parts.foldl (pushPart absolute) [] = fewer.foldl (pushPart absolute) [] := by
  induction h with
  | refl => rfl
  | tail _ step ih => rw [ih, step.foldl_eq]

theorem Collapses.subset (h : Collapses absolute parts fewer) : fewer ⊆ parts := by
  cases h <;> intro part hm <;> simp only [List.mem_append, List.mem_cons] at hm ⊢ <;> tauto

theorem subset_of_collapses (h : Relation.ReflTransGen (Collapses absolute) parts fewer) : fewer ⊆ parts := by
  induction h with
  | refl => exact List.Subset.refl _
  | tail _ step ih => exact List.Subset.trans step.subset ih

/-! What is computed is reached. -/

/-- One more component is either put at the end or goes away by a step. -/
theorem pushPart_reached (absolute : Bool) {done : List Text} (normal : IsNormal done) {part : Text}
    (noSlash : '/' ∉ part) (back : List Text) :
    Relation.ReflTransGen (Collapses absolute) (done.reverse ++ part :: back)
      ((pushPart absolute done part).reverse ++ back) := by
  have kept : pushPart absolute done part = part :: done → Relation.ReflTransGen (Collapses absolute)
      (done.reverse ++ part :: back) ((pushPart absolute done part).reverse ++ back) := by
    intro h
    rw [h, List.reverse_cons, List.append_assoc, List.singleton_append]
  rcases part_cases noSlash with rfl | rfl | rfl | plain
  · rw [pushPart_blank]
    exact .single (.blank _ _)
  · rw [pushPart_dot]
    exact .single (.dot _ _)
  · cases done with
    | nil =>
      cases absolute with
      | false => exact kept (by simp [pushPart])
      | true =>
        rw [pushPart_root]
        exact .single (.root _ rfl)
    | cons last before =>
      by_cases climb : last = ['.', '.']
      · exact kept (by simp [pushPart, climb])
      · obtain ⟨isPart, notDot⟩ := normal.parts last List.mem_cons_self
        rw [pushPart_climb _ _ climb, List.reverse_cons, List.append_assoc, List.singleton_append]
        exact .single (.climb _ _ ⟨isPart, notDot, climb⟩)
  · exact kept (pushPart_plain _ _ plain)

theorem foldl_reached {done : List Text} (normal : IsNormal done) (noSlash : ∀ part ∈ parts, '/' ∉ part) :
    Relation.ReflTransGen (Collapses absolute) (done.reverse ++ parts)
      (parts.foldl (pushPart absolute) done).reverse := by
  induction parts generalizing done with
  | nil => rw [List.append_nil, List.foldl_nil]
  | cons part parts ih =>
    have here := noSlash part List.mem_cons_self
    have first := pushPart_reached absolute normal here parts
    exact first.trans (ih (pushPart_normal absolute normal here) fun q hq => noSlash q (List.mem_cons_of_mem part hq))

theorem climb_not_mem_normalParts {p : Text} (h : isAbsolute p = true) : ['.', '.'] ∉ normalParts p := by
  unfold normalParts
  rw [h, List.mem_reverse]
  -- no component that is pushed brings a climb with it
  have step : ∀ (parts done : List Text), ['.', '.'] ∉ done → ['.', '.'] ∉ parts.foldl (pushPart true) done := by
    intro parts
    induction parts with
    | nil => exact fun done h => h
    | cons part parts ih =>
      intro done hd
      apply ih
      unfold pushPart
      split
      · exact hd
      · split
        · cases done with
          | nil => simp
          | cons last before =>
            simp only [List.mem_cons, not_or] at hd
            simp [Ne.symm hd.1, hd.2]
        · next climb => simp [hd, Ne.symm climb]
  exact step _ [] List.not_mem_nil

theorem normalParts_settled (p : Text) : ∀ fewer, ¬ Collapses (isAbsolute p) (normalParts p) fewer := by
  intro fewer h
  have normal := normalParts_normal p
  generalize hp : normalParts p = parts at h normal
  cases h with
  | blank front back => exact (normal.parts [] (by simp)).1.notEmpty rfl
  | dot front back => exact (normal.parts ['.'] (by simp)).2 rfl
  | @climb front back name plain =>
    -- what comes before a climb is a climb
    have climbs := normal.climbs
    rw [List.reverse_append, List.reverse_cons, List.reverse_cons, List.append_assoc, List.append_assoc] at climbs
    have last := (List.pairwise_append.1 (List.pairwise_append.1 climbs).2.1).2.2 ['.', '.'] (by simp) name (by simp)
    exact plain.notDotDot (last rfl)
  | root back h => exact climb_not_mem_normalParts h (by rw [hp]; simp)

/-! Nothing else is left. -/

theorem foldl_of_settled (noSlash : ∀ part ∈ parts, '/' ∉ part)
    (settled : ∀ fewer, ¬ Collapses absolute parts fewer) :
    parts.foldl (pushPart absolute) [] = parts.reverse := by
  -- the induction takes the last component off
  induction parts using List.reverseRecOn with
  | nil => rfl
  | append_singleton front part ih =>
    have before := ih (fun q hq => noSlash q (List.mem_append_left _ hq)) (by
      intro fewer h
      cases h with
      | blank f b => exact settled _ (by rw [List.append_assoc]; exact .blank f (b ++ [part]))
      | dot f b => exact settled _ (by rw [List.append_assoc]; exact .dot f (b ++ [part]))
      | climb f b plain => exact settled _ (by rw [List.append_assoc]; exact .climb f (b ++ [part]) plain)
      | root _ h => exact settled _ (.root (fewer ++ [part]) h))
    rw [List.foldl_append, before, List.foldl_cons, List.foldl_nil, List.reverse_append, List.reverse_singleton,
      List.singleton_append]
    rcases part_cases (noSlash part (by simp)) with rfl | rfl | rfl | plain
    · exact absurd (.blank front []) (settled _)
    · exact absurd (.dot front []) (settled _)
    · rcases List.eq_nil_or_concat front with rfl | ⟨front, last, rfl⟩
      · cases absolute with
        | false => simp [pushPart]
        | true => exact absurd (.root [] rfl) (settled _)
      · -- only another climb can stand before a climb that is left
        rw [List.concat_eq_append] at settled noSlash ⊢
        have here := noSlash last (by simp)
        rw [List.append_assoc, List.singleton_append] at settled
        rw [List.reverse_append, List.reverse_singleton, List.singleton_append]
        rcases part_cases here with rfl | rfl | rfl | plain
        · exact absurd (.blank front _) (settled _)
        · exact absurd (.dot front _) (settled _)
        · simp [pushPart]
        · exact absurd (.climb front [] plain) (settled _)
    · exact pushPart_plain _ _ plain

/-- The components that `normalParts` computes are the normal form of a path, and its only one. -/
theorem normalForm_iff (p : Text) (parts : List Text) : NormalForm p parts ↔ parts = normalParts p := by
  refine ⟨?_, ?_⟩
  · intro h
    have noSlash : ∀ part ∈ parts, '/' ∉ part := fun part hm =>
      noSlash_of_mem_splitOn p part (subset_of_collapses h.reached hm)
    unfold normalParts
    rw [foldl_eq_of_collapses h.reached, foldl_of_settled noSlash h.settled, List.reverse_reverse]
  · rintro rfl
    have start : IsNormal [] := ⟨fun part h => absurd h List.not_mem_nil, List.Pairwise.nil⟩
    exact ⟨foldl_reached start (noSlash_of_mem_splitOn p), normalParts_settled p⟩

/-! Other ways to write a path. -/

/-- A path with more of what means nothing: a doubled slash, a `.`, a detour through a name, or a slash at its end. -/
inductive Respelled : Text → Text → Prop
  | slashes (front back : Text) : Respelled (front ++ '/' :: back) (front ++ '/' :: '/' :: back)
  | dot (front back : Text) : Respelled (front ++ '/' :: back) (front ++ '/' :: '.' :: '/' :: back)
  | detour (front back : Text) {name : Text} :
      IsPlain name → Respelled (front ++ '/' :: back) (front ++ '/' :: (name ++ '/' :: '.' :: '.' :: '/' :: back))
  | trailing (p : Text) : Respelled p (p ++ ['/'])

/-- A path whose components collapse to those of another one has its normal form, if both or neither start at the
    root. -/
theorem normalParts_of_collapses {p q : Text} (start : isAbsolute q = isAbsolute p)
    (h : Relation.ReflTransGen (Collapses (isAbsolute p)) (q.splitOn '/') (p.splitOn '/')) :
    normalParts q = normalParts p := by
  unfold normalParts
  rw [start, foldl_eq_of_collapses h]

theorem isAbsolute_append_slash (front back back' : Text) :
    isAbsolute (front ++ '/' :: back) = isAbsolute (front ++ '/' :: back') := by
  cases front <;> rfl

theorem normalParts_of_respelled {p q : Text} (h : Respelled p q) : normalParts q = normalParts p := by
  cases h with
  | slashes front back =>
    apply normalParts_of_collapses (isAbsolute_append_slash front _ _)
    have cut : ('/' :: back).splitOn '/' = [] :: back.splitOn '/' := rfl
    rw [List.splitOn_append_cons_self, List.splitOn_append_cons_self, cut]
    exact .single (.blank _ _)
  | dot front back =>
    apply normalParts_of_collapses (isAbsolute_append_slash front _ _)
    have cut : ('.' :: '/' :: back).splitOn '/' = ['.'] :: back.splitOn '/' := rfl
    rw [List.splitOn_append_cons_self, List.splitOn_append_cons_self, cut]
    exact .single (.dot _ _)
  | @detour front back name plain =>
    apply normalParts_of_collapses (isAbsolute_append_slash front _ _)
    have cut : ('.' :: '.' :: '/' :: back).splitOn '/' = ['.', '.'] :: back.splitOn '/' := rfl
    rw [List.splitOn_append_cons_self, List.splitOn_append_cons_self, List.splitOn_append_cons_self,
      List.splitOn_eq_singleton plain.noSlash, cut]
    exact .single (.climb _ _ plain)
  | trailing p =>
    by_cases empty : p = []
    · rw [empty]
      rfl
    · have start : isAbsolute (p ++ ['/']) = isAbsolute p := by
        unfold isAbsolute
        rw [List.head?_append_of_ne_nil p empty]
      apply normalParts_of_collapses start
      have step : Collapses (isAbsolute p) (p.splitOn '/' ++ [[]]) (p.splitOn '/' ++ []) := .blank _ []
      rw [List.append_nil] at step
      rw [List.splitOn_append_cons_self]
      exact .single step

end LunMetrics.Path
