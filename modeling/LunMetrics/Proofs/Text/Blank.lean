import LunMetrics.Text.Blank
import Mathlib.Data.List.Basic
import Mathlib.Data.List.TakeWhile

/- White space and line ends do not tell texts apart. Stripping takes the blanks off both ends and nothing else: a text
   is its stripped form between blanks (`exists_around`), and of blanks around a text that neither begins nor ends with
   one nothing is left (`strip_around`). Making the line ends one kind

   1. distributes over two texts between which no `\r\n` stands (`unifyLineEnds_append`);
   2. commutes with stripping, since every line end is a blank (`strip_unifyLineEnds`).

   So the two together see neither how a line end is written nor the blanks at the ends (`Respells.same`). -/
namespace LunMetrics.Text

/-! Blanks at the ends. -/

/-- Whether a text is white space. -/
def Blank (t : Text) : Prop := ∀ c ∈ t, isBlank c = true

instance (t : Text) : Decidable (Blank t) := List.decidableBAll (fun c => isBlank c = true) t

/-- Whether a text neither begins nor ends with a blank. -/
structure Trimmed (t : Text) : Prop where
  first : ∀ c, t.head? = some c → isBlank c = false
  last : ∀ c, t.getLast? = some c → isBlank c = false

theorem Blank.append {t u : Text} (ht : Blank t) (hu : Blank u) : Blank (t ++ u) := by
  intro c hc
  rcases List.mem_append.1 hc with h | h
  · exact ht c h
  · exact hu c h

theorem dropWhile_of_first {t : Text} (h : ∀ c, t.head? = some c → isBlank c = false) :
    t.dropWhile isBlank = t := by
  cases t with
  | nil => rfl
  | cons c t => exact List.dropWhile_cons_of_neg (by simp [h c rfl])

theorem strip_around {before t after : Text} (hb : Blank before) (ht : Trimmed t) (ha : Blank after) :
    strip (before ++ t ++ after) = t := by
  have inner : (t ++ after).dropWhile isBlank = if t = [] then [] else t ++ after := by
    cases t with
    | nil => exact List.dropWhile_eq_nil_iff.2 ha
    | cons c t => exact List.dropWhile_cons_of_neg (by simp [ht.first c rfl])
  unfold strip
  rw [List.append_assoc, List.dropWhile_append_of_pos hb, inner]
  split
  · next e => simp [e]
  · have last : ∀ c, t.reverse.head? = some c → isBlank c = false := by
      intro c hc
      exact ht.last c (by rwa [List.head?_reverse] at hc)
    have ha' : ∀ c ∈ after.reverse, isBlank c = true := fun c hc => ha c (List.mem_reverse.1 hc)
    rw [List.reverse_append, List.dropWhile_append_of_pos ha', dropWhile_of_first last, List.reverse_reverse]

theorem first_dropWhile {t : Text} {c : Char} (h : (t.dropWhile isBlank).head? = some c) : isBlank c = false := by
  have := List.head?_dropWhile_not isBlank t
  rw [h] at this
  simpa using this

theorem exists_around (t : Text) :
    ∃ before after, Blank before ∧ Trimmed (strip t) ∧ Blank after ∧ t = before ++ strip t ++ after := by
  let rest := t.dropWhile isBlank
  have whole : rest = strip t ++ (rest.reverse.takeWhile isBlank).reverse := by
    show rest = (rest.reverse.dropWhile isBlank).reverse ++ _
    rw [← List.reverse_append, List.takeWhile_append_dropWhile, List.reverse_reverse]
  refine ⟨t.takeWhile isBlank, (rest.reverse.takeWhile isBlank).reverse, ?_, ⟨?_, ?_⟩, ?_, ?_⟩
  · intro c hc
    exact List.mem_takeWhile_imp hc
  · intro c hc
    apply first_dropWhile (t := t)
    show rest.head? = some c
    rw [whole, List.head?_append, hc]
    rfl
  · intro c hc
    apply first_dropWhile (t := rest.reverse)
    rwa [← List.getLast?_reverse]
  · intro c hc
    exact List.mem_takeWhile_imp (List.mem_reverse.1 hc)
  · rw [List.append_assoc, ← whole, List.takeWhile_append_dropWhile]

theorem Trimmed.strip_eq {t : Text} (h : Trimmed t) : strip t = t := by
  have none : Blank [] := fun c hc => absurd hc (List.not_mem_nil)
  have := strip_around none h none
  rwa [List.nil_append, List.append_nil] at this

theorem strip_blank_append {w : Text} (hw : Blank w) (t : Text) : strip (w ++ t) = strip t := by
  obtain ⟨before, after, hb, ht, ha, e⟩ := exists_around t
  have : w ++ t = (w ++ before) ++ strip t ++ after := by
    conv => lhs; rw [e]
    simp only [List.append_assoc]
  rw [this]
  exact strip_around (hw.append hb) ht ha

theorem strip_append_blank {w : Text} (hw : Blank w) (t : Text) : strip (t ++ w) = strip t := by
  obtain ⟨before, after, hb, ht, ha, e⟩ := exists_around t
  have : t ++ w = before ++ strip t ++ (after ++ w) := by
    conv => lhs; rw [e]
    simp only [List.append_assoc]
  rw [this]
  exact strip_around hb ht (ha.append hw)

/-! Line ends. -/

theorem unifyLineEnds_cons {c : Char} {t : Text} (h : c = '\r' → t.head? ≠ some '\n') :
    unifyLineEnds (c :: t) = (if c = '\r' then '\n' else c) :: unifyLineEnds t := by
  rw [unifyLineEnds]
  rintro t' rfl rfl
  exact h rfl rfl

/-- The line ends of two texts are unified apart if no `\r\n` stands half in one and half in the other. -/
theorem unifyLineEnds_append {t u : Text} (h : t.getLast? = some '\r' → u.head? ≠ some '\n') :
    unifyLineEnds (t ++ u) = unifyLineEnds t ++ unifyLineEnds u := by
  fun_induction unifyLineEnds t with
  | case1 => rfl
  | case2 t ih =>
    have apart : t.getLast? = some '\r' → u.head? ≠ some '\n' := by
      intro last
      apply h
      rw [List.getLast?_cons_cons, List.getLast?_cons, last]
      rfl
    rw [List.cons_append, List.cons_append, unifyLineEnds, ih apart, List.cons_append]
  | case3 c t single ih =>
    have apart : t.getLast? = some '\r' → u.head? ≠ some '\n' := by
      intro last
      apply h
      rw [List.getLast?_cons, last]
      rfl
    have next : c = '\r' → (t ++ u).head? ≠ some '\n' := by
      intro hc
      cases t with
      | nil => exact h (by rw [hc]; rfl)
      | cons d t =>
        rintro ⟨⟩
        exact single t hc rfl
    rw [List.cons_append, unifyLineEnds_cons next, ih apart, List.cons_append]

theorem cr_not_mem_unifyLineEnds (t : Text) : '\r' ∉ unifyLineEnds t := by
  fun_induction unifyLineEnds t with
  | case1 => exact List.not_mem_nil
  | case2 t ih => simp [ih]
  | case3 c t single ih =>
    split
    · simp [ih]
    · next hc => simp [ih, Ne.symm hc]

theorem unifyLineEnds_of_not_mem {t : Text} (h : '\r' ∉ t) : unifyLineEnds t = t := by
  fun_induction unifyLineEnds t with
  | case1 => rfl
  | case2 t ih => exact absurd List.mem_cons_self h
  | case3 c t single ih =>
    rw [List.mem_cons, not_or] at h
    rw [if_neg (Ne.symm h.1), ih h.2]

theorem isBlank_lf : isBlank '\n' = true := by decide

theorem isBlank_cr : isBlank '\r' = true := by decide

theorem ne_cr_of_not_blank {c : Char} (h : isBlank c = false) : c ≠ '\r' := by
  rintro rfl
  rw [isBlank_cr] at h
  cases h

theorem ne_lf_of_not_blank {c : Char} (h : isBlank c = false) : c ≠ '\n' := by
  rintro rfl
  rw [isBlank_lf] at h
  cases h

theorem Blank.unify {t : Text} (h : Blank t) : Blank (unifyLineEnds t) := by
  fun_induction unifyLineEnds t with
  | case1 => exact h
  | case2 t ih =>
    intro c hc
    rcases List.mem_cons.1 hc with rfl | hc
    · exact isBlank_lf
    · exact ih (fun d hd => h d (by simp [hd])) c hc
  | case3 c t single ih =>
    intro d hd
    rcases List.mem_cons.1 hd with rfl | hd
    · split
      · exact isBlank_lf
      · exact h c List.mem_cons_self
    · exact ih (fun e he => h e (List.mem_cons_of_mem _ he)) d hd

theorem Trimmed.unify {t : Text} (h : Trimmed t) : Trimmed (unifyLineEnds t) := by
  constructor
  · intro c hc
    cases t with
    | nil => cases hc
    | cons d t =>
      have hd := h.first d rfl
      rw [unifyLineEnds_cons fun e => absurd e (ne_cr_of_not_blank hd), if_neg (ne_cr_of_not_blank hd)] at hc
      cases hc
      exact hd
  · intro c hc
    rcases List.eq_nil_or_concat' t with rfl | ⟨start, d, rfl⟩
    · cases hc
    · have hd := h.last d List.getLast?_concat
      have alone : unifyLineEnds [d] = [d] :=
        unifyLineEnds_of_not_mem (by simpa using Ne.symm (ne_cr_of_not_blank hd))
      have apart : start.getLast? = some '\r' → [d].head? ≠ some '\n' := fun _ => by
        simpa using ne_lf_of_not_blank hd
      rw [unifyLineEnds_append apart, alone, List.getLast?_concat] at hc
      cases hc
      exact hd

/-- It is all the same whether line ends are unified before the blanks at the ends are taken off or after. -/
theorem strip_unifyLineEnds (t : Text) : strip (unifyLineEnds t) = unifyLineEnds (strip t) := by
  obtain ⟨before, after, hb, ht, ha, e⟩ := exists_around t
  by_cases nothing : strip t = []
  · -- a `\r\n` may stand half before and half after nothing, but all of it is blank
    rw [nothing, List.append_nil] at e
    have blank := (hb.append ha).unify
    rw [← e] at blank
    have := strip_blank_append blank []
    rw [List.append_nil] at this
    rw [this, nothing]
    rfl
  · have start : before.getLast? = some '\r' → (strip t).head? ≠ some '\n' := fun _ h =>
      ne_lf_of_not_blank (ht.first _ h) rfl
    have stop : (before ++ strip t).getLast? = some '\r' → after.head? ≠ some '\n' := by
      intro h
      rw [List.getLast?_append_of_ne_nil _ nothing] at h
      exact absurd rfl (ne_cr_of_not_blank (ht.last _ h))
    conv => lhs; rw [e, unifyLineEnds_append stop, unifyLineEnds_append start]
    exact strip_around hb.unify ht.unify ha.unify

/-! Spellings. -/

/-- A change that leaves what a text says as it is: a line end written another way, where no `\r\n` comes or goes with
    a neighbour of it, or more blanks at one of the ends. -/
inductive Respells : Text → Text → Prop
  | crlf {t u : Text} : t.getLast? ≠ some '\r' → Respells (t ++ '\n' :: u) (t ++ '\r' :: '\n' :: u)
  | cr {t u : Text} : t.getLast? ≠ some '\r' → u.head? ≠ some '\n' → Respells (t ++ '\n' :: u) (t ++ '\r' :: u)
  | before {w t : Text} : Blank w → Respells t (w ++ t)
  | after {w t : Text} : Blank w → Respells t (t ++ w)

theorem Respells.same {t u : Text} (h : Respells t u) : strip (unifyLineEnds u) = strip (unifyLineEnds t) := by
  cases h with
  | @crlf t u apart =>
    rw [unifyLineEnds_append fun h => absurd h apart, unifyLineEnds_append fun h => absurd h apart, unifyLineEnds,
      unifyLineEnds_cons (by simp), if_neg (by decide)]
  | @cr t u apart next =>
    rw [unifyLineEnds_append fun h => absurd h apart, unifyLineEnds_append fun h => absurd h apart,
      unifyLineEnds_cons fun _ => next, unifyLineEnds_cons (by simp), if_pos rfl, if_neg (by decide)]
  | before blank => rw [strip_unifyLineEnds, strip_unifyLineEnds, strip_blank_append blank]
  | after blank => rw [strip_unifyLineEnds, strip_unifyLineEnds, strip_append_blank blank]

end LunMetrics.Text
