import LunMetrics.Proofs.Text.Blank
import LunMetrics.Text.Digits

/- Texts that denote numbers. Of all texts those denote a number that are made of decimal digits, one at least and not too
   many (`natural_eq_ok_iff`). There is no blank among them (`IsNumeral.trimmed`), so none is lost when they are
   stripped, and no line end (`isNumeral_unifyLineEnds_iff`). What a number is written as denotes it, whatever zeros stand
   before it (`number_padded`). -/
namespace LunMetrics.Text

/-! Reading. -/

/-- The number that a text of decimal digits denotes. -/
def number (t : Text) : Nat := digitsValue (t.filterMap decimal?)

/-- A text that denotes a number. -/
structure IsNumeral (t : Text) : Prop where
  notEmpty : t ≠ []
  decimal : ∀ c ∈ t, (decimal? c).isSome
  short : t.length ≤ maxDigits

theorem decimal_of_leading {t : Text} (h : t.length ≤ (t.takeWhile fun c => (decimal? c).isSome).length) :
    ∀ c ∈ t, (decimal? c).isSome :=
  List.takeWhile_eq_self_iff.1 ((List.takeWhile_prefix _).eq_of_length_le h)

/-- The numerals are read, and nothing else is. -/
theorem natural_eq_ok_iff {t : Text} {n : Nat} : natural t = .ok n ↔ IsNumeral t ∧ n = number t := by
  constructor
  · intro h
    unfold natural at h
    simp only at h
    split at h
    · cases h
    · next short =>
      split at h
      · cases h
      · next whole =>
        cases h
        simp only [List.isEmpty_iff, Bool.or_eq_true, decide_eq_true_eq, not_or] at whole
        have all : t.length ≤ (t.takeWhile fun c => (decimal? c).isSome).length := by omega
        exact ⟨⟨whole.1, decimal_of_leading all, by omega⟩, rfl⟩
  · rintro ⟨⟨notEmpty, decimal, short⟩, rfl⟩
    -- all characters are digits, so nothing follows the digits at the beginning
    have all : (t.takeWhile fun c => (decimal? c).isSome).length = t.length := by
      rw [List.takeWhile_eq_self_iff.2 decimal]
    unfold natural
    simp only [all]
    rw [if_neg (by omega), if_neg]
    · rfl
    · simp [notEmpty]

theorem natural_ok {t : Text} (notEmpty : t ≠ []) (decimal : ∀ c ∈ t, (decimal? c).isSome)
    (short : t.length ≤ maxDigits) : ∃ n, natural t = .ok n :=
  ⟨_, natural_eq_ok_iff.2 ⟨⟨notEmpty, decimal, short⟩, rfl⟩⟩

theorem eq_number_of_natural {t : Text} {n : Nat} (h : natural t = .ok n) : n = number t :=
  (natural_eq_ok_iff.1 h).2

theorem not_mem_of_areDigits {t : Text} (h : areDigits t = true) {c : Char} (hc : isDigit c = false) : c ∉ t := by
  unfold areDigits at h
  rw [Bool.and_eq_true, List.all_eq_true] at h
  intro hm
  rw [h.2 c hm] at hc
  cases hc

theorem IsNumeral.areDigits {t : Text} (h : IsNumeral t) : areDigits t = true := by
  have digits : t.all isDigit = true := by
    rw [List.all_eq_true]
    intro c hc
    rw [isDigit, h.decimal c hc, Bool.true_or]
  simp [Text.areDigits, h.notEmpty, digits]

/-! Blanks. -/

theorem decimal?_isSome_iff {c : Char} : (decimal? c).isSome ↔ ∃ z ∈ zeros, z ≤ c.toNat ∧ c.toNat < z + 10 := by
  simp [decimal?]

/-- No run of digits meets a run of blanks. -/
theorem zeros_apart_blanks : ∀ z ∈ zeros, ∀ r ∈ blanks, z + 10 ≤ r.1 ∨ r.2 < z := by decide +kernel

theorem isBlank_of_decimal {c : Char} (h : (decimal? c).isSome) : isBlank c = false := by
  obtain ⟨z, hz, low, high⟩ := decimal?_isSome_iff.1 h
  rw [isBlank, List.any_eq_false]
  intro r hr
  have := zeros_apart_blanks z hz r hr
  simp only [Bool.and_eq_true, decide_eq_true_eq]
  omega

theorem IsNumeral.trimmed {t : Text} (h : IsNumeral t) : Trimmed t where
  first c hc := isBlank_of_decimal (h.decimal c (List.mem_of_head? hc))
  last c hc := isBlank_of_decimal (h.decimal c (List.mem_of_getLast? hc))

theorem IsNumeral.unifyLineEnds_eq {t : Text} (h : IsNumeral t) : unifyLineEnds t = t := by
  apply unifyLineEnds_of_not_mem
  intro hc
  exact ne_cr_of_not_blank (isBlank_of_decimal (h.decimal _ hc)) rfl

theorem lf_mem_unifyLineEnds {t : Text} (h : '\r' ∈ t) : '\n' ∈ unifyLineEnds t := by
  fun_induction unifyLineEnds t with
  | case1 => cases h
  | case2 t ih => exact List.mem_cons_self
  | case3 c t single ih =>
    by_cases hc : c = '\r'
    · rw [if_pos hc]
      exact List.mem_cons_self
    · rcases List.mem_cons.1 h with e | ht
      · exact absurd e.symm hc
      · exact List.mem_cons_of_mem _ (ih ht)

theorem isNumeral_unifyLineEnds_iff {t : Text} : IsNumeral (unifyLineEnds t) ↔ IsNumeral t := by
  constructor
  · intro h
    have noCr : '\r' ∉ t := fun hc =>
      ne_lf_of_not_blank (isBlank_of_decimal (h.decimal _ (lf_mem_unifyLineEnds hc))) rfl
    rwa [unifyLineEnds_of_not_mem noCr] at h
  · intro h
    rw [h.unifyLineEnds_eq]
    exact h

/-! Writing. -/

theorem decimal?_of_isDigit {c : Char} (h : c.isDigit = true) : decimal? c = some (c.toNat - '0'.toNat) := by
  have bounds : 48 ≤ c.toNat ∧ c.toNat ≤ 57 := by
    simpa [Char.isDigit, UInt32.le_iff_toNat_le] using h
  have zero : zeros.find? (fun z => z ≤ c.toNat && c.toNat < z + 10) = some 48 := by
    rw [zeros, List.find?_cons_of_pos]
    simp only [Bool.and_eq_true, decide_eq_true_eq]
    omega
  rw [decimal?, zero]
  rfl

theorem number_of_ascii {t : Text} (ascii : ∀ c ∈ t, c.isDigit = true) : number t = Nat.ofDigitChars 10 t 0 := by
  have values : t.filterMap decimal? = t.map fun c => c.toNat - '0'.toNat := by
    rw [← List.filterMap_eq_map]
    exact List.filterMap_congr fun c hc => decimal?_of_isDigit (ascii c hc)
  rw [number, digitsValue, values, List.foldl_map, Nat.ofDigitChars_eq_foldl]

/-- A number in ASCII digits with `k` zeros before it. -/
def padded (k n : Nat) : Text := List.replicate k '0' ++ ofNat n

theorem padded_ascii (k n : Nat) : ∀ c ∈ padded k n, c.isDigit = true := by
  intro c hc
  rcases List.mem_append.1 hc with h | h
  · rw [List.eq_of_mem_replicate h]
    rfl
  · exact Nat.isDigit_of_mem_toDigits (by decide) (by decide) h

theorem number_padded (k n : Nat) : number (padded k n) = n := by
  rw [number_of_ascii (padded_ascii k n), padded, Nat.ofDigitChars_append, Nat.ofDigitChars_replicate_zero,
    Nat.mul_zero]
  exact Nat.ofDigitChars_ten_toDigits

theorem isNumeral_padded {k n : Nat} (short : (padded k n).length ≤ maxDigits) : IsNumeral (padded k n) where
  notEmpty h := by
    have := Nat.length_toDigits_pos (b := 10) (n := n)
    rw [List.length_pos_iff] at this
    exact this (List.append_eq_nil_iff.1 h).2
  decimal c hc := by rw [decimal?_of_isDigit (padded_ascii k n c hc)]; rfl
  short := short

end LunMetrics.Text
