import Mathlib.Algebra.Group.Nat.Defs
import LunMetrics.Number.Binary64

/- Rounding keeps the order of numbers. Two numbers of the same length are rounded on the same grid, where a rounded
   quotient grows with the dividend (`divideToEven_mono`). Of two numbers of different lengths the shorter one is
   rounded to no more than the power of two that the longer one is rounded to no less than (`nearest_le`,
   `le_nearest`), so a carry at a change of precision does no harm (`nearest_mono`). Hence counts that grow become
   doubles that do not fall, and if the later one is finite, so is the earlier one (`ofInt?_mono`,
   `bytesOfUnits?_mono`). -/
namespace LunMetrics.Binary64

/-! Rounded quotients. -/

/-- A rounded quotient is the quotient or the next number. -/
theorem divideToEven_cases (n d : Nat) :
    (divideToEven n d = n / d ∧ 2 * (n % d) ≤ d) ∨ (divideToEven n d = n / d + 1 ∧ d ≤ 2 * (n % d)) := by
  unfold divideToEven
  simp only
  split
  · next h =>
    simp only [Bool.or_eq_true, Bool.and_eq_true, decide_eq_true_eq] at h
    exact Or.inr ⟨rfl, by omega⟩
  · next h =>
    simp only [Bool.or_eq_true, Bool.and_eq_true, decide_eq_true_eq, not_or] at h
    exact Or.inl ⟨rfl, by omega⟩

theorem le_divideToEven {n d q : Nat} (hd : 0 < d) (h : q * d ≤ n) : q ≤ divideToEven n d := by
  have hq : q ≤ n / d := (Nat.le_div_iff_mul_le hd).2 h
  rcases divideToEven_cases n d with ⟨e, _⟩ | ⟨e, _⟩ <;> omega

theorem divideToEven_le {n d q : Nat} (hd : 0 < d) (h : n ≤ q * d) : divideToEven n d ≤ q := by
  have whole : d * (n / d) + n % d = n := Nat.div_add_mod n d
  rcases divideToEven_cases n d with ⟨e, _⟩ | ⟨e, hr⟩
  · rw [e]
    exact Nat.div_le_of_le_mul (by rw [Nat.mul_comm]; exact h)
  · -- something is left over, so the quotient is not yet `q`
    have lt : n / d * d < q * d := by
      rw [Nat.mul_comm (n / d) d]
      omega
    have := Nat.lt_of_mul_lt_mul_right lt
    omega

theorem divideToEven_mono {m n : Nat} (d : Nat) (h : m ≤ n) : divideToEven m d ≤ divideToEven n d := by
  rcases Nat.lt_or_ge (m / d) (n / d) with lt | ge
  · rcases divideToEven_cases m d with ⟨e, _⟩ | ⟨e, _⟩ <;>
      rcases divideToEven_cases n d with ⟨e', _⟩ | ⟨e', _⟩ <;> omega
  · -- the quotients are the same, and the larger remainder is rounded up if the smaller one is
    have same : m / d = n / d := Nat.le_antisymm (Nat.div_le_div_right h) ge
    have hm : d * (m / d) + m % d = m := Nat.div_add_mod m d
    have hn : d * (n / d) + n % d = n := Nat.div_add_mod n d
    have remainders : m % d ≤ n % d := by
      rw [same] at hm
      omega
    unfold divideToEven
    simp only [same, Bool.or_eq_true, Bool.and_eq_true, decide_eq_true_eq]
    split <;> split <;> omega

/-! The nearest number. -/

theorem lt_two_pow_bitLength (n : Nat) : n < 2 ^ bitLength n := by
  unfold bitLength
  split
  · next h => simp [h]
  · exact Nat.lt_log2_self

theorem two_pow_le {n : Nat} (h : n ≠ 0) : 2 ^ (bitLength n - 1) ≤ n := by
  unfold bitLength
  rw [if_neg h, Nat.add_sub_cancel]
  exact Nat.log2_self_le h

theorem bitLength_mono {m n : Nat} (h : m ≤ n) : bitLength m ≤ bitLength n := by
  by_cases hm : m = 0
  · simp [bitLength, hm]
  · have below : 2 ^ (bitLength m - 1) < 2 ^ bitLength n :=
      Nat.lt_of_le_of_lt (Nat.le_trans (two_pow_le hm) h) (lt_two_pow_bitLength n)
    have := (Nat.pow_lt_pow_iff_right (by decide)).1 below
    omega

theorem lastPlace_pos (n : Nat) : 0 < lastPlace n := Nat.pow_pos (by decide)

theorem two_pow_eq_mul_lastPlace {n e : Nat} (h : bitLength n - precision ≤ e) :
    2 ^ e = 2 ^ (e - (bitLength n - precision)) * lastPlace n := by
  show 2 ^ e = 2 ^ (e - (bitLength n - precision)) * 2 ^ (bitLength n - precision)
  rw [← Nat.pow_add, Nat.sub_add_cancel h]

theorem nearest_le (n : Nat) : nearest n ≤ 2 ^ bitLength n := by
  have grid := two_pow_eq_mul_lastPlace (Nat.sub_le (bitLength n) precision)
  have below := Nat.le_of_lt (lt_two_pow_bitLength n)
  rw [grid] at below ⊢
  exact Nat.mul_le_mul_right _ (divideToEven_le (lastPlace_pos n) below)

theorem le_nearest {n : Nat} (h : n ≠ 0) : 2 ^ (bitLength n - 1) ≤ nearest n := by
  have coarse : bitLength n - precision ≤ bitLength n - 1 := Nat.sub_le_sub_left (by decide) _
  have above := two_pow_le h
  rw [two_pow_eq_mul_lastPlace coarse] at above ⊢
  exact Nat.mul_le_mul_right _ (le_divideToEven (lastPlace_pos n) above)

/-- Rounding keeps the order. -/
theorem nearest_mono {m n : Nat} (h : m ≤ n) : nearest m ≤ nearest n := by
  rcases Nat.lt_or_eq_of_le (bitLength_mono h) with shorter | same
  · have hn : n ≠ 0 := by
      intro e
      rw [e] at shorter
      exact Nat.not_lt_zero _ shorter
    calc nearest m ≤ 2 ^ bitLength m := nearest_le m
      _ ≤ 2 ^ (bitLength n - 1) := Nat.pow_le_pow_right (by decide) (by omega)
      _ ≤ nearest n := le_nearest hn
  · have grid : lastPlace m = lastPlace n := by
      unfold lastPlace
      rw [same]
    unfold nearest
    rw [grid]
    exact Nat.mul_le_mul_right _ (divideToEven_mono _ h)

/-- Beyond 53 bits neighbours meet, and a tie goes to the even one. -/
example : [9007199254740991, 9007199254740992, 9007199254740993, 9007199254740994, 9007199254740995].map nearest =
    [9007199254740991, 9007199254740992, 9007199254740992, 9007199254740994, 9007199254740996] := by decide +kernel

/-! Finite doubles. -/

theorem ofInt?_natCast (n : Nat) : ofInt? n = if nearest n < limit then some (nearest n : Int) else none := by
  unfold ofInt?
  rw [Int.natAbs_natCast]
  simp only
  by_cases hn : n = 0
  · subst hn
    rfl
  · rw [Int.sign_natCast_of_ne_zero hn, Int.one_mul]

/-- If a number fits into a double, a smaller one does, as a double that is no larger. -/
theorem ofInt?_mono {m n : Nat} (h : m ≤ n) {w : Int} (hw : ofInt? n = some w) : ∃ v, ofInt? m = some v ∧ v ≤ w := by
  rw [ofInt?_natCast] at hw ⊢
  split at hw
  · next fits =>
    cases hw
    have order := nearest_mono h
    rw [if_pos (Nat.lt_of_le_of_lt order fits)]
    exact ⟨_, rfl, Int.ofNat_le.2 order⟩
  · cases hw

theorem bytesOfUnits?_mono {m n : Nat} (h : m ≤ n) {w : Int} (hw : bytesOfUnits? n = some w) :
    ∃ v, bytesOfUnits? m = some v ∧ v ≤ w := by
  have units : ∀ k : Nat, bytesOfUnits? k = ofInt? ((k * 1048576 : Nat) : Int) := by
    intro k
    rw [Int.natCast_mul]
    rfl
  rw [units] at hw ⊢
  exact ofInt?_mono (Nat.mul_le_mul_right _ h) hw

end LunMetrics.Binary64
