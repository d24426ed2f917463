import Mathlib.Data.Nat.Factorization.Basic
import LunMetrics.Proofs.Number.Rounding

/- How exact a whole double is. What a double holds of a whole number is the closest number of at most 53 significant
   bits, and of two that are equally close the one whose last bit is 0 (`HalfEven`). What is proved:

   1. the number that `nearest` computes is of this kind and the only one (`halfEven_iff`);
   2. it commutes with a shift (`nearest_mul_two_pow`), so shifting a count of mebibytes before the conversion is the
      same as scaling the double afterwards;
   3. a whole number has no finite double exactly from 2^1024 - 2^970 on, half a step below 2^1024, where the tie goes
      up (`ofInt?_eq_none_iff`);
   4. hence bytes are exact as far as a double allows (`bytesOfUnits?_half_even`). -/
namespace LunMetrics.Binary64

/-! Significant bits. -/

/-- The number of bits of a number without its trailing zero bits. -/
def significantBits (n : Nat) : Nat := bitLength (ordCompl[2] n)

/-- The last of the 53 bits that a number is held with. -/
def lastBit (n : Nat) : Nat := n / lastPlace n % 2

theorem bitLength_le_iff (n k : Nat) : bitLength n ≤ k ↔ n < 2 ^ k := by
  refine ⟨?_, ?_⟩
  · intro h
    exact Nat.lt_of_lt_of_le (lt_two_pow_bitLength n) (Nat.pow_le_pow_right (by decide) h)
  · intro h
    by_cases hn : n = 0
    · simp [bitLength, hn]
    · have below : 2 ^ (bitLength n - 1) < 2 ^ k := Nat.lt_of_le_of_lt (two_pow_le hn) h
      have := (Nat.pow_lt_pow_iff_right (by decide)).1 below
      omega

theorem lastPlace_dvd {m n : Nat} (h : bitLength m ≤ bitLength n) : lastPlace m ∣ lastPlace n :=
  Nat.pow_dvd_pow 2 (Nat.sub_le_sub_right h _)

theorem significantBits_le_iff (n : Nat) : significantBits n ≤ precision ↔ lastPlace n ∣ n := by
  unfold significantBits
  rw [bitLength_le_iff]
  refine ⟨?_, ?_⟩
  · intro h
    have size : n < 2 ^ (n.factorization 2 + precision) := by
      rw [Nat.pow_add]
      calc n = 2 ^ n.factorization 2 * ordCompl[2] n := (Nat.ordProj_mul_ordCompl_eq_self n 2).symm
        _ < 2 ^ n.factorization 2 * 2 ^ precision := Nat.mul_lt_mul_of_pos_left h (Nat.two_pow_pos _)
    have short := (bitLength_le_iff n _).2 size
    have place : lastPlace n ∣ 2 ^ n.factorization 2 := Nat.pow_dvd_pow 2 (by omega)
    exact place.trans (Nat.ordProj_dvd n 2)
  · rintro ⟨a, ha⟩
    have small : a < 2 ^ precision := by
      apply Nat.lt_of_mul_lt_mul_left (a := lastPlace n)
      calc lastPlace n * a = n := ha.symm
        _ < 2 ^ bitLength n := lt_two_pow_bitLength n
        _ ≤ 2 ^ (bitLength n - precision + precision) := Nat.pow_le_pow_right (by decide) (by omega)
        _ = lastPlace n * 2 ^ precision := Nat.pow_add ..
    -- the last place is a power of two, so the odd part of the number is that of the factor
    have odd : ordCompl[2] n = ordCompl[2] a := by
      conv_lhs => rw [ha]
      exact Nat.ordCompl_self_pow_mul a _ Nat.prime_two
    rw [odd]
    exact Nat.lt_of_le_of_lt (Nat.ordCompl_le a 2) small

/-! The closest number. -/

/-- No multiple of the divisor is closer to a number than the rounded quotient makes it. If another one is as close,
    the two stand on either side of the number, and the rounded quotient is the even one. -/
theorem divideToEven_closest (n k : Nat) {d : Nat} (hd : 0 < d) :
    |(n : Int) - (divideToEven n d * d : Nat)| ≤ |(n : Int) - (k * d : Nat)| ∧
      (k ≠ divideToEven n d → |(n : Int) - (k * d : Nat)| = |(n : Int) - (divideToEven n d * d : Nat)| →
        divideToEven n d % 2 = 0 ∧ k % 2 = 1 ∧ n / d ≤ k ∧ k ≤ n / d + 1) := by
  have whole : d * (n / d) + n % d = n := Nat.div_add_mod n d
  have rest : n % d < d := Nat.mod_lt n hd
  have up : (n / d + 1) * d = d * (n / d) + d := by rw [Nat.succ_mul, Nat.mul_comm]
  have down : n / d * d = d * (n / d) := Nat.mul_comm _ _
  have far : ∀ a b : Nat, a < b → a * d + d ≤ b * d := by
    intro a b h
    rw [← Nat.succ_mul]
    exact Nat.mul_le_mul_right d h
  have low := far k (n / d)
  have high := far (n / d + 1) k
  simp only [abs_eq_max_neg]
  unfold divideToEven
  simp only [Bool.or_eq_true, Bool.and_eq_true, decide_eq_true_eq]
  -- the multiples beside the number, and those beyond them
  rcases Nat.lt_trichotomy k (n / d) with below | here | above
  · split <;> omega
  · subst here
    split <;> omega
  · by_cases next : k = n / d + 1
    · subst next
      split <;> omega
    · split <;> omega

theorem two_mul_abs_sub_nearest_le (n : Nat) : 2 * |(n : Int) - nearest n| ≤ lastPlace n := by
  have whole : lastPlace n * (n / lastPlace n) + n % lastPlace n = n := Nat.div_add_mod n _
  have rest := Nat.mod_lt n (lastPlace_pos n)
  have up : (n / lastPlace n + 1) * lastPlace n = lastPlace n * (n / lastPlace n) + lastPlace n := by
    rw [Nat.succ_mul, Nat.mul_comm]
  have down : n / lastPlace n * lastPlace n = lastPlace n * (n / lastPlace n) := Nat.mul_comm _ _
  unfold nearest
  simp only [abs_eq_max_neg]
  rcases divideToEven_cases n (lastPlace n) with ⟨e, h⟩ | ⟨e, h⟩ <;> rw [e] <;> omega

theorem nearest_of_dvd {n : Nat} (h : lastPlace n ∣ n) : nearest n = n := by
  obtain ⟨a, ha⟩ := h
  have multiple : a * lastPlace n = n := by rw [Nat.mul_comm, ← ha]
  have close := (divideToEven_closest n a (lastPlace_pos n)).1
  rw [multiple, sub_self, abs_zero] at close
  have zero := abs_eq_zero.1 (Int.le_antisymm close (abs_nonneg _))
  unfold nearest
  omega

theorem lastPlace_eq_one {n : Nat} (h : bitLength n ≤ precision) : lastPlace n = 1 := by
  unfold lastPlace
  rw [Nat.sub_eq_zero_of_le h]

theorem bitLength_eq {n k : Nat} (low : 2 ^ k ≤ n) (high : n < 2 ^ (k + 1)) : bitLength n = k + 1 := by
  have upper := (bitLength_le_iff n (k + 1)).2 high
  have lower := mt (bitLength_le_iff n k).1 (Nat.not_lt.2 low)
  omega

/-- The quotient of a long number has the 53 bits that the number is held with, up to a carry. -/
theorem quotient_bounds {n : Nat} (long : precision < bitLength n) :
    2 ^ 52 ≤ n / lastPlace n ∧ n / lastPlace n < 2 ^ 53 := by
  unfold precision at long
  have hn : n ≠ 0 := by
    rintro rfl
    exact absurd long (by decide)
  have low := two_pow_le hn
  have high := lt_two_pow_bitLength n
  have first : bitLength n - 1 = 52 + (bitLength n - 53) := by omega
  have second : bitLength n = 53 + (bitLength n - 53) := by omega
  rw [first, Nat.pow_add] at low
  rw [second, Nat.pow_add] at high
  exact ⟨(Nat.le_div_iff_mul_le (lastPlace_pos n)).2 low, (Nat.div_lt_iff_lt_mul (lastPlace_pos n)).2 high⟩

/-- The last bit of a long number that is rounded is that of the quotient, also where a carry makes it longer. -/
theorem lastBit_quotient {n x : Nat} (long : precision < bitLength n) (low : 2 ^ 52 ≤ x) (high : x ≤ 2 ^ 53) :
    lastBit (x * lastPlace n) = x % 2 := by
  have place := lastPlace_pos n
  have power : lastPlace n = 2 ^ (bitLength n - precision) := rfl
  unfold lastBit
  rcases Nat.lt_or_eq_of_le high with lt | carry
  · have length : bitLength (x * lastPlace n) = bitLength n := by
      have least : 2 ^ (52 + (bitLength n - precision)) ≤ x * lastPlace n := by
        rw [Nat.pow_add, power]
        exact Nat.mul_le_mul_right _ low
      have most : x * lastPlace n < 2 ^ (53 + (bitLength n - precision)) := by
        rw [Nat.pow_add, power]
        exact Nat.mul_lt_mul_of_pos_right lt (Nat.two_pow_pos _)
      have := bitLength_eq least (by rw [Nat.add_right_comm]; exact most)
      unfold precision at *
      omega
    have same : lastPlace (x * lastPlace n) = lastPlace n := by
      unfold lastPlace at length ⊢
      rw [length]
    rw [same, Nat.mul_div_cancel _ place]
  · have value : x * lastPlace n = 2 ^ (53 + (bitLength n - precision)) := by rw [carry, power, Nat.pow_add]
    have length : bitLength (x * lastPlace n) = 53 + (bitLength n - precision) + 1 := by
      rw [value]
      exact bitLength_eq (Nat.le_refl _) (Nat.pow_lt_pow_right (by decide) (Nat.lt_succ_self _))
    have twice : lastPlace (x * lastPlace n) = 2 ^ (bitLength n - precision + 1) := by
      show 2 ^ (bitLength (x * lastPlace n) - precision) = _
      rw [length]
      congr 1
      unfold precision
      omega
    have half : 2 ^ (53 + (bitLength n - precision)) = 2 ^ 52 * 2 ^ (bitLength n - precision + 1) := by
      rw [← Nat.pow_add]
      congr 1
      omega
    rw [twice, value, half, Nat.mul_div_cancel _ (Nat.two_pow_pos _), carry]
    rfl

/-- No number of 53 significant bits is closer to a number than the one that is computed. If another one is as close, the
    last bit of the computed one is 0 and that of the other one is 1. -/
theorem nearest_closest (n : Nat) {k : Nat} (short : significantBits k ≤ precision) :
    |(n : Int) - nearest n| ≤ |(n : Int) - k| ∧
      (k ≠ nearest n → |(n : Int) - k| = |(n : Int) - nearest n| → lastBit (nearest n) = 0 ∧ lastBit k = 1) := by
  by_cases grid : lastPlace n ∣ k
  · obtain ⟨b, hb⟩ := grid
    rw [Nat.mul_comm] at hb
    subst hb
    obtain ⟨close, tie⟩ := divideToEven_closest n b (lastPlace_pos n)
    refine ⟨close, ?_⟩
    intro other equal
    have long : precision < bitLength n := by
      -- a short number is held as it is, and nothing else is as close
      by_contra brief
      have place := lastPlace_eq_one (Nat.le_of_not_lt brief)
      have itself := nearest_of_dvd (n := n) (by rw [place]; exact Nat.one_dvd n)
      rw [itself, sub_self, abs_zero, abs_eq_zero] at equal
      omega
    obtain ⟨even, odd, low, high⟩ := tie (fun e => other (by rw [e]; rfl)) equal
    obtain ⟨least, most⟩ := quotient_bounds long
    have computed : 2 ^ 52 ≤ divideToEven n (lastPlace n) ∧ divideToEven n (lastPlace n) ≤ 2 ^ 53 := by
      rcases divideToEven_cases n (lastPlace n) with ⟨e, _⟩ | ⟨e, _⟩ <;> omega
    refine ⟨?_, ?_⟩
    · unfold nearest
      rw [lastBit_quotient long computed.1 computed.2, even]
    · rw [lastBit_quotient long (Nat.le_trans least low) (by omega), odd]
  · -- a number off the grid is shorter, so the power of two that the grid starts with is closer
    have shorter : bitLength k < bitLength n := by
      by_contra longer
      exact grid ((lastPlace_dvd (Nat.le_of_not_lt longer)).trans ((significantBits_le_iff k).1 short))
    have hn : n ≠ 0 := by
      rintro rfl
      exact Nat.not_lt_zero _ shorter
    have start := two_pow_eq_mul_lastPlace (n := n) (e := bitLength n - 1) (by unfold precision; omega)
    have close := (divideToEven_closest n (2 ^ (bitLength n - 1 - (bitLength n - precision))) (lastPlace_pos n)).1
    rw [← start] at close
    have above := two_pow_le hn
    have below : k < 2 ^ (bitLength n - 1) := (bitLength_le_iff k _).1 (by omega)
    unfold nearest
    simp only [abs_eq_max_neg] at close ⊢
    omega

theorem nearest_short (n : Nat) : significantBits (nearest n) ≤ precision := by
  rw [significantBits_le_iff]
  by_cases longer : bitLength (nearest n) ≤ bitLength n
  · exact (lastPlace_dvd longer).trans (Nat.dvd_mul_left _ _)
  · -- a carry into the next power of two
    have carry : nearest n = 2 ^ bitLength n := by
      apply Nat.le_antisymm (nearest_le n)
      by_contra small
      exact longer ((bitLength_le_iff _ _).2 (Nat.lt_of_not_le small))
    have length : bitLength (nearest n) = bitLength n + 1 := by
      rw [carry]
      exact bitLength_eq (Nat.le_refl _) (Nat.pow_lt_pow_right (by decide) (Nat.lt_succ_self _))
    have place : lastPlace (nearest n) = 2 ^ (bitLength n + 1 - precision) := by
      unfold lastPlace
      rw [length]
      rfl
    rw [place, carry]
    exact Nat.pow_dvd_pow 2 (by unfold precision; omega)

/-! Rounding, as it is defined. -/

/-- Whether `m` is what a whole number is rounded to: of at most 53 significant bits, as close as any such number, and
    with 0 as its last bit if another one is as close. -/
structure HalfEven (z m : Int) : Prop where
  short : significantBits m.natAbs ≤ precision
  closest : ∀ k : Int, significantBits k.natAbs ≤ precision → |z - m| ≤ |z - k|
  even : ∀ k : Int, significantBits k.natAbs ≤ precision → k ≠ m → |z - k| = |z - m| → lastBit m.natAbs = 0

theorem HalfEven.neg {z m : Int} (h : HalfEven z m) : HalfEven (-z) (-m) := by
  have mirror : ∀ a b : Int, |-a - b| = |a - -b| := by
    intro a b
    rw [← abs_neg]
    congr 1
    omega
  refine ⟨?_, ?_, ?_⟩
  · rw [Int.natAbs_neg]
    exact h.short
  · intro k hk
    rw [mirror, mirror, neg_neg]
    exact h.closest (-k) (by rw [Int.natAbs_neg]; exact hk)
  · intro k hk other equal
    rw [mirror, mirror, neg_neg] at equal
    rw [Int.natAbs_neg]
    exact h.even (-k) (by rw [Int.natAbs_neg]; exact hk) (by omega) equal

theorem halfEven_natCast_iff (n : Nat) (m : Int) : HalfEven n m ↔ m = nearest n := by
  -- a negative number is not as close as 0
  have negative : ∀ k : Int, k < 0 → |(n : Int) - nearest n| < |(n : Int) - k| := by
    intro k hk
    have close := (nearest_closest n (k := 0) (by decide)).1
    simp only [abs_eq_max_neg] at close ⊢
    omega
  have closest : ∀ k : Int, significantBits k.natAbs ≤ precision → |(n : Int) - nearest n| ≤ |(n : Int) - k| := by
    intro k short
    rcases Int.lt_or_le k 0 with neg | pos
    · exact Int.le_of_lt (negative k neg)
    · obtain ⟨k, rfl⟩ := Int.eq_ofNat_of_zero_le pos
      exact (nearest_closest n short).1
  have tie : ∀ k : Int, significantBits k.natAbs ≤ precision → k ≠ nearest n →
      |(n : Int) - k| = |(n : Int) - nearest n| → lastBit (nearest n) = 0 ∧ lastBit k.natAbs = 1 := by
    intro k short other equal
    rcases Int.lt_or_le k 0 with neg | pos
    · exact absurd equal.symm (Int.ne_of_lt (negative k neg))
    · obtain ⟨k, rfl⟩ := Int.eq_ofNat_of_zero_le pos
      exact (nearest_closest n short).2 (fun e => other (congrArg Nat.cast e)) equal
  refine ⟨?_, ?_⟩
  · intro h
    by_contra other
    have equal := Int.le_antisymm (closest m h.short) (h.closest (nearest n) (nearest_short n))
    -- the two are equally close, and only one of them has 0 as its last bit
    have odd := (tie m h.short other equal.symm).2
    have even := h.even (nearest n) (nearest_short n) (Ne.symm other) equal
    rw [odd] at even
    cases even
  · rintro rfl
    exact ⟨nearest_short n, closest, fun k short other equal => (tie k short other equal).1⟩

/-- A whole number is rounded to the number of the same sign that is computed, and to no other. -/
theorem halfEven_iff (z m : Int) : HalfEven z m ↔ m = z.sign * nearest z.natAbs := by
  rcases Int.lt_or_le z 0 with neg | pos
  · obtain ⟨n, hn⟩ := Int.eq_ofNat_of_zero_le (Int.le_of_lt (Int.neg_pos_of_neg neg))
    have natural := halfEven_natCast_iff n (-m)
    rw [← hn] at natural
    have mirrored : HalfEven z m ↔ HalfEven (-z) (-m) := by
      refine ⟨HalfEven.neg, ?_⟩
      intro h
      have back := h.neg
      rw [neg_neg, neg_neg] at back
      exact back
    have size : z.natAbs = n := by omega
    rw [mirrored, natural, Int.sign_eq_neg_one_of_neg neg, size]
    omega
  · obtain ⟨n, rfl⟩ := Int.eq_ofNat_of_zero_le pos
    rw [halfEven_natCast_iff, Int.natAbs_natCast]
    by_cases hn : n = 0
    · subst hn
      rfl
    · rw [Int.sign_natCast_of_ne_zero hn, Int.one_mul]

/-! Shifts. -/

theorem divideToEven_mul_right (n d : Nat) {c : Nat} (hc : 0 < c) :
    divideToEven (n * c) (d * c) = divideToEven n d := by
  unfold divideToEven
  have lt : d * c < 2 * (n % d * c) ↔ d < 2 * (n % d) := by
    rw [← Nat.mul_assoc]
    exact Nat.mul_lt_mul_right hc
  have eq : 2 * (n % d * c) = d * c ↔ 2 * (n % d) = d := by
    rw [← Nat.mul_assoc]
    exact Nat.mul_left_inj (Nat.ne_of_gt hc)
  simp only [Nat.mul_div_mul_right _ _ hc, Nat.mul_mod_mul_right, lt, eq]

theorem bitLength_mul_two_pow {n : Nat} (hn : n ≠ 0) (k : Nat) : bitLength (n * 2 ^ k) = bitLength n + k := by
  have long : bitLength n ≠ 0 := by
    unfold bitLength
    rw [if_neg hn]
    exact Nat.succ_ne_zero _
  have low : 2 ^ (bitLength n - 1 + k) ≤ n * 2 ^ k := by
    rw [Nat.pow_add]
    exact Nat.mul_le_mul_right _ (two_pow_le hn)
  have high : n * 2 ^ k < 2 ^ (bitLength n - 1 + k + 1) := by
    rw [show bitLength n - 1 + k + 1 = bitLength n + k by omega, Nat.pow_add]
    exact Nat.mul_lt_mul_of_pos_right (lt_two_pow_bitLength n) (Nat.two_pow_pos k)
  rw [bitLength_eq low high]
  omega

theorem nearest_mul_two_pow (n k : Nat) : nearest (n * 2 ^ k) = nearest n * 2 ^ k := by
  by_cases hn : n = 0
  · subst hn
    rw [Nat.zero_mul, nearest_of_dvd (Nat.dvd_zero _), Nat.zero_mul]
  have length := bitLength_mul_two_pow hn k
  by_cases brief : bitLength n ≤ precision
  · -- nothing is rounded
    have grid : lastPlace (n * 2 ^ k) ∣ 2 ^ k := by
      unfold lastPlace
      rw [length]
      exact Nat.pow_dvd_pow 2 (by omega)
    rw [nearest_of_dvd (grid.trans (Nat.dvd_mul_left _ _)), nearest_of_dvd]
    rw [lastPlace_eq_one brief]
    exact Nat.one_dvd n
  · have place : lastPlace (n * 2 ^ k) = lastPlace n * 2 ^ k := by
      show 2 ^ (bitLength (n * 2 ^ k) - precision) = 2 ^ (bitLength n - precision) * 2 ^ k
      rw [length, ← Nat.pow_add]
      congr 1
      omega
    unfold nearest
    rw [place, divideToEven_mul_right n _ (Nat.two_pow_pos k), Nat.mul_assoc]

/-! Finite doubles. -/

/-- A number is rounded to 2^1024 or more exactly from half a step below it on. -/
theorem limit_le_nearest_iff (n : Nat) : limit ≤ nearest n ↔ 2 ^ 1024 - 2 ^ 970 ≤ n := by
  have tie : nearest (2 ^ 1024 - 2 ^ 970) = limit := by decide +kernel
  have greatest : nearest (2 ^ 1024 - 2 ^ 970 - 1) < limit := by decide +kernel
  refine ⟨?_, ?_⟩
  · intro h
    by_contra small
    have order := nearest_mono (Nat.le_sub_one_of_lt (Nat.lt_of_not_le small))
    exact absurd h (Nat.not_le.2 (Nat.lt_of_le_of_lt order greatest))
  · intro h
    rw [← tie]
    exact nearest_mono h

theorem ofInt?_eq_none_iff (z : Int) : ofInt? z = none ↔ 2 ^ 1024 - 2 ^ 970 ≤ |z| := by
  have size : (2 ^ 1024 - 2 ^ 970 : Int) ≤ |z| ↔ 2 ^ 1024 - 2 ^ 970 ≤ z.natAbs := by
    rw [Int.abs_eq_natAbs]
    omega
  rw [size, ← limit_le_nearest_iff]
  unfold ofInt?
  simp only
  split
  · next fits => simp [fits]
  · next fits => simp [Nat.le_of_not_lt fits]

theorem ofInt?_eq_some_iff (z m : Int) : ofInt? z = some m ↔ |z| < 2 ^ 1024 - 2 ^ 970 ∧ HalfEven z m := by
  have fits : |z| < 2 ^ 1024 - 2 ^ 970 ↔ nearest z.natAbs < limit := by
    rw [← Int.not_le, ← ofInt?_eq_none_iff, ← Nat.not_le, not_iff_not]
    unfold ofInt?
    simp
  rw [fits, halfEven_iff]
  unfold ofInt?
  by_cases h : nearest z.natAbs < limit <;> simp [h, eq_comm]

theorem HalfEven.size {z m : Int} (h : HalfEven z m) :
    m.natAbs = nearest z.natAbs ∧ |m - z| = |(z.natAbs : Int) - nearest z.natAbs| := by
  have value := (halfEven_iff z m).1 h
  simp only [abs_eq_max_neg]
  rcases Int.lt_trichotomy z 0 with neg | rfl | pos
  · rw [Int.sign_eq_neg_one_of_neg neg] at value
    omega
  · rw [Int.sign_zero, Int.zero_mul] at value
    subst value
    exact ⟨rfl, rfl⟩
  · rw [Int.sign_eq_one_of_pos pos] at value
    omega

theorem HalfEven.two_mul_error_le {z m : Int} (h : HalfEven z m) : 2 * |m - z| ≤ lastPlace m.natAbs := by
  obtain ⟨size, error⟩ := h.size
  rw [size, error]
  have half := two_mul_abs_sub_nearest_le z.natAbs
  by_cases zero : z.natAbs = 0
  · rw [zero]
    decide
  · -- the rounded number is no shorter, so its last place is no lower
    have longer : bitLength z.natAbs ≤ bitLength (nearest z.natAbs) := by
      have least := mt (bitLength_le_iff (nearest z.natAbs) _).1 (Nat.not_lt.2 (le_nearest zero))
      omega
    have place := Nat.le_of_dvd (lastPlace_pos _) (lastPlace_dvd longer)
    omega

theorem halfEven_mul_two_pow (z m : Int) (k : Nat) : HalfEven (z * 2 ^ k) (m * 2 ^ k) ↔ HalfEven z m := by
  have power : (2 : Int) ^ k ≠ 0 := Int.ne_of_gt (Int.pow_pos (by decide))
  have size : (z * 2 ^ k).natAbs = z.natAbs * 2 ^ k := by rw [Int.natAbs_mul, Int.natAbs_pow]; rfl
  have sign : (z * 2 ^ k).sign = z.sign := by
    rw [Int.sign_mul, Int.sign_eq_one_of_pos (Int.pow_pos (by decide)), Int.mul_one]
  rw [halfEven_iff, halfEven_iff, size, sign, nearest_mul_two_pow, Int.natCast_mul, ← Int.mul_assoc]
  exact Int.mul_eq_mul_right_iff power

/-- A rounded number is the number itself exactly if that has at most 53 significant bits. -/
theorem HalfEven.eq_iff {z m : Int} (h : HalfEven z m) : m = z ↔ significantBits z.natAbs ≤ precision := by
  refine ⟨?_, ?_⟩
  · rintro rfl
    exact h.short
  · intro short
    have close := h.closest z short
    rw [sub_self, abs_zero] at close
    have zero := abs_eq_zero.1 (Int.le_antisymm close (abs_nonneg _))
    omega

theorem significantBits_le_of_le {n : Nat} (h : n ≤ 2 ^ 53) : significantBits n ≤ precision := by
  rcases Nat.lt_or_eq_of_le h with lt | rfl
  · rw [significantBits_le_iff, lastPlace_eq_one ((bitLength_le_iff n _).2 lt)]
    exact Nat.one_dvd n
  · rw [significantBits_le_iff]
    decide +kernel

/-! Bytes. -/

theorem unitBytes_eq : unitBytes = 2 ^ 20 := by decide

theorem bytesOfUnits?_eq (units : Int) : bytesOfUnits? units = ofInt? (units * 2 ^ 20) := by
  rw [← unitBytes_eq]
  rfl

theorem limit_le_shifted_iff (units : Int) :
    2 ^ 1024 - 2 ^ 970 ≤ |units * 2 ^ 20| ↔ 2 ^ 1004 - 2 ^ 950 ≤ |units| := by
  have size : |units * 2 ^ 20| = |units| * 2 ^ 20 := by
    rw [Int.abs_eq_natAbs, Int.abs_eq_natAbs, Int.natAbs_mul]
    rfl
  have limit : (2 : Int) ^ 1024 - 2 ^ 970 = (2 ^ 1004 - 2 ^ 950) * 2 ^ 20 := by
    rw [Int.sub_mul, ← Int.pow_add, ← Int.pow_add]
  rw [size, limit]
  exact Int.mul_le_mul_right (Int.pow_pos (by decide))

theorem bytesOfUnits?_eq_none_iff (units : Int) : bytesOfUnits? units = none ↔ 2 ^ 1004 - 2 ^ 950 ≤ |units| := by
  rw [bytesOfUnits?_eq, ofInt?_eq_none_iff, limit_le_shifted_iff]

theorem bytesOfUnits?_eq_some {units m : Int} (small : |units| < 2 ^ 1004 - 2 ^ 950) (rounded : HalfEven units m) :
    bytesOfUnits? units = some (m * 2 ^ 20) := by
  rw [bytesOfUnits?_eq, ofInt?_eq_some_iff, ← Int.not_le, limit_le_shifted_iff, Int.not_le, halfEven_mul_two_pow]
  exact ⟨small, rounded⟩

/-- A count of mebibytes has no finite double for its bytes exactly from half a step below 2^1004 on. Any smaller count is
    rounded half to even, and the bytes are the rounded count scaled by 2^20. They are exact if and only if the count has at
    most 53 significant bits, as every count up to 2^53 has, and never off by more than half of their last place. -/
theorem bytesOfUnits?_half_even (units : Int) :
    (bytesOfUnits? units = none ↔ 2 ^ 1004 - 2 ^ 950 ≤ |units|) ∧
    (|units| < 2 ^ 1004 - 2 ^ 950 → ∃ m bytes,
      bytesOfUnits? units = some bytes ∧ bytes = m * 2 ^ 20 ∧ (∀ k, HalfEven units k ↔ k = m) ∧ ofInt? units = some m ∧
      (bytes = units * 1048576 ↔ significantBits units.natAbs ≤ 53) ∧ (|units| ≤ 2 ^ 53 → bytes = units * 1048576) ∧
      2 * |bytes - units * 1048576| ≤ lastPlace bytes.natAbs) := by
  refine ⟨bytesOfUnits?_eq_none_iff units, ?_⟩
  intro small
  have rounded := (halfEven_iff units _).2 rfl
  generalize hm : units.sign * (nearest units.natAbs : Int) = m at rounded
  have scaled := (halfEven_mul_two_pow units m 20).2 rounded
  have exact_iff : m * 2 ^ 20 = units * 1048576 ↔ significantBits units.natAbs ≤ 53 := by
    refine Iff.trans ?_ rounded.eq_iff
    omega
  refine ⟨m, m * 2 ^ 20, bytesOfUnits?_eq_some small rounded, rfl, ?_, ?_, exact_iff, ?_, ?_⟩
  · intro k
    rw [halfEven_iff, hm]
  · exact (ofInt?_eq_some_iff units m).2 ⟨by omega, rounded⟩
  · intro few
    rw [Int.abs_eq_natAbs] at few
    exact exact_iff.2 (significantBits_le_of_le (by omega))
  · have error := scaled.two_mul_error_le
    rw [← unitBytes_eq] at error ⊢
    exact error

/-- The first count whose bytes are not exact: it is half way between two doubles, and the even one is taken. -/
theorem tie_half_even :
    |(2 ^ 53 + 1 : Int)| < 2 ^ 1004 - 2 ^ 950 ∧ HalfEven (2 ^ 53 + 1) (2 ^ 53) ∧
      bytesOfUnits? (2 ^ 53 + 1) = some (2 ^ 53 * 2 ^ 20) := by
  have small : |(2 ^ 53 + 1 : Int)| < 2 ^ 1004 - 2 ^ 950 := by decide +kernel
  obtain ⟨m, bytes, value, scaled, unique, _⟩ := (bytesOfUnits?_half_even (2 ^ 53 + 1)).2 small
  have rounded : HalfEven (2 ^ 53 + 1) (2 ^ 53) := (halfEven_iff _ _).2 (by decide +kernel)
  rw [value, scaled, ← (unique (2 ^ 53)).1 rounded]
  exact ⟨small, rounded, rfl⟩

end LunMetrics.Binary64
