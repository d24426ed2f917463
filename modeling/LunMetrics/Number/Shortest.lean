import LunMetrics.Number.Binary64

/- The shortest decimal digits of a whole double. Of the decimal numbers that round to the double, the ones
   on the coarsest grid of powers of ten are taken, and of those the nearest, a tie going to the even digit.
   Everything is counted in quarters, so that half a step below a power of two is a whole number too. -/
namespace LunMetrics.Binary64

/-- The numbers that round to the double `n`, in quarters: least and greatest, and whether they round to it
    themselves. -/
def basin (n : Nat) : Nat × Nat × Bool :=
  let place := lastPlace n
  let below := if n = Nat.pow 2 (bitLength n - 1) && precision < bitLength n then place else 2 * place
  (4 * n - below, 4 * n + 2 * place, n / place % 2 = 0)

/-- Whether the whole number `m` rounds to the double `n`. -/
def roundsTo (n m : Nat) : Bool :=
  let (low, high, closed) := basin n
  if closed then low ≤ 4 * m && 4 * m ≤ high else low < 4 * m && 4 * m < high

/-- The number on the grid of `10 ^ e` nearest to `n` among the two neighbours that round to `n`, as a
    multiple of `10 ^ e`. -/
def onGrid? (n e : Nat) : Option Nat :=
  let g := Nat.pow 10 e
  let d := n / g
  match roundsTo n (d * g), roundsTo n ((d + 1) * g) with
  | true, true => some (divideToEven n g)
  | true, false => some d
  | false, true => some (d + 1)
  | false, false => none

/-- The digits and the power of ten of the coarsest grid, from `10 ^ e` down, that has a number for `n`. -/
def shortestFrom (n : Nat) : Nat → Nat × Nat
  | 0 => (n, 0)
  | e + 1 => match onGrid? n (e + 1) with
    | some d => (d, e + 1)
    | none => shortestFrom n e

/-- The shortest digits `d` and the power `e` such that `d * 10 ^ e` rounds to the positive double `n`. -/
def shortest (n : Nat) : Nat × Nat := shortestFrom n (Text.ofNat n).length

end LunMetrics.Binary64
