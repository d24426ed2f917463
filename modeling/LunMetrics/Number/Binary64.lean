import LunMetrics.Text.Digits

/- Whole numbers as binary64 holds them. This file

   1. rounds a whole number to 53 significant bits, a tie to the even neighbour (`nearest`);
   2. refuses what rounds to 2^1024 or more (`ofInt?`);
   3. turns a count of mebibytes into bytes (`bytesOfUnits?`). A value is kept as the exact integer that the
      double is, since every value here is whole. -/
namespace LunMetrics.Binary64

/-- The number of significant bits. -/
def precision : Nat := 53

def bitLength (n : Nat) : Nat := if n = 0 then 0 else n.log2 + 1

/-- `n / d` rounded to the nearest whole number, a tie to the even one. -/
def divideToEven (n d : Nat) : Nat :=
  let q := n / d
  let r := n % d
  if d < 2 * r || (2 * r = d && q % 2 = 1) then q + 1 else q

/-- The place value of the last significant bit of `n`, or 1 where all its bits are significant. -/
def lastPlace (n : Nat) : Nat := Nat.pow 2 (bitLength n - precision)

/-- The nearest number with at most 53 significant bits. -/
def nearest (n : Nat) : Nat := divideToEven n (lastPlace n) * lastPlace n

/-- What is too large for a finite double. -/
def limit : Nat := Nat.pow 2 1024

/-- The finite double nearest to a whole number. -/
def ofInt? (z : Int) : Option Int :=
  let n := nearest z.natAbs
  if n < limit then some (z.sign * n) else none

def unitBytes : Int := 1048576

/-- The bytes of a count of mebibytes. -/
def bytesOfUnits? (units : Int) : Option Int := ofInt? (units * unitBytes)

end LunMetrics.Binary64
