import LunMetrics.Text.Basic

/- Decimal numbers in any script. This file

   1. lists the zeros of the decimal digits of Unicode 14 (`zeros`, each followed by its nine other
      digits) and the characters that are digits but have no place in a decimal number (`loneDigits`,
      such as superscripts);
   2. tells the texts made of digits (`areDigits`), the weaker test, from the texts that denote a number
      (`natural`), the stronger one: a superscript passes the first and fails the second;
   3. writes a number with ASCII digits (`ofNat`). -/
namespace LunMetrics.Text

/-! The characters. -/

/-- The zero of every run of ten decimal digits, by code point. -/
def zeros : List Nat :=
  [0x30, 0x660, 0x6f0, 0x7c0, 0x966, 0x9e6, 0xa66, 0xae6, 0xb66, 0xbe6, 0xc66, 0xce6, 0xd66, 0xde6, 0xe50,
   0xed0, 0xf20, 0x1040, 0x1090, 0x17e0, 0x1810, 0x1946, 0x19d0, 0x1a80, 0x1a90, 0x1b50, 0x1bb0, 0x1c40,
   0x1c50, 0xa620, 0xa8d0, 0xa900, 0xa9d0, 0xa9f0, 0xaa50, 0xabf0, 0xff10, 0x104a0, 0x10d30, 0x11066, 0x110f0,
   0x11136, 0x111d0, 0x112f0, 0x11450, 0x114d0, 0x11650, 0x116c0, 0x11730, 0x118e0, 0x11950, 0x11c50, 0x11d50,
   0x11da0, 0x16a60, 0x16ac0, 0x16b50, 0x1d7ce, 0x1d7d8, 0x1d7e2, 0x1d7ec, 0x1d7f6, 0x1e140, 0x1e2f0, 0x1e950,
   0x1fbf0]

/-- First and last code point of every run of digits that are not decimal digits. -/
def loneDigits : List (Nat × Nat) :=
  [(0xb2, 0xb3), (0xb9, 0xb9), (0x1369, 0x1371), (0x19da, 0x19da), (0x2070, 0x2070), (0x2074, 0x2079),
   (0x2080, 0x2089), (0x2460, 0x2468), (0x2474, 0x247c), (0x2488, 0x2490), (0x24ea, 0x24ea), (0x24f5, 0x24fd),
   (0x24ff, 0x24ff), (0x2776, 0x277e), (0x2780, 0x2788), (0x278a, 0x2792), (0x10a40, 0x10a43),
   (0x10e60, 0x10e68), (0x11052, 0x1105a), (0x1f100, 0x1f10a)]

def decimal? (c : Char) : Option Nat :=
  (zeros.find? fun z => z ≤ c.toNat && c.toNat < z + 10).map (c.toNat - ·)

/-- A digit, decimal or not. -/
def isDigit (c : Char) : Bool :=
  (decimal? c).isSome || loneDigits.any fun r => r.1 ≤ c.toNat && c.toNat ≤ r.2

/-- A text of digits only, and not empty. -/
def areDigits (t : Text) : Bool := !t.isEmpty && t.all isDigit

/-! Reading a number. -/

/-- The most digits that a number may be written with. -/
def maxDigits : Nat := 4300

/-- Why a text denotes no number. -/
inductive NumeralFault
  | notDecimal (text : Text)
  | tooLong (digits : Nat)
  deriving DecidableEq, Repr

def digitsValue (ds : List Nat) : Nat := ds.foldl (fun n d => 10 * n + d) 0

/-- The number that a text of decimal digits denotes. The digits that it begins with are counted before
    anything else is looked at. -/
def natural (t : Text) : Except NumeralFault Nat :=
  let leading := (t.takeWhile fun c => (decimal? c).isSome).length
  if maxDigits < leading then .error (.tooLong leading)
  else if t.isEmpty || leading < t.length then .error (.notDecimal t)
  else .ok (digitsValue (t.filterMap decimal?))

/-! Writing a number. -/

/-- A natural number in ASCII digits. -/
def ofNat (n : Nat) : Text := Nat.toDigits 10 n

end LunMetrics.Text
