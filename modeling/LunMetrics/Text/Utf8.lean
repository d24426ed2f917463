import LunMetrics.Text.Basic

/- UTF-8, strict. `decode` reads bytes into a text and names the first ill-formed piece with its place and
   reason; `encode` writes a text. The well-formed sequences are told by their first byte, which fixes the
   range of every byte that follows (`lead?`): overlong forms, surrogates and values above U+10FFFF have
   none. -/
namespace LunMetrics.Utf8

/-- What is wrong with an ill-formed piece. -/
inductive Reason
  | invalidStart
  | invalidContinuation
  | unexpectedEnd
  deriving DecidableEq, Repr

/-- The first ill-formed piece: where it starts, its bytes, and what is wrong with it. -/
structure Fault where
  position : Nat
  bytes : List UInt8
  reason : Reason
  deriving DecidableEq, Repr

/-! Sequences. -/

/-- First and last value that a byte may have. -/
abbrev Range := UInt8 × UInt8

/-- The range of a byte that continues a sequence where its first byte says no more. -/
def tail : Range := (0x80, 0xbf)

/-- The bits that the first byte of a sequence gives, and the ranges of the bytes that follow it. -/
def lead? (b : UInt8) : Option (Nat × List Range) :=
  if b < 0x80 then some (b.toNat, [])
  else if b < 0xc2 then none
  else if b < 0xe0 then some (b.toNat - 0xc0, [tail])
  else if b = 0xe0 then some (0x0, [(0xa0, 0xbf), tail])
  else if b = 0xed then some (0xd, [(0x80, 0x9f), tail])
  else if b < 0xf0 then some (b.toNat - 0xe0, [tail, tail])
  else if b = 0xf0 then some (0x0, [(0x90, 0xbf), tail, tail])
  else if b < 0xf4 then some (b.toNat - 0xf0, [tail, tail, tail])
  else if b = 0xf4 then some (0x4, [(0x80, 0x8f), tail, tail])
  else none

/-- A sequence that has begun: where, its bytes and bits so far, the range of its next byte and those of
    the bytes after that. -/
structure Pending where
  start : Nat
  taken : List UInt8
  bits : Nat
  next : Range
  later : List Range
  deriving DecidableEq, Repr

/-! Reading and writing. -/

/-- The text of the bytes from `position` on, which may first have to finish a sequence. -/
def decodeFrom (position : Nat) : Option Pending → List UInt8 → Except Fault Text
  | none, [] => .ok []
  | some p, [] => .error ⟨p.start, p.taken, .unexpectedEnd⟩
  | none, b :: bs =>
    match lead? b with
    | none => .error ⟨position, [b], .invalidStart⟩
    | some (bits, []) => (decodeFrom (position + 1) none bs).map (Char.ofNat bits :: ·)
    | some (bits, next :: later) => decodeFrom (position + 1) (some ⟨position, [b], bits, next, later⟩) bs
  | some p, b :: bs =>
    if p.next.1 ≤ b && b ≤ p.next.2 then
      let bits := p.bits * 64 + (b.toNat - 0x80)
      match p.later with
      | [] => (decodeFrom (position + 1) none bs).map (Char.ofNat bits :: ·)
      | next :: later => decodeFrom (position + 1) (some ⟨p.start, p.taken ++ [b], bits, next, later⟩) bs
    else .error ⟨p.start, p.taken, .invalidContinuation⟩

def decode (bytes : List UInt8) : Except Fault Text := decodeFrom 0 none bytes

def encode (t : Text) : List UInt8 := t.flatMap String.utf8EncodeChar

/-- The number of bytes of a text. -/
def size (t : Text) : Nat := (encode t).length

end LunMetrics.Utf8
