import LunMetrics.Proofs.Outcome
import LunMetrics.Text.Utf8
import Mathlib.Data.List.Forall2

/- Strict decoding is the inverse of encoding. The reader works byte by byte with a sequence in progress, the writer
   character by character, so the two meet in the sequences of bytes that stand for one character (`Sequence`):

   1. the reader takes a sequence off at once (`decodeFrom_sequence`), and where it succeeds it has taken one off
      (`decodeFrom_ok`);
   2. a sequence is what its character is encoded as (`Sequence.eq_encode`), and every character has one
      (`exists_sequence`); the value of a sequence of each length lies in the range of characters encoded at that
      length, by the ranges of its second byte, which keep out overlong forms, surrogates and values above U+10FFFF
      (`lead?_three`, `lead?_four`).

   Bytes therefore decode to a text if and only if they are its encoding (`decode_eq_ok_iff`). -/
namespace LunMetrics.Utf8

/-! Sequences. -/

/-- Whether bytes lie in given ranges, one byte in each. -/
abbrev Within : List Range → List UInt8 → Prop := List.Forall₂ fun r b => r.1 ≤ b ∧ b ≤ r.2

def push (bits : Nat) (b : UInt8) : Nat := bits * 64 + (b.toNat - 0x80)

/-- Bytes that the reader takes as one character: a first byte and what it asks for. -/
inductive Sequence : List UInt8 → Char → Prop
  | mk {b : UInt8} {bits : Nat} {ranges : List Range} {bs : List UInt8} :
      lead? b = some (bits, ranges) → Within ranges bs → Sequence (b :: bs) (Char.ofNat (bs.foldl push bits))

/-! What the reader does with a sequence. -/

theorem decodeFrom_inside {position : Nat} {p : Pending} {b : UInt8} (h : p.next.1 ≤ b ∧ b ≤ p.next.2)
    (bs : List UInt8) :
    decodeFrom position (some p) (b :: bs) =
      match p.later with
      | [] => (decodeFrom (position + 1) none bs).map (Char.ofNat (push p.bits b) :: ·)
      | next :: later =>
        decodeFrom (position + 1) (some ⟨p.start, p.taken ++ [b], push p.bits b, next, later⟩) bs := by
  have inside : (p.next.1 ≤ b && b ≤ p.next.2) = true := by simpa using h
  rw [decodeFrom, inside]
  rfl

/-- The bytes that a sequence in progress still asks for finish its character. -/
theorem decodeFrom_pending_append {ranges : List Range} {bs : List UInt8} (h : Within ranges bs) (rest : List UInt8)
    {p : Pending} (hp : ranges = p.next :: p.later) (position : Nat) :
    decodeFrom position (some p) (bs ++ rest) =
      (decodeFrom (position + bs.length) none rest).map (Char.ofNat (bs.foldl push p.bits) :: ·) := by
  induction h generalizing p position with
  | nil => cases hp
  | @cons r b ranges bs hb hbs ih =>
    obtain ⟨start, taken, bits, next, later⟩ := p
    obtain ⟨rfl, rfl⟩ := List.cons.inj hp
    rw [List.cons_append, decodeFrom_inside hb, List.foldl_cons, List.length_cons]
    cases ranges with
    | nil =>
      cases hbs
      rfl
    | cons next later =>
      simp only
      rw [ih rfl, Nat.add_right_comm, Nat.add_assoc]

theorem decodeFrom_pending_ok {bs : List UInt8} {p : Pending} {position : Nat} {t : Text}
    (h : decodeFrom position (some p) bs = .ok t) :
    ∃ seq rest t', bs = seq ++ rest ∧ Within (p.next :: p.later) seq ∧
      t = Char.ofNat (seq.foldl push p.bits) :: t' ∧ decodeFrom (position + seq.length) none rest = .ok t' := by
  induction bs generalizing p position with
  | nil => cases h
  | cons b bs ih =>
    obtain ⟨start, taken, bits, next, later⟩ := p
    by_cases inside : next.1 ≤ b ∧ b ≤ next.2
    · rw [decodeFrom_inside inside] at h
      cases later with
      | nil =>
        obtain ⟨t', hr, rfl⟩ := Except.map_eq_ok_iff.1 h
        exact ⟨[b], bs, t', rfl, .cons inside .nil, rfl, hr⟩
      | cons next' later =>
        obtain ⟨seq, rest, t', rfl, within, ht, hr⟩ := ih h
        refine ⟨b :: seq, rest, t', rfl, .cons inside within, by rw [ht, List.foldl_cons], ?_⟩
        rw [List.length_cons, Nat.add_comm seq.length, ← Nat.add_assoc]
        exact hr
    · have outside : (next.1 ≤ b && b ≤ next.2) = false := by simpa using inside
      rw [decodeFrom, outside] at h
      cases h

theorem decodeFrom_sequence {seq : List UInt8} {c : Char} (h : Sequence seq c) (rest : List UInt8) (position : Nat) :
    decodeFrom position none (seq ++ rest) = (decodeFrom (position + seq.length) none rest).map (c :: ·) := by
  cases h with
  | @mk b bits ranges bs lead within =>
    rw [List.cons_append, decodeFrom, lead]
    cases ranges with
    | nil =>
      cases within
      rfl
    | cons next later =>
      simp only
      rw [decodeFrom_pending_append within rest rfl, List.length_cons, Nat.add_comm bs.length, ← Nat.add_assoc]

theorem decodeFrom_ok {b : UInt8} {bs : List UInt8} {position : Nat} {t : Text}
    (h : decodeFrom position none (b :: bs) = .ok t) :
    ∃ seq c rest t', b :: bs = seq ++ rest ∧ Sequence seq c ∧ t = c :: t' ∧
      decodeFrom (position + seq.length) none rest = .ok t' := by
  rw [decodeFrom] at h
  cases lead : lead? b with
  | none => rw [lead] at h; cases h
  | some r =>
    obtain ⟨bits, ranges⟩ := r
    rw [lead] at h
    cases ranges with
    | nil =>
      obtain ⟨t', hr, rfl⟩ := Except.map_eq_ok_iff.1 h
      exact ⟨[b], _, bs, t', rfl, .mk lead .nil, rfl, hr⟩
    | cons next later =>
      obtain ⟨seq, rest, t', rfl, within, ht, hr⟩ := decodeFrom_pending_ok h
      refine ⟨b :: seq, _, rest, t', rfl, .mk lead within, ht, ?_⟩
      rw [List.length_cons, Nat.add_comm seq.length, ← Nat.add_assoc]
      exact hr

/-! First bytes, by the number of bytes after them. -/

theorem lead?_eq (b : UInt8) :
    lead? b =
      if b.toNat < 0x80 then some (b.toNat, [])
      else if b.toNat < 0xc2 then none
      else if b.toNat < 0xe0 then some (b.toNat - 0xc0, [tail])
      else if b.toNat = 0xe0 then some (0x0, [(0xa0, 0xbf), tail])
      else if b.toNat = 0xed then some (0xd, [(0x80, 0x9f), tail])
      else if b.toNat < 0xf0 then some (b.toNat - 0xe0, [tail, tail])
      else if b.toNat = 0xf0 then some (0x0, [(0x90, 0xbf), tail, tail])
      else if b.toNat < 0xf4 then some (b.toNat - 0xf0, [tail, tail, tail])
      else if b.toNat = 0xf4 then some (0x4, [(0x80, 0x8f), tail, tail])
      else none := by
  simp only [lead?, UInt8.lt_iff_toNat_lt, ← UInt8.toNat_inj]
  rfl

theorem lead?_one {b : UInt8} (h : b.toNat < 0x80) : lead? b = some (b.toNat, []) := by
  rw [lead?_eq, if_pos h]

theorem lead?_two {b : UInt8} (low : 0xc2 ≤ b.toNat) (high : b.toNat < 0xe0) :
    lead? b = some (b.toNat - 0xc0, [tail]) := by
  rw [lead?_eq, if_neg (by omega), if_neg (by omega), if_pos high]

theorem lead?_three {b : UInt8} (low : 0xe0 ≤ b.toNat) (high : b.toNat < 0xf0) :
    ∃ r : Range, lead? b = some (b.toNat - 0xe0, [r, tail]) ∧
      (b.toNat = 0xe0 ∧ r.1.toNat = 0xa0 ∨ b.toNat ≠ 0xe0 ∧ r.1.toNat = 0x80) ∧
      (b.toNat = 0xed ∧ r.2.toNat = 0x9f ∨ b.toNat ≠ 0xed ∧ r.2.toNat = 0xbf) := by
  rw [lead?_eq, if_neg (by omega), if_neg (by omega), if_neg (by omega)]
  by_cases least : b.toNat = 0xe0
  · exact ⟨_, by rw [if_pos least, least], Or.inl ⟨least, rfl⟩, Or.inr ⟨by omega, rfl⟩⟩
  · rw [if_neg least]
    by_cases surrogates : b.toNat = 0xed
    · exact ⟨_, by rw [if_pos surrogates, surrogates], Or.inr ⟨least, rfl⟩, Or.inl ⟨surrogates, rfl⟩⟩
    · exact ⟨_, by rw [if_neg surrogates, if_pos high], Or.inr ⟨least, rfl⟩, Or.inr ⟨surrogates, rfl⟩⟩

theorem lead?_four {b : UInt8} (low : 0xf0 ≤ b.toNat) (high : b.toNat < 0xf5) :
    ∃ r : Range, lead? b = some (b.toNat - 0xf0, [r, tail, tail]) ∧
      (b.toNat = 0xf0 ∧ r.1.toNat = 0x90 ∨ b.toNat ≠ 0xf0 ∧ r.1.toNat = 0x80) ∧
      (b.toNat = 0xf4 ∧ r.2.toNat = 0x8f ∨ b.toNat ≠ 0xf4 ∧ r.2.toNat = 0xbf) := by
  rw [lead?_eq, if_neg (by omega), if_neg (by omega), if_neg (by omega), if_neg (by omega), if_neg (by omega),
    if_neg (by omega)]
  by_cases least : b.toNat = 0xf0
  · exact ⟨_, by rw [if_pos least, least], Or.inl ⟨least, rfl⟩, Or.inr ⟨by omega, rfl⟩⟩
  · rw [if_neg least]
    by_cases greatest : b.toNat = 0xf4
    · have middle : ¬b.toNat < 0xf4 := by omega
      exact ⟨_, by rw [if_neg middle, if_pos greatest, greatest], Or.inr ⟨least, rfl⟩, Or.inl ⟨greatest, rfl⟩⟩
    · exact ⟨_, by rw [if_pos (by omega)], Or.inr ⟨least, rfl⟩, Or.inr ⟨greatest, rfl⟩⟩

theorem lead?_none {b : UInt8} (h : 0x80 ≤ b.toNat ∧ b.toNat < 0xc2 ∨ 0xf5 ≤ b.toNat) : lead? b = none := by
  rw [lead?_eq, if_neg (by omega)]
  by_cases low : b.toNat < 0xc2
  · rw [if_pos low]
  · rw [if_neg low, if_neg (by omega), if_neg (by omega), if_neg (by omega), if_neg (by omega), if_neg (by omega),
      if_neg (by omega), if_neg (by omega)]

/-! Characters of each length. -/

theorem toNat_ofNat {n : Nat} (h : n.isValidChar) : (Char.ofNat n).val.toNat = n := by
  unfold Char.ofNat
  rw [dif_pos h]
  rfl

theorem ofNat_eq {m : Nat} {b : UInt8} (h : b.toNat = m) : UInt8.ofNat m = b := by
  rw [← h]
  exact UInt8.ofNat_toNat

theorem encode_one {n : Nat} {b : UInt8} (hn : n < 0x80) (hb : b.toNat = n) :
    [b] = String.utf8EncodeChar (Char.ofNat n) := by
  simp only [String.utf8EncodeChar, toNat_ofNat (n := n) (by unfold Nat.isValidChar; omega)]
  rw [if_pos (by omega), ofNat_eq (b := b) (by omega)]

theorem encode_two {n : Nat} {b x : UInt8} (low : 0x80 ≤ n) (high : n < 0x800) (hb : b.toNat = n / 64 + 0xc0)
    (hx : x.toNat = n % 64 + 0x80) : [b, x] = String.utf8EncodeChar (Char.ofNat n) := by
  simp only [String.utf8EncodeChar, toNat_ofNat (n := n) (by unfold Nat.isValidChar; omega)]
  rw [if_neg (by omega), if_pos (by omega), ofNat_eq (b := b) (by omega), ofNat_eq (b := x) (by omega)]

theorem encode_three {n : Nat} {b x y : UInt8} (hn : n.isValidChar) (low : 0x800 ≤ n) (high : n < 0x10000)
    (hb : b.toNat = n / 4096 + 0xe0) (hx : x.toNat = n / 64 % 64 + 0x80) (hy : y.toNat = n % 64 + 0x80) :
    [b, x, y] = String.utf8EncodeChar (Char.ofNat n) := by
  simp only [String.utf8EncodeChar, toNat_ofNat hn]
  rw [if_neg (by omega), if_neg (by omega), if_pos (by omega), ofNat_eq (b := b) (by omega),
    ofNat_eq (b := x) (by omega), ofNat_eq (b := y) (by omega)]

theorem encode_four {n : Nat} {b x y z : UInt8} (hn : n.isValidChar) (low : 0x10000 ≤ n) (high : n < 0x110000)
    (hb : b.toNat = n / 262144 + 0xf0) (hx : x.toNat = n / 4096 % 64 + 0x80) (hy : y.toNat = n / 64 % 64 + 0x80)
    (hz : z.toNat = n % 64 + 0x80) : [b, x, y, z] = String.utf8EncodeChar (Char.ofNat n) := by
  simp only [String.utf8EncodeChar, toNat_ofNat hn]
  rw [if_neg (by omega), if_neg (by omega), if_neg (by omega), ofNat_eq (b := b) (by omega),
    ofNat_eq (b := x) (by omega), ofNat_eq (b := y) (by omega), ofNat_eq (b := z) (by omega)]

/-! Sequences are encodings. -/

theorem within_nil {bs : List UInt8} : Within [] bs ↔ bs = [] := List.forall₂_nil_left_iff

theorem within_cons {r : Range} {ranges : List Range} {bs : List UInt8} :
    Within (r :: ranges) bs ↔
      ∃ x bs', bs = x :: bs' ∧ r.1.toNat ≤ x.toNat ∧ x.toNat ≤ r.2.toNat ∧ Within ranges bs' := by
  refine List.forall₂_cons_left_iff.trans ⟨?_, ?_⟩
  · rintro ⟨x, bs', inside, within, rfl⟩
    exact ⟨x, bs', rfl, inside.1, inside.2, within⟩
  · rintro ⟨x, bs', rfl, low, high, within⟩
    exact ⟨x, bs', ⟨low, high⟩, within, rfl⟩

theorem tail_bounds : tail.1.toNat = 0x80 ∧ tail.2.toNat = 0xbf := by decide

theorem push_eq (bits : Nat) (x : UInt8) : push bits x = bits * 64 + (x.toNat - 0x80) := rfl

theorem lead_inj {b : UInt8} {bits bits' : Nat} {ranges ranges' : List Range} (h : lead? b = some (bits, ranges))
    (h' : lead? b = some (bits', ranges')) : bits = bits' ∧ ranges = ranges' :=
  Prod.mk.inj (Option.some.inj (h.symm.trans h'))

theorem Sequence.eq_encode {seq : List UInt8} {c : Char} (h : Sequence seq c) : seq = String.utf8EncodeChar c := by
  cases h with
  | @mk b bits ranges bs lead within =>
    have ⟨t₁, t₂⟩ := tail_bounds
    rcases (by omega : b.toNat < 0x80 ∨ 0xc2 ≤ b.toNat ∧ b.toNat < 0xe0 ∨ 0xe0 ≤ b.toNat ∧ b.toNat < 0xf0 ∨
      0xf0 ≤ b.toNat ∧ b.toNat < 0xf5 ∨ 0x80 ≤ b.toNat ∧ b.toNat < 0xc2 ∨ 0xf5 ≤ b.toNat) with
      one | ⟨low, high⟩ | ⟨low, high⟩ | ⟨low, high⟩ | other
    · obtain ⟨hbits, hr⟩ := lead_inj lead (lead?_one one)
      rw [hr, within_nil] at within
      rw [within, List.foldl_nil]
      exact encode_one (by omega) hbits.symm
    · obtain ⟨hbits, hr⟩ := lead_inj lead (lead?_two low high)
      rw [hr] at within
      obtain ⟨x, bs₁, e₁, x₁, x₂, within⟩ := within_cons.1 within
      rw [e₁, within_nil.1 within, List.foldl_cons, List.foldl_nil]
      have v₁ := push_eq bits x
      exact encode_two (by omega) (by omega) (by omega) (by omega)
    · obtain ⟨r, hlead, r₁, r₂⟩ := lead?_three low high
      obtain ⟨hbits, hr⟩ := lead_inj lead hlead
      rw [hr] at within
      obtain ⟨x, bs₁, e₁, x₁, x₂, within⟩ := within_cons.1 within
      obtain ⟨y, bs₂, e₂, y₁, y₂, within⟩ := within_cons.1 within
      rw [e₁, e₂, within_nil.1 within, List.foldl_cons, List.foldl_cons, List.foldl_nil]
      have v₁ := push_eq bits x
      have v₂ := push_eq (push bits x) y
      exact encode_three (by unfold Nat.isValidChar; omega) (by omega) (by omega) (by omega) (by omega) (by omega)
    · obtain ⟨r, hlead, r₁, r₂⟩ := lead?_four low high
      obtain ⟨hbits, hr⟩ := lead_inj lead hlead
      rw [hr] at within
      obtain ⟨x, bs₁, e₁, x₁, x₂, within⟩ := within_cons.1 within
      obtain ⟨y, bs₂, e₂, y₁, y₂, within⟩ := within_cons.1 within
      obtain ⟨z, bs₃, e₃, z₁, z₂, within⟩ := within_cons.1 within
      rw [e₁, e₂, e₃, within_nil.1 within, List.foldl_cons, List.foldl_cons, List.foldl_cons, List.foldl_nil]
      have v₁ := push_eq bits x
      have v₂ := push_eq (push bits x) y
      have v₃ := push_eq (push (push bits x) y) z
      exact encode_four (by unfold Nat.isValidChar; omega) (by omega) (by omega) (by omega) (by omega) (by omega)
        (by omega)
    · cases lead.symm.trans (lead?_none other)

theorem exists_byte {n : Nat} (h : n < 256) : ∃ b : UInt8, b.toNat = n :=
  ⟨UInt8.ofNat n, UInt8.toNat_ofNat_of_lt' h⟩

/-- Every character has a sequence. -/
theorem exists_sequence (c : Char) : ∃ seq, Sequence seq c := by
  obtain ⟨n, hn, rfl⟩ : ∃ n, n.isValidChar ∧ Char.ofNat n = c := ⟨c.toNat, c.valid, Char.ofNat_toNat c⟩
  have ⟨t₁, t₂⟩ := tail_bounds
  have bound : n < 0xd800 ∨ 0xdfff < n ∧ n < 0x110000 := hn
  rcases (by omega : n < 0x80 ∨ 0x80 ≤ n ∧ n < 0x800 ∨ 0x800 ≤ n ∧ n < 0x10000 ∨ 0x10000 ≤ n) with
    one | ⟨low, high⟩ | ⟨low, high⟩ | low
  · obtain ⟨b, hb⟩ := exists_byte (n := n) (by omega)
    have lead := lead?_one (b := b) (by omega)
    rw [hb] at lead
    exact ⟨_, .mk lead .nil⟩
  · obtain ⟨b, hb⟩ := exists_byte (n := n / 64 + 0xc0) (by omega)
    obtain ⟨x, hx⟩ := exists_byte (n := n % 64 + 0x80) (by omega)
    have lead := lead?_two (b := b) (by omega) (by omega)
    have value : n = [x].foldl push (b.toNat - 0xc0) := by
      rw [List.foldl_cons, List.foldl_nil, push_eq]
      omega
    rw [value]
    exact ⟨_, .mk lead (within_cons.2 ⟨x, _, rfl, by omega, by omega, .nil⟩)⟩
  · obtain ⟨b, hb⟩ := exists_byte (n := n / 4096 + 0xe0) (by omega)
    obtain ⟨x, hx⟩ := exists_byte (n := n / 64 % 64 + 0x80) (by omega)
    obtain ⟨y, hy⟩ := exists_byte (n := n % 64 + 0x80) (by omega)
    obtain ⟨r, lead, r₁, r₂⟩ := lead?_three (b := b) (by omega) (by omega)
    have value : n = [x, y].foldl push (b.toNat - 0xe0) := by
      rw [List.foldl_cons, List.foldl_cons, List.foldl_nil, push_eq, push_eq]
      omega
    rw [value]
    exact ⟨_, .mk lead (within_cons.2 ⟨x, _, rfl, by omega, by omega,
      within_cons.2 ⟨y, _, rfl, by omega, by omega, .nil⟩⟩)⟩
  · obtain ⟨b, hb⟩ := exists_byte (n := n / 262144 + 0xf0) (by omega)
    obtain ⟨x, hx⟩ := exists_byte (n := n / 4096 % 64 + 0x80) (by omega)
    obtain ⟨y, hy⟩ := exists_byte (n := n / 64 % 64 + 0x80) (by omega)
    obtain ⟨z, hz⟩ := exists_byte (n := n % 64 + 0x80) (by omega)
    obtain ⟨r, lead, r₁, r₂⟩ := lead?_four (b := b) (by omega) (by omega)
    have value : n = [x, y, z].foldl push (b.toNat - 0xf0) := by
      rw [List.foldl_cons, List.foldl_cons, List.foldl_cons, List.foldl_nil, push_eq, push_eq, push_eq]
      omega
    rw [value]
    exact ⟨_, .mk lead (within_cons.2 ⟨x, _, rfl, by omega, by omega,
      within_cons.2 ⟨y, _, rfl, by omega, by omega, within_cons.2 ⟨z, _, rfl, by omega, by omega, .nil⟩⟩⟩)⟩

theorem sequence_encode (c : Char) : Sequence (String.utf8EncodeChar c) c := by
  obtain ⟨seq, h⟩ := exists_sequence c
  rw [← h.eq_encode]
  exact h

/-! Whole texts. -/

theorem encode_cons (c : Char) (t : Text) : encode (c :: t) = String.utf8EncodeChar c ++ encode t := rfl

theorem decodeFrom_encode (t : Text) (position : Nat) : decodeFrom position none (encode t) = .ok t := by
  induction t generalizing position with
  | nil => rfl
  | cons c t ih =>
    rw [encode_cons, decodeFrom_sequence (sequence_encode c), ih]
    rfl

theorem eq_encode_of_decodeFrom {bytes : List UInt8} {t : Text} {position : Nat}
    (h : decodeFrom position none bytes = .ok t) : bytes = encode t := by
  induction t generalizing bytes position with
  | nil =>
    cases bytes with
    | nil => rfl
    | cons b bs =>
      obtain ⟨_, _, _, _, _, _, ht, _⟩ := decodeFrom_ok h
      cases ht
  | cons c t ih =>
    cases bytes with
    | nil => cases h
    | cons b bs =>
      obtain ⟨seq, c', rest, t', hb, hs, ht, hr⟩ := decodeFrom_ok h
      obtain ⟨rfl, rfl⟩ := List.cons.inj ht
      rw [hb, encode_cons, ← hs.eq_encode, ih hr]

/-- Bytes decode to a text exactly when they are its encoding. -/
theorem decode_eq_ok_iff {bytes : List UInt8} {t : Text} : decode bytes = .ok t ↔ bytes = encode t := by
  constructor
  · exact eq_encode_of_decodeFrom
  · rintro rfl
    exact decodeFrom_encode t 0

theorem decode_encode (t : Text) : decode (encode t) = .ok t := decode_eq_ok_iff.2 rfl

end LunMetrics.Utf8
