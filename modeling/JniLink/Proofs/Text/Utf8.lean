import JniLink.Proofs.Text.Utf16
import JniLink.Text.Utf8

/-!
# Text is read back from its bytes

A character is read from the front of its bytes, whatever follows: the first byte gives their number,
and the others are continuations that are none of the forms that a character must not have. So text
that was written as UTF-8 is read back, and different texts have different bytes. What is made of
bytes that are no UTF-8 is not said here.
-/

namespace JniLink.Text.Utf8

/-! ## The bytes of a character -/

theorem toNat_ofNat_of_lt {n : Nat} (h : n < 256) : (UInt8.ofNat n).toNat = n := by
  rw [UInt8.toNat_ofNat', Nat.mod_eq_of_lt h]

theorem between_iff {low high b : UInt8} :
    (low ≤ b && b ≤ high) = true ↔ low.toNat ≤ b.toNat ∧ b.toNat ≤ high.toNat := by
  rw [Bool.and_eq_true, decide_eq_true_eq, decide_eq_true_eq, UInt8.le_iff_toNat_le,
    UInt8.le_iff_toNat_le]

/-- The byte that continues a character with the last six bits of a number. -/
def tailByte (n : Nat) : UInt8 := UInt8.ofNat (n % 64 + 0x80)

theorem toNat_tailByte (n : Nat) : (tailByte n).toNat = n % 64 + 0x80 :=
  toNat_ofNat_of_lt (by omega)

theorem tailByte_between {n : Nat} {low high : UInt8}
    (h : low.toNat ≤ n % 64 + 0x80 ∧ n % 64 + 0x80 ≤ high.toNat) :
    (low ≤ tailByte n && tailByte n ≤ high) = true := by
  rwa [between_iff, toNat_tailByte]

theorem isContinuation_tailByte (n : Nat) : isContinuation (tailByte n) = true :=
  tailByte_between ⟨Nat.le_add_left 0x80 _, Nat.add_le_add_right (by omega : n % 64 ≤ 0x3F) 0x80⟩

theorem payload_tailByte (n : Nat) : payload (tailByte n) = n % 64 := by
  rw [payload, toNat_tailByte]
  omega

/-- A continuation may stand behind a first byte if the number that they write with the bytes behind
is neither too small for that many bytes nor a surrogate nor too large. -/
theorem isSecond_tailByte {a : UInt8} {n : Nat}
    (hE0 : a.toNat = 0xE0 → 0x20 ≤ n % 64) (hED : a.toNat = 0xED → n % 64 < 0x20)
    (hF0 : a.toNat = 0xF0 → 0x10 ≤ n % 64) (hF4 : a.toNat = 0xF4 → n % 64 < 0x10) :
    isSecond a (tailByte n) = true := by
  have heq {b : UInt8} (h : (a == b) = true) : a.toNat = b.toNat :=
    congrArg UInt8.toNat (beq_iff_eq.mp h)
  unfold isSecond
  split
  next h =>
    have := hE0 (heq h)
    exact tailByte_between (by simpa using by omega)
  split
  next h =>
    have := hED (heq h)
    exact tailByte_between (by simpa using by omega)
  split
  next h =>
    have := hF0 (heq h)
    exact tailByte_between (by simpa using by omega)
  split
  next h =>
    have := hF4 (heq h)
    exact tailByte_between (by simpa using by omega)
  · exact isContinuation_tailByte n

/-! ## Reading a character -/

section Next

variable {a : UInt8} (rest : List UInt8)

theorem next_one (h : a.toNat < 0x80) : next (a :: rest) = .char (Char.ofNat a.toNat) 1 := by
  rw [next.eq_def]
  exact if_pos (UInt8.lt_iff_toNat_lt.mpr h)

/-- A byte in a range above another one is neither in that range nor below it. -/
theorem not_between {low high low' high' : UInt8} (h : (low' ≤ a && a ≤ high') = true)
    (hlt : high.toNat < low'.toNat) : ¬(low ≤ a && a ≤ high) = true := by
  rw [between_iff] at h ⊢
  omega

theorem not_lt_of_between {low high : UInt8} (h : (low ≤ a && a ≤ high) = true)
    (hle : 0x80 ≤ low.toNat) : ¬a < 0x80 := by
  rw [between_iff] at h
  have : (0x80 : UInt8).toNat = 0x80 := rfl
  rw [UInt8.lt_iff_toNat_lt]
  omega

theorem next_two (h : (0xC2 ≤ a && a ≤ 0xDF) = true) (n : Nat) :
    next (a :: tailByte n :: rest) = .char (Char.ofNat (a.toNat % 32 * 64 + n % 64)) 2 := by
  rw [next.eq_def]
  dsimp only
  rw [if_neg (not_lt_of_between h (by decide)), if_pos h, isContinuation_tailByte,
    payload_tailByte]
  rfl

theorem next_three (h : (0xE0 ≤ a && a ≤ 0xEF) = true) {m : Nat}
    (hsecond : isSecond a (tailByte m) = true) (n : Nat) :
    next (a :: tailByte m :: tailByte n :: rest) =
      .char (Char.ofNat (a.toNat % 16 * 4096 + m % 64 * 64 + n % 64)) 3 := by
  rw [next.eq_def]
  dsimp only
  rw [if_neg (not_lt_of_between h (by decide)), if_neg (not_between h (by decide)), if_pos h,
    hsecond, isContinuation_tailByte, payload_tailByte, payload_tailByte]
  rfl

theorem next_four (h : (0xF0 ≤ a && a ≤ 0xF4) = true) {l : Nat}
    (hsecond : isSecond a (tailByte l) = true) (m n : Nat) :
    next (a :: tailByte l :: tailByte m :: tailByte n :: rest) =
      .char (Char.ofNat (a.toNat % 8 * 262144 + l % 64 * 4096 + m % 64 * 64 + n % 64)) 4 := by
  rw [next.eq_def]
  dsimp only
  rw [if_neg (not_lt_of_between h (by decide)), if_neg (not_between h (by decide)),
    if_neg (not_between h (by decide)), if_pos h, hsecond, isContinuation_tailByte,
    isContinuation_tailByte, payload_tailByte, payload_tailByte, payload_tailByte]
  rfl

end Next

/-- A character is read from its bytes, whatever follows them. -/
theorem next_utf8EncodeChar_append (c : Char) (rest : List UInt8) :
    next (String.utf8EncodeChar c ++ rest) = .char c (String.utf8EncodeChar c).length := by
  obtain ⟨hsurrogate, hmax⟩ := Utf16.toNat_bounds c
  have hread {n : Nat} (hn : n = c.toNat) (k : Nat) : Head.char (Char.ofNat n) k = .char c k := by
    rw [hn, Char.ofNat_toNat]
  unfold String.utf8EncodeChar
  dsimp only
  rw [show c.val.toNat = c.toNat from rfl]
  split
  next hone =>
    have hfirst := toNat_ofNat_of_lt (n := c.toNat) (by omega)
    rw [List.singleton_append, next_one rest (by omega)]
    exact hread hfirst 1
  split
  next htwo =>
    have hfirst := toNat_ofNat_of_lt (n := c.toNat / 64 % 0x20 + 0xC0) (by omega)
    rw [List.cons_append, List.singleton_append, ← tailByte,
      next_two rest (between_iff.mpr (by simpa using by omega))]
    exact hread (by omega) 2
  split
  next hthree =>
    have hfirst := toNat_ofNat_of_lt (n := c.toNat / 4096 % 0x10 + 0xE0) (by omega)
    rw [List.cons_append, List.cons_append, List.singleton_append, ← tailByte, ← tailByte,
      next_three rest (between_iff.mpr (by simpa using by omega))
        (isSecond_tailByte (by omega) (by omega) (by omega) (by omega))]
    exact hread (by omega) 3
  next hfour =>
    have hfirst := toNat_ofNat_of_lt (n := c.toNat / 262144 % 8 + 0xF0) (by omega)
    rw [List.cons_append, List.cons_append, List.cons_append, List.singleton_append, ← tailByte,
      ← tailByte, ← tailByte,
      next_four rest (between_iff.mpr (by simpa using by omega))
        (isSecond_tailByte (by omega) (by omega) (by omega) (by omega))]
    exact hread (by omega) 4

/-! ## Reading text -/

/-- Bytes that belong to the character read last are stepped over. -/
theorem decodeFrom_skip (index : Nat) (bytes rest : List UInt8) :
    decodeFrom index bytes.length (bytes ++ rest) = decodeFrom (index + bytes.length) 0 rest := by
  induction bytes generalizing index with
  | nil => rfl
  | cons b bytes ih =>
    change decodeFrom (index + 1) bytes.length (bytes ++ rest) = _
    rw [ih, List.length_cons, Nat.add_right_comm, Nat.add_assoc]

theorem decodeFrom_encode (index : Nat) (t : List Char) :
    decodeFrom index 0 (encode t) = .ok t := by
  induction t generalizing index with
  | nil => rfl
  | cons c t ih =>
    have hnext := next_utf8EncodeChar_append c (encode t)
    rw [encode, List.flatMap_cons, ← encode]
    cases hbytes : String.utf8EncodeChar c with
    | nil => exact absurd hbytes String.utf8EncodeChar_ne_nil
    | cons b bytes =>
      rw [hbytes, List.cons_append, List.length_cons] at hnext
      rw [List.cons_append, decodeFrom, hnext]
      dsimp only
      rw [Nat.add_sub_cancel, decodeFrom_skip, ih]
      rfl

theorem encode_append (s t : List Char) : encode (s ++ t) = encode s ++ encode t :=
  List.flatMap_append

/-- Text is read back from its bytes. -/
theorem decode_encode (t : List Char) : decode (encode t) = .ok (String.ofList t) := by
  rw [decode, decodeFrom_encode]
  rfl

theorem encode_injective : Function.Injective encode := by
  intro s t h
  have hs := decodeFrom_encode 0 s
  rw [h, decodeFrom_encode] at hs
  exact (Except.ok.inj hs).symm

end JniLink.Text.Utf8
