import JniLink.Text.Utf16

/-!
# UTF-16 units and text determine each other

Every text is read back from its units, and units that are read are those of the text read from
them. So the count of units is a measure of the text alone, which is what arguments on lengths of
symbols need: a text of fewer units is a different text.
-/

namespace JniLink.Text.Utf16

/-! ## Characters as numbers -/

theorem toNat_ofNat {n : Nat} (h : n < 0xD800 ∨ 0xDFFF < n ∧ n < 0x110000) :
    (Char.ofNat n).toNat = n := by
  have hvalid : n.isValidChar := by
    simp only [Nat.isValidChar]
    omega
  rw [Char.ofNat, dif_pos hvalid]
  rfl

/-- A character is no surrogate and at most U+10FFFF. -/
theorem toNat_bounds (c : Char) : (c.toNat < 0xD800 ∨ 0xDFFF < c.toNat) ∧ c.toNat < 0x110000 := by
  have := c.valid
  simp only [UInt32.isValidChar, Nat.isValidChar] at this
  simp only [Char.toNat]
  omega

theorem isHigh_iff {u : UInt16} : isHigh u = true ↔ 0xD800 ≤ u.toNat ∧ u.toNat ≤ 0xDBFF := by
  simp [isHigh, UInt16.le_iff_toNat_le]

theorem isLow_iff {u : UInt16} : isLow u = true ↔ 0xDC00 ≤ u.toNat ∧ u.toNat ≤ 0xDFFF := by
  simp [isLow, UInt16.le_iff_toNat_le]

theorem toNat_unit {n : Nat} (h : n < 0x10000) : (UInt16.ofNat n).toNat = n := by
  rw [UInt16.toNat_ofNat', Nat.mod_eq_of_lt h]

theorem encode_cons (c : Char) (t : List Char) : encode (c :: t) = encodeChar c ++ encode t := rfl

theorem encode_append (s t : List Char) : encode (s ++ t) = encode s ++ encode t :=
  List.flatMap_append

theorem length_encode_cons (c : Char) (t : List Char) :
    (encode (c :: t)).length = (encodeChar c).length + (encode t).length := List.length_append

theorem length_encode_append (s t : List Char) :
    (encode (s ++ t)).length = (encode s).length + (encode t).length := by
  rw [encode_append, List.length_append]

theorem length_encodeChar_pos (c : Char) : 0 < (encodeChar c).length := by
  unfold encodeChar
  split <;> exact Nat.succ_pos _

/-! ## From text to units and back -/

theorem encodeChar_of_lt {c : Char} (h : c.toNat < 0x10000) :
    encodeChar c = [UInt16.ofNat c.toNat] := if_pos h

/-- A character that has no unit of its own is a surrogate pair. -/
theorem encodeChar_of_le {c : Char} (h : 0x10000 ≤ c.toNat) :
    ∃ u v, isHigh u = true ∧ isLow v = true ∧ pairChar u v = c ∧ encodeChar c = [u, v] := by
  obtain ⟨-, hmax⟩ := toNat_bounds c
  have hhigh := toNat_unit (n := 0xD800 + (c.toNat - 0x10000) / 0x400) (by omega)
  have hlow := toNat_unit (n := 0xDC00 + (c.toNat - 0x10000) % 0x400) (by omega)
  refine ⟨_, _, ?_, ?_, ?_, if_neg (Nat.not_lt.mpr h)⟩
  · rw [isHigh_iff, hhigh]
    omega
  · rw [isLow_iff, hlow]
    omega
  · have hsum : 0x10000 + (0xD800 + (c.toNat - 0x10000) / 0x400 - 0xD800) * 0x400 +
        (0xDC00 + (c.toNat - 0x10000) % 0x400 - 0xDC00) = c.toNat := by omega
    rw [pairChar, hhigh, hlow, hsum, Char.ofNat_toNat]

/-- A unit that is no surrogate stands for one character. -/
theorem decode?_cons {u : UInt16} (h : u.toNat < 0xD800 ∨ 0xDFFF < u.toNat) (us : List UInt16) :
    decode? (u :: us) = (decode? us).map (Char.ofNat u.toNat :: ·) := by
  have hhigh : isHigh u = false := by
    rw [← Bool.not_eq_true, isHigh_iff]
    omega
  have hlow : isLow u = false := by
    rw [← Bool.not_eq_true, isLow_iff]
    omega
  cases us <;> simp [decode?, hhigh, hlow]

theorem decode?_pair {u v : UInt16} (hu : isHigh u = true) (hv : isLow v = true)
    (us : List UInt16) : decode? (u :: v :: us) = (decode? us).map (pairChar u v :: ·) := by
  simp [decode?, hu, hv]

theorem decode?_encodeChar_append (c : Char) (us : List UInt16) :
    decode? (encodeChar c ++ us) = (decode? us).map (c :: ·) := by
  obtain ⟨hsurrogate, -⟩ := toNat_bounds c
  rcases Nat.lt_or_ge c.toNat 0x10000 with hlt | hge
  · rw [encodeChar_of_lt hlt, List.singleton_append, decode?_cons (by rwa [toNat_unit hlt]),
      toNat_unit hlt, Char.ofNat_toNat]
  · obtain ⟨u, v, hu, hv, hpair, hencode⟩ := encodeChar_of_le hge
    rw [hencode, List.cons_append, List.singleton_append, decode?_pair hu hv, hpair]

/-- Every text is read back from its units. -/
theorem decode?_encode (t : List Char) : decode? (encode t) = some t := by
  induction t with
  | nil => rfl
  | cons c t ih =>
    rw [encode_cons, decode?_encodeChar_append, ih, Option.map_some]

/-! ## From units to text and back -/

theorem encodeChar_ofNat {u : UInt16} (h : u.toNat < 0xD800 ∨ 0xDFFF < u.toNat) :
    encodeChar (Char.ofNat u.toNat) = [u] := by
  have hlt := u.toNat_lt
  have hchar : (Char.ofNat u.toNat).toNat = u.toNat := toNat_ofNat (by omega)
  rw [encodeChar, hchar, if_pos (by omega), UInt16.ofNat_toNat]

theorem encodeChar_pairChar {u v : UInt16} (hu : isHigh u = true) (hv : isLow v = true) :
    encodeChar (pairChar u v) = [u, v] := by
  rw [isHigh_iff] at hu
  rw [isLow_iff] at hv
  have hchar : (pairChar u v).toNat =
      0x10000 + (u.toNat - 0xD800) * 0x400 + (v.toNat - 0xDC00) := toNat_ofNat (by omega)
  rw [encodeChar, hchar, if_neg (by omega)]
  have hhigh : 0xD800 + (0x10000 + (u.toNat - 0xD800) * 0x400 + (v.toNat - 0xDC00) - 0x10000) / 0x400
      = u.toNat := by omega
  have hlow : 0xDC00 + (0x10000 + (u.toNat - 0xD800) * 0x400 + (v.toNat - 0xDC00) - 0x10000) % 0x400
      = v.toNat := by omega
  simp only [hhigh, hlow, UInt16.ofNat_toNat]

/-- Units that are read are the units of what was read. -/
theorem encode_of_decode? {us : List UInt16} {t : List Char} (h : decode? us = some t) :
    encode t = us := by
  have hplain {u : UInt16} (hh : ¬isHigh u = true) (hl : ¬isLow u = true) :
      u.toNat < 0xD800 ∨ 0xDFFF < u.toNat := by
    rw [isHigh_iff] at hh
    rw [isLow_iff] at hl
    omega
  fun_induction decode? us generalizing t with
  | case1 =>
    cases h
    rfl
  | case2 => cases h
  | case3 u hu =>
    cases h
    rw [Bool.or_eq_true, not_or] at hu
    rw [encode, List.flatMap_singleton, encodeChar_ofNat (hplain hu.1 hu.2)]
  | case4 u v r hu hv ih =>
    obtain ⟨t', ht', rfl⟩ := Option.map_eq_some_iff.mp h
    rw [encode_cons, ih ht', encodeChar_pairChar hu hv]
    rfl
  | case5 => cases h
  | case6 => cases h
  | case7 u v r hu hv ih =>
    obtain ⟨t', ht', rfl⟩ := Option.map_eq_some_iff.mp h
    rw [encode_cons, ih ht', encodeChar_ofNat (hplain hu hv)]
    rfl

end JniLink.Text.Utf16
