import JniLink.Proofs.Text.Utf8
import JniLink.Symbol.Basic

/-!
# Escaped characters as bytes

Two readings go over the bytes of a symbol: one looks for the marker in front of the parameters, the
other undoes the escaping. They cut the bytes separately, and `Whole` is what keeps them together: a
stretch that each of them takes as one piece, whatever follows. The bytes of every character that is
no separator are such a stretch. A separator is one plain underscore, and how that is read depends
on the byte behind it, so it is left to the texts it stands in.
-/

namespace JniLink.Symbol

open JniLink.Text

/-- The two characters that separate packages, one for each form of a class name. -/
def isSeparator (c : Char) : Bool := c == '.' || c == '/'

theorem isSeparator_iff {c : Char} : isSeparator c = true ↔ c = '.' ∨ c = '/' := by
  rw [isSeparator, Bool.or_eq_true, beq_iff_eq, beq_iff_eq]

/-- The digits `0` to `3`, which turn a separator in front of them into an escape. -/
def isLowDigit (c : Char) : Bool := '0' ≤ c && c ≤ '3'

/-- The escapes of one digit, each with the unit it stands for. -/
def marks : List (UInt8 × UInt16) := [(0x31, 0x5F), (0x32, 0x3B), (0x33, 0x5B)]

theorem isEscapeDigit_of_mem_marks : ∀ m ∈ marks, isEscapeDigit m.1 = true :=
  List.all_eq_true.mp (by decide)

theorem isEscapeDigit_cases {b : UInt8} (h : isEscapeDigit b = true) :
    b = 0x30 ∨ b = 0x31 ∨ b = 0x32 ∨ b = 0x33 := by
  rw [isEscapeDigit, Utf8.between_iff] at h
  simp only [← UInt8.toNat_inj]
  simp only [UInt8.reduceToNat] at h ⊢
  omega

/-- The bytes of one unit in a symbol. -/
def unitBytes (u : UInt16) : List UInt8 := Utf8.encode (escapeUnit u)

/-- The bytes of one character in a symbol. -/
def charBytes (c : Char) : List UInt8 := (Utf16.encodeChar c).flatMap unitBytes

/-- The bytes of an escaped text. -/
def textBytes (t : List Char) : List UInt8 := t.flatMap charBytes

theorem encode_escapeChars (t : List Char) : Utf8.encode (escapeChars t) = textBytes t := by
  simp only [Utf8.encode, escapeChars, Utf16.encode, textBytes, List.flatMap_assoc]
  rfl

/-! ## One step of each reading -/

theorem readUnits?_cons_of_ne {b : UInt8} (h : (b == underscore) = false) (rest : List UInt8) :
    readUnits? (b :: rest) =
      if isAlphanumeric b.toNat then (readUnits? rest).map (b.toUInt16 :: ·) else none := by
  rw [readUnits?.eq_def]
  simp only [h, Bool.false_eq_true, if_false]

/-- Behind an underscore the next byte decides. -/
theorem readUnits?_underscore (d : UInt8) (rest : List UInt8) :
    readUnits? (underscore :: d :: rest) =
      if d == 0x31 then (readUnits? rest).map (0x5F :: ·)
      else if d == 0x32 then (readUnits? rest).map (0x3B :: ·)
      else if d == 0x33 then (readUnits? rest).map (0x5B :: ·)
      else if d == 0x30 then
        match rest with
        | h :: i :: j :: k :: rest =>
          match hexUnit? h i j k with
          | some u => (readUnits? rest).map (u :: ·)
          | none => none
        | _ => none
      else (readUnits? (d :: rest)).map (0x2F :: ·) := by
  rw [readUnits?.eq_def]
  rfl

/-- An escape of one digit. -/
theorem readUnits?_mark {d : UInt8} {u : UInt16} (h : (d, u) ∈ marks) (rest : List UInt8) :
    readUnits? (underscore :: d :: rest) = (readUnits? rest).map (u :: ·) := by
  simp only [marks, List.mem_cons, Prod.mk.injEq, List.not_mem_nil, or_false] at h
  rw [readUnits?_underscore]
  rcases h with ⟨rfl, rfl⟩ | ⟨rfl, rfl⟩ | ⟨rfl, rfl⟩ <;> rfl

/-- An escape of four digits. -/
theorem readUnits?_number (h i j k : UInt8) (rest : List UInt8) :
    readUnits? (underscore :: 0x30 :: h :: i :: j :: k :: rest) =
      (hexUnit? h i j k).bind fun u => (readUnits? rest).map (u :: ·) := by
  rw [readUnits?_underscore]
  change (match hexUnit? h i j k with
    | some u => (readUnits? rest).map (u :: ·)
    | none => none) = _
  cases hexUnit? h i j k <;> rfl

/-- An underscore that begins no escape is a separator. -/
theorem readUnits?_separator {rest : List UInt8} (h : rest.head?.any isEscapeDigit = false) :
    readUnits? (underscore :: rest) = (readUnits? rest).map (0x2F :: ·) := by
  cases rest with
  | nil => rfl
  | cons b rest =>
    simp only [List.head?_cons, Option.any_some] at h
    have hne (d : UInt8) (hd : isEscapeDigit d = true) : (b == d) = false := by
      rw [beq_eq_false_iff_ne]
      rintro rfl
      rw [h] at hd
      exact absurd hd (by decide)
    rw [readUnits?_underscore]
    simp only [hne 0x30 rfl, hne 0x31 rfl, hne 0x32 rfl, hne 0x33 rfl, Bool.false_eq_true, if_false]

theorem argsMarkerFrom?_cons_of_ne {b : UInt8} (h : (b == underscore) = false) (index : Nat)
    (rest : List UInt8) :
    argsMarkerFrom? index 0 (b :: rest) = argsMarkerFrom? (index + 1) 0 rest := by
  cases rest <;> simp [argsMarkerFrom?, h]

/-- Bytes inside of an escape are stepped over whatever they are. The steps may lead behind the last
byte; then the search is over. -/
theorem argsMarkerFrom?_drop (index skip : Nat) (bytes : List UInt8) :
    argsMarkerFrom? index skip bytes = argsMarkerFrom? (index + skip) 0 (bytes.drop skip) := by
  induction skip generalizing index bytes with
  | zero => rfl
  | succ skip ih =>
    cases bytes with
    | nil => rfl
    | cons b bytes =>
      rw [argsMarkerFrom?, ih, List.drop_succ_cons, Nat.add_right_comm, Nat.add_assoc]

/-- Behind an underscore the next two bytes decide. -/
theorem argsMarkerFrom?_underscore (index : Nat) (b : UInt8) (s : List UInt8) :
    argsMarkerFrom? index 0 (underscore :: b :: s) =
      if b == underscore && !s.head?.any isEscapeDigit then some index
      else if b == 0x30 then argsMarkerFrom? (index + 1) 5 (b :: s)
      else if isEscapeDigit b then argsMarkerFrom? (index + 1) 1 (b :: s)
      else argsMarkerFrom? (index + 1) 0 (b :: s) := by
  conv => lhs; rw [argsMarkerFrom?, if_pos (beq_self_eq_true _)]

/-- A separator is stepped over unless a second one without an escape digit follows. -/
theorem argsMarkerFrom?_separator {b : UInt8} {s : List UInt8} (hdigit : isEscapeDigit b = false)
    (hmarker : b = underscore → s.head?.any isEscapeDigit = true) (index : Nat) :
    argsMarkerFrom? index 0 (underscore :: b :: s) = argsMarkerFrom? (index + 1) 0 (b :: s) := by
  have hzero : (b == 0x30) = false := by
    rw [beq_eq_false_iff_ne]
    rintro rfl
    exact absurd hdigit (by decide)
  have hnone : ¬(b == underscore && !s.head?.any isEscapeDigit) = true := by
    rw [Bool.and_eq_true, beq_iff_eq]
    rintro ⟨rfl, hs⟩
    rw [hmarker rfl] at hs
    exact absurd hs (by decide)
  rw [argsMarkerFrom?_underscore, if_neg hnone, if_neg (by rw [hzero]; decide),
    if_neg (by rw [hdigit]; decide)]

/-- The marker: two underscores that begin no escape. -/
theorem argsMarkerFrom?_marker {s : List UInt8} (h : s.head?.any isEscapeDigit = false)
    (index : Nat) : argsMarkerFrom? index 0 (underscore :: underscore :: s) = some index := by
  rw [argsMarkerFrom?_underscore, if_pos (by rw [h]; rfl)]

/-! ## Where the marker stands -/

/-- A marker stands between a name and parameters, in front of what is no escape digit. -/
structure MarkerBetween (bytes name args : List UInt8) : Prop where
  eq_append : bytes = name ++ underscore :: underscore :: args
  head : args.head?.any isEscapeDigit = false

theorem exists_markerBetween {index skip i : Nat} {bytes : List UInt8}
    (h : argsMarkerFrom? index skip bytes = some i) :
    ∃ name args, i = index + name.length ∧ MarkerBetween bytes name args := by
  have hcons {index : Nat} {bytes : List UInt8} (b : UInt8)
      (ih : ∃ name args, i = index + 1 + name.length ∧ MarkerBetween bytes name args) :
      ∃ name args, i = index + name.length ∧ MarkerBetween (b :: bytes) name args := by
    obtain ⟨name, args, hi, rfl, hhead⟩ := ih
    exact ⟨b :: name, args, by rw [hi, List.length_cons]; omega, rfl, hhead⟩
  fun_induction argsMarkerFrom? index skip bytes with
  | case1 | case3 => cases h
  | case2 index skip b rest ih => exact hcons b (ih h)
  -- the search stops here
  | case4 index a ha b s hmarker =>
    cases h
    rw [Bool.and_eq_true, Bool.not_eq_true', beq_iff_eq] at hmarker
    obtain ⟨rfl, hhead⟩ := hmarker
    rw [beq_iff_eq.mp ha]
    exact ⟨[], s, rfl, rfl, hhead⟩
  | case5 index a _ b s _ _ ih => exact hcons a (ih h)
  | case6 index a _ b s _ _ _ ih => exact hcons a (ih h)
  | case7 index a _ b s _ _ _ ih => exact hcons a (ih h)
  | case8 index a r _ ih => exact hcons a (ih h)

/-! ## Stretches that are read as a whole -/

/-- Bytes that the reading of units turns into `units` and the search for the marker steps over,
each without a look at what follows. -/
structure Whole (bytes : List UInt8) (units : List UInt16) : Prop where
  read : ∀ rest, readUnits? (bytes ++ rest) = (readUnits? rest).map (units ++ ·)
  skip : ∀ index rest,
    argsMarkerFrom? index 0 (bytes ++ rest) = argsMarkerFrom? (index + bytes.length) 0 rest

theorem Whole.append {b b' : List UInt8} {u u' : List UInt16} (h : Whole b u) (h' : Whole b' u') :
    Whole (b ++ b') (u ++ u') := by
  constructor
  · intro rest
    rw [List.append_assoc, h.read, h'.read, Option.map_map]
    simp only [Function.comp_def, List.append_assoc]
  · intro index rest
    rw [List.append_assoc, h.skip, h'.skip, List.length_append, Nat.add_assoc]

theorem whole_alphanumeric {b : UInt8} (h : isAlphanumeric b.toNat = true) :
    Whole [b] [b.toUInt16] := by
  have hne : (b == underscore) = false := by
    rw [beq_eq_false_iff_ne]
    rintro rfl
    exact absurd h (by decide)
  constructor
  · intro rest
    exact (readUnits?_cons_of_ne hne rest).trans (if_pos h)
  · intro index rest
    exact argsMarkerFrom?_cons_of_ne hne index rest

theorem whole_mark {d : UInt8} {u : UInt16} (h : (d, u) ∈ marks) : Whole [underscore, d] [u] := by
  constructor
  · intro rest
    exact readUnits?_mark h rest
  · intro index rest
    simp only [marks, List.mem_cons, Prod.mk.injEq, List.not_mem_nil, or_false] at h
    rcases h with ⟨rfl, rfl⟩ | ⟨rfl, rfl⟩ | ⟨rfl, rfl⟩ <;> rfl

theorem whole_number {h i j k : UInt8} {u : UInt16} (hu : hexUnit? h i j k = some u) :
    Whole [underscore, 0x30, h, i, j, k] [u] := by
  constructor
  · intro rest
    have hread := readUnits?_number h i j k rest
    rw [hu, Option.bind_some] at hread
    exact hread
  · intro index rest
    -- behind the underscore the search owes five steps, whether they are digits or not
    exact argsMarkerFrom?_drop (index + 1) 5 (0x30 :: h :: i :: j :: k :: rest)

/-! ## Four hexadecimal digits -/

/-- The byte of a lower case hexadecimal digit. -/
def digitByte (n : Nat) : UInt8 := UInt8.ofNat (Hex.lower n).toNat

theorem digit?_lower {n : Nat} (h : n < 16) : Hex.digit? (Hex.lower n) = some n := by
  revert n
  decide

theorem ofNat_digitByte {n : Nat} (h : n < 16) : Char.ofNat (digitByte n).toNat = Hex.lower n := by
  revert n
  decide

theorem utf8EncodeChar_lower {n : Nat} (h : n < 16) :
    String.utf8EncodeChar (Hex.lower n) = [digitByte n] := by
  revert n
  decide

theorem digitByte_ne_plus {n : Nat} (h : n < 16) : (digitByte n == 0x2B) = false := by
  revert n
  decide

/-- The four digits of a number below 65536 are read as that number. -/
theorem hexUnit?_digitByte (u : UInt16) :
    hexUnit? (digitByte (u.toNat / 4096 % 16)) (digitByte (u.toNat / 256 % 16))
      (digitByte (u.toNat / 16 % 16)) (digitByte (u.toNat % 16)) = some u := by
  have h (n : Nat) : n % 16 < 16 := Nat.mod_lt n (by decide)
  have hlt := u.toNat_lt
  have hsum : ((u.toNat / 4096 % 16 * 16 + u.toNat / 256 % 16) * 16 + u.toNat / 16 % 16) * 16 +
      u.toNat % 16 = u.toNat := by omega
  simp only [hexUnit?, digitByte_ne_plus (h _), Bool.false_eq_true, if_false, List.map_cons,
    List.map_nil, ofNat_digitByte (h _), Hex.number?, List.foldl_cons, List.foldl_nil,
    digit?_lower (h _), bind, Option.bind_some, pure, Nat.zero_mul, Nat.zero_add, hsum,
    Option.map_some, UInt16.ofNat_toNat]

/-- No unit is read where one of the four bytes is no digit, nor the plus sign that may stand before
digits. -/
theorem hexUnit?_eq_none {h i j k b : UInt8} (hb : b ∈ [h, i, j, k]) (hplus : b ≠ 0x2B)
    (hdigit : Hex.digit? (Char.ofNat b.toNat) = none) : hexUnit? h i j k = none := by
  have hmem : Char.ofNat b.toNat ∈ (if h == 0x2B then [i, j, k] else [h, i, j, k]).map fun x =>
      Char.ofNat x.toNat := by
    refine List.mem_map.mpr ⟨b, ?_, rfl⟩
    -- a plus sign in front is dropped
    split
    next hfirst =>
      exact (List.mem_cons.mp hb).resolve_left fun heq => hplus (heq.trans (beq_iff_eq.mp hfirst))
    next => exact hb
  rw [hexUnit?, Hex.number?_eq_none hmem hdigit]
  rfl

theorem ne_underscore_of_hexUnit? {h i j k : UInt8} {u : UInt16} (hu : hexUnit? h i j k = some u) :
    ∀ b ∈ [h, i, j, k], b ≠ underscore := by
  rintro b hb rfl
  cases (hexUnit?_eq_none hb (by decide) rfl).symm.trans hu

/-! ## The bytes of a unit -/

theorem utf8EncodeChar_of_lt {c : Char} (h : c.toNat < 0x80) :
    String.utf8EncodeChar c = [UInt8.ofNat c.toNat] := by
  have hle : c.val.toNat ≤ 0x7F := Nat.le_of_lt_succ h
  simp only [String.utf8EncodeChar, if_pos hle]
  rfl

theorem lt_of_isAlphanumeric {n : Nat} (h : isAlphanumeric n = true) : n < 0x80 := by
  simp only [isAlphanumeric, Bool.or_eq_true, Bool.and_eq_true, decide_eq_true_eq] at h
  omega

theorem toNat_ofNat_of_isAlphanumeric {n : Nat} (h : isAlphanumeric n = true) :
    (UInt8.ofNat n).toNat = n := by
  have hlt := lt_of_isAlphanumeric h
  rw [UInt8.toNat_ofNat', Nat.mod_eq_of_lt (by omega)]

theorem unitBytes_alphanumeric {u : UInt16} (h : isAlphanumeric u.toNat = true) :
    unitBytes u = [UInt8.ofNat u.toNat] := by
  have hne (v : UInt16) (hv : isAlphanumeric v.toNat = false) : ¬(u == v) = true := by
    rw [beq_iff_eq]
    rintro rfl
    exact absurd h (by rw [hv]; decide)
  have hlt := lt_of_isAlphanumeric h
  have hchar : (Char.ofNat u.toNat).toNat = u.toNat := Utf16.toNat_ofNat (by omega)
  rw [unitBytes, escapeUnit, if_neg, if_neg (hne 0x5F rfl), if_neg (hne 0x3B rfl),
    if_neg (hne 0x5B rfl), if_pos h, Utf8.encode, List.flatMap_singleton,
    utf8EncodeChar_of_lt (by rwa [hchar]), hchar]
  rw [Bool.or_eq_true, not_or]
  exact ⟨hne 0x2E rfl, hne 0x2F rfl⟩

/-- Every other unit but a separator is an escape: of one digit, or of its number. -/
theorem unitBytes_escape {u : UInt16} (hdot : u ≠ 0x2E) (hslash : u ≠ 0x2F)
    (h : isAlphanumeric u.toNat = false) :
    (∃ d, (d, u) ∈ marks ∧ unitBytes u = [underscore, d]) ∨
    unitBytes u = [underscore, 0x30, digitByte (u.toNat / 4096 % 16),
      digitByte (u.toNat / 256 % 16), digitByte (u.toNat / 16 % 16), digitByte (u.toNat % 16)] := by
  by_cases h5F : u = 0x5F
  · subst h5F
    exact .inl ⟨0x31, by decide, rfl⟩
  by_cases h3B : u = 0x3B
  · subst h3B
    exact .inl ⟨0x32, by decide, rfl⟩
  by_cases h5B : u = 0x5B
  · subst h5B
    exact .inl ⟨0x33, by decide, rfl⟩
  right
  have hdigit (n : Nat) := utf8EncodeChar_lower (Nat.mod_lt n (by decide : 0 < 16))
  have hescape : escapeUnit u = ['_', '0'] ++ Hex.four Hex.lower u.toNat := by
    simp [escapeUnit, hdot, hslash, h5F, h3B, h5B, h]
  simp only [unitBytes, hescape, Hex.four, List.cons_append, List.nil_append, Utf8.encode,
    List.flatMap_cons, List.flatMap_nil, hdigit]
  rfl

theorem whole_unitBytes {u : UInt16} (hdot : u ≠ 0x2E) (hslash : u ≠ 0x2F) :
    Whole (unitBytes u) [u] := by
  cases h : isAlphanumeric u.toNat with
  | true =>
    have hbyte := toNat_ofNat_of_isAlphanumeric h
    have hwhole := whole_alphanumeric (b := UInt8.ofNat u.toNat) (by rwa [hbyte])
    rw [unitBytes_alphanumeric h]
    rwa [← UInt16.ofNat_uInt8ToNat, hbyte, UInt16.ofNat_toNat] at hwhole
  | false =>
    rcases unitBytes_escape hdot hslash h with ⟨d, hd, hbytes⟩ | hbytes
    · rw [hbytes]
      exact whole_mark hd
    · rw [hbytes]
      exact whole_number (hexUnit?_digitByte u)

/-! ## The bytes of a character -/

theorem charBytes_separator {c : Char} (h : isSeparator c = true) : charBytes c = [underscore] := by
  rcases isSeparator_iff.mp h with rfl | rfl <;> rfl

/-- A character that is no separator has no separator among its units. -/
theorem ne_separator_of_mem_encodeChar {c : Char} (h : isSeparator c = false) {u : UInt16}
    (hu : u ∈ Utf16.encodeChar c) : u ≠ 0x2E ∧ u ≠ 0x2F := by
  rcases Nat.lt_or_ge c.toNat 0x10000 with hlt | hge
  · rw [Utf16.encodeChar_of_lt hlt, List.mem_singleton] at hu
    have hne (d : Char) (hd : isSeparator d = true) : u.toNat ≠ d.toNat := by
      rw [hu, Utf16.toNat_unit hlt]
      intro heq
      rw [Char.toNat_inj.mp heq, hd] at h
      cases h
    exact ⟨fun heq => hne '.' rfl (heq ▸ rfl), fun heq => hne '/' rfl (heq ▸ rfl)⟩
  · obtain ⟨v, w, hv, hw, -, hencode⟩ := Utf16.encodeChar_of_le hge
    rw [hencode, List.mem_cons, List.mem_singleton] at hu
    rcases hu with rfl | rfl
    · constructor <;> rintro rfl <;> exact absurd hv (by decide)
    · constructor <;> rintro rfl <;> exact absurd hw (by decide)

theorem whole_charBytes {c : Char} (h : isSeparator c = false) :
    Whole (charBytes c) (Utf16.encodeChar c) := by
  have hwhole {u : UInt16} (hu : u ∈ Utf16.encodeChar c) : Whole (unitBytes u) [u] :=
    whole_unitBytes (ne_separator_of_mem_encodeChar h hu).1 (ne_separator_of_mem_encodeChar h hu).2
  rcases Nat.lt_or_ge c.toNat 0x10000 with hlt | hge
  · have hencode := Utf16.encodeChar_of_lt hlt
    rw [charBytes, hencode, List.flatMap_singleton]
    exact hwhole (by simp [hencode])
  · obtain ⟨u, v, -, -, -, hencode⟩ := Utf16.encodeChar_of_le hge
    rw [charBytes, hencode, List.flatMap_cons, List.flatMap_singleton]
    exact (hwhole (by simp [hencode])).append (hwhole (by simp [hencode]))

/-- The units of a character that is no letter or digit begin with one that is none. -/
theorem encodeChar_eq_cons {c : Char} (h : isAlphanumeric c.toNat = false) :
    ∃ u us, Utf16.encodeChar c = u :: us ∧ isAlphanumeric u.toNat = false := by
  rcases Nat.lt_or_ge c.toNat 0x10000 with hlt | hge
  · exact ⟨_, _, Utf16.encodeChar_of_lt hlt, by rwa [Utf16.toNat_unit hlt]⟩
  · obtain ⟨u, v, hu, -, -, hencode⟩ := Utf16.encodeChar_of_le hge
    refine ⟨u, _, hencode, ?_⟩
    rw [Utf16.isHigh_iff] at hu
    rw [← Bool.not_eq_true]
    intro halpha
    have := lt_of_isAlphanumeric halpha
    omega

/-- The bytes of a character that is no separator are the character itself or begin an escape. -/
theorem charBytes_cases {c : Char} (h : isSeparator c = false) :
    (isAlphanumeric c.toNat = true ∧ charBytes c = [UInt8.ofNat c.toNat]) ∨
    (isAlphanumeric c.toNat = false ∧
      ∃ d s, charBytes c = underscore :: d :: s ∧ isEscapeDigit d = true) := by
  cases halpha : isAlphanumeric c.toNat with
  | true =>
    have hlt := lt_of_isAlphanumeric halpha
    have hunit := Utf16.toNat_unit (n := c.toNat) (by omega)
    refine .inl ⟨rfl, ?_⟩
    rw [charBytes, Utf16.encodeChar_of_lt (by omega), List.flatMap_singleton,
      unitBytes_alphanumeric (by rwa [hunit]), hunit]
  | false =>
    obtain ⟨u, us, hencode, hu⟩ := encodeChar_eq_cons halpha
    obtain ⟨hdot, hslash⟩ := ne_separator_of_mem_encodeChar h (u := u) (by simp [hencode])
    refine .inr ⟨rfl, ?_⟩
    rw [charBytes, hencode, List.flatMap_cons]
    rcases unitBytes_escape hdot hslash hu with ⟨d, hd, hbytes⟩ | hbytes
    · exact ⟨d, _, by rw [hbytes]; rfl, isEscapeDigit_of_mem_marks _ hd⟩
    · exact ⟨0x30, _, by rw [hbytes]; rfl, rfl⟩

end JniLink.Symbol
