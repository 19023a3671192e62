import JniLink.Proofs.Text.Utf8

/-!
# Reading text by byte positions

Symbols and descriptors are read from the front of a text and by what is left of it. The same
reading can be done with positions: bytes are looked up by index, and pieces of the text are cut out
between two indices. Then it can break. An index may lie behind the last byte, and a piece of text
may not begin or end inside a character. `Walk` is a reading of that kind. It keeps a record of the
positions that it reaches, and an access for which there is no byte or no piece breaks it, which is
different from a text that is refused.

Here are the pieces of a text that can be cut out, and what keeps a walk from breaking. An ASCII
byte is a whole character, and so there are boundaries on both sides of it, wherever it was found.
-/

namespace JniLink.Text

open Utf8

/-! ## Bytes of characters -/

namespace Utf8

/-- A character is one ASCII byte, or all of its bytes are above ASCII. -/
theorem utf8EncodeChar_cases (c : Char) :
    (c.toNat < 0x80 ∧ String.utf8EncodeChar c = [UInt8.ofNat c.toNat]) ∨
      (0x80 ≤ c.toNat ∧ ∀ b ∈ String.utf8EncodeChar c, 0x80 ≤ b.toNat) := by
  have hmax := (Utf16.toNat_bounds c).2
  have hcons {n : Nat} {bytes : List UInt8} (hlow : 0x80 ≤ n) (hhigh : n < 256)
      (h : ∀ b ∈ bytes, 0x80 ≤ b.toNat) : ∀ b ∈ UInt8.ofNat n :: bytes, 0x80 ≤ b.toNat := by
    rw [List.forall_mem_cons, toNat_ofNat_of_lt hhigh]
    exact ⟨hlow, h⟩
  unfold String.utf8EncodeChar
  dsimp only
  rw [show c.val.toNat = c.toNat from rfl]
  split
  next hone => exact .inl ⟨by omega, rfl⟩
  next hone =>
    refine .inr ⟨by omega, ?_⟩
    split
    · exact hcons (by omega) (by omega) (hcons (by omega) (by omega) nofun)
    split
    · exact hcons (by omega) (by omega) (hcons (by omega) (by omega)
        (hcons (by omega) (by omega) nofun))
    · exact hcons (by omega) (by omega) (hcons (by omega) (by omega)
        (hcons (by omega) (by omega) (hcons (by omega) (by omega) nofun)))

theorem encode_cons (c : Char) (t : List Char) :
    encode (c :: t) = String.utf8EncodeChar c ++ encode t := rfl

theorem length_encode_append (s t : List Char) :
    (encode (s ++ t)).length = (encode s).length + (encode t).length := by
  rw [encode_append, List.length_append]

theorem length_encode_eq_zero_iff {t : List Char} : (encode t).length = 0 ↔ t = [] := by
  rw [List.length_eq_zero_iff]
  cases t with
  | nil => exact iff_of_true rfl rfl
  | cons c t =>
    refine iff_of_false ?_ nofun
    rw [encode_cons, List.append_eq_nil_iff]
    exact fun h => String.utf8EncodeChar_ne_nil h.1

theorem length_encode (t : List Char) : (encode t).length = (String.ofList t).utf8ByteSize := by
  rw [← String.size_toByteArray, String.toByteArray_ofList, List.utf8Encode, List.size_toByteArray]
  rfl

theorem length_encode_toList (text : String) :
    (encode text.toList).length = text.utf8ByteSize := by
  rw [length_encode, String.ofList_toList]

/-- An ASCII byte of a text is a character of it, and stands where the text before it ends. -/
theorem exists_of_getElem?_encode {t : List Char} {i : Nat} {b : UInt8} (hb : b.toNat < 0x80)
    (h : (encode t)[i]? = some b) :
    ∃ s c r, t = s ++ c :: r ∧ i = (encode s).length ∧ encode [c] = [b] := by
  induction t generalizing i with
  | nil => cases h
  | cons d t ih =>
    rw [encode_cons] at h
    rcases Nat.lt_or_ge i (String.utf8EncodeChar d).length with hlt | hge
    · rw [List.getElem?_append_left hlt] at h
      rcases utf8EncodeChar_cases d with ⟨-, hone⟩ | ⟨-, habove⟩
      · rw [hone] at h hlt
        obtain rfl : i = 0 := Nat.lt_one_iff.mp hlt
        cases h
        exact ⟨[], d, t, rfl, rfl, (List.append_nil _).trans hone⟩
      · have := habove b (List.mem_of_getElem? h)
        omega
    · rw [List.getElem?_append_right hge] at h
      obtain ⟨s, c, r, rfl, hi, hc⟩ := ih h
      refine ⟨d :: s, c, r, rfl, ?_, hc⟩
      rw [encode_cons, List.length_append, ← hi]
      omega

end Utf8

/-! ## Boundaries and pieces -/

/-- A byte index between two characters of a text, or at one of its ends. -/
def IsBoundary (t : List Char) (i : Nat) : Prop :=
  ∃ s r, t = s ++ r ∧ i = (encode s).length

theorem IsBoundary.le {t : List Char} {i : Nat} (h : IsBoundary t i) : i ≤ (encode t).length := by
  obtain ⟨s, r, rfl, rfl⟩ := h
  rw [length_encode_append]
  exact Nat.le_add_right _ _

theorem isBoundary_iff_isValid {t : String} {i : Nat} :
    IsBoundary t.toList i ↔ (⟨i⟩ : String.Pos.Raw).IsValid t := by
  rw [String.Pos.Raw.isValid_iff_exists_append]
  constructor
  · rintro ⟨s, r, ht, rfl⟩
    refine ⟨String.ofList s, String.ofList r, ?_, ?_⟩
    · rw [← String.ofList_append, ← ht, String.ofList_toList]
    · rw [String.Pos.Raw.ext_iff, length_encode]
      rfl
  · rintro ⟨s, r, rfl, hi⟩
    refine ⟨s.toList, r.toList, String.toList_append, ?_⟩
    rw [length_encode, String.ofList_toList]
    exact String.Pos.Raw.ext_iff.mp hi

/-- There is a boundary on both sides of an ASCII byte. -/
theorem isBoundary_of_getElem? {t : List Char} {i : Nat} {b : UInt8} (hb : b.toNat < 0x80)
    (h : (encode t)[i]? = some b) : IsBoundary t i ∧ IsBoundary t (i + 1) := by
  obtain ⟨s, c, r, rfl, rfl, hc⟩ := exists_of_getElem?_encode hb h
  refine ⟨⟨s, c :: r, rfl, rfl⟩, s ++ [c], r, (List.append_cons s c r), ?_⟩
  rw [length_encode_append, hc]
  rfl

/-- The text before a byte index and the text from it on, if the index is a boundary. -/
def splitAt? : Nat → List Char → Option (List Char × List Char)
  | 0, t => some ([], t)
  | _ + 1, [] => none
  | i + 1, c :: r =>
    if (String.utf8EncodeChar c).length ≤ i + 1 then
      (splitAt? (i + 1 - (String.utf8EncodeChar c).length) r).map fun (s, r) => (c :: s, r)
    else none

theorem splitAt?_eq_some_iff {i : Nat} {t s r : List Char} :
    splitAt? i t = some (s, r) ↔ t = s ++ r ∧ i = (encode s).length := by
  have hpos (c : Char) : 0 < (String.utf8EncodeChar c).length :=
    List.length_pos_iff.mpr String.utf8EncodeChar_ne_nil
  fun_induction splitAt? i t generalizing s with
  -- at the start of the text nothing is in front, and a character would have bytes of its own
  | case1 t =>
    cases s with
    | nil => simp [encode, eq_comm]
    | cons c s =>
      have := hpos c
      simp only [Option.some.injEq, Prod.mk.injEq, encode_cons, List.length_append]
      refine iff_of_false (fun h => List.cons_ne_nil c s h.1.symm) ?_
      rintro ⟨-, hi⟩
      omega
  | case2 i =>
    refine iff_of_false (Option.some_ne_none _).symm ?_
    rintro ⟨ht, hi⟩
    rw [(List.append_eq_nil_iff.mp ht.symm).1] at hi
    cases hi
  | case3 i c r' hle ih =>
    rw [Option.map_eq_some_iff]
    constructor
    · rintro ⟨⟨s', r''⟩, hsplit, heq⟩
      cases heq
      obtain ⟨rfl, hi⟩ := ih.mp hsplit
      refine ⟨rfl, ?_⟩
      rw [encode_cons, List.length_append, ← hi]
      omega
    · rintro ⟨ht, hi⟩
      cases s with
      | nil => cases hi
      | cons d s =>
        cases ht
        rw [encode_cons, List.length_append] at hi
        exact ⟨(s, r), ih.mpr ⟨rfl, by omega⟩, rfl⟩
  -- inside the first character, which would have to be in front as a whole
  | case4 i c r' hlt =>
    refine iff_of_false (Option.some_ne_none _).symm ?_
    rintro ⟨ht, hi⟩
    cases s with
    | nil => cases hi
    | cons d s =>
      cases ht
      rw [encode_cons, List.length_append] at hi
      omega

/-- The piece of a text between two byte indices, if both are boundaries and in order. -/
def slice? (t : List Char) (i j : Nat) : Option (List Char) :=
  if i ≤ j then do
    let (_, r) ← splitAt? i t
    let (piece, _) ← splitAt? (j - i) r
    return piece
  else none

theorem slice?_eq_some_iff {t piece : List Char} {i j : Nat} :
    slice? t i j = some piece ↔ ∃ s r, t = s ++ (piece ++ r) ∧ i = (encode s).length ∧
      j = (encode s).length + (encode piece).length := by
  unfold slice?
  split
  next hle =>
    simp only [Option.bind_eq_bind, Option.bind_eq_some_iff, Prod.exists, splitAt?_eq_some_iff]
    constructor
    · rintro ⟨s, r, ⟨rfl, rfl⟩, piece', r', ⟨rfl, hj⟩, heq⟩
      cases heq
      exact ⟨s, r', rfl, rfl, by omega⟩
    · rintro ⟨s, r, rfl, rfl, rfl⟩
      exact ⟨s, _, ⟨rfl, rfl⟩, piece, r, ⟨rfl, by omega⟩, rfl⟩
  next hlt =>
    refine iff_of_false nofun ?_
    rintro ⟨s, r, -, rfl, rfl⟩
    omega

/-- A piece can be cut out exactly between boundaries. -/
theorem isSome_slice?_iff {t : List Char} {i j : Nat} :
    (slice? t i j).isSome = true ↔ IsBoundary t i ∧ IsBoundary t j ∧ i ≤ j := by
  rw [Option.isSome_iff_exists]
  constructor
  · rintro ⟨piece, h⟩
    obtain ⟨s, r, rfl, rfl, rfl⟩ := slice?_eq_some_iff.mp h
    refine ⟨⟨s, _, rfl, rfl⟩, ⟨s ++ piece, r, (List.append_assoc s piece r).symm, ?_⟩, by omega⟩
    rw [length_encode_append]
  · rintro ⟨⟨s, r, rfl, rfl⟩, ⟨s', r', ht, rfl⟩, hle⟩
    -- of two beginnings of one text the one with fewer bytes is a beginning of the other
    rcases List.append_eq_append_iff.mp ht with ⟨piece, rfl, rfl⟩ | ⟨a, rfl, rfl⟩
    · exact ⟨piece, slice?_eq_some_iff.mpr ⟨s, r', rfl, rfl, length_encode_append s piece⟩⟩
    · rw [length_encode_append] at hle
      refine ⟨[], slice?_eq_some_iff.mpr ⟨s' ++ a, r, rfl, rfl, ?_⟩⟩
      rw [length_encode_append]
      simp only [encode, List.flatMap_nil, List.length_nil] at hle ⊢
      omega

/-- The bytes of a piece are those between its indices. -/
theorem encode_of_slice? {t piece : List Char} {i j : Nat} (h : slice? t i j = some piece) :
    encode piece = ((encode t).drop i).take (j - i) := by
  obtain ⟨s, r, rfl, rfl, rfl⟩ := slice?_eq_some_iff.mp h
  rw [encode_append, encode_append, List.drop_left, Nat.add_sub_cancel_left, List.take_left]

/-! ## Walks -/

/-- A reading of a text by positions. -/
structure Walk (ε α : Type) where
  /-- The positions that are reached, in their order. -/
  positions : List Nat
  /-- What is answered, or why the text is refused; `none` if an access broke the walk. -/
  outcome : Option (Except ε α)

namespace Walk

variable {ε α β : Type}

/-- A walk that ends with an answer. -/
def answer (a : α) : Walk ε α := ⟨[], some (.ok a)⟩

/-- A walk that ends because the text is refused. -/
def refuse (e : ε) : Walk ε α := ⟨[], some (.error e)⟩

/-- A walk that is broken off. -/
def broken : Walk ε α := ⟨[], none⟩

/-- One walk behind another. -/
def andThen (w : Walk ε α) (next : α → Walk ε β) : Walk ε β :=
  match w.outcome with
  | none => ⟨w.positions, none⟩
  | some (.error e) => ⟨w.positions, some (.error e)⟩
  | some (.ok a) => ⟨w.positions ++ (next a).positions, (next a).outcome⟩

instance : Monad (Walk ε) where
  pure := answer
  bind := andThen

/-- A walk that begins at a position. -/
def visit (i : Nat) (w : Walk ε α) : Walk ε α := ⟨i :: w.positions, w.outcome⟩

/-- The byte at a position; there must be one. -/
def byte (bytes : List UInt8) (i : Nat) : Walk ε UInt8 := ⟨[i], bytes[i]?.map .ok⟩

/-- The bytes from a position on, which may be the end. -/
def behind (bytes : List UInt8) (i : Nat) : Walk ε (List UInt8) :=
  ⟨[i], if i ≤ bytes.length then some (.ok (bytes.drop i)) else none⟩

/-- The piece of a text between two positions, which must be boundaries. -/
def slice (t : List Char) (i j : Nat) : Walk ε (List Char) := ⟨[i, j], (slice? t i j).map .ok⟩

section Outcome

variable {w : Walk ε α} {next : α → Walk ε β} {a : α} {e : ε}

@[simp] theorem outcome_visit (i : Nat) : (w.visit i).outcome = w.outcome := rfl

theorem outcome_bind_of_ok (h : w.outcome = some (.ok a)) :
    (w >>= next).outcome = (next a).outcome := by
  change (andThen w next).outcome = _
  rw [andThen, h]

theorem outcome_bind_of_error (h : w.outcome = some (.error e)) :
    (w >>= next).outcome = some (.error e) := by
  change (andThen w next).outcome = _
  rw [andThen, h]

theorem of_outcome_bind {b : β} (h : (w >>= next).outcome = some (.ok b)) :
    ∃ a, w.outcome = some (.ok a) ∧ (next a).outcome = some (.ok b) := by
  change (andThen w next).outcome = _ at h
  unfold andThen at h
  split at h
  · cases h
  · cases h
  next a ha => exact ⟨a, ha, h⟩

/-- A byte that is there does not break a walk. -/
theorem outcome_byte_bind {bytes : List UInt8} {i : Nat} {b : UInt8} {next : UInt8 → Walk ε β}
    (h : bytes[i]? = some b) : (byte bytes i >>= next).outcome = (next b).outcome :=
  outcome_bind_of_ok (by rw [byte, h]; rfl)

/-- A piece between boundaries does not break a walk. -/
theorem outcome_slice_bind {t piece : List Char} {i j : Nat} {next : List Char → Walk ε β}
    (h : slice? t i j = some piece) : (slice t i j >>= next).outcome = (next piece).outcome :=
  outcome_bind_of_ok (by rw [slice, h]; rfl)

theorem of_outcome_behind {bytes rest : List UInt8} {i : Nat}
    (h : (behind bytes i : Walk ε _).outcome = some (.ok rest)) : rest = bytes.drop i := by
  unfold behind at h
  dsimp only at h
  split at h
  · cases h
    rfl
  · cases h

end Outcome

/-- A walk that answers what is read and refuses the text if nothing is. It does not break. -/
def Yields (w : Walk ε α) (e : ε) (read : Option α) : Prop :=
  w.outcome = some (read.elim (.error e) .ok)

theorem yields_answer (a : α) (e : ε) : (answer a).Yields e (some a) := rfl

theorem yields_refuse (e : ε) : (refuse e : Walk ε α).Yields e none := rfl

theorem Yields.bind {w : Walk ε α} {e : ε} {read : Option α} (h : w.Yields e read)
    {next : α → Walk ε β} {readNext : α → Option β}
    (hnext : ∀ a, read = some a → (next a).Yields e (readNext a)) :
    (w >>= next).Yields e (read.bind readNext) := by
  cases read with
  | none => exact outcome_bind_of_error h
  | some a => exact (outcome_bind_of_ok h).trans (hnext a rfl)

theorem Yields.map {w : Walk ε α} {e : ε} {read : Option α} (h : w.Yields e read) (f : α → β) :
    (w >>= fun a => pure (f a)).Yields e (read.map f) := by
  rw [Option.map_eq_bind]
  exact h.bind fun a _ => yields_answer (f a) e

/-- A walk that breaks nowhere and reaches no position above a limit. -/
structure IsSafe (limit : Nat) (w : Walk ε α) : Prop where
  unbroken : w.outcome ≠ none
  reached : ∀ i ∈ w.positions, i ≤ limit

section IsSafe

variable {limit : Nat}

theorem isSafe_answer (a : α) : (answer a : Walk ε α).IsSafe limit := ⟨nofun, nofun⟩

theorem isSafe_refuse (e : ε) : (refuse e : Walk ε α).IsSafe limit := ⟨nofun, nofun⟩

theorem IsSafe.visit {w : Walk ε α} (h : w.IsSafe limit) {i : Nat} (hi : i ≤ limit) :
    (w.visit i).IsSafe limit :=
  ⟨h.unbroken, List.forall_mem_cons.mpr ⟨hi, h.reached⟩⟩

theorem IsSafe.bind {w : Walk ε α} (h : w.IsSafe limit) {next : α → Walk ε β}
    (hnext : ∀ a, w.outcome = some (.ok a) → (next a).IsSafe limit) :
    (w >>= next).IsSafe limit := by
  change (andThen w next).IsSafe limit
  unfold andThen
  split
  next hnone => exact absurd hnone h.unbroken
  next => exact ⟨nofun, h.reached⟩
  next a ha =>
    exact ⟨(hnext a ha).unbroken, List.forall_mem_append.mpr ⟨h.reached, (hnext a ha).reached⟩⟩

theorem isSafe_behind {bytes : List UInt8} {i : Nat} (h : i ≤ bytes.length) (hi : i ≤ limit) :
    (behind bytes i : Walk ε _).IsSafe limit := by
  refine ⟨?_, List.forall_mem_singleton.mpr hi⟩
  rw [behind, if_pos h]
  nofun

theorem isSafe_slice {t : List Char} {i j : Nat} (hi : IsBoundary t i) (hj : IsBoundary t j)
    (hle : i ≤ j) (hlimit : j ≤ limit) : (slice t i j : Walk ε _).IsSafe limit := by
  obtain ⟨piece, hpiece⟩ := Option.isSome_iff_exists.mp (isSome_slice?_iff.mpr ⟨hi, hj, hle⟩)
  constructor
  · rw [slice, hpiece]
    nofun
  · rw [slice, List.forall_mem_cons, List.forall_mem_singleton]
    exact ⟨Nat.le_trans hle hlimit, hlimit⟩

end IsSafe

end Walk

end JniLink.Text
