import JniLink.Proofs.Symbol.Escape
import JniLink.Proofs.Text.Split

/-!
# Reading escaped texts

What the two readings make of a whole escaped text depends only on what stands behind its
separators, for every other character is a stretch that both take as one (`Whole`). Where no low
digit follows a separator, the text is read back, its separators in slashed form. Where one does,
the separator and the digit are read as an escape, and the rest of the text falls into step again
behind it; so such a text, if it is read at all, comes back with fewer units than it had.
-/

namespace JniLink.Symbol

open JniLink.Text

/-- The dots of a text written as slashes. -/
def slashed (t : List Char) : List Char := t.map fun c => if c = '.' then '/' else c

/-- `ok` holds of what stands behind each separator of a text: a character, or nothing at its
end. -/
def AfterSeparators (ok : Option Char → Bool) : List Char → Prop
  | [] => True
  | c :: t => (isSeparator c = true → ok t.head? = true) ∧ AfterSeparators ok t

instance (ok : Option Char → Bool) : (t : List Char) → Decidable (AfterSeparators ok t)
  | [] => .isTrue trivial
  | c :: t =>
    have := instDecidableAfterSeparators ok t
    inferInstanceAs (Decidable ((isSeparator c = true → ok t.head? = true) ∧ AfterSeparators ok t))

/-- No separator of the text is followed by a low digit. -/
def SeparatorsKept (t : List Char) : Prop := AfterSeparators (fun next => !next.any isLowDigit) t

instance (t : List Char) : Decidable (SeparatorsKept t) :=
  inferInstanceAs (Decidable (AfterSeparators _ t))

/-- Every separator of the text is followed by a character that is neither a low digit nor a
separator itself. -/
def SeparatorsInside (t : List Char) : Prop :=
  AfterSeparators (fun next => next.any fun c => !isLowDigit c && !isSeparator c) t

theorem isLowDigit_iff {c : Char} : isLowDigit c = true ↔ 0x30 ≤ c.toNat ∧ c.toNat ≤ 0x33 := by
  rw [isLowDigit, Bool.and_eq_true, decide_eq_true_eq, decide_eq_true_eq]
  rfl

theorem isAlphanumeric_of_isLowDigit {c : Char} (h : isLowDigit c = true) :
    isAlphanumeric c.toNat = true := by
  rw [isLowDigit_iff] at h
  simp only [isAlphanumeric, Bool.or_eq_true, Bool.and_eq_true, decide_eq_true_eq]
  omega

theorem isLowDigit_of_isSeparator {c : Char} (h : isSeparator c = true) : isLowDigit c = false := by
  rcases isSeparator_iff.mp h with rfl | rfl <;> rfl

/-- A text and its first piece begin alike, but for a separator in front, which ends that piece. -/
theorem apply_head?_of_splitWhere {ok : Option Char → Bool}
    (hok : ∀ c, isSeparator c = true → ok (some c) = ok none) {t piece : List Char}
    {pieces : List (List Char)} (h : splitWhere isSeparator t = piece :: pieces) :
    ok t.head? = ok piece.head? := by
  cases t with
  | nil =>
    cases h
    rfl
  | cons c t =>
    cases hc : isSeparator c with
    | true =>
      rw [splitWhere_cons_of_pos hc] at h
      cases h
      exact hok c hc
    | false =>
      obtain ⟨first, rest, -, hct⟩ := splitWhere_cons_of_neg hc t
      rw [hct] at h
      cases h
      rfl

/-- A condition on what stands behind a separator is one on the beginnings of the pieces, if it
takes a separator for the end of the text. -/
theorem afterSeparators_iff {ok : Option Char → Bool}
    (hok : ∀ c, isSeparator c = true → ok (some c) = ok none) (t : List Char) :
    AfterSeparators ok t ↔ ∀ piece ∈ (splitWhere isSeparator t).tail, ok piece.head? = true := by
  induction t with
  | nil => simp [AfterSeparators, splitWhere]
  | cons c t ih =>
    refine (and_congr Iff.rfl ih).trans ?_
    cases hc : isSeparator c with
    | true =>
      obtain ⟨piece, pieces, hs⟩ := List.exists_cons_of_ne_nil (splitWhere_ne_nil isSeparator t)
      rw [splitWhere_cons_of_pos hc, List.tail_cons, hs, List.tail_cons, List.forall_mem_cons,
        apply_head?_of_splitWhere hok hs]
      exact and_congr_left' (forall_prop_of_true rfl)
    | false =>
      obtain ⟨piece, pieces, hs, hcs⟩ := splitWhere_cons_of_neg hc t
      rw [hs, hcs, List.tail_cons, List.tail_cons]
      exact and_iff_right fun hsep => Bool.noConfusion hsep

theorem separatorsKept_iff (t : List Char) : SeparatorsKept t ↔
    ∀ piece ∈ (splitWhere isSeparator t).tail, piece.head?.any isLowDigit = false := by
  rw [SeparatorsKept, afterSeparators_iff]
  · simp only [Bool.not_eq_true']
  · intro c hc
    rw [Option.any_some, Option.any_none, isLowDigit_of_isSeparator hc]

/-! ## Texts whose separators stay -/

theorem textBytes_cons (c : Char) (t : List Char) :
    textBytes (c :: t) = charBytes c ++ textBytes t :=
  rfl

theorem slashed_cons_of_separator {c : Char} (h : isSeparator c = true) (t : List Char) :
    slashed (c :: t) = '/' :: slashed t := by
  rcases isSeparator_iff.mp h with rfl | rfl <;> rfl

theorem slashed_cons_of_not_separator {c : Char} (h : isSeparator c = false) (t : List Char) :
    slashed (c :: t) = c :: slashed t := by
  have hne : c ≠ '.' := by
    rintro rfl
    cases h
  rw [slashed, List.map_cons, if_neg hne, ← slashed]

theorem isEscapeDigit_ofNat {c : Char} (h : isAlphanumeric c.toNat = true) :
    isEscapeDigit (UInt8.ofNat c.toNat) = isLowDigit c := by
  rw [Bool.eq_iff_iff, isLowDigit_iff, isEscapeDigit, Bool.and_eq_true, decide_eq_true_eq,
    decide_eq_true_eq, UInt8.le_iff_toNat_le, UInt8.le_iff_toNat_le,
    toNat_ofNat_of_isAlphanumeric h]
  rfl

/-- The first byte of an escaped text makes an escape of an underscore in front of it exactly if its
first character is a low digit. -/
theorem head?_textBytes (t : List Char) :
    (textBytes t).head?.any isEscapeDigit = t.head?.any isLowDigit := by
  cases t with
  | nil => rfl
  | cons c t =>
    rw [textBytes_cons, List.head?_cons, Option.any_some]
    cases hc : isSeparator c with
    | true =>
      rw [charBytes_separator hc, isLowDigit_of_isSeparator hc]
      rfl
    | false =>
      rcases charBytes_cases hc with ⟨halpha, hbytes⟩ | ⟨halpha, d, s, hbytes, -⟩
      · rw [hbytes, List.singleton_append, List.head?_cons, Option.any_some,
          isEscapeDigit_ofNat halpha]
      · cases hlow : isLowDigit c with
        | true => rw [isAlphanumeric_of_isLowDigit hlow] at halpha; cases halpha
        | false => rw [hbytes]; rfl

/-- A text whose separators stay is read back with its separators in slashed form. -/
theorem readUnits?_textBytes {t : List Char} (h : SeparatorsKept t) :
    readUnits? (textBytes t) = some (Utf16.encode (slashed t)) := by
  induction t with
  | nil => rfl
  | cons c t ih =>
    have hrest := ih h.2
    rw [textBytes_cons]
    cases hc : isSeparator c with
    | true =>
      have hnext : (textBytes t).head?.any isEscapeDigit = false := by
        rw [head?_textBytes, ← Bool.not_eq_true']
        exact h.1 hc
      rw [charBytes_separator hc, List.singleton_append, readUnits?_separator hnext, hrest,
        slashed_cons_of_separator hc]
      rfl
    | false =>
      rw [(whole_charBytes hc).read, hrest, slashed_cons_of_not_separator hc]
      rfl

theorem readPart?_textBytes {t : List Char} (h : SeparatorsKept t) :
    readPart? (textBytes t) = some (slashed t) := by
  rw [readPart?, readUnits?_textBytes h, Option.bind_some, Utf16.decode?_encode]

/-- A character that may stand behind a separator: its bytes do not complete a marker there. -/
theorem charBytes_eq_cons {c : Char} (hlow : isLowDigit c = false) (hc : isSeparator c = false) :
    ∃ b s, charBytes c = b :: s ∧ isEscapeDigit b = false ∧
      (b = underscore → s.head?.any isEscapeDigit = true) := by
  rcases charBytes_cases hc with ⟨halpha, hbytes⟩ | ⟨-, d, s, hbytes, hd⟩
  · refine ⟨_, _, hbytes, by rwa [isEscapeDigit_ofNat halpha], fun heq => ?_⟩
    have hbyte := congrArg UInt8.toNat heq
    rw [toNat_ofNat_of_isAlphanumeric halpha] at hbyte
    rw [hbyte] at halpha
    exact absurd halpha (by decide)
  · exact ⟨_, _, hbytes, rfl, fun _ => hd⟩

/-- Where every separator is inside, the search for the marker goes over the whole text. -/
theorem argsMarkerFrom?_textBytes {t : List Char} (h : SeparatorsInside t) (index : Nat)
    (rest : List UInt8) :
    argsMarkerFrom? index 0 (textBytes t ++ rest) =
      argsMarkerFrom? (index + (textBytes t).length) 0 rest := by
  -- the search is never inside of an escape between two characters, so it owes no steps there
  induction t generalizing index with
  | nil => rfl
  | cons c t ih =>
    rw [textBytes_cons, List.append_assoc, List.length_append, ← Nat.add_assoc]
    cases hc : isSeparator c with
    | true =>
      have hnext := h.1 hc
      cases t with
      | nil => cases hnext
      | cons d t =>
        simp only [List.head?_cons, Option.any_some, Bool.and_eq_true, Bool.not_eq_true'] at hnext
        obtain ⟨b, s, hbytes, hdigit, hmarker⟩ := charBytes_eq_cons hnext.1 hnext.2
        rw [charBytes_separator hc, List.length_singleton, ← ih h.2, textBytes_cons, hbytes]
        refine argsMarkerFrom?_separator hdigit (fun heq => ?_) index
        have hhead := hmarker heq
        cases s with
        | nil => cases hhead
        | cons e s => exact hhead
    | false =>
      rw [(whole_charBytes hc).skip, ih h.2]

/-! ## Texts that lose a separator -/

/-- Bytes other than underscores stand for one character each. -/
theorem split_of_textBytes_eq_append {t : List Char} {bytes rest : List UInt8}
    (hne : ∀ b ∈ bytes, b ≠ underscore) (h : textBytes t = bytes ++ rest) :
    ∃ s r, t = s ++ r ∧ textBytes r = rest := by
  induction bytes generalizing t with
  | nil => exact ⟨[], t, rfl, h⟩
  | cons b bytes ih =>
    cases t with
    | nil => cases h
    | cons c t =>
      rw [textBytes_cons, List.cons_append] at h
      have hb := hne b List.mem_cons_self
      cases hc : isSeparator c with
      | true =>
        rw [charBytes_separator hc] at h
        exact absurd (List.cons.inj h).1.symm hb
      | false =>
        rcases charBytes_cases hc with ⟨-, hbytes⟩ | ⟨-, d, s, hbytes, -⟩
        · rw [hbytes, List.singleton_append, List.cons.injEq] at h
          obtain ⟨s, r, rfl, hr⟩ := ih (fun b' hb' => hne b' (List.mem_cons_of_mem _ hb')) h.2
          exact ⟨c :: s, r, rfl, hr⟩
        · rw [hbytes] at h
          exact absurd (List.cons.inj h).1.symm hb

/-- The escape of a number is read with the four bytes behind its `0`. -/
theorem exists_of_readUnits?_number {bytes : List UInt8} {us : List UInt16}
    (h : readUnits? (underscore :: 0x30 :: bytes) = some us) :
    ∃ a b c d rest u us', bytes = a :: b :: c :: d :: rest ∧ hexUnit? a b c d = some u ∧
      readUnits? rest = some us' ∧ us = u :: us' := by
  obtain ⟨a, b, c, d, rest, rfl⟩ : ∃ a b c d rest, bytes = a :: b :: c :: d :: rest := by
    rcases bytes with _ | ⟨a, _ | ⟨b, _ | ⟨c, _ | ⟨d, rest⟩⟩⟩⟩
    case cons.cons.cons.cons => exact ⟨a, b, c, d, rest, rfl⟩
    all_goals cases h
  rw [readUnits?_number] at h
  obtain ⟨u, hu, h⟩ := Option.bind_eq_some_iff.mp h
  obtain ⟨us', hus', rfl⟩ := Option.map_eq_some_iff.mp h
  exact ⟨a, b, c, d, rest, u, us', rfl, hu, hus', rfl⟩

/-- The escape of a number that a separator and `0` begin ends with a character of the text. -/
theorem of_readUnits?_number {t : List Char} {us : List UInt16}
    (h : readUnits? (underscore :: 0x30 :: textBytes t) = some us) :
    ∃ s r u us', t = s ++ r ∧ us = u :: us' ∧ readUnits? (textBytes r) = some us' := by
  obtain ⟨a, b, c, d, rest, u, us', hbytes, hu, hus', rfl⟩ := exists_of_readUnits?_number h
  have happend : textBytes t = [a, b, c, d] ++ rest := hbytes
  obtain ⟨s, r, rfl, rfl⟩ := split_of_textBytes_eq_append (ne_underscore_of_hexUnit? hu) happend
  exact ⟨s, r, u, us', rfl, rfl, hus'⟩

theorem isLowDigit_cases {d : Char} (h : isLowDigit d = true) :
    d = '0' ∨ d = '1' ∨ d = '2' ∨ d = '3' := by
  rw [isLowDigit_iff] at h
  simp only [← Char.toNat_inj, show '0'.toNat = 0x30 from rfl, show '1'.toNat = 0x31 from rfl,
    show '2'.toNat = 0x32 from rfl, show '3'.toNat = 0x33 from rfl]
  omega

/-- A separator and a low digit are read as one unit, maybe together with some characters behind
them; reading goes on with a character of the text. -/
theorem of_readUnits?_lowDigit {d : Char} (hd : isLowDigit d = true) {t : List Char}
    {us : List UInt16} (h : readUnits? (underscore :: textBytes (d :: t)) = some us) :
    ∃ s r u us', t = s ++ r ∧ us = u :: us' ∧ readUnits? (textBytes r) = some us' := by
  have hmark {b : UInt8} {u : UInt16} (hbytes : charBytes d = [b]) (hb : (b, u) ∈ marks) :
      ∃ s r u us', t = s ++ r ∧ us = u :: us' ∧ readUnits? (textBytes r) = some us' := by
    rw [textBytes_cons, hbytes, List.singleton_append, readUnits?_mark hb] at h
    obtain ⟨us', hus', rfl⟩ := Option.map_eq_some_iff.mp h
    exact ⟨[], t, u, us', rfl, rfl, hus'⟩
  rcases isLowDigit_cases hd with rfl | rfl | rfl | rfl
  · exact of_readUnits?_number h
  · exact hmark (b := 0x31) (u := 0x5F) rfl (by decide)
  · exact hmark (b := 0x32) (u := 0x3B) rfl (by decide)
  · exact hmark (b := 0x33) (u := 0x5B) rfl (by decide)

theorem length_encodeChar_of_isSeparator {c : Char} (h : isSeparator c = true) :
    (Utf16.encodeChar c).length = 1 := by
  rcases isSeparator_iff.mp h with rfl | rfl <;> rfl

/-- A text comes back with at most as many units as it had, and with as many only if each of its
separators stays. -/
theorem length_readUnits? {t : List Char} {us : List UInt16}
    (h : readUnits? (textBytes t) = some us) :
    us.length ≤ (Utf16.encode t).length ∧
      (us.length = (Utf16.encode t).length → SeparatorsKept t) := by
  -- a low digit takes characters away from the text, so the tail is not enough to induct on
  induction hn : t.length using Nat.strongRecOn generalizing t us with
  | ind n ih =>
    cases t with
    | nil =>
      cases h
      exact ⟨Nat.le_refl _, fun _ => trivial⟩
    | cons c t =>
      rw [List.length_cons] at hn
      rw [textBytes_cons] at h
      rw [Utf16.length_encode_cons]
      cases hc : isSeparator c with
      | false =>
        rw [(whole_charBytes hc).read] at h
        obtain ⟨us', hus', rfl⟩ := Option.map_eq_some_iff.mp h
        obtain ⟨hle, hkept⟩ := ih t.length (by omega) hus' rfl
        rw [List.length_append]
        refine ⟨by omega, fun heq => ⟨fun hsep => ?_, hkept (by omega)⟩⟩
        rw [hc] at hsep
        cases hsep
      | true =>
        rw [charBytes_separator hc, List.singleton_append] at h
        rw [length_encodeChar_of_isSeparator hc]
        cases hnext : t.head?.any isLowDigit with
        | false =>
          rw [readUnits?_separator (by rwa [head?_textBytes])] at h
          obtain ⟨us', hus', rfl⟩ := Option.map_eq_some_iff.mp h
          obtain ⟨hle, hkept⟩ := ih t.length (by omega) hus' rfl
          rw [List.length_cons]
          refine ⟨by omega, fun heq => ⟨fun _ => ?_, hkept (by omega)⟩⟩
          show (!t.head?.any isLowDigit) = true
          rw [hnext]
          rfl
        | true =>
          cases t with
          | nil => cases hnext
          | cons d t =>
            obtain ⟨s, r, u, us', rfl, rfl, hus'⟩ := of_readUnits?_lowDigit hnext h
            rw [List.length_cons, List.length_append] at hn
            obtain ⟨hle, -⟩ := ih r.length (by omega) hus' rfl
            -- the separator and the digit had a unit each
            have hdigit := Utf16.length_encodeChar_pos d
            rw [List.length_cons, Utf16.length_encode_cons, Utf16.length_encode_append]
            omega

end JniLink.Symbol
