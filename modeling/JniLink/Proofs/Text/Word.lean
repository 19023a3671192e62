import JniLink.Proofs.Text.Split
import JniLink.Text.Word

/-!
# Words and blanks

A word character is no blank, and no sign that a host source sets between words. So what is made of
word characters is untouched by trimming and by a split at blanks.
-/

namespace JniLink.Text

/-- What holds of all characters of a text is decided along the text. Trying all characters there
are would do as well, and never end. -/
instance (priority := high) decidableForallMem (p : Char → Prop) [DecidablePred p]
    (t : List Char) : Decidable (∀ c ∈ t, p c) :=
  List.decidableBAll p t

/-! ## Word characters -/

theorem isAlphanum_iff {c : Char} : c.isAlphanum = true ↔
    65 ≤ c.toNat ∧ c.toNat ≤ 90 ∨ 97 ≤ c.toNat ∧ c.toNat ≤ 122 ∨ 48 ≤ c.toNat ∧ c.toNat ≤ 57 := by
  delta Char.isAlphanum Char.isAlpha Char.isUpper Char.isLower Char.isDigit
  simp only [Bool.or_eq_true, Bool.and_eq_true, decide_eq_true_eq, UInt32.le_iff_toNat_le,
    ge_iff_le]
  change ((65 ≤ c.toNat ∧ c.toNat ≤ 90) ∨ (97 ≤ c.toNat ∧ c.toNat ≤ 122)) ∨
    (48 ≤ c.toNat ∧ c.toNat ≤ 57) ↔ _
  exact or_assoc

theorem isWord_of_isAlphanum {c : Char} (h : c.isAlphanum = true) : isWord c = true := by
  have hlt : c.toNat < 0x80 := by
    rw [isAlphanum_iff] at h
    omega
  rw [isWord, if_pos hlt, isAsciiWord, h, Bool.true_or]

theorem isWord_of_isIdentifierStart {c : Char} (h : isIdentifierStart c = true) :
    isWord c = true := by
  rw [isIdentifierStart, Bool.or_eq_true, beq_iff_eq] at h
  rcases h with h | rfl
  · exact isWord_of_isAlphanum (by rw [Char.isAlphanum, h, Bool.true_or])
  · rfl

/-- The word characters lie in the gaps between the blanks. -/
theorem wordRanges_between_blanks : ∀ r ∈ wordRanges.toList,
    0x3000 < r.1 ∨ 0xA0 < r.1 ∧ r.2 < 0x1680 ∨ 0x1680 < r.1 ∧ r.2 < 0x2000 ∨
      0x200A < r.1 ∧ r.2 < 0x2028 ∨ 0x202F < r.1 ∧ r.2 < 0x205F ∨
      0x205F < r.1 ∧ r.2 < 0x3000 := by
  decide +kernel

theorem inRanges_wordRanges_eq_false {n : Nat}
    (h : n = 0x85 ∨ n = 0xA0 ∨ n = 0x1680 ∨ 0x2000 ≤ n ∧ n ≤ 0x200A ∨ n = 0x2028 ∨ n = 0x2029 ∨
      n = 0x202F ∨ n = 0x205F ∨ n = 0x3000) : inRanges wordRanges n = false := by
  rw [inRanges, ← Array.any_toList, List.any_eq_false]
  rintro ⟨low, high⟩ hr hn
  have hgap := wordRanges_between_blanks _ hr
  rw [Bool.and_eq_true, decide_eq_true_eq, decide_eq_true_eq] at hn
  omega

/-- A word character is not blank. -/
theorem isBlank_of_isWord {c : Char} (h : isWord c = true) : isBlank c = false := by
  rw [Bool.eq_false_iff]
  intro hblank
  simp only [isBlank, Bool.or_eq_true, Bool.and_eq_true, decide_eq_true_eq, beq_iff_eq] at hblank
  unfold isWord at h
  split at h
  next hlt =>
    rw [isAsciiWord, Bool.or_eq_true, beq_iff_eq, isAlphanum_iff] at h
    rcases h with h | rfl
    · omega
    · exact absurd hblank (by decide)
  next hle =>
    rw [inRanges_wordRanges_eq_false (by omega)] at h
    cases h

/-- A word character differs from any character that is none. -/
theorem ne_of_isWord {c d : Char} (h : isWord c = true) (hd : isWord d = false) : c ≠ d := by
  rintro rfl
  rw [h] at hd
  cases hd

theorem isWord_of_mem_toString {n : Nat} {c : Char} (h : c ∈ (toString n).toList) :
    isWord c = true := by
  rw [Nat.toString_eq_repr, Nat.repr_eq_ofList_toDigits, String.toList_ofList] at h
  have hdigit : c.isDigit = true := Nat.isDigit_of_mem_toDigits (by decide) (by decide) h
  exact isWord_of_isAlphanum (by rw [Char.isAlphanum, hdigit, Bool.or_true])

/-! ## Texts without blanks -/

theorem trimStart_append {w : List Char} (hw : ∀ c ∈ w, isBlank c = true) (t : List Char) :
    trimStart (w ++ t) = trimStart t :=
  List.dropWhile_append_of_pos hw

theorem trimStart_cons {c : Char} (h : isBlank c = false) (t : List Char) :
    trimStart (c :: t) = c :: t :=
  List.dropWhile_cons_of_neg (by rw [h]; decide)

theorem trimStart_eq_self {t : List Char} (h : ∀ c ∈ t.head?, isBlank c = false) :
    trimStart t = t := by
  cases t with
  | nil => rfl
  | cons c t => exact trimStart_cons (h c rfl) t

theorem isBlank_head?_append {s : List Char} (h : ∀ c ∈ s, isBlank c = false) (hne : s ≠ [])
    (t : List Char) : ∀ c ∈ (s ++ t).head?, isBlank c = false := by
  rw [List.head?_append_of_ne_nil s hne]
  exact fun c hc => h c (List.mem_of_mem_head? hc)

theorem trim_eq_self_of_ends {t : List Char} (hhead : ∀ c ∈ t.head?, isBlank c = false)
    (hlast : ∀ c ∈ t.getLast?, isBlank c = false) : trim t = t := by
  have hreverse : trimStart t.reverse = t.reverse :=
    trimStart_eq_self fun c hc => hlast c (by rwa [List.head?_reverse] at hc)
  rw [trim, trimStart_eq_self hhead, trimEnd, ← trimStart, hreverse, List.reverse_reverse]

theorem trim_eq_self {t : List Char} (h : ∀ c ∈ t, isBlank c = false) : trim t = t :=
  trim_eq_self_of_ends (fun c hc => h c (List.mem_of_mem_head? hc))
    fun c hc => h c (List.mem_of_getLast? hc)

/-- Blanks inside a text are left alone. -/
theorem trim_append_eq_self {s t : List Char} (hs : ∀ c ∈ s, isBlank c = false) (hne : s ≠ [])
    (u : List Char) (ht : ∀ c ∈ t, isBlank c = false) (hne' : t ≠ []) :
    trim (s ++ u ++ t) = s ++ u ++ t := by
  refine trim_eq_self_of_ends ?_ fun c hc => ht c ?_
  · rw [List.append_assoc]
    exact isBlank_head?_append hs hne _
  · rw [List.getLast?_append_of_ne_nil _ hne'] at hc
    exact List.mem_of_getLast? hc

/-- Blanks around a text go, and nothing else. -/
theorem trim_between_blanks {front s back : List Char} (hfront : ∀ c ∈ front, isBlank c = true)
    (hback : ∀ c ∈ back, isBlank c = true) (hne : s ≠ [])
    (hhead : ∀ c ∈ s.head?, isBlank c = false) (hlast : ∀ c ∈ s.getLast?, isBlank c = false) :
    trim (front ++ (s ++ back)) = s := by
  have hstart : trimStart (s ++ back) = s ++ back :=
    trimStart_eq_self fun c hc => hhead c (by rwa [List.head?_append_of_ne_nil s hne] at hc)
  have hreverse : trimStart (back.reverse ++ s.reverse) = s.reverse := by
    rw [trimStart_append fun c hc => hback c (List.mem_reverse.mp hc)]
    exact trimStart_eq_self fun c hc => hlast c (by rwa [List.head?_reverse] at hc)
  rw [trim, trimStart_append hfront, hstart, trimEnd, List.reverse_append, ← trimStart, hreverse,
    List.reverse_reverse]

theorem words_eq_singleton {t : List Char} (h : ∀ c ∈ t, isBlank c = false) (hne : t ≠ []) :
    words t = [t] := by
  rw [words, splitWhere_eq_singleton h]
  simp [hne]

/-- A blank stands between two texts of words. -/
theorem words_append_cons {c : Char} (hc : isBlank c = true) (s t : List Char) :
    words (s ++ c :: t) = words s ++ words t := by
  rw [words, splitWhere_append_cons hc, List.filter_append]
  rfl

theorem words_blanks_append {gap : List Char} (h : ∀ c ∈ gap, isBlank c = true) (t : List Char) :
    words (gap ++ t) = words t := by
  induction gap with
  | nil => rfl
  | cons c gap ih =>
    have hc : words (c :: (gap ++ t)) = words [] ++ words (gap ++ t) :=
      words_append_cons (h c List.mem_cons_self) [] _
    rw [List.cons_append, hc, ih fun d hd => h d (List.mem_cons_of_mem c hd)]
    rfl

/-- Any number of blanks but none does as well as one. -/
theorem words_append_blanks {gap : List Char} (h : ∀ c ∈ gap, isBlank c = true) (hne : gap ≠ [])
    (s t : List Char) : words (s ++ (gap ++ t)) = words s ++ words t := by
  obtain ⟨c, gap, rfl⟩ := List.exists_cons_of_ne_nil hne
  rw [List.cons_append, words_append_cons (h c List.mem_cons_self),
    words_blanks_append fun d hd => h d (List.mem_cons_of_mem c hd)]

theorem words_append_space {s t : List Char} (hs : ∀ c ∈ s, isBlank c = false) (hne : s ≠ [])
    (ht : ∀ c ∈ t, isBlank c = false) (hne' : t ≠ []) : words (s ++ ' ' :: t) = [s, t] := by
  rw [words_append_cons rfl, words_eq_singleton hs hne, words_eq_singleton ht hne']
  rfl

end JniLink.Text
