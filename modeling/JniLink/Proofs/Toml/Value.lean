import JniLink.Proofs.Toml.Text

/-!
# Values that are written are read back

Strings, numbers without a sign, and arrays of them: the values that generated documents hold. A number is
tried as a date and as a float before it is read as an integer; neither is found, since the first
character that is no digit is the one behind the number. An array stands on one line, or has a line for
each of its elements, between which spaces and line breaks are skipped.
-/

namespace JniLink.Toml

open JniLink.Text

/-- What stands behind a value in a document: the end of its line, a comma, or a closing bracket. -/
def IsEnd (rest : List Char) : Prop :=
  ∃ c r, rest = c :: r ∧ (c = '\n' ∨ c = ',' ∨ c = ']')

theorem IsEnd.head?_ne {rest : List Char} (h : IsEnd rest) {c : Char}
    (hc : c ≠ '\n' ∧ c ≠ ',' ∧ c ≠ ']') : rest.head? ≠ some c := by
  obtain ⟨d, r, rfl, hd⟩ := h
  intro heq
  cases heq
  rcases hd with h | h | h
  · exact hc.1 h
  · exact hc.2.1 h
  · exact hc.2.2 h

/-! ## Digits -/

/-- The decimal digits of a number begin with a zero only if they are one. -/
theorem toDigits_cases (n : Nat) :
    Nat.toDigits 10 n = ['0'] ∨ ∃ c t, Nat.toDigits 10 n = c :: t ∧ c ≠ '0' := by
  induction n using Nat.strongRecOn with
  | ind n ih =>
    rw [Nat.toDigits_eq_if (by decide)]
    split
    next hlt =>
      by_cases hzero : n.digitChar = '0'
      · exact .inl (by rw [hzero])
      · exact .inr ⟨_, [], rfl, hzero⟩
    next hge =>
      rcases ih (n / 10) (by omega) with hzero | ⟨c, t, hdigits, hc⟩
      · have : n / 10 = 0 := by
          rw [← Nat.ofDigitChars_ten_toDigits (n := n / 10), hzero]
          rfl
        omega
      · exact .inr ⟨c, _, by rw [hdigits, List.cons_append], hc⟩

theorem digit?_of_isDigit {c : Char} (h : c.isDigit = true) :
    Hex.digit? c = some (c.toNat - '0'.toNat) := by
  rw [Char.isDigit, Bool.and_eq_true, decide_eq_true_eq, decide_eq_true_eq] at h
  exact if_pos h

theorem numberOf_toDigits (n : Nat) : numberOf 10 (Nat.toDigits 10 n) = n := by
  have hfold (digits : List Char) (h : ∀ c ∈ digits, c.isDigit = true) (start : Nat) :
      digits.foldl (fun n c => n * 10 + (Hex.digit? c).getD 0) start =
        Nat.ofDigitChars 10 digits start := by
    induction digits generalizing start with
    | nil => rfl
    | cons c digits ih =>
      obtain ⟨hc, hdigits⟩ := List.forall_mem_cons.mp h
      rw [List.foldl_cons, ih hdigits, digit?_of_isDigit hc, Option.getD_some, Nat.mul_comm]
      rfl
  rw [numberOf, hfold _ fun c hc => Nat.isDigit_of_mem_toDigits (by decide) (by decide) hc,
    Nat.ofDigitChars_ten_toDigits]

section Digits

variable {digits r : List Char} {c : Char}

theorem digits?_append (hdigits : ∀ c ∈ digits, c.isDigit = true) (hc : c.isDigit = false)
    (hunderscore : c ≠ '_') (due : Bool) (hdue : due = true → digits ≠ []) :
    digits? Char.isDigit due (digits ++ c :: r) = some (digits, c :: r) := by
  induction digits generalizing due with
  | nil =>
    have : due = false := Bool.eq_false_iff.mpr fun h => hdue h rfl
    rw [List.nil_append, digits?, if_neg (Bool.eq_false_iff.mp hc), this, if_neg Bool.false_ne_true,
      if_neg hunderscore]
  | cons d digits ih =>
    obtain ⟨hd, hrest⟩ := List.forall_mem_cons.mp hdigits
    rw [List.cons_append, digits?, if_pos hd, ih hrest false nofun]
    rfl

/-- A field of digits with a mark behind it is not found among digits with another mark behind
them. -/
theorem not_field?_stripStart? {width low high n : Nat} {mark : Char} {rest rest' : List Char}
    (hdigits : ∀ c ∈ digits, c.isDigit = true) (hc : c.isDigit = false)
    (hmark : mark.isDigit = false) (hne : mark ≠ c)
    (hfield : field? width low high (digits ++ c :: r) = some (n, rest)) :
    stripStart? [mark] rest ≠ some rest' := by
  intro hstrip
  unfold field? at hfield
  dsimp only at hfield
  split at hfield
  next hall =>
    obtain ⟨hlength, hall, -⟩ := hall
    obtain rfl := (Prod.mk.inj (Option.some.inj hfield)).2
    rw [stripStart?_eq_some_iff] at hstrip
    have hwidth : width ≤ digits.length := by
      refine Nat.not_lt.mp fun hlong => ?_
      obtain ⟨more, hmore⟩ := Nat.exists_eq_add_of_lt hlong
      have hmem : c ∈ (digits ++ c :: r).take width := by
        rw [hmore, Nat.add_assoc, List.take_length_add_append, List.take_succ_cons]
        exact List.mem_append_right _ List.mem_cons_self
      exact absurd (List.all_eq_true.mp hall c hmem) (Bool.eq_false_iff.mp hc)
    rw [List.drop_append_of_le_length hwidth] at hstrip
    cases hdrop : digits.drop width with
    | nil =>
      rw [hdrop] at hstrip
      exact hne (List.cons.inj hstrip).1.symm
    | cons d digits' =>
      rw [hdrop] at hstrip
      have hd := hdigits d (List.mem_of_mem_drop (hdrop ▸ List.mem_cons_self))
      rw [(List.cons.inj hstrip).1, hmark] at hd
      cases hd
  · cases hfield

theorem date?_eq_none (hdigits : ∀ c ∈ digits, c.isDigit = true) (hc : c.isDigit = false)
    (hne : c ≠ '-') : date? (digits ++ c :: r) = none := by
  unfold date?
  cases hyear : field? 4 0 9999 (digits ++ c :: r) with
  | none => rfl
  | some found =>
    have hmark : stripStart? ['-'] found.2 = none := Option.eq_none_iff_forall_ne_some.mpr
      fun _ => not_field?_stripStart? hdigits hc (by decide) (Ne.symm hne) hyear
    simp only [Option.bind_eq_bind, Option.bind_some, hmark, Option.bind_none]

theorem time?_eq_none (hdigits : ∀ c ∈ digits, c.isDigit = true) (hc : c.isDigit = false)
    (hne : c ≠ ':') : time? (digits ++ c :: r) = none := by
  unfold time?
  cases hhour : field? 2 0 23 (digits ++ c :: r) with
  | none => rfl
  | some found =>
    have hmark : stripStart? [':'] found.2 = none := Option.eq_none_iff_forall_ne_some.mpr
      fun _ => not_field?_stripStart? hdigits hc (by decide) (Ne.symm hne) hhour
    simp only [Option.bind_eq_bind, Option.bind_some, hmark, Option.bind_none]

end Digits

section Integer

variable {rest : List Char}

theorem isDigit_of_mem_toDigits {n : Nat} {c : Char} (h : c ∈ Nat.toDigits 10 n) :
    c.isDigit = true :=
  Nat.isDigit_of_mem_toDigits (by decide) (by decide) h

theorem IsEnd.exists_eq (h : IsEnd rest) : ∃ c r, rest = c :: r ∧ c.isDigit = false ∧
    c ∉ ['_', '-', ':', '.', 'e', 'E', 'x', 'o', 'b'] := by
  obtain ⟨c, r, rfl, rfl | rfl | rfl⟩ := h <;> exact ⟨_, r, rfl, by decide, by decide⟩

theorem whole?_toDigits (n : Nat) (hrest : IsEnd rest) :
    whole? (Nat.toDigits 10 n ++ rest) = some (Nat.toDigits 10 n, rest) := by
  obtain ⟨c, r, rfl, hc, hmarks⟩ := hrest.exists_eq
  rcases toDigits_cases n with hzero | ⟨d, t, hdigits, hd⟩
  · rw [hzero]
    rfl
  · have hall : ∀ c ∈ d :: t, c.isDigit = true := fun c hc => isDigit_of_mem_toDigits (hdigits ▸ hc)
    rw [hdigits, List.cons_append, whole?, ← List.cons_append,
      digits?_append hall hc (by rintro rfl; simp at hmarks) true fun _ => List.cons_ne_nil d t]
    intro r' h
    exact hd (List.cons.inj h).1

theorem datetime?_toDigits (n : Nat) (hrest : IsEnd rest) :
    datetime? (Nat.toDigits 10 n ++ rest) = none := by
  obtain ⟨c, r, rfl, hc, hmarks⟩ := hrest.exists_eq
  have hall : ∀ c ∈ Nat.toDigits 10 n, c.isDigit = true := fun _ => isDigit_of_mem_toDigits
  rw [datetime?, date?_eq_none hall hc (by rintro rfl; simp at hmarks),
    time?_eq_none hall hc (by rintro rfl; simp at hmarks)]
  rfl

theorem floatTail?_eq_none (hrest : IsEnd rest) : floatTail? rest = none := by
  obtain ⟨c, r, rfl, rfl | rfl | rfl⟩ := hrest <;> rfl

theorem exists_toDigits_eq_cons (n : Nat) :
    ∃ c t, Nat.toDigits 10 n = c :: t ∧ c.isDigit = true := by
  obtain ⟨c, t, hdigits⟩ := List.exists_cons_of_ne_nil (@Nat.toDigits_ne_nil n 10)
  exact ⟨c, t, hdigits, isDigit_of_mem_toDigits (hdigits ▸ List.mem_cons_self)⟩

theorem sign_toDigits (n : Nat) :
    sign (Nat.toDigits 10 n ++ rest) = ([], Nat.toDigits 10 n ++ rest) := by
  obtain ⟨c, t, hdigits, hc⟩ := exists_toDigits_eq_cons n
  rw [hdigits, List.cons_append, sign]
  · exact fun r h => ne_of_isClass hc (by decide) (List.cons.inj h).1
  · exact fun r h => ne_of_isClass hc (by decide) (List.cons.inj h).1

theorem stripStart?_toDigits (n : Nat) {c : Char} (hc : c.isDigit = false) (word : List Char) :
    stripStart? (c :: word) (Nat.toDigits 10 n ++ rest) = none := by
  obtain ⟨d, t, hdigits, hd⟩ := exists_toDigits_eq_cons n
  rw [hdigits, List.cons_append, stripStart?, if_neg (ne_of_isClass hd hc).symm]

theorem float?_toDigits (n : Nat) (hrest : IsEnd rest) :
    float? (Nat.toDigits 10 n ++ rest) = none := by
  have hinf : stripStart? "inf".toList (Nat.toDigits 10 n ++ rest) = none :=
    stripStart?_toDigits n (by decide) _
  have hnan : stripStart? "nan".toList (Nat.toDigits 10 n ++ rest) = none :=
    stripStart?_toDigits n (by decide) _
  unfold float?
  rw [sign_toDigits]
  simp only [whole?_toDigits n hrest, floatTail?_eq_none hrest, hinf, hnan, Option.bind_eq_bind,
    Option.bind_some, Option.bind_none, Option.map_none, Option.orElse_eq_orElse, Option.orElse_none]

theorem toDigits_append_ne (n : Nat) (hrest : IsEnd rest) {mark : Char} {r : List Char}
    (hmark : mark ∈ ['x', 'o', 'b']) : Nat.toDigits 10 n ++ rest ≠ '0' :: mark :: r := by
  obtain ⟨c, r', rfl, -, hmarks⟩ := hrest.exists_eq
  intro h
  rcases toDigits_cases n with hzero | ⟨d, t, hdigits, hd⟩
  · rw [hzero] at h
    rw [(List.cons.inj (List.cons.inj h).2).1] at hmarks
    exact hmarks (List.mem_append_right ['_', '-', ':', '.', 'e', 'E'] hmark)
  · rw [hdigits] at h
    exact hd (List.cons.inj h).1

theorem integer?_toDigits {n : Nat} (hn : n ≤ 9223372036854775807) (hrest : IsEnd rest) :
    integer? (Nat.toDigits 10 n ++ rest) = some (.integer n, rest) := by
  have hbound : bounded? (n : Int) = some (.integer n) := if_pos (by omega)
  unfold integer?
  split
  next h => exact absurd h (toDigits_append_ne n hrest (by decide))
  next h => exact absurd h (toDigits_append_ne n hrest (by decide))
  next h => exact absurd h (toDigits_append_ne n hrest (by decide))
  next =>
    rw [sign_toDigits]
    simp only [whole?_toDigits n hrest, numberOf_toDigits, Option.bind_eq_bind, Option.bind_some,
      List.nil_eq, reduceCtorEq, if_false, hbound, Option.pure_def]

end Integer

/-! ## Scalars -/

/-- A value that documents are generated from: a string, or a number without a sign that fits. -/
inductive Value.IsScalar : Value → Prop
  | string (text : String) : IsScalar (.string text)
  | integer {n : Nat} (h : n ≤ 9223372036854775807) : IsScalar (.integer n)

/-- A character that a scalar may begin with. -/
def isOpening (c : Char) : Bool := c == '"' || c == '\'' || c.isDigit

theorem exists_writeString_eq_cons (text : String) :
    ∃ c t, writeString text = c :: t ∧ (c = '"' ∨ c = '\'') := by
  rw [writeString]
  cases StringStyle.ofText text.toList
  · exact ⟨_, _, rfl, .inl rfl⟩
  · exact ⟨_, _, rfl, .inr rfl⟩
  · exact ⟨_, _, rfl, .inl rfl⟩
  · exact ⟨_, _, rfl, .inr rfl⟩

variable {v : Value} {rest : List Char}

theorem write_integer (n : Nat) : Value.write (.integer n) = Nat.toDigits 10 n := by
  rw [Value.write]
  exact (congrArg String.toList Nat.repr_eq_ofList_toDigits).trans String.toList_ofList

theorem Value.IsScalar.exists_write_eq_cons (h : v.IsScalar) :
    ∃ c t, v.write = c :: t ∧ isOpening c = true := by
  cases h with
  | string text =>
    obtain ⟨c, t, ht, rfl | rfl⟩ := exists_writeString_eq_cons text
    · exact ⟨_, t, by rw [Value.write, ht], rfl⟩
    · exact ⟨_, t, by rw [Value.write, ht], rfl⟩
  | @integer n h =>
    obtain ⟨c, t, ht, hc⟩ := exists_toDigits_eq_cons n
    exact ⟨c, t, by rw [write_integer, ht], by rw [isOpening, hc, Bool.or_true]⟩

theorem scalar?_of_isDigit {c : Char} (hc : c.isDigit = true) (t : List Char) :
    scalar? (c :: t) = (datetime? (c :: t) <|> float? (c :: t) <|> integer? (c :: t)) := by
  have hne {d : Char} (hd : d.isDigit = false) : c ≠ d := ne_of_isClass hc hd
  rw [scalar?]
  · exact fun r h => hne (by decide) (List.cons.inj h).1
  · exact fun r h => hne (by decide) (List.cons.inj h).1
  · exact fun r h => hne (by decide) (List.cons.inj h).1
  · exact fun r h => hne (by decide) (List.cons.inj h).1

theorem scalar?_write (h : v.IsScalar) (hrest : IsEnd rest) :
    scalar? (v.write ++ rest) = some (v, rest) := by
  cases h with
  | string text =>
    have hread := string?_writeString text (hrest.head?_ne (by decide)) (hrest.head?_ne (by decide))
    obtain ⟨c, t, ht, hc⟩ := exists_writeString_eq_cons text
    rw [Value.write]
    rw [ht, List.cons_append] at hread ⊢
    rcases hc with rfl | rfl
    · rw [scalar?, hread]
      exact congrArg (fun text => some (Value.string text, rest)) String.ofList_toList
    · rw [scalar?, hread]
      exact congrArg (fun text => some (Value.string text, rest)) String.ofList_toList
  | @integer n h =>
    obtain ⟨c, t, ht, hc⟩ := exists_toDigits_eq_cons n
    have hnumber := scalar?_of_isDigit hc (t ++ rest)
    rw [← List.cons_append, ← ht, datetime?_toDigits n hrest, float?_toDigits n hrest,
      integer?_toDigits h hrest] at hnumber
    rw [write_integer]
    exact hnumber

/-! ## Between elements -/

/-- A character that neither spaces, nor a comment, nor a line break begins with. -/
def isSolid (c : Char) : Bool := !isSpace c && c != '#' && c != '\n' && c != '\r'

/-- Characters of a class that has none of those are solid. -/
theorem isSolid_of_isClass {p : Char → Bool} {c : Char} (hc : p c = true)
    (hp : ∀ d ∈ [' ', '\t', '#', '\n', '\r'], p d = false) : isSolid c = true := by
  have hne : ∀ d ∈ [' ', '\t', '#', '\n', '\r'], c ≠ d := fun d hd => ne_of_isClass hc (hp d hd)
  simp only [List.forall_mem_cons] at hne
  simp [isSolid, isSpace, hne]

theorem isSolid_of_isOpening {c : Char} (h : isOpening c = true) : isSolid c = true :=
  isSolid_of_isClass h (by decide)

section Between

variable {c : Char} {r spaces : List Char}

theorem skipSpaces_append (hspaces : ∀ d ∈ spaces, isSpace d = true) (hc : isSolid c = true) :
    skipSpaces (spaces ++ c :: r) = c :: r := by
  have hspace : isSpace c = false := by
    simp only [isSolid, Bool.and_eq_true, Bool.not_eq_true'] at hc
    exact hc.1.1.1
  rw [skipSpaces, List.dropWhile_append_of_pos hspaces,
    List.dropWhile_cons_of_neg (Bool.eq_false_iff.mp hspace)]

theorem skipSpaces_solid (hc : isSolid c = true) : skipSpaces (c :: r) = c :: r :=
  @skipSpaces_append c r [] nofun hc

theorem newline?_solid (hc : isSolid c = true) : newline? (c :: r) = none := by
  simp only [isSolid, Bool.and_eq_true, bne_iff_ne] at hc
  refine newline?_eq_none ?_
  rintro d hd
  cases hd
  exact ⟨hc.1.2, hc.2⟩

theorem skipComment_solid (hc : isSolid c = true) : skipComment (c :: r) = c :: r := by
  simp only [isSolid, Bool.and_eq_true, bne_iff_ne] at hc
  rw [skipComment]
  exact fun r h => hc.1.1.2 (List.cons.inj h).1

theorem skipBetween_append (bound : Nat) (hspaces : ∀ d ∈ spaces, isSpace d = true)
    (hc : isSolid c = true) : skipBetween (bound + 1) (spaces ++ c :: r) = c :: r := by
  rw [skipBetween, skipSpaces_append hspaces hc, skipComment_solid hc, newline?_solid hc]

theorem skipBetween_solid (hc : isSolid c = true) :
    skipBetween (c :: r).length (c :: r) = c :: r :=
  @skipBetween_append c r [] r.length nofun hc

/-- A line break and the indent of the next line are skipped. -/
theorem skipBetween_break (hspaces : ∀ d ∈ spaces, isSpace d = true) (hc : isSolid c = true) :
    skipBetween ('\n' :: (spaces ++ c :: r)).length ('\n' :: (spaces ++ c :: r)) = c :: r := by
  rw [List.length_cons, skipBetween]
  change skipBetween (spaces ++ c :: r).length (spaces ++ c :: r) = c :: r
  rw [List.length_append, List.length_cons, ← Nat.add_assoc, skipBetween_append _ hspaces hc]

end Between

/-! ## Arrays -/

/-- A value is read off the front of every text in which it stands. -/
structure Reads (value : List Char → Option (Value × List Char)) (v : Value) : Prop where
  opening : ∃ c t, v.write = c :: t ∧ isOpening c = true
  read {rest : List Char} (h : IsEnd rest) : value (v.write ++ rest) = some (v, rest)

/-- The lines of an array's elements. -/
def elementLines (vs : List Value) : List Char :=
  vs.flatMap fun v => "    ".toList ++ v.write ++ ",\n".toList

theorem length_le_elementLines (vs : List Value) : vs.length ≤ (elementLines vs).length := by
  induction vs with
  | nil => exact Nat.le_refl 0
  | cons v vs ih =>
    have hlines : elementLines (v :: vs) =
        "    ".toList ++ v.write ++ ",\n".toList ++ elementLines vs := rfl
    rw [hlines, List.length_append, List.length_append, List.length_cons]
    have hline : (",\n".toList).length = 2 := rfl
    omega

section Elements

variable {value : List Char → Option (Value × List Char)} {bound : Nat} {t : List Char}

theorem elements?_close (h : skipBetween t.length t = ']' :: rest) :
    elements? value (bound + 1) t = some ([], rest) := by
  rw [elements?, h]
  rfl

/-- Behind an element the sign that follows it says whether there are more. -/
theorem elements?_of_value {c : Char} {r : List Char} (h : skipBetween t.length t = c :: r)
    (hc : c ≠ ']') (hvalue : value (c :: r) = some (v, rest)) :
    elements? value (bound + 1) t =
      match skipBetween rest.length rest with
      | ']' :: rest => some ([v], rest)
      | ',' :: rest => (elements? value bound rest).map fun (vs, rest) => (v :: vs, rest)
      | _ => none := by
  rw [elements?, h]
  dsimp only
  split
  next heq => exact absurd (List.cons.inj heq).1 hc
  next => exact hvalue ▸ rfl

theorem elements?_comma {c : Char} {r : List Char} (h : skipBetween t.length t = c :: r)
    (hc : c ≠ ']') (hvalue : value (c :: r) = some (v, ',' :: rest)) :
    elements? value (bound + 1) t =
      (elements? value bound rest).map fun (vs, rest) => (v :: vs, rest) := by
  rw [elements?_of_value h hc hvalue, skipBetween_solid (by decide)]
  rfl

theorem elements?_last {c : Char} {r : List Char} (h : skipBetween t.length t = c :: r)
    (hc : c ≠ ']') (hvalue : value (c :: r) = some (v, ']' :: rest)) :
    elements? value (bound + 1) t = some ([v], rest) := by
  rw [elements?_of_value h hc hvalue, skipBetween_solid (by decide)]
  rfl

theorem ne_bracket_of_isOpening {c : Char} (h : isOpening c = true) :
    c ≠ ']' ∧ c ≠ '[' ∧ c ≠ '\x7b' :=
  ⟨ne_of_isClass h (by decide), ne_of_isClass h (by decide), ne_of_isClass h (by decide)⟩

/-- An array with a line for each element is read back. -/
theorem elements?_lines {vs : List Value} (hbound : vs.length < bound) (h : ∀ v ∈ vs, Reads value v) :
    elements? value bound ('\n' :: (elementLines vs ++ ']' :: rest)) = some (vs, rest) := by
  induction vs generalizing bound with
  | nil =>
    obtain ⟨bound, rfl⟩ := Nat.exists_eq_succ_of_ne_zero (Nat.ne_of_gt hbound)
    exact elements?_close (@skipBetween_break ']' rest [] nofun (by decide))
  | cons v vs ih =>
    obtain ⟨hv, hvs⟩ := List.forall_mem_cons.mp h
    obtain ⟨bound, rfl⟩ := Nat.exists_eq_succ_of_ne_zero (Nat.ne_of_gt (Nat.zero_lt_of_lt hbound))
    obtain ⟨c, t, hwrite, hc⟩ := hv.opening
    have hlines : elementLines (v :: vs) ++ ']' :: rest =
        [' ', ' ', ' ', ' '] ++ c :: (t ++ ',' :: '\n' :: (elementLines vs ++ ']' :: rest)) := by
      simp [elementLines, hwrite]
    have hvalue : value (c :: (t ++ ',' :: '\n' :: (elementLines vs ++ ']' :: rest))) =
        some (v, ',' :: '\n' :: (elementLines vs ++ ']' :: rest)) := by
      rw [← List.cons_append, ← hwrite]
      exact hv.read ⟨_, _, rfl, .inr (.inl rfl)⟩
    rw [hlines, elements?_comma (skipBetween_break (by decide) (isSolid_of_isOpening hc))
      (ne_bracket_of_isOpening hc).1 hvalue, ih (Nat.lt_of_succ_lt_succ hbound) hvs]
    rfl

end Elements

/-! ## Values of statements -/

/-- A value that generated documents hold: a scalar, or an array of scalars. -/
inductive Value.IsFlat : Value → Prop
  | scalar {v : Value} (h : v.IsScalar) : IsFlat v
  | array {vs : List Value} (h : ∀ v ∈ vs, v.IsScalar) : IsFlat (.array vs)

theorem value?_write_scalar (bound : Nat) (h : v.IsScalar) (hrest : IsEnd rest) :
    value? bound (v.write ++ rest) = some (v, rest) := by
  obtain ⟨c, t, hwrite, hc⟩ := h.exists_write_eq_cons
  have hread := scalar?_write h hrest
  rw [hwrite, List.cons_append] at hread ⊢
  cases bound with
  | zero => exact hread
  | succ bound =>
    obtain ⟨-, hbracket, hbrace⟩ := ne_bracket_of_isOpening hc
    rw [value?]
    · exact hread
    · exact fun r h => hbracket (List.cons.inj h).1
    · exact fun r h => hbrace (List.cons.inj h).1

theorem reads_value? (bound : Nat) (h : v.IsScalar) : Reads (value? bound) v :=
  ⟨h.exists_write_eq_cons, value?_write_scalar bound h⟩

/-- A flat value is read back as it stands in a statement. -/
theorem value?_writeLines (bound : Nat) (h : v.IsFlat) (hrest : IsEnd rest) :
    value? (bound + 1) (v.writeLines ++ rest) = some (v, rest) := by
  cases h with
  | scalar h =>
    have hlines : v.writeLines = v.write := by cases h <;> rfl
    rw [hlines]
    exact value?_write_scalar (bound + 1) h hrest
  | @array vs h =>
    have hread := fun v hv => reads_value? bound (h v hv)
    match vs, hread with
    | [], _ =>
      have hlines : (Value.array []).writeLines ++ rest = '[' :: ']' :: rest := by
        simp [Value.writeLines, Value.write, writeElements, joinWith]
      rw [hlines, value?, List.length_cons, elements?_close (skipBetween_solid (by decide))]
      rfl
    | [v], hread =>
      obtain ⟨c, t, hwrite, hc⟩ := (hread v List.mem_cons_self).opening
      have hvalue : value? bound (c :: (t ++ ']' :: rest)) = some (v, ']' :: rest) := by
        rw [← List.cons_append, ← hwrite]
        exact (hread v List.mem_cons_self).read ⟨_, _, rfl, .inr (.inr rfl)⟩
      have hlines : (Value.array [v]).writeLines ++ rest = '[' :: c :: (t ++ ']' :: rest) := by
        simp [Value.writeLines, Value.write, writeElements, joinWith, hwrite]
      rw [hlines, value?, List.length_cons,
        elements?_last (skipBetween_solid (isSolid_of_isOpening hc)) (ne_bracket_of_isOpening hc).1
          hvalue]
      rfl
    | first :: second :: vs, hread =>
      have hlines : (Value.array (first :: second :: vs)).writeLines ++ rest =
          '[' :: '\n' :: (elementLines (first :: second :: vs) ++ ']' :: rest) := by
        simp [Value.writeLines, elementLines]
      have hbound : (first :: second :: vs).length <
          ('[' :: '\n' :: (elementLines (first :: second :: vs) ++ ']' :: rest)).length := by
        have hlength := length_le_elementLines (first :: second :: vs)
        simp only [List.length_cons, List.length_append] at hlength ⊢
        omega
      rw [hlines, value?, elements?_lines hbound hread]
      rfl

end JniLink.Toml
