import JniLink.Toml.Reader

/-!
# Strings that are written are read back

A string is written in one of four styles, and whichever it is, the reader takes exactly that text off
the front and leaves what stands behind. Between quotes this is so because every character that the
reader would take for something else is escaped; between apostrophes the style is chosen only for texts
that can stand there as they are. Behind a triple mark up to two marks belong to the text, so no mark may
follow the string.
-/

namespace JniLink.Toml

open JniLink.Text

/-! ## Characters -/

theorem ne_of_isClass {p : Char → Bool} {c d : Char} (hc : p c = true) (hd : p d = false) : c ≠ d :=
  fun h => Bool.false_ne_true (hd.symm.trans (h ▸ hc))

theorem lt_of_isControl {c : Char} (h : isControl c = true) : c.toNat < 0x80 := by
  simp only [isControl, Bool.or_eq_true, Bool.and_eq_true, decide_eq_true_eq, beq_iff_eq] at h
  omega

theorem isVisible_of_isControl {c : Char} (h : isControl c = false) (hbreak : c ≠ '\n') :
    isVisible c = true := by
  simp only [isControl, Bool.or_eq_false_iff, Bool.and_eq_false_iff, decide_eq_false_iff_not,
    bne_eq_false_iff_eq, beq_eq_false_iff_ne] at h
  simp only [isVisible, Bool.or_eq_true, Bool.and_eq_true, decide_eq_true_eq, beq_iff_eq, bne_iff_ne]
  obtain ⟨(hsmall | htab) | heq, hdelete⟩ := h
  · exact .inr ⟨Nat.not_lt.mp hsmall, hdelete⟩
  · exact .inl htab
  · exact absurd heq hbreak

/-- No line ends in front of a character that is no line break. -/
theorem newline?_eq_none {t : List Char} (h : ∀ c ∈ t.head?, c ≠ '\n' ∧ c ≠ '\r') :
    newline? t = none := by
  unfold newline?
  split
  · exact absurd rfl (h '\n' rfl).1
  · exact absurd rfl (h '\r' rfl).2
  · rfl

/-! ## Escapes -/

/-- An escape of a character behind its backslash: it is read wherever it stands, and is not taken for
the end of a line. -/
structure IsEscape (c : Char) (escape : List Char) : Prop where
  read (rest : List Char) : escape? (escape ++ rest) = some (c, escape.length)
  not_break (rest : List Char) : newline? (skipSpaces (escape ++ rest)) = none

theorem digit?_upper {n : Nat} (h : n < 16) : Hex.digit? (Hex.upper n) = some n := by
  decide +revert

theorem number?_four_upper {n : Nat} (h : n < 65536) :
    Hex.number? (Hex.four Hex.upper n) = some n := by
  have hdigit (m : Nat) : Hex.digit? (Hex.upper (m % 16)) = some (m % 16) :=
    digit?_upper (Nat.mod_lt m (by decide))
  simp only [Hex.number?, Hex.four, List.foldl_cons, List.foldl_nil, hdigit, Option.bind_eq_bind,
    Option.bind_some, Option.pure_def, Option.some.injEq]
  omega

theorem isEscape_unicode {c : Char} (h : c.toNat < 0xD800) :
    IsEscape c ('u' :: Hex.four Hex.upper c.toNat) where
  read rest := by
    have hlength : ¬ (Hex.four Hex.upper c.toNat ++ rest).length < 4 := by
      rw [List.length_append]
      exact Nat.not_lt.mpr (Nat.le_add_right 4 _)
    have htake : (Hex.four Hex.upper c.toNat ++ rest).take 4 = Hex.four Hex.upper c.toNat := rfl
    have hscalar : scalarChar? c.toNat = some c := by
      rw [scalarChar?, if_pos (.inl h), Char.ofNat_toNat]
    rw [List.cons_append, escape?, if_neg hlength, htake, number?_four_upper (by omega),
      Option.bind_some, hscalar]
    rfl
  not_break rest := rfl

theorem isEscape_quote : IsEscape '"' ['"'] := ⟨fun _ => rfl, fun _ => rfl⟩

/-- A character stands between quotes as it is, or behind a backslash. -/
theorem escapeChar_cases (c : Char) :
    (escapeChar c = [c] ∧ isVisible c = true ∧ c ≠ '"' ∧ c ≠ '\\') ∨
      ∃ escape, escapeChar c = '\\' :: escape ∧ IsEscape c escape := by
  unfold escapeChar
  split
  iterate 7 exact .inr ⟨_, rfl, fun _ => rfl, fun _ => rfl⟩
  next _ hbreak _ _ hquote hbackslash =>
    split
    next hcontrol =>
      have hsmall := lt_of_isControl hcontrol
      exact .inr ⟨_, rfl, isEscape_unicode (by omega)⟩
    next hcontrol =>
      exact .inl ⟨rfl, isVisible_of_isControl (Bool.eq_false_iff.mpr hcontrol) hbreak, hquote,
        hbackslash⟩

/-! ## Strings of one line -/

theorem basic?_skip (escape rest : List Char) :
    basic? escape.length (escape ++ rest) = basic? 0 rest := by
  induction escape with
  | nil => rfl
  | cons c escape ih => exact ih

theorem basic?_escape {c : Char} {escape : List Char} (h : IsEscape c escape) (rest : List Char) :
    basic? 0 ('\\' :: (escape ++ rest)) = (basic? 0 rest).map fun (t, rest) => (c :: t, rest) := by
  rw [basic?, h.read]
  dsimp only
  rw [basic?_skip]

theorem basic?_plain {c : Char} (hvisible : isVisible c = true) (hquote : c ≠ '"')
    (hbackslash : c ≠ '\\') (rest : List Char) :
    basic? 0 (c :: rest) = (basic? 0 rest).map fun (t, rest) => (c :: t, rest) := by
  rw [basic?, if_pos hvisible]
  · exact fun h => hquote h
  · exact fun h => hbackslash h

/-- A text with all of its escapes is read up to the closing quote. -/
theorem basic?_flatMap_escapeChar (t rest : List Char) :
    basic? 0 (t.flatMap escapeChar ++ '"' :: rest) = some (t, rest) := by
  induction t with
  | nil => rfl
  | cons c t ih =>
    rw [List.flatMap_cons, List.append_assoc]
    rcases escapeChar_cases c with ⟨hplain, hvisible, hquote, hbackslash⟩ | ⟨escape, hescape, h⟩
    · rw [hplain, List.singleton_append, basic?_plain hvisible hquote hbackslash, ih]
      rfl
    · rw [hescape, List.cons_append, basic?_escape h, ih]
      rfl

/-- A text without apostrophes is read up to the closing one. -/
theorem literal?_append {t : List Char} (h : ∀ c ∈ t, c ≠ '\'' ∧ isVisible c = true)
    (rest : List Char) : literal? (t ++ '\'' :: rest) = some (t, rest) := by
  induction t with
  | nil => rfl
  | cons c t ih =>
    obtain ⟨⟨hmark, hvisible⟩, ht⟩ := List.forall_mem_cons.mp h
    rw [List.cons_append, literal?, if_pos hvisible, ih ht]
    · rfl
    · exact hmark

/-! ## Strings of several lines -/

theorem basicLines?_skip (escape rest : List Char) :
    basicLines? (.escape escape.length) (escape ++ rest) = basicLines? (.escape 0) rest := by
  induction escape with
  | nil => rfl
  | cons c escape ih => exact ih

/-- Behind an escape the text goes on. -/
theorem basicLines?_escape_zero (t : List Char) : basicLines? (.escape 0) t = basicLines? .text t := by
  induction t with
  | nil => rfl
  | cons c t ih =>
    have hescape : ¬ (Spot.escape 0 = .gap ∧ (isSpace c = true ∨ c = '\n')) := fun h => nomatch h.1
    have htext : ¬ (Spot.text = .gap ∧ (isSpace c = true ∨ c = '\n')) := fun h => nomatch h.1
    rw [basicLines?, basicLines?, ih, if_neg hescape, if_neg htext]
    · nofun
    · nofun

theorem isVisible_or_break_ne_return {c : Char} (h : (isVisible c || c == '\n') = true) :
    c ≠ '\r' := by
  rintro rfl
  exact absurd h (by decide)

theorem basicLines?_plain {c : Char} (hplain : (isVisible c || c == '\n') = true)
    (hbackslash : c ≠ '\\') {rest : List Char} (hmark : c = '"' → rest.take 2 ≠ ['"', '"']) :
    basicLines? .text (c :: rest) = (basicLines? .text rest).map fun (t, rest) => (c :: t, rest) := by
  rw [basicLines?, if_neg (fun h => nomatch h.1),
    if_neg fun h => isVisible_or_break_ne_return hplain h.1,
    if_neg fun h => hmark h.1 h.2, if_neg hbackslash, if_pos hplain]
  nofun

theorem basicLines?_escape {c : Char} {escape : List Char} (h : IsEscape c escape)
    (rest : List Char) :
    basicLines? .text ('\\' :: (escape ++ rest)) =
      (basicLines? .text rest).map fun (t, rest) => (c :: t, rest) := by
  rw [basicLines?, if_neg (fun h => nomatch h.1), if_neg (fun h => nomatch h.1),
    if_neg (fun h => nomatch h.1), if_pos rfl, h.not_break, if_neg (by decide), h.read]
  · dsimp only
    rw [basicLines?_skip, basicLines?_escape_zero]
  · nofun

/-- At most two marks behind a closing mark belong to the text. -/
theorem marksBehind_replicate {mark : Char} {count : Nat} {rest : List Char} (hcount : count ≤ 2)
    (hrest : rest.head? ≠ some mark) :
    marksBehind mark (List.replicate count mark ++ rest) = (List.replicate count mark, rest) := by
  have hhead (c : Char) (r : List Char) (h : rest = c :: r) : c ≠ mark := by
    rintro rfl
    exact hrest (h ▸ rfl)
  match count, hcount with
  | 0, _ =>
    match rest, hhead with
    | [], _ => rfl
    | [c], h => rw [List.replicate_zero, List.nil_append, marksBehind, if_neg (h c [] rfl)]
    | c :: d :: r, h =>
      rw [List.replicate_zero, List.nil_append, marksBehind, if_neg (h c (d :: r) rfl)]
  | 1, _ =>
    match rest, hhead with
    | [], _ => simp [marksBehind]
    | c :: r, h => simp [marksBehind, h c r rfl]
  | 2, _ => simp [marksBehind, List.replicate]

theorem replicate_append_marks (mark : Char) (count : Nat) (rest : List Char) :
    List.replicate count mark ++ mark :: mark :: mark :: rest =
      mark :: mark :: mark :: (List.replicate count mark ++ rest) := by
  induction count with
  | zero => rfl
  | succ count ih => rw [List.replicate_succ, List.cons_append, ih, List.cons_append]

theorem basicLines?_close {count : Nat} {rest : List Char} (hcount : count ≤ 2)
    (hrest : rest.head? ≠ some '"') :
    basicLines? .text (List.replicate count '"' ++ '"' :: '"' :: '"' :: rest) =
      some (List.replicate count '"', rest) := by
  rw [replicate_append_marks, ← marksBehind_replicate hcount hrest]
  simp [basicLines?]

/-- What is written for a text begins with a backslash or with the first character of the text. -/
theorem of_head?_escapeLines {quotes : Nat} {c d : Char} {t tail : List Char}
    (h : (escapeLines quotes (c :: t) ++ tail).head? = some d) :
    d = '\\' ∨ d = c ∧ c ≠ '\r' ∧ (c = '"' → quotes < 2) := by
  unfold escapeLines at h
  split at h
  next heq => cases heq
  next heq =>
    cases heq
    exact .inr ⟨(Option.some.inj h).symm, by decide, fun h => absurd h (by decide)⟩
  next heq =>
    cases heq
    split at h
    next hquotes => exact .inr ⟨(Option.some.inj h).symm, by decide, fun _ => hquotes⟩
    next => exact .inl (Option.some.inj h).symm
  next heq =>
    cases heq
    rcases escapeChar_cases c with ⟨hplain, hvisible, hquote, -⟩ | ⟨escape, hescape, -⟩
    · rw [hplain] at h
      exact .inr ⟨(Option.some.inj h).symm, isVisible_or_break_ne_return (by rw [hvisible]; rfl),
        fun h => absurd h hquote⟩
    · rw [hescape] at h
      exact .inl (Option.some.inj h).symm

theorem of_head?_escapeLines_quote {quotes : Nat} {c : Char} {t tail : List Char}
    (h : (escapeLines quotes (c :: t) ++ tail).head? = some '"') : c = '"' ∧ quotes < 2 := by
  rcases of_head?_escapeLines h with hbackslash | ⟨rfl, -, hquotes⟩
  · exact absurd hbackslash (by decide)
  · exact ⟨rfl, hquotes rfl⟩

theorem of_take_two_escapeLines {quotes : Nat} {t rest : List Char} (hquotes : 1 ≤ quotes)
    (h : (escapeLines quotes t ++ '"' :: rest).take 2 = ['"', '"']) :
    t = [] ∨ t = ['"'] ∧ quotes = 1 := by
  cases t with
  | nil => exact .inl rfl
  | cons c t =>
    have hfirst : (escapeLines quotes (c :: t) ++ '"' :: rest).head? = some '"' := by
      obtain ⟨_, _, htext⟩ := List.exists_cons_of_ne_nil
        (List.append_ne_nil_of_right_ne_nil (escapeLines quotes (c :: t)) (List.cons_ne_nil '"' rest))
      rw [htext] at h ⊢
      rw [(List.cons.inj h).1, List.head?_cons]
    obtain ⟨rfl, hlt⟩ := of_head?_escapeLines_quote hfirst
    cases t with
    | nil => exact .inr ⟨rfl, by omega⟩
    | cons d t =>
      rw [escapeLines, if_pos hlt, List.cons_append, List.take_succ_cons] at h
      have hsecond : (escapeLines (quotes + 1) (d :: t) ++ '"' :: rest).head? = some '"' := by
        obtain ⟨_, _, htext⟩ := List.exists_cons_of_ne_nil (List.append_ne_nil_of_right_ne_nil
          (escapeLines (quotes + 1) (d :: t)) (List.cons_ne_nil '"' rest))
        rw [htext] at h ⊢
        rw [(List.cons.inj (List.cons.inj h).2).1, List.head?_cons]
      have := (of_head?_escapeLines_quote hsecond).2
      omega

/-- A text between triple quotes is read up to the closing ones, whatever count of quotes is taken to
stand right before it. -/
theorem basicLines?_escapeLines {quotes : Nat} (t : List Char) {rest : List Char}
    (hrest : rest.head? ≠ some '"') :
    basicLines? .text (escapeLines quotes t ++ '"' :: '"' :: '"' :: rest) = some (t, rest) := by
  fun_induction escapeLines quotes t with
  | case1 => exact @basicLines?_close 0 rest (by decide) hrest
  | case2 quotes t ih =>
    rw [List.cons_append, basicLines?_plain (by decide) (by decide) fun h => absurd h (by decide), ih]
    rfl
  | case3 quotes t hquotes ih =>
    by_cases hclose : (escapeLines (quotes + 1) t ++ '"' :: '"' :: '"' :: rest).take 2 = ['"', '"']
    · -- the reader meets the closing mark before the last quotes of the text
      rcases of_take_two_escapeLines (by omega) hclose with rfl | ⟨rfl, hone⟩
      · exact @basicLines?_close 1 rest (by decide) hrest
      · rw [hone]
        exact @basicLines?_close 2 rest (by decide) hrest
    · rw [List.cons_append, basicLines?_plain (by decide) (by decide) fun _ => hclose, ih]
      rfl
  | case4 quotes t hquotes ih =>
    exact (basicLines?_escape isEscape_quote (escapeLines 0 t ++ _)).trans (by rw [ih]; rfl)
  | case5 quotes c t hbreak hquote ih =>
    rw [List.append_assoc]
    rcases escapeChar_cases c with ⟨hplain, hvisible, -, hbackslash⟩ | ⟨escape, hescape, h⟩
    · rw [hplain, List.singleton_append, basicLines?_plain (by rw [hvisible]; rfl) hbackslash
        fun h => absurd h hquote, ih]
      rfl
    · rw [hescape, List.cons_append, basicLines?_escape h, ih]
      rfl

theorem literalLines?_close {count : Nat} {rest : List Char} (hcount : count ≤ 2)
    (hrest : rest.head? ≠ some '\'') :
    literalLines? (List.replicate count '\'' ++ '\'' :: '\'' :: '\'' :: rest) =
      some (List.replicate count '\'', rest) := by
  rw [replicate_append_marks, ← marksBehind_replicate hcount hrest, literalLines?]

theorem literalLines?_plain {c : Char} (hplain : (isVisible c || c == '\n') = true) {rest : List Char}
    (hmark : c = '\'' → rest.take 2 ≠ ['\'', '\'']) :
    literalLines? (c :: rest) = (literalLines? rest).map fun (t, rest) => (c :: t, rest) := by
  rw [literalLines?, if_pos hplain]
  · rintro r rfl rfl
    exact hmark rfl rfl
  · rintro r rfl -
    exact isVisible_or_break_ne_return hplain rfl

theorem le_longestRun (mark : Char) (run : Nat) (t : List Char) : run ≤ longestRun mark run t := by
  induction t generalizing run with
  | nil => exact Nat.le_refl run
  | cons c t ih =>
    rw [longestRun]
    split
    · exact Nat.le_of_succ_le (ih (run + 1))
    · exact Nat.le_max_left _ _

theorem of_take_two_of_longestRun {mark : Char} {run : Nat} {t rest : List Char} (hrun : 1 ≤ run)
    (hlongest : longestRun mark run t ≤ 2) (h : (t ++ mark :: rest).take 2 = [mark, mark]) :
    t = [] ∨ t = [mark] := by
  match t with
  | [] => exact .inl rfl
  | [c] => exact .inr (congrArg (fun l => [l.headD c]) h)
  | c :: d :: t =>
    obtain ⟨rfl, rfl⟩ : c = mark ∧ d = mark := by simpa using h
    rw [longestRun, if_pos rfl, longestRun, if_pos rfl] at hlongest
    have := le_longestRun d (run + 1 + 1) t
    omega

/-- A text between triple apostrophes is read up to the closing ones if there are never three in a row;
`run` counts those that stand right before it. -/
theorem literalLines?_append {run : Nat} {t rest : List Char}
    (hrun : longestRun '\'' run t ≤ 2) (hplain : ∀ c ∈ t, (isVisible c || c == '\n') = true)
    (hrest : rest.head? ≠ some '\'') :
    literalLines? (t ++ '\'' :: '\'' :: '\'' :: rest) = some (t, rest) := by
  induction t generalizing run with
  | nil => exact @literalLines?_close 0 rest (by decide) hrest
  | cons c t ih =>
    obtain ⟨hc, ht⟩ := List.forall_mem_cons.mp hplain
    rw [longestRun] at hrun
    by_cases hmark : c = '\''
    · subst hmark
      rw [if_pos rfl] at hrun
      by_cases hclose : (t ++ '\'' :: '\'' :: '\'' :: rest).take 2 = ['\'', '\'']
      · rcases of_take_two_of_longestRun (by omega) hrun hclose with rfl | rfl
        · exact @literalLines?_close 1 rest (by decide) hrest
        · exact @literalLines?_close 2 rest (by decide) hrest
      · rw [List.cons_append, literalLines?_plain hc fun _ => hclose, ih hrun ht]
        rfl
    · rw [if_neg hmark, Nat.max_le] at hrun
      rw [List.cons_append, literalLines?_plain hc fun h => absurd h hmark, ih hrun.2 ht]
      rfl

/-! ## The styles of a string -/

theorem write_quotes (t rest : List Char) :
    StringStyle.quotes.write t ++ rest = '"' :: (t.flatMap escapeChar ++ '"' :: rest) := by
  rw [StringStyle.write, List.cons_append, List.cons_append, List.append_assoc, List.singleton_append]

theorem write_apostrophes (t rest : List Char) :
    StringStyle.apostrophes.write t ++ rest = '\'' :: (t ++ '\'' :: rest) := by
  rw [StringStyle.write, List.cons_append, List.cons_append, List.append_assoc, List.singleton_append]

theorem head?_flatMap_escapeChar_ne {t tail : List Char} {c : Char} :
    ((c :: t).flatMap escapeChar ++ tail).head? ≠ some '"' := by
  rw [List.flatMap_cons, List.append_assoc]
  rcases escapeChar_cases c with ⟨hplain, -, hquote, -⟩ | ⟨escape, hescape, -⟩
  · rw [hplain]
    exact fun h => hquote (Option.some.inj h)
  · rw [hescape]
    exact fun h => absurd (Option.some.inj h) (by decide)

theorem string?_quotes (t : List Char) {rest : List Char} (hrest : rest.head? ≠ some '"') :
    string? (StringStyle.quotes.write t ++ rest) = some (t, rest) := by
  rw [write_quotes, string?, basic?_flatMap_escapeChar]
  rintro r hr
  cases t with
  | nil => exact hrest ((congrArg List.head? (List.cons.inj hr).2).trans rfl)
  | cons c t => exact head?_flatMap_escapeChar_ne ((congrArg List.head? hr).trans rfl)

theorem of_holds_apostrophes {t : List Char} (h : StringStyle.apostrophes.holds t = true) :
    ∀ c ∈ t, c ≠ '\'' ∧ isVisible c = true := by
  intro c hc
  rw [StringStyle.holds, Bool.not_eq_true'] at h
  have hbad := List.any_eq_false.mp h c hc
  simp only [Bool.or_eq_true, not_or, Bool.not_eq_true, beq_iff_eq] at hbad
  exact ⟨hbad.2, isVisible_of_isControl hbad.1.1 hbad.1.2⟩

theorem string?_apostrophes {t rest : List Char} (h : StringStyle.apostrophes.holds t = true)
    (hrest : rest.head? ≠ some '\'') :
    string? (StringStyle.apostrophes.write t ++ rest) = some (t, rest) := by
  have hplain := of_holds_apostrophes h
  rw [write_apostrophes, string?, literal?_append hplain]
  rintro r hr
  cases t with
  | nil => exact hrest ((congrArg List.head? (List.cons.inj hr).2).trans rfl)
  | cons c t => exact (hplain c List.mem_cons_self).1 (List.cons.inj hr).1

/-- The break behind an opening mark is dropped, and if there is none nothing else is taken for it. -/
theorem skipBreak_openingBreak {t text : List Char}
    (h : '\n' ∉ t → ∀ c ∈ text.head?, c ≠ '\n' ∧ c ≠ '\r') :
    skipBreak (openingBreak t ++ text) = text := by
  rw [openingBreak]
  split
  · rfl
  next hbreak => rw [List.nil_append, skipBreak, newline?_eq_none (h hbreak), Option.getD_none]

theorem string?_tripleQuotes (t : List Char) {rest : List Char} (hrest : rest.head? ≠ some '"') :
    string? (StringStyle.tripleQuotes.write t ++ rest) = some (t, rest) := by
  have hwrite : StringStyle.tripleQuotes.write t ++ rest = '"' :: '"' :: '"' ::
      (openingBreak t ++ (escapeLines 0 t ++ '"' :: '"' :: '"' :: rest)) := by
    simp [StringStyle.write]
  have hhead : '\n' ∉ t → ∀ c ∈ (escapeLines 0 t ++ '"' :: '"' :: '"' :: rest).head?,
      c ≠ '\n' ∧ c ≠ '\r' := by
    intro hbreak c hc
    cases t with
    | nil =>
      cases hc
      decide
    | cons d t =>
      rcases of_head?_escapeLines hc with rfl | ⟨rfl, hreturn, -⟩
      · decide
      · exact ⟨fun h => hbreak (h ▸ List.mem_cons_self), hreturn⟩
  rw [hwrite, string?, skipBreak_openingBreak hhead, basicLines?_escapeLines t hrest]

theorem string?_tripleApostrophes {t rest : List Char}
    (h : StringStyle.tripleApostrophes.holds t = true) (hrest : rest.head? ≠ some '\'') :
    string? (StringStyle.tripleApostrophes.write t ++ rest) = some (t, rest) := by
  have hwrite : StringStyle.tripleApostrophes.write t ++ rest = '\'' :: '\'' :: '\'' ::
      (openingBreak t ++ (t ++ '\'' :: '\'' :: '\'' :: rest)) := by
    simp [StringStyle.write]
  rw [StringStyle.holds, Bool.and_eq_true, Bool.not_eq_true', List.any_eq_false, decide_eq_true_eq]
    at h
  have hplain : ∀ c ∈ t, (isVisible c || c == '\n') = true := by
    intro c hc
    by_cases hbreak : c = '\n'
    · rw [hbreak]
      rfl
    · rw [isVisible_of_isControl (Bool.eq_false_iff.mpr (h.1 c hc)) hbreak, Bool.true_or]
  have hhead : '\n' ∉ t → ∀ c ∈ (t ++ '\'' :: '\'' :: '\'' :: rest).head?,
      c ≠ '\n' ∧ c ≠ '\r' := by
    intro hbreak c hc
    cases t with
    | nil =>
      cases hc
      decide
    | cons d t =>
      cases hc
      exact ⟨fun h => hbreak (h ▸ List.mem_cons_self),
        isVisible_or_break_ne_return (hplain c List.mem_cons_self)⟩
  rw [hwrite, string?, skipBreak_openingBreak hhead, literalLines?_append h.2 hplain hrest]

/-- A string is read back in the style in which it was written. -/
theorem string?_writeString (text : String) {rest : List Char} (hquote : rest.head? ≠ some '"')
    (hapostrophe : rest.head? ≠ some '\'') :
    string? (writeString text ++ rest) = some (text.toList, rest) := by
  have hread {style : StringStyle} (h : style = .quotes ∨ style = .tripleQuotes ∨
      style.holds text.toList = true) :
      string? (style.write text.toList ++ rest) = some (text.toList, rest) := by
    cases style with
    | quotes => exact string?_quotes _ hquote
    | tripleQuotes => exact string?_tripleQuotes _ hquote
    | apostrophes =>
      exact string?_apostrophes (h.resolve_left nofun |>.resolve_left nofun) hapostrophe
    | tripleApostrophes =>
      exact string?_tripleApostrophes (h.resolve_left nofun |>.resolve_left nofun) hapostrophe
  rw [writeString, StringStyle.ofText]
  cases hstyle : List.find? (StringStyle.holds text.toList)
      [.quotes, .apostrophes, .tripleQuotes, .tripleApostrophes] with
  | some style => exact hread (.inr (.inr (List.find?_some hstyle)))
  | none =>
    rw [Option.getD_none]
    split
    · exact hread (.inr (.inl rfl))
    · exact hread (.inl rfl)

/-! ## Names -/

theorem name?_bare {name : String} (hne : name.toList ≠ [])
    (hname : ∀ c ∈ name.toList, isBareChar c = true) {rest : List Char}
    (hrest : ∀ c ∈ rest.head?, isBareChar c = false) :
    name? (name.toList ++ rest) = some (name, rest) := by
  have hstop : rest.takeWhile isBareChar = [] ∧ rest.dropWhile isBareChar = rest := by
    cases rest with
    | nil => exact ⟨rfl, rfl⟩
    | cons c rest =>
      have hc := Bool.eq_false_iff.mp (hrest c rfl)
      exact ⟨List.takeWhile_cons_of_neg hc, List.dropWhile_cons_of_neg hc⟩
  have htake : (name.toList ++ rest).takeWhile isBareChar = name.toList := by
    rw [List.takeWhile_append_of_pos hname, hstop.1, List.append_nil]
  have hdrop : (name.toList ++ rest).dropWhile isBareChar = rest := by
    rw [List.dropWhile_append_of_pos hname, hstop.2]
  obtain ⟨c, t, ht⟩ := List.exists_cons_of_ne_nil hne
  have hc : isBareChar c = true := hname c (ht ▸ List.mem_cons_self)
  unfold name?
  split
  next heq =>
    rw [ht] at heq
    cases (List.cons.inj heq).1
    exact absurd hc (by decide)
  next heq =>
    rw [ht] at heq
    cases (List.cons.inj heq).1
    exact absurd hc (by decide)
  next =>
    rw [htake, hdrop, ht]
    exact congrArg (fun name => some (name, rest)) (ht ▸ String.ofList_toList)

/-- A name of a key is read back if what stands behind could not belong to a bare one. -/
theorem name?_writeName (name : String) {rest : List Char}
    (hrest : ∀ c ∈ rest.head?, isBareChar c = false) :
    name? (writeName name ++ rest) = some (name, rest) := by
  have hquotes : name? (StringStyle.quotes.write name.toList ++ rest) = some (name, rest) := by
    rw [write_quotes, name?, basic?_flatMap_escapeChar, Option.map_some]
    exact congrArg (fun name => some (name, rest)) String.ofList_toList
  rw [writeName]
  split
  next hbare => exact name?_bare hbare.1 (List.all_eq_true.mp hbare.2) hrest
  · split
    · exact hquotes
    · split
      next hholds =>
        rw [write_apostrophes, name?, literal?_append (of_holds_apostrophes hholds), Option.map_some]
        exact congrArg (fun name => some (name, rest)) String.ofList_toList
      · exact hquotes

end JniLink.Toml
