import JniLink.Proofs.Toml.Line
import JniLink.Proofs.Toml.Statement

/-!
# A document with another one behind it

What was read of a text is read as well if a line feed and another text stand behind it. Strings of
several lines, arrays and tables look past the line feed, so for them this holds only where something
was read: what they did not find may be found in the text behind.

So a document that is read goes on with the statements of the document behind it
(`documentStatements?_append`), whatever it ends with: a line, an open line, or a comment.
-/

namespace JniLink.Toml

open JniLink.Text

/-- A reader that reads the same with a line feed and anything else behind the text. -/
def ReadsOn {α : Type} (read : List Char → Option (α × List Char)) : Prop :=
  ∀ {t found}, read t = some found → ∀ u, read (t ++ '\n' :: u) = some (andLine u found)

theorem StopsAtLine.readsOn {α : Type} {read : List Char → Option (α × List Char)}
    (h : StopsAtLine read) : ReadsOn read := by
  intro t found hread u
  rw [h t u, hread]
  rfl

/-! ## Strings of several lines -/

theorem marksBehind_append {mark : Char} (hmark : mark ≠ '\n') (t u : List Char) :
    marksBehind mark (t ++ '\n' :: u) = andLine u (marksBehind mark t) := by
  match t with
  | [] =>
    cases u with
    | nil => exact if_neg (Ne.symm hmark)
    | cons d u => exact if_neg (Ne.symm hmark)
  | [a] =>
    by_cases ha : a = mark
    · rw [List.singleton_append, marksBehind, marksBehind, if_pos ha, if_pos ha, if_neg (Ne.symm hmark)]
      rfl
    · rw [List.singleton_append, marksBehind, marksBehind, if_neg ha, if_neg ha]
      rfl
  | a :: b :: r =>
    rw [List.cons_append, List.cons_append, marksBehind, marksBehind]
    split
    · split <;> rfl
    · rfl

theorem newline?_append {t rest : List Char} (h : newline? t = some rest) (u : List Char) :
    newline? (t ++ u) = some (rest ++ u) := by
  fun_cases newline? t with
  | case1 r | case2 r => cases h; rfl
  | case3 t hfeed hreturn =>
    rw [newline?.eq_3 t hfeed hreturn] at h
    cases h

theorem take_two_append (mark : Char) (hmark : mark ≠ '\n') (t u : List Char) :
    (t ++ '\n' :: u).take 2 = [mark, mark] ↔ t.take 2 = [mark, mark] := by
  match t with
  | [] =>
    refine iff_of_false (fun h => hmark ?_) nofun
    exact (List.cons.inj h).1.symm
  | [a] =>
    refine iff_of_false (fun h => hmark ?_) fun h => ?_
    · exact (List.cons.inj (List.cons.inj h).2).1.symm
    · cases (List.cons.inj h).2
  | a :: b :: r => rfl

/-- An escape is no end of a line. -/
theorem newline?_of_escape? {t : List Char} {found : Char × Nat} (h : escape? t = some found) :
    newline? (skipSpaces t) = none := by
  have hsolid {c : Char} {r : List Char} (hc : isSolid c = true) :
      newline? (skipSpaces (c :: r)) = none := by
    rw [skipSpaces_solid hc, newline?_solid hc]
  have hletter {c d : Char} (h : escapeLetter? c = some d) : isSolid c = true := by
    unfold escapeLetter? at h
    split at h
    iterate 7 rfl
    cases h
  fun_cases escape? t with
  | case1 r | case2 r | case3 r | case4 r => exact hsolid rfl
  | case5 c r hu hU =>
    rw [escape?.eq_3 _ _ hu hU, Option.map_eq_some_iff] at h
    obtain ⟨d, hd, -⟩ := h
    exact hsolid (hletter hd)
  | case6 => cases h

/-- A character in front of what is read on. -/
theorem map_cons_append {c : Char} {read read' : Option (List Char × List Char)} {u : List Char}
    {found : List Char × List Char}
    (h : read.map (fun (t, rest) => (c :: t, rest)) = some found)
    (hread : ∀ {found}, read = some found → read' = some (andLine u found)) :
    read'.map (fun (t, rest) => (c :: t, rest)) = some (andLine u found) := by
  obtain ⟨found, hfound, rfl⟩ := Option.map_eq_some_iff.mp h
  rw [hread hfound]
  rfl

theorem readsOn_basicLines? (spot : Spot) : ReadsOn (basicLines? spot) := by
  intro t found h u
  fun_induction basicLines? spot t generalizing found with
  | case1 => cases h
  | case2 skip c r ih => exact ih h
  -- a blank in a gap
  | case3 spot c r hspot hgap ih =>
    rw [List.cons_append, basicLines?.eq_3 _ _ _ hspot, if_pos hgap, ih h]
  -- the return of a line break
  | case4 spot c r hspot hgap hreturn ih =>
    have hhead : (r ++ '\n' :: u).head? = some '\n' := by rw [List.head?_append, hreturn.2]; rfl
    rw [List.cons_append, basicLines?.eq_3 _ _ _ hspot, if_neg hgap, if_pos ⟨hreturn.1, hhead⟩, ih h]
  -- the closing quotes
  | case5 spot c r hspot hgap hreturn hmark =>
    obtain ⟨rfl, htake⟩ := hmark
    have hlength : 2 ≤ r.length := by
      have := congrArg List.length htake
      rw [List.length_take] at this
      simp only [List.length_cons, List.length_nil] at this
      omega
    rw [List.cons_append, basicLines?.eq_3 _ _ _ hspot, if_neg hgap, if_neg (fun h => absurd h.1 (by decide)),
      if_pos ⟨rfl, (take_two_append _ (by decide) r u).mpr htake⟩, List.drop_append_of_le_length hlength,
      marksBehind_append (by decide), ← Option.some.inj h]
  -- a backslash at the end of a line
  | case6 spot r hspot hbreak hgap hreturn hmark ih =>
    have hbreak' : (newline? (skipSpaces (r ++ '\n' :: u))).isSome = true := by
      obtain ⟨rest, hrest⟩ := Option.isSome_iff_exists.mp hbreak
      rw [skipSpaces_append_line, newline?_append hrest]
      rfl
    rw [List.cons_append, basicLines?.eq_3 _ _ _ hspot, if_neg hgap, if_neg (fun h => absurd h.1 (by decide)),
      if_neg (fun h => absurd h.1 (by decide)), if_pos rfl, if_pos hbreak', ih h]
  -- an escape, which no line break behind the text turns into a gap
  | case7 spot r hspot hbreak c width hescape hgap hreturn hmark ih =>
    have hescape' : escape? (r ++ '\n' :: u) = some (c, width) := by rw [escape?_append, hescape]
    have hbreak' : ¬ (newline? (skipSpaces (r ++ '\n' :: u))).isSome = true := by
      rw [newline?_of_escape? hescape']
      exact Bool.false_ne_true
    rw [List.cons_append, basicLines?.eq_3 _ _ _ hspot, if_neg hgap, if_neg (fun h => absurd h.1 (by decide)),
      if_neg (fun h => absurd h.1 (by decide)), if_pos rfl, if_neg hbreak', hescape']
    exact map_cons_append h ih
  | case8 => cases h
  -- a character that stands for itself
  | case9 spot c r hspot hgap hreturn hmark hbackslash hvisible ih =>
    have hne := isVisible_or_break_ne_return hvisible
    rw [List.cons_append, basicLines?.eq_3 _ _ _ hspot, if_neg hgap, if_neg (fun h => hne h.1),
      if_neg (fun h => hmark ⟨h.1, (take_two_append _ (by decide) r u).mp h.2⟩), if_neg hbackslash,
      if_pos hvisible]
    exact map_cons_append h ih
  | case10 => cases h

theorem readsOn_literalLines? : ReadsOn literalLines? := by
  intro t found h u
  fun_induction literalLines? t generalizing found with
  | case1 => cases h
  | case2 r =>
    cases h
    exact congrArg some (marksBehind_append (by decide) r u)
  | case3 r ih => exact ih h
  | case4 c r hmarks hreturn hvisible ih =>
    have hne := isVisible_or_break_ne_return hvisible
    have hmarks' : ∀ r', c = '\'' → r ++ '\n' :: u = '\'' :: '\'' :: r' → False := fun r' hc =>
      append_ne_cons_cons (by decide) (by decide) (fun r'' => hmarks r'' hc) r'
    rw [List.cons_append, literalLines?.eq_4 _ _ hmarks' (fun _ hc => absurd hc hne), if_pos hvisible]
    exact map_cons_append h ih
  | case5 => cases h

/-- No line break is found at the front of a text with a line behind it if none is there already, unless
the text is a half of one. -/
theorem newline?_append_eq_none {t : List Char} (h : newline? t = none) (hne : t ≠ [])
    (hreturn : t ≠ ['\r']) (u : List Char) : newline? (t ++ '\n' :: u) = none := by
  apply newline?.eq_3
  · intro r heq
    obtain ⟨c, t, rfl⟩ := List.exists_cons_of_ne_nil hne
    rw [(List.cons.inj heq).1] at h
    cases h
  · intro r heq
    match t with
    | [] => exact hne rfl
    | [c] => exact hreturn (by rw [(List.cons.inj heq).1])
    | c :: d :: t =>
      obtain ⟨hc, htail⟩ := List.cons.inj heq
      rw [hc, (List.cons.inj htail).1] at h
      cases h

theorem skipBreak_append {t : List Char} (hne : t ≠ []) (hreturn : t ≠ ['\r']) (u : List Char) :
    skipBreak (t ++ '\n' :: u) = skipBreak t ++ '\n' :: u := by
  rw [skipBreak, skipBreak]
  cases h : newline? t with
  | none =>
    rw [newline?_append_eq_none h hne hreturn]
    rfl
  | some rest =>
    rw [newline?_append h]
    rfl

theorem readsOn_string? : ReadsOn string? := by
  intro t found h u
  have hbreak {read : List Char → Option (List Char × List Char)} (hread : ReadsOn read)
      (hempty : read [] = none) (hhalf : read ['\r'] = none) {r : List Char}
      (h : read (skipBreak r) = some found) :
      read (skipBreak (r ++ '\n' :: u)) = some (andLine u found) := by
    have hne : r ≠ [] := by
      rintro rfl
      cases hempty.symm.trans h
    have hreturn : r ≠ ['\r'] := by
      rintro rfl
      cases hhalf.symm.trans h
    rw [skipBreak_append hne hreturn, hread h]
  fun_cases string? t with
  | case1 r => exact hbreak (readsOn_basicLines? .text) rfl rfl h
  | case2 r hmarks =>
    have hmarks' := append_ne_cons_cons (u := u) (by decide) (by decide) hmarks
    rw [string?.eq_2 _ hmarks] at h
    rw [List.cons_append, string?.eq_2 _ hmarks', stopsAtLine_basic?.readsOn h]
  | case3 r => exact hbreak readsOn_literalLines? rfl rfl h
  | case4 r hmarks =>
    have hmarks' := append_ne_cons_cons (u := u) (by decide) (by decide) hmarks
    rw [string?.eq_4 _ hmarks] at h
    rw [List.cons_append, string?.eq_4 _ hmarks', stopsAtLine_literal?.readsOn h]
  | case5 t htriple hquote htriple' hmark =>
    rw [string?.eq_5 t htriple hquote htriple' hmark] at h
    cases h

/-! ## Values -/

/-- A reader of values: it reads on, and what it reads begins with no space, comment or line break. -/
structure IsValueReader (value : List Char → Option (Value × List Char)) : Prop where
  readsOn : ReadsOn value
  solid {t : List Char} {found : Value × List Char} (h : value t = some found) :
    ∃ c r, t = c :: r ∧ isSolid c = true

/-- Neither a date nor a number begins with a space, a comment or a line break. -/
theorem eq_none_of_not_solid {c : Char} (hc : isSolid c = false) (r : List Char) :
    datetime? (c :: r) = none ∧ float? (c :: r) = none ∧ integer? (c :: r) = none := by
  have hcases : c = ' ' ∨ c = '\t' ∨ c = '#' ∨ c = '\n' ∨ c = '\r' := by
    simp only [isSolid, isSpace, Bool.and_eq_false_iff, Bool.not_eq_false', Bool.or_eq_true,
      beq_iff_eq, bne_eq_false_iff_eq] at hc
    grind
  have hdigit : c.isDigit = false := by
    rcases hcases with rfl | rfl | rfl | rfl | rfl <;> rfl
  have hfield (width low high : Nat) : field? (width + 1) low high (c :: r) = none := by
    have hall : ¬ ((c :: r).take (width + 1)).all Char.isDigit = true := by
      rw [List.take_succ_cons, List.all_cons, hdigit]
      exact Bool.false_ne_true
    exact if_neg fun h => hall h.2.1
  have hdate : datetime? (c :: r) = none := by
    have hdate : date? (c :: r) = none := by rw [date?, hfield]; rfl
    have htime : time? (c :: r) = none := by rw [time?, hfield]; rfl
    rw [datetime?, hdate, htime]
    rfl
  refine ⟨hdate, ?_⟩
  rcases hcases with rfl | rfl | rfl | rfl | rfl <;> exact ⟨rfl, rfl⟩

theorem isValueReader_scalar? : IsValueReader scalar? where
  readsOn {t found} h u := by
    have hnumber : StopsAtLine fun t => datetime? t <|> float? t <|> integer? t :=
      stopsAtLine_datetime?.orElse (stopsAtLine_float?.orElse stopsAtLine_integer?)
    have hword {word : List Char} (hword : '\n' ∉ word) (b : Bool) :
        StopsAtLine fun t => (stripStart? word t).map (Value.boolean b, ·) := by
      intro t u
      dsimp only
      rw [stripStart?_append_cons hword]
      cases stripStart? word t <;> rfl
    have hstring {t : List Char} (h : (string? t).map (fun (text, r) =>
        (Value.string (String.ofList text), r)) = some found) :
        (string? (t ++ '\n' :: u)).map (fun (text, r) => (Value.string (String.ofList text), r)) =
          some (andLine u found) := by
      obtain ⟨read, hread, rfl⟩ := Option.map_eq_some_iff.mp h
      rw [readsOn_string? hread]
      rfl
    fun_cases scalar? t with
    | case1 r | case2 r => exact hstring h
    | case3 r => exact (hword (by decide) true).readsOn h u
    | case4 r => exact (hword (by decide) false).readsOn h u
    -- what no other reader takes begins with none of their marks, and with more behind it as well
    | case5 t hquote hmark htrue hfalse =>
      rw [scalar?.eq_5 t hquote hmark htrue hfalse] at h
      rw [scalar?.eq_5 _ (append_ne_cons (by decide) hquote) (append_ne_cons (by decide) hmark)
        (append_ne_cons (by decide) htrue) (append_ne_cons (by decide) hfalse)]
      exact hnumber.readsOn h u
  solid {t found} h := by
    cases t with
    | nil => cases h
    | cons c r =>
      refine ⟨c, r, rfl, ?_⟩
      cases hc : isSolid c with
      | true => rfl
      | false =>
        obtain ⟨hdate, hfloat, hinteger⟩ := eq_none_of_not_solid hc r
        have hne {d : Char} (hd : isSolid d = true) : ∀ r', c :: r = d :: r' → False := by
          intro r' heq
          rw [(List.cons.inj heq).1, hd] at hc
          cases hc
        rw [scalar?.eq_5 _ (hne rfl) (hne rfl) (hne rfl) (hne rfl), hdate, hfloat, hinteger] at h
        cases h

/-! ## Arrays and tables between braces -/

section Nested

variable {value : List Char → Option (Value × List Char)}

theorem skipComment_append_line (t u : List Char) :
    skipComment (t ++ '\n' :: u) = skipComment t ++ '\n' :: u := by
  fun_cases skipComment t with
  | case1 r => exact dropWhile_append_cons (by decide)
  | case2 t hmark => rw [skipComment.eq_2 _ (append_ne_cons (by decide) hmark)]

/-- What is skipped in front of a character that is kept is skipped with more text behind as well, and
with more steps at hand. -/
theorem skipBetween_append_line {bound bound' : Nat} {t r : List Char} {c : Char}
    (h : skipBetween bound t = c :: r) (hc : isSolid c = true) (hle : bound ≤ bound') (u : List Char) :
    skipBetween bound' (t ++ '\n' :: u) = c :: (r ++ '\n' :: u) := by
  induction bound generalizing bound' t with
  | zero =>
    obtain rfl : t = c :: r := h
    cases bound' with
    | zero => rfl
    | succ bound' => exact @skipBetween_append c _ [] bound' nofun hc
  | succ bound ih =>
    obtain ⟨bound', rfl⟩ : ∃ n, bound' = n + 1 := ⟨bound' - 1, by omega⟩
    rw [skipBetween] at h ⊢
    rw [skipSpaces_append_line, skipComment_append_line]
    split at h
    next rest hbreak =>
      rw [newline?_append hbreak]
      exact ih h (Nat.le_of_succ_le_succ hle)
    next hbreak =>
      rw [h, skipComment_solid hc, List.cons_append, newline?_solid hc]

theorem elements?_append (hvalue : IsValueReader value) {bound bound' : Nat} {t : List Char}
    {found : List Value × List Char} (h : elements? value bound t = some found) (hle : bound ≤ bound')
    (u : List Char) : elements? value bound' (t ++ '\n' :: u) = some (andLine u found) := by
  have hlength (t : List Char) : t.length ≤ (t ++ '\n' :: u).length := by
    rw [List.length_append]
    exact Nat.le_add_right _ _
  induction bound generalizing bound' t found with
  | zero => cases h
  | succ bound ih =>
    -- the longer text leaves room for more elements, so its bound is a larger one
    obtain ⟨bound', rfl⟩ : ∃ n, bound' = n + 1 := ⟨bound' - 1, by omega⟩
    rw [elements?] at h
    split at h
    next rest hclose =>
      cases h
      exact elements?_close (skipBetween_append_line hclose rfl (hlength t) u)
    next hopen =>
      split at h
      next => cases h
      next v rest hv =>
        obtain ⟨c, r, ht, hc⟩ := hvalue.solid hv
        have hbracket : c ≠ ']' := by
          rintro rfl
          exact hopen r ht
        have hv' := hvalue.readsOn hv u
        rw [ht, List.cons_append] at hv'
        rw [elements?_of_value (skipBetween_append_line ht hc (hlength t) u) hbracket hv']
        dsimp only [andLine]
        split at h
        next rest' hclose =>
          cases h
          rw [skipBetween_append_line hclose rfl (hlength rest)]
          rfl
        next rest' hcomma =>
          rw [skipBetween_append_line hcomma rfl (hlength rest)]
          obtain ⟨found', hfound, rfl⟩ := Option.map_eq_some_iff.mp h
          change (elements? value bound' (rest' ++ '\n' :: u)).map _ = _
          rw [ih hfound (Nat.le_of_succ_le_succ hle)]
          rfl
        next => cases h

theorem readsOn_pair? (hvalue : IsValueReader value) : ReadsOn (pair? value) := by
  intro t found h u
  simp only [pair?, Option.bind_eq_bind, Option.bind_eq_some_iff, Prod.exists] at h
  obtain ⟨names, r, hkey, r', hequals, v, rest, hv, h⟩ := h
  cases h
  simp only [pair?, Option.bind_eq_bind, stopsAtLine_key?.readsOn hkey, andLine, Option.bind_some,
    stripStart?_append_cons (by decide : '\n' ∉ ['=']), hequals, Option.map_some,
    skipSpaces_append_line, hvalue.readsOn hv]
  rfl

theorem entries?_append (hvalue : IsValueReader value) {bound bound' : Nat} {t : List Char}
    {found : List (List String × String × Value) × List Char}
    (h : entries? value bound t = some found) (hle : bound ≤ bound') (u : List Char) :
    entries? value bound' (t ++ '\n' :: u) = some (andLine u found) := by
  induction bound generalizing bound' t found with
  | zero => cases h
  | succ bound ih =>
    obtain ⟨bound', rfl⟩ : ∃ n, bound' = n + 1 := ⟨bound' - 1, by omega⟩
    rw [entries?] at h ⊢
    split at h
    next => cases h
    next entry rest hentry =>
      rw [readsOn_pair? hvalue hentry]
      dsimp only [andLine]
      rw [skipSpaces_append_line]
      split at h
      next rest' hclose =>
        cases h
        rw [hclose]
        rfl
      next rest' hcomma =>
        rw [hcomma]
        obtain ⟨found', hfound, rfl⟩ := Option.map_eq_some_iff.mp h
        change (entries? value bound' (rest' ++ '\n' :: u)).map _ = _
        rw [ih hfound (Nat.le_of_succ_le_succ hle)]
        rfl
      next => cases h

end Nested

/-- A value that is neither an array nor a table between braces is a scalar. -/
theorem value?_scalar {bound : Nat} {t : List Char} (hbracket : ∀ r, t = '[' :: r → False)
    (hbrace : ∀ r, t = '\x7b' :: r → False) : value? (bound + 1) t = scalar? t :=
  value?.eq_4 t bound hbracket hbrace

theorem readsOn_value? {bound : Nat} (ih : IsValueReader (value? bound)) :
    ReadsOn (value? (bound + 1)) := by
  intro t found h u
  have hlength (c : Char) (r : List Char) : (c :: r).length ≤ (c :: (r ++ '\n' :: u)).length := by
    rw [List.length_cons, List.length_cons, List.length_append]
    omega
  by_cases hbracket : ∃ r, t = '[' :: r
  · obtain ⟨r, rfl⟩ := hbracket
    obtain ⟨read, hread, rfl⟩ := Option.map_eq_some_iff.mp h
    rw [List.cons_append, value?, elements?_append ih hread (hlength '[' r)]
    rfl
  by_cases hbrace : ∃ r, t = '\x7b' :: r
  · obtain ⟨r, rfl⟩ := hbrace
    rw [value?] at h
    rw [List.cons_append, value?, skipSpaces_append_line]
    split at h
    next rest hclose =>
      cases h
      rw [hclose]
      rfl
    next hopen =>
      obtain ⟨read, hread, h⟩ := Option.bind_eq_some_iff.mp h
      split
      next rest hclose => exact (append_ne_cons (by decide) hopen rest hclose).elim
      next =>
        rw [entries?_append ih hread (hlength '\x7b' r)]
        obtain ⟨table, htable, h⟩ := Option.bind_eq_some_iff.mp h
        cases h
        simp only [Option.bind_eq_bind, Option.bind_some, andLine, htable]
        rfl
  rw [not_exists] at hbracket hbrace
  rw [value?_scalar hbracket hbrace] at h
  rw [value?_scalar (append_ne_cons (by decide) hbracket) (append_ne_cons (by decide) hbrace)]
  exact isValueReader_scalar?.readsOn h u

theorem isValueReader_value? (bound : Nat) : IsValueReader (value? bound) := by
  induction bound with
  | zero => exact isValueReader_scalar?
  | succ bound ih =>
    refine ⟨readsOn_value? ih, fun {t found} h => ?_⟩
    by_cases hbracket : ∃ r, t = '[' :: r
    · obtain ⟨r, rfl⟩ := hbracket
      exact ⟨_, r, rfl, rfl⟩
    by_cases hbrace : ∃ r, t = '\x7b' :: r
    · obtain ⟨r, rfl⟩ := hbrace
      exact ⟨_, r, rfl, rfl⟩
    rw [not_exists] at hbracket hbrace
    rw [value?_scalar hbracket hbrace] at h
    exact isValueReader_scalar?.solid h

/-! ## Lines -/

/-- The rest of a text with another line behind it, if the rest began on a line that was closed; the
other text alone, if the text ended with an open line. -/
def IsBehind (rest u rest' : List Char) : Prop :=
  rest' = rest ++ '\n' :: u ∨ rest = [] ∧ rest' = u

theorem lineEnd?_append {t rest : List Char} (h : lineEnd? t = some rest) (u : List Char) :
    ∃ rest', lineEnd? (t ++ '\n' :: u) = some rest' ∧ IsBehind rest u rest' := by
  rw [lineEnd?] at h
  rw [lineEnd?, skipSpaces_append_line, skipComment_append_line]
  split at h
  next hend =>
    cases h
    rw [hend]
    exact ⟨u, rfl, .inr ⟨rfl, rfl⟩⟩
  next hmore =>
    split
    next heq => exact absurd heq (List.append_ne_nil_of_right_ne_nil _ (List.cons_ne_nil _ _))
    next => exact ⟨rest ++ '\n' :: u, newline?_append h _, .inl rfl⟩

/-- A header, of a table or of an element, behind its opening brackets. -/
def header? (closing : List Char) (make : List String → Statement) (t : List Char) :
    Option (Statement × List Char) := do
  let (path, r) ← key? t
  return (make path, ← lineEnd? (← stripStart? closing r))

theorem header?_append {closing t rest : List Char} {make : List String → Statement} {st : Statement}
    (hclosing : '\n' ∉ closing) (h : header? closing make t = some (st, rest)) (u : List Char) :
    ∃ rest', header? closing make (t ++ '\n' :: u) = some (st, rest') ∧ IsBehind rest u rest' := by
  simp only [header?, Option.bind_eq_bind, Option.bind_eq_some_iff, Prod.exists] at h
  obtain ⟨path, r, hkey, r', hclose, rest', hend, h⟩ := h
  cases h
  obtain ⟨rest', hend', hbehind⟩ := lineEnd?_append hend u
  refine ⟨rest', ?_, hbehind⟩
  simp only [header?, Option.bind_eq_bind, stopsAtLine_key?.readsOn hkey, andLine, Option.bind_some,
    stripStart?_append_cons hclosing, hclose, Option.map_some, hend']
  rfl

theorem statement?_append {t rest : List Char} {st : Statement} (h : statement? t = some (st, rest))
    (u : List Char) :
    ∃ rest', statement? (t ++ '\n' :: u) = some (st, rest') ∧ IsBehind rest u rest' := by
  fun_cases statement? t with
  | case1 r => exact @header?_append "]]".toList r rest .element st (by decide) h u
  | case2 r hbracket =>
    have hbracket' := append_ne_cons (u := u) (by decide) hbracket
    rw [statement?.eq_2 _ hbracket] at h
    rw [List.cons_append, statement?.eq_2 _ hbracket']
    exact @header?_append "]".toList r rest .header st (by decide) h u
  | case3 t hbrackets hbracket =>
    rw [statement?.eq_3 _ hbrackets hbracket] at h
    rw [statement?.eq_3 _ (append_ne_cons_cons (by decide) (by decide) hbrackets)
      (append_ne_cons (by decide) hbracket)]
    simp only [Option.bind_eq_bind, Option.bind_eq_some_iff, Prod.exists] at h
    obtain ⟨path, name, value, r, hpair, rest', hend, h⟩ := h
    cases h
    obtain ⟨rest', hend', hbehind⟩ := lineEnd?_append hend u
    refine ⟨rest', ?_, hbehind⟩
    simp only [readsOn_pair? (isValueReader_value? _) hpair, andLine, Option.bind_eq_bind,
      Option.bind_some, hend']
    rfl

/-- No statement begins with a half of a line break. -/
theorem statement?_return (t : List Char) : statement? ('\r' :: t) = none := rfl

/-! ## Documents -/

theorem eq_nil_of_statements?_nil {bound : Nat} {sts : List Statement}
    (h : statements? bound [] = some sts) : sts = [] := by
  cases bound with
  | zero => cases h
  | succ bound => exact (Option.some.inj h).symm

/-- The statements of a document are followed by those of a document that begins on the next line. -/
theorem statements?_append {bound bound' : Nat} {t u : List Char} {sts sts' : List Statement}
    (h : statements? bound t = some sts) (hu : IsReadAs u sts') (hle : bound + u.length < bound') :
    statements? bound' (t ++ '\n' :: u) = some (sts ++ sts') := by
  induction bound generalizing bound' t sts with
  | zero => cases h
  | succ bound ih =>
    obtain ⟨bound', rfl⟩ : ∃ n, bound' = n + 1 := ⟨bound' - 1, by omega⟩
    -- the rest of the document, behind a comment or a statement, is followed by the other one too
    have hrest {rest rest' : List Char} {sts : List Statement} (h : statements? bound rest = some sts)
        (hbehind : IsBehind rest u rest') : statements? bound' rest' = some (sts ++ sts') := by
      rcases hbehind with rfl | ⟨rfl, rfl⟩
      · exact ih h (by omega)
      · rw [eq_nil_of_statements?_nil h]
        exact hu bound' (by omega)
    rw [statements?] at h
    rw [statements?, skipSpaces_append_line]
    split at h
    next hend =>
      cases h
      rw [hend]
      exact hu bound' (by omega)
    next r hcomment =>
      rw [hcomment]
      split at h
      next rest hend =>
        obtain ⟨rest', hend', hbehind⟩ := lineEnd?_append hend u
        simp only [List.cons_append] at hend' ⊢
        simp only [hend']
        exact hrest h hbehind
      next => cases h
    next hsome hnocomment =>
      split
      next heq => exact absurd heq (List.append_ne_nil_of_right_ne_nil _ (List.cons_ne_nil _ _))
      next r heq => exact (append_ne_cons (by decide) hnocomment r heq).elim
      next =>
        split at h
        next rest hbreak =>
          rw [newline?_append hbreak]
          exact hrest h (.inl rfl)
        next hbreak =>
          split at h
          next st rest hst =>
            have hreturn : skipSpaces t ≠ ['\r'] := by
              intro heq
              rw [heq] at hst
              cases (statement?_return []).symm.trans hst
            have hbreak' : newline? (skipSpaces t ++ '\n' :: u) = none :=
              newline?_append_eq_none hbreak hsome hreturn u
            obtain ⟨rest', hst', hbehind⟩ := statement?_append hst u
            obtain ⟨sts, hsts, rfl⟩ := Option.map_eq_some_iff.mp h
            rw [hbreak', hst']
            dsimp only
            rw [hrest hsts hbehind]
            rfl
          next => cases h

/-- The statements of a document. -/
def documentStatements? (text : String) : Option (List Statement) :=
  let t := skipMark text.toList
  statements? (t.length + 1) t

theorem skipMark_append {t : List Char} (h : t ≠ []) (u : List Char) :
    skipMark (t ++ u) = skipMark t ++ u := by
  obtain ⟨c, t, rfl⟩ := List.exists_cons_of_ne_nil h
  by_cases hmark : c = '\uFEFF'
  · rw [hmark]
    rfl
  · have hkept (r : List Char) : skipMark (c :: r) = c :: r :=
      skipMark.eq_2 _ fun _ heq => hmark (List.cons.inj heq).1
    rw [hkept, List.cons_append, hkept]

/-- A document with another one behind it has the statements of both. -/
theorem documentStatements?_append {text text' : String} {u : List Char} {sts sts' : List Statement}
    (h : documentStatements? text = some sts) (hne : text.toList ≠ []) (hu : IsReadAs u sts')
    (htext : text'.toList = text.toList ++ '\n' :: u) :
    documentStatements? text' = some (sts ++ sts') := by
  rw [documentStatements?, htext, skipMark_append hne]
  refine statements?_append h hu ?_
  rw [List.length_append, List.length_cons]
  omega

end JniLink.Toml
