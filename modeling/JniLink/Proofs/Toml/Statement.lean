import JniLink.Proofs.Toml.Value

/-!
# Statements that are written are read back

A document is written statement by statement, and read line by line. Every statement begins with a
character that no blank line, comment or line break begins with, so that the reader finds it where it was
written, and ends with its line. This holds for statements whose names and values can be read back: a
header has some names but not too many, and the value of a pair is flat.
-/

namespace JniLink.Toml

open JniLink.Text

/-! ## Keys -/

/-- A character that a name of a key may begin with. -/
def isNameStart (c : Char) : Bool := isBareChar c || c == '"' || c == '\''

theorem isSolid_of_isNameStart {c : Char} (h : isNameStart c = true) : isSolid c = true :=
  isSolid_of_isClass h (by decide)

theorem exists_writeName_eq_cons (name : String) :
    ∃ c t, writeName name = c :: t ∧ isNameStart c = true := by
  rw [writeName]
  split
  next h =>
    obtain ⟨c, t, ht⟩ := List.exists_cons_of_ne_nil h.1
    have hc : isBareChar c = true := List.all_eq_true.mp h.2 c (ht ▸ List.mem_cons_self)
    exact ⟨c, t, ht, by rw [isNameStart, hc]; rfl⟩
  · split
    · exact ⟨_, _, rfl, rfl⟩
    · split
      · exact ⟨_, _, rfl, rfl⟩
      · exact ⟨_, _, rfl, rfl⟩

theorem exists_writePath_eq_cons {path : List String} (h : path ≠ []) :
    ∃ c t, writePath path = c :: t ∧ isNameStart c = true := by
  obtain ⟨name, path, rfl⟩ := List.exists_cons_of_ne_nil h
  obtain ⟨c, t, hname, hc⟩ := exists_writeName_eq_cons name
  cases path with
  | nil => exact ⟨c, t, hname, hc⟩
  | cons name' path =>
    exact ⟨c, t ++ '.' :: writePath (name' :: path), by simp [writePath, joinWith, hname], hc⟩

variable {rest : List Char}

/-- A key is read back, and the spaces behind it are skipped. -/
theorem names?_writePath {bound : Nat} {path : List String} (hne : path ≠ [])
    (hbound : path.length ≤ bound) (hbare : ∀ c ∈ rest.head?, isBareChar c = false)
    (hdot : (skipSpaces rest).head? ≠ some '.') :
    names? bound (writePath path ++ rest) = some (path, skipSpaces rest) := by
  induction path generalizing bound with
  | nil => exact absurd rfl hne
  | cons name path ih =>
    obtain ⟨bound, rfl⟩ := Nat.exists_eq_succ_of_ne_zero (Nat.ne_of_gt (Nat.zero_lt_of_lt hbound))
    obtain ⟨c, t, hname, hc⟩ := exists_writeName_eq_cons name
    have hskip (r : List Char) : skipSpaces (writeName name ++ r) = writeName name ++ r := by
      rw [hname]
      exact skipSpaces_solid (isSolid_of_isNameStart hc)
    cases path with
    | nil =>
      change names? (bound + 1) (writeName name ++ rest) = _
      rw [names?, hskip, name?_writeName name hbare]
      dsimp only
      split
      next heq => exact absurd (congrArg List.head? heq) hdot
      next => rfl
    | cons name' path =>
      have hpath : writePath (name :: name' :: path) ++ rest =
          writeName name ++ '.' :: (writePath (name' :: path) ++ rest) := by
        simp [writePath, joinWith]
      rw [hpath, names?, hskip, name?_writeName name (by rintro c hc; cases hc; decide)]
      dsimp only
      rw [skipSpaces_solid (by decide)]
      have hpath := ih (List.cons_ne_nil _ _) (Nat.le_of_succ_le_succ hbound)
      exact (congrArg (Option.map _) hpath).trans rfl

/-! ## Statements -/

/-- A statement that is read back: a header has some names but fewer than values may nest, and a pair
has one name and a flat value. -/
def Statement.IsReadable : Statement → Prop
  | .header path | .element path => path ≠ [] ∧ path.length < depthLimit
  | .pair path _ value => path = [] ∧ value.IsFlat

theorem key?_writePath {path : List String} (hne : path ≠ []) (hlength : path.length < depthLimit)
    (rest : List Char) : key? (writePath path ++ ']' :: rest) = some (path, ']' :: rest) :=
  names?_writePath hne (Nat.le_sub_one_of_lt hlength) (by rintro c hc; cases hc; decide)
    fun h => absurd (Option.some.inj h) (by decide)

theorem key?_writeName (name : String) (rest : List Char) :
    key? (writeName name ++ ' ' :: '=' :: rest) = some ([name], '=' :: rest) :=
  @names?_writePath (' ' :: '=' :: rest) (depthLimit - 1) [name] (List.cons_ne_nil name [])
    (by decide : 1 ≤ depthLimit - 1) (by rintro c hc; cases hc; decide)
    fun h => absurd (Option.some.inj h) (by decide)

theorem Value.IsFlat.exists_writeLines_eq_cons {v : Value} (h : v.IsFlat) :
    ∃ c t, v.writeLines = c :: t ∧ isSolid c = true := by
  cases h with
  | scalar h =>
    obtain ⟨c, t, hwrite, hc⟩ := h.exists_write_eq_cons
    have hlines : v.writeLines = v.write := by cases h <;> rfl
    exact ⟨c, t, hlines.trans hwrite, isSolid_of_isOpening hc⟩
  | @array vs h =>
    match vs with
    | [] => exact ⟨'[', [']'], by simp [Value.writeLines, Value.write, writeElements, joinWith], rfl⟩
    | [v] =>
      exact ⟨'[', v.write ++ [']'],
        by simp [Value.writeLines, Value.write, writeElements, joinWith], rfl⟩
    | first :: second :: vs => exact ⟨_, _, rfl, rfl⟩

theorem write_header (path : List String) (rest : List Char) :
    (Statement.header path).write true ++ rest = '[' :: (writePath path ++ ']' :: '\n' :: rest) := by
  simp [Statement.write]

theorem write_element (path : List String) (rest : List Char) :
    (Statement.element path).write true ++ rest =
      '[' :: '[' :: (writePath path ++ ']' :: ']' :: '\n' :: rest) := by
  simp [Statement.write]

theorem write_pair (name : String) (v : Value) (rest : List Char) :
    (Statement.pair [] name v).write true ++ rest =
      writeName name ++ ' ' :: '=' :: ' ' :: (v.writeLines ++ '\n' :: rest) := by
  simp [Statement.write, writePath, joinWith]

/-- A statement begins with a bracket or a name. -/
theorem exists_write_eq_cons {st : Statement} (h : st.IsReadable) :
    ∃ c t, st.write true = c :: t ∧ (c = '[' ∨ isNameStart c = true) := by
  cases st with
  | header path => exact ⟨_, _, rfl, .inl rfl⟩
  | element path => exact ⟨_, _, rfl, .inl rfl⟩
  | pair path name v =>
    obtain ⟨rfl, -⟩ := h
    obtain ⟨c, t, hname, hc⟩ := exists_writeName_eq_cons name
    have hwrite := write_pair name v []
    rw [List.append_nil, hname] at hwrite
    exact ⟨c, _, hwrite, .inr hc⟩

/-- A key and a flat value are read back, up to the end of their line. -/
theorem pair?_write (name : String) {v : Value} (h : v.IsFlat) (rest : List Char) :
    pair? (value? (depthLimit - 1))
      (writeName name ++ ' ' :: '=' :: ' ' :: (v.writeLines ++ '\n' :: rest)) =
        some (([], name, v), '\n' :: rest) := by
  obtain ⟨d, t, hlines, hd⟩ := h.exists_writeLines_eq_cons
  have hspace : skipSpaces (' ' :: d :: (t ++ '\n' :: rest)) = d :: (t ++ '\n' :: rest) :=
    @skipSpaces_append d _ [' '] (by decide) hd
  have hvalue : value? (depthLimit - 1) (skipSpaces (' ' :: (v.writeLines ++ '\n' :: rest))) =
      some (v, '\n' :: rest) := by
    rw [hlines, List.cons_append, hspace, ← List.cons_append, ← hlines]
    exact value?_writeLines (depthLimit - 2) h ⟨_, _, rfl, .inl rfl⟩
  rw [pair?, key?_writeName]
  change (value? (depthLimit - 1) (skipSpaces _)).bind _ = _
  rw [hvalue]
  rfl

/-- A statement is read back, and its line is ended. -/
theorem statement?_write {st : Statement} (h : st.IsReadable) (rest : List Char) :
    statement? (st.write true ++ rest) = some (st, rest) := by
  cases st with
  | header path =>
    obtain ⟨hne, hlength⟩ := h
    obtain ⟨c, t, hpath, hc⟩ := exists_writePath_eq_cons hne
    rw [write_header, statement?, key?_writePath hne hlength]
    · rfl
    · intro r heq
      rw [hpath] at heq
      exact ne_of_isClass hc (by decide) (List.cons.inj heq).1
  | element path =>
    obtain ⟨hne, hlength⟩ := h
    rw [write_element, statement?, key?_writePath hne hlength]
    rfl
  | pair path name v =>
    obtain ⟨rfl, hflat⟩ := h
    obtain ⟨c, t, hname, hc⟩ := exists_writeName_eq_cons name
    -- a line that begins with a name is neither kind of header
    have hbracket (s r : List Char) : writeName name ++ s ≠ '[' :: r := by
      rw [hname]
      exact fun heq => ne_of_isClass hc (by decide) (List.cons.inj heq).1
    rw [write_pair, statement?, pair?_write name hflat]
    · rfl
    · exact fun r heq => hbracket _ _ heq
    · exact fun r heq => hbracket _ _ heq

/-! ## Documents -/

theorem isSolid_of_start {c : Char} (h : c = '[' ∨ isNameStart c = true) : isSolid c = true := by
  rcases h with rfl | h
  · rfl
  · exact isSolid_of_isNameStart h

/-- The reader takes a statement off the front of a document. -/
theorem statements?_write {st : Statement} (h : st.IsReadable) (bound : Nat) (rest : List Char) :
    statements? (bound + 1) (st.write true ++ rest) = (statements? bound rest).map (st :: ·) := by
  obtain ⟨c, t, hwrite, hstart⟩ := exists_write_eq_cons h
  have hc := isSolid_of_start hstart
  have hread := statement?_write h rest
  rw [hwrite, List.cons_append] at hread ⊢
  rw [statements?, skipSpaces_solid hc]
  split
  next heq => cases heq
  next heq =>
    rw [(List.cons.inj heq).1] at hc
    cases hc
  next => rw [newline?_solid hc, hread]

theorem write_false (st : Statement) :
    st.write false = st.write true ∨ st.write false = '\n' :: st.write true := by
  cases st with
  | header path => exact .inr rfl
  | element path => exact .inr rfl
  | pair path name v => exact .inl rfl

theorem length_write_pos {st : Statement} (h : st.IsReadable) : 0 < (st.write true).length := by
  obtain ⟨c, t, hwrite, -⟩ := exists_write_eq_cons h
  rw [hwrite]
  exact Nat.succ_pos _

/-- A text is read as some statements, with any bound that its length does not reach. -/
def IsReadAs (t : List Char) (sts : List Statement) : Prop :=
  ∀ bound, t.length < bound → statements? bound t = some sts

namespace IsReadAs

variable {t : List Char} {sts : List Statement}

theorem nil : IsReadAs [] [] := by
  intro bound hbound
  obtain ⟨bound, rfl⟩ := Nat.exists_eq_succ_of_ne_zero (Nat.ne_of_gt hbound)
  rfl

theorem lineBreak (h : IsReadAs t sts) : IsReadAs ('\n' :: t) sts := by
  intro bound hbound
  rw [List.length_cons] at hbound
  obtain ⟨bound, rfl⟩ : ∃ n, bound = n + 1 := ⟨bound - 1, by omega⟩
  change statements? bound t = some sts
  exact h bound (by omega)

/-- A comment on a line of its own says nothing. -/
theorem comment {text : List Char} (hvisible : ∀ c ∈ text, isVisible c = true)
    (h : IsReadAs t sts) : IsReadAs ('#' :: (text ++ '\n' :: t)) sts := by
  intro bound hbound
  rw [List.length_cons, List.length_append, List.length_cons] at hbound
  obtain ⟨bound, rfl⟩ : ∃ n, bound = n + 1 := ⟨bound - 1, by omega⟩
  have hskip : skipComment (skipSpaces ('#' :: (text ++ '\n' :: t))) = '\n' :: t := by
    change (text ++ '\n' :: t).dropWhile isVisible = '\n' :: t
    rw [List.dropWhile_append_of_pos hvisible, List.dropWhile_cons_of_neg (by decide)]
  have hline : lineEnd? ('#' :: (text ++ '\n' :: t)) = some t := by
    rw [lineEnd?, hskip]
    rfl
  have hspaces : skipSpaces ('#' :: (text ++ '\n' :: t)) = '#' :: (text ++ '\n' :: t) := rfl
  rw [statements?, hspaces]
  simp only [hline]
  exact h bound (by omega)

theorem statement {st : Statement} (hst : st.IsReadable) (h : IsReadAs t sts) :
    IsReadAs (st.write true ++ t) (st :: sts) := by
  intro bound hbound
  have hpos := length_write_pos hst
  rw [List.length_append] at hbound
  obtain ⟨bound, rfl⟩ : ∃ n, bound = n + 1 := ⟨bound - 1, by omega⟩
  rw [statements?_write hst, h bound (by omega)]
  rfl

/-- Statements are read back one by one, with or without an empty line in front of each. -/
theorem flatMap {read : List Statement} (hread : ∀ st ∈ read, st.IsReadable) (h : IsReadAs t sts) :
    IsReadAs (read.flatMap (Statement.write false) ++ t) (read ++ sts) := by
  induction read with
  | nil => exact h
  | cons st read ih =>
    obtain ⟨hst, hrest⟩ := List.forall_mem_cons.mp hread
    rw [List.flatMap_cons, List.append_assoc]
    rcases write_false st with hwrite | hwrite
    · rw [hwrite]
      exact (ih hrest).statement hst
    · rw [hwrite]
      exact ((ih hrest).statement hst).lineBreak

theorem writeStatements {read : List Statement} (hread : ∀ st ∈ read, st.IsReadable)
    (h : IsReadAs t sts) : IsReadAs (Toml.writeStatements read ++ t) (read ++ sts) := by
  cases read with
  | nil => exact h
  | cons st read =>
    obtain ⟨hst, hrest⟩ := List.forall_mem_cons.mp hread
    rw [Toml.writeStatements, List.append_assoc]
    exact (h.flatMap hrest).statement hst

/-- A document that does not begin with the mark of a file is assembled of what it is read as. -/
theorem ofString? {text : String} (h : IsReadAs text.toList sts)
    (hmark : skipMark text.toList = text.toList) : Toml.ofString? text = assemble? sts := by
  rw [Toml.ofString?, hmark, h _ (Nat.lt_succ_self _)]
  rfl

end IsReadAs

/-- Generated statements end with a line, as does what stands in front of them. -/
theorem exists_writeStatements_eq_concat (sts : List Statement) :
    ∃ t, '\n' :: writeStatements sts = t ++ ['\n'] := by
  have hwrite (st : Statement) (first : Bool) : ∃ t, st.write first = t ++ ['\n'] := by
    cases st with
    | header path =>
      exact ⟨(if first then [] else ['\n']) ++ '[' :: (writePath path ++ [']']),
        by simp [Statement.write]⟩
    | element path =>
      exact ⟨(if first then [] else ['\n']) ++ '[' :: '[' :: (writePath path ++ [']', ']']),
        by simp [Statement.write]⟩
    | pair path name v => exact ⟨_, rfl⟩
  cases sts with
  | nil => exact ⟨[], rfl⟩
  | cons st sts =>
    rcases List.eq_nil_or_concat sts with rfl | ⟨sts, last, rfl⟩
    · obtain ⟨t, ht⟩ := hwrite st true
      exact ⟨'\n' :: t, by simp [writeStatements, ht]⟩
    · obtain ⟨t, ht⟩ := hwrite last false
      exact ⟨'\n' :: (st.write true ++ sts.flatMap (Statement.write false) ++ t),
        by simp [writeStatements, ht]⟩

/-- A document that was generated does not begin with the mark of a file. -/
theorem skipMark_writeStatements {sts : List Statement} (h : ∀ st ∈ sts, st.IsReadable) :
    skipMark (writeStatements sts) = writeStatements sts := by
  cases sts with
  | nil => rfl
  | cons st sts =>
    obtain ⟨c, t, hwrite, hc⟩ := exists_write_eq_cons (h st List.mem_cons_self)
    rw [writeStatements, hwrite, List.cons_append, skipMark]
    intro r heq
    rw [(List.cons.inj heq).1] at hc
    exact absurd hc (by decide)

end JniLink.Toml
