import JniLink.Host.Source

/-!
# What is left without comments

Code in which no literal and no comment is opened stays as it is, and so does a literal without a
backslash up to its closing mark; a line comment leaves its line feed, and a block comment all of
them. Each of these is said with any text behind it.

The pass carries nothing from one character to the next but where it is, so a text can be cut where
it is in code and the parts be read one by one. What a comment says is therefore without influence on
anything around it (`stripComments_commented`), as long as it begins in code: behind an open quote
mark its two signs are text, and behind a slash the first of them closes the sign `//`.
-/

namespace JniLink.Host

/-- A character that opens neither a literal nor a comment. -/
def IsPlain (c : Char) : Prop :=
  c ≠ '"' ∧ c ≠ '\'' ∧ c ≠ '/'

instance decidableIsPlain (c : Char) : Decidable (IsPlain c) :=
  inferInstanceAs (Decidable (_ ∧ _))

theorem mem_stepCode {c d : Char} (h : c ∈ (Mode.stepCode d).2) : c = d := by
  unfold Mode.stepCode at h
  split at h
  · exact List.mem_singleton.mp h
  split at h
  · cases h
  · exact List.mem_singleton.mp h

theorem mem_step {m : Mode} {c d : Char} (h : c ∈ (m.step d).2) : c = d ∨ c = '/' := by
  cases m with
  | code => exact .inl (mem_stepCode h)
  | slash =>
    rw [Mode.step] at h
    split at h
    · cases h
    split at h
    · cases h
    · exact (List.mem_cons.mp h).symm.imp mem_stepCode id
  | literal mark => exact .inl (List.mem_singleton.mp h)
  | escaped mark => exact .inl (List.mem_singleton.mp h)
  | lineComment =>
    rw [Mode.step] at h
    split at h
    next hfeed => exact .inl ((List.mem_singleton.mp h).trans hfeed.symm)
    next => cases h
  | blockComment star =>
    rw [Mode.step] at h
    split at h
    next => cases h
    next =>
      by_cases hfeed : d = '\n'
      · rw [if_pos hfeed] at h
        exact .inl ((List.mem_singleton.mp h).trans hfeed.symm)
      · rw [if_neg hfeed] at h
        cases h

/-- The pass writes nothing of its own but a slash that it held back. -/
theorem mem_stripFrom {m : Mode} {t : List Char} {c : Char} (h : c ∈ stripFrom m t) :
    c ∈ t ∨ c = '/' := by
  induction t generalizing m with
  | nil =>
    cases m with
    | slash => exact .inr (List.mem_singleton.mp h)
    | _ => cases h
  | cons d t ih =>
    rw [stripFrom, List.mem_append] at h
    rcases h with h | h
    · refine (mem_step h).imp (fun heq => ?_) id
      rw [heq]
      exact List.mem_cons_self
    · exact (ih h).imp (List.mem_cons_of_mem d) id

theorem stripFrom_code_append {s : List Char} (h : ∀ c ∈ s, IsPlain c) (t : List Char) :
    stripFrom .code (s ++ t) = s ++ stripFrom .code t := by
  induction s with
  | nil => rfl
  | cons c s ih =>
    obtain ⟨hdouble, hsingle, hslash⟩ := h c List.mem_cons_self
    have hstep : Mode.step .code c = (.code, [c]) := by
      rw [Mode.step, Mode.stepCode, if_neg (not_or.mpr ⟨hdouble, hsingle⟩), if_neg hslash]
    rw [List.cons_append, stripFrom, hstep, ih fun d hd => h d (List.mem_cons_of_mem c hd)]
    rfl

theorem stripFrom_code_eq_self {s : List Char} (h : ∀ c ∈ s, IsPlain c) : stripFrom .code s = s := by
  have happend := stripFrom_code_append h []
  rw [List.append_nil] at happend
  exact happend.trans (List.append_nil s)

theorem stripFrom_lineComment {s : List Char} (h : '\n' ∉ s) (t : List Char) :
    stripFrom .code ('/' :: '/' :: s ++ '\n' :: t) = '\n' :: stripFrom .code t := by
  have hrest : stripFrom .lineComment (s ++ '\n' :: t) = '\n' :: stripFrom .code t := by
    induction s with
    | nil => rfl
    | cons c s ih =>
      rw [List.mem_cons, not_or] at h
      rw [List.cons_append, stripFrom, Mode.step, if_neg (Ne.symm h.1)]
      exact ih h.2
  exact hrest

/-- A block comment is closed by the first star and slash behind its two signs, and the star may not
be the one of these. -/
theorem stripFrom_blockComment (star : Bool) {s : List Char}
    (h : ¬ ['*', '/'] <:+: (if star then '*' :: s else s)) (t : List Char) :
    stripFrom (.blockComment star) (s ++ '*' :: '/' :: t) =
      s.filter (· = '\n') ++ stripFrom .code t := by
  induction s generalizing star with
  | nil => cases star <;> rfl
  | cons c s ih =>
    have hopen : ¬ (star = true ∧ c = '/') := by
      rintro ⟨rfl, rfl⟩
      exact h (List.prefix_append ['*', '/'] s).isInfix
    have htail : ¬ ['*', '/'] <:+: c :: s := by
      intro hin
      apply h
      split
      · exact List.infix_cons hin
      · exact hin
    -- behind a star the pass knows of it, as the text has it in front
    have hrest : ¬ ['*', '/'] <:+: (if decide (c = '*') then '*' :: s else s) := by
      by_cases hstar : c = '*'
      · rwa [hstar] at htail ⊢
      · rw [decide_eq_false hstar]
        exact fun hin => htail (List.infix_cons hin)
    rw [List.cons_append, stripFrom, Mode.step, if_neg hopen, ih _ hrest, List.filter_cons,
      ← List.append_assoc]
    by_cases hfeed : c = '\n'
    · rw [if_pos hfeed, if_pos (decide_eq_true hfeed), hfeed]
      rfl
    · rw [if_neg hfeed, if_neg (by simpa using hfeed)]
      rfl

theorem stripFrom_literal {s : List Char} (h : ∀ c ∈ s, c ≠ '"' ∧ c ≠ '\\') (t : List Char) :
    stripFrom .code ('"' :: s ++ '"' :: t) = '"' :: s ++ '"' :: stripFrom .code t := by
  have hrest : stripFrom (.literal '"') (s ++ '"' :: t) = s ++ '"' :: stripFrom .code t := by
    induction s with
    | nil => rfl
    | cons c s ih =>
      obtain ⟨hmark, hbackslash⟩ := h c List.mem_cons_self
      rw [List.cons_append, stripFrom, Mode.step, if_neg hbackslash, if_neg hmark,
        ih fun d hd => h d (List.mem_cons_of_mem c hd)]
      rfl
  rw [List.cons_append, stripFrom, List.cons_append]
  exact congrArg _ hrest

/-! ## Text that is commented out -/

/-- A text can be cut wherever the pass holds nothing back. -/
theorem stripFrom_append {m : Mode} {s : List Char} (h : (m.after s).flush = []) (t : List Char) :
    stripFrom m (s ++ t) = stripFrom m s ++ stripFrom (m.after s) t := by
  induction s generalizing m with
  | nil =>
    change m.flush = [] at h
    rw [stripFrom, h]
    rfl
  | cons c s ih =>
    rw [List.cons_append, stripFrom, stripFrom, ih h, List.append_assoc]
    rfl

theorem stripComments_append {p : List Char} (h : Mode.after .code p = .code) (t : List Char) :
    stripComments (p ++ t) = stripComments p ++ stripComments t := by
  have hflush : (Mode.after .code p).flush = [] := by
    rw [h]
    rfl
  rw [stripComments, stripFrom_append hflush, h]
  rfl

section Commented

variable {p : String} (h : Mode.after .code p.toList = .code) (q : String)
include h

theorem stripComments_lineComment {w : String} (hw : '\n' ∉ w.toList) :
    stripComments (p ++ "//" ++ w ++ "\n" ++ q).toList =
      stripComments p.toList ++ '\n' :: stripComments q.toList := by
  have hcut : (p ++ "//" ++ w ++ "\n" ++ q).toList =
      p.toList ++ ('/' :: '/' :: w.toList ++ '\n' :: q.toList) := by
    simp
  rw [hcut, stripComments_append h, stripComments, stripComments, stripFrom_lineComment hw]
  rfl

theorem stripComments_blockComment {w : String} (hw : ¬ "*/".toList <:+: w.toList) :
    stripComments (p ++ "/*" ++ w ++ "*/" ++ q).toList =
      stripComments p.toList ++ (w.toList.filter (· = '\n') ++ stripComments q.toList) := by
  have hcut : (p ++ "/*" ++ w ++ "*/" ++ q).toList =
      p.toList ++ '/' :: '*' :: (w.toList ++ '*' :: '/' :: q.toList) := by
    simp
  have hbody : stripComments ('/' :: '*' :: (w.toList ++ '*' :: '/' :: q.toList)) =
      w.toList.filter (· = '\n') ++ stripComments q.toList :=
    stripFrom_blockComment false hw q.toList
  rw [hcut, stripComments_append h, hbody]

end Commented

/-- A comment that begins in code is left out up to its line feeds, whatever it says, and a source
with it is read like the same source with another comment of as many lines. -/
theorem stripComments_commented {p : String} (h : Mode.after .code p.toList = .code) (q : String) :
    (∀ w : String, '\n' ∉ w.toList →
      stripComments (p ++ "//" ++ w ++ "\n" ++ q).toList =
        stripComments p.toList ++ '\n' :: stripComments q.toList) ∧
    (∀ w : String, ¬ "*/".toList <:+: w.toList →
      stripComments (p ++ "/*" ++ w ++ "*/" ++ q).toList =
        stripComments p.toList ++ (w.toList.filter (· = '\n') ++ stripComments q.toList)) ∧
    ∀ language : Language,
      (∀ w w' : String, '\n' ∉ w.toList → '\n' ∉ w'.toList →
        HostSource.ofText language (p ++ "//" ++ w ++ "\n" ++ q) =
          HostSource.ofText language (p ++ "//" ++ w' ++ "\n" ++ q)) ∧
      ∀ w w' : String, ¬ "*/".toList <:+: w.toList → ¬ "*/".toList <:+: w'.toList →
        w.toList.count '\n' = w'.toList.count '\n' →
        HostSource.ofText language (p ++ "/*" ++ w ++ "*/" ++ q) =
          HostSource.ofText language (p ++ "/*" ++ w' ++ "*/" ++ q) := by
  refine ⟨fun _ => stripComments_lineComment h q, fun _ => stripComments_blockComment h q, ?_⟩
  intro language
  constructor
  · intro w w' hw hw'
    rw [HostSource.ofText, HostSource.ofText, stripComments_lineComment h q hw,
      stripComments_lineComment h q hw']
  · intro w w' hw hw' hcount
    have hfeeds : w.toList.filter (· = '\n') = w'.toList.filter (· = '\n') := by
      rw [List.filter_eq, List.filter_eq, hcount]
    rw [HostSource.ofText, HostSource.ofText, stripComments_blockComment h q hw,
      stripComments_blockComment h q hw', hfeeds]

/-- A quote mark in a character literal is passed before the comment begins; the comment itself may
begin with a slash, end with a star, and hold an open quote mark and a method. -/
theorem stripComments_commented_method :
    HostSource.ofText .java
        ("class C \x7b char c = '\"';" ++ "/*" ++ "/ \" // native int g(); *" ++ "*/" ++
          "native int f(); \x7d") =
      HostSource.ofText .java
        ("class C \x7b char c = '\"';" ++ "/*" ++ "" ++ "*/" ++ "native int f(); \x7d") :=
  ((stripComments_commented (by decide +kernel) _).2.2 .java).2 _ _ (by decide +kernel)
    (by decide +kernel) (by decide +kernel)

end JniLink.Host
