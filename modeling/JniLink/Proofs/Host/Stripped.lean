import JniLink.Proofs.Host.Comment
import JniLink.Proofs.Text.Split

/-!
# A text that is stripped of comments

What the pass writes has no comment in it, and it has the lines of the text with characters left out.

The first is a simulation. While the pass over the text is in a comment, or holds a slash back, a pass
over what was written so far is in code; everywhere else both are in the same mode (`Mode.shown`). No
comment begins in what is written, although text from both sides of a comment moves together: a slash is
written only together with the character behind it, which is neither a slash nor a star.

The second follows the slash that is held back as well: it belongs to the line on which it is written,
because the character behind it, a line feed maybe, is written after it.
-/

namespace JniLink.Host

open JniLink.Text

/-! ## A second pass -/

/-- Where a pass over what was written is while the pass over the text is in a mode. -/
def Mode.shown : Mode → Mode
  | .literal mark => .literal mark
  | .escaped mark => .escaped mark
  | .code | .slash | .lineComment | .blockComment _ => .code

/-- In code, a character other than a slash is written at once. -/
theorem stepCode_of_ne_slash {c : Char} (h : c ≠ '/') :
    (Mode.stepCode c).2 = [c] ∧ (Mode.stepCode c).1.shown = (Mode.stepCode c).1 := by
  by_cases hmark : c = '"' ∨ c = '\''
  · rw [Mode.stepCode, if_pos hmark]
    exact ⟨rfl, rfl⟩
  · rw [Mode.stepCode, if_neg hmark, if_neg h]
    exact ⟨rfl, rfl⟩

theorem stripFrom_code_stepCode (c : Char) (t : List Char) :
    stripFrom .code ((Mode.stepCode c).2 ++ t) =
      (Mode.stepCode c).2 ++ stripFrom (Mode.stepCode c).1.shown t := by
  by_cases hslash : c = '/'
  · subst hslash
    rfl
  · obtain ⟨hwritten, hshown⟩ := stepCode_of_ne_slash hslash
    rw [hshown, hwritten, List.singleton_append, stripFrom, Mode.step, hwritten]

/-- What one step writes is written again by a second pass, which is then where the first one shows. -/
theorem stripFrom_shown_step (m : Mode) (c : Char) (t : List Char) :
    stripFrom m.shown ((m.step c).2 ++ t) = (m.step c).2 ++ stripFrom (m.step c).1.shown t := by
  cases m with
  | code => exact stripFrom_code_stepCode c t
  | slash =>
    rw [Mode.step]
    split
    · rfl
    next hslash =>
      split
      · rfl
      next hstar =>
        -- the slash that was held back and the character behind it open no comment
        obtain ⟨hwritten, hshown⟩ := stepCode_of_ne_slash hslash
        have hstep : Mode.step .slash c = ((Mode.stepCode c).1, '/' :: (Mode.stepCode c).2) := by
          rw [Mode.step, if_neg hslash, if_neg hstar]
        change stripFrom .slash ((Mode.stepCode c).2 ++ t) = _
        rw [hshown, hwritten, List.singleton_append, stripFrom, hstep, hwritten]
  | literal mark =>
    change stripFrom (.literal mark) (c :: t) = _
    rw [stripFrom, Mode.step]
    split
    · rfl
    · split <;> rfl
  | escaped mark => rfl
  | lineComment =>
    rw [Mode.step]
    split <;> rfl
  | blockComment star =>
    rw [Mode.step]
    split
    · rfl
    · dsimp only
      split <;> rfl

theorem stripFrom_shown_stripFrom (m : Mode) (t : List Char) :
    stripFrom m.shown (stripFrom m t) = stripFrom m t := by
  induction t generalizing m with
  | nil => cases m <;> rfl
  | cons c t ih => rw [stripFrom, stripFrom_shown_step, ih]

/-! ## Lines -/

/-- A text has the lines of another one with characters left out. -/
def KeepsLines (written t : List Char) : Prop :=
  List.Forall₂ List.Sublist (splitWhere (· == '\n') written) (splitWhere (· == '\n') t)

namespace KeepsLines

variable {written t : List Char}

theorem refl (t : List Char) : KeepsLines t t :=
  List.forall₂_same.mpr fun line _ => List.Sublist.refl line

theorem cons (c : Char) (h : KeepsLines written t) : KeepsLines (c :: written) (c :: t) := by
  unfold KeepsLines at h ⊢
  cases hc : c == '\n' with
  | true =>
    rw [splitWhere_cons_of_pos (p := (· == '\n')) hc, splitWhere_cons_of_pos (p := (· == '\n')) hc]
    exact .cons (List.Sublist.refl []) h
  | false =>
    obtain ⟨line, lines, hw, hcw⟩ := splitWhere_cons_of_neg (p := (· == '\n')) hc written
    obtain ⟨line', lines', ht, hct⟩ := splitWhere_cons_of_neg (p := (· == '\n')) hc t
    rw [hw, ht] at h
    obtain ⟨hfirst, hrest⟩ := List.forall₂_cons.mp h
    rw [hcw, hct]
    exact .cons (hfirst.cons_cons c) hrest

theorem skip {c : Char} (hc : c ≠ '\n') (h : KeepsLines written t) : KeepsLines written (c :: t) := by
  unfold KeepsLines at h ⊢
  obtain ⟨line, lines, ht, hct⟩ :=
    splitWhere_cons_of_neg (p := (· == '\n')) (beq_eq_false_iff_ne.mpr hc) t
  rw [ht] at h
  obtain ⟨line', lines', hfirst, hrest, hw⟩ := List.forall₂_cons_right_iff.mp h
  rw [hct, hw]
  exact .cons (hfirst.cons c) hrest

theorem count_eq (h : KeepsLines written t) : written.count '\n' = t.count '\n' := by
  have hlength := h.length_eq
  rw [length_splitWhere, length_splitWhere] at hlength
  exact Nat.succ.inj hlength

theorem stepCode {c : Char} (h : KeepsLines written ((Mode.stepCode c).1.flush ++ t)) :
    KeepsLines ((Mode.stepCode c).2 ++ written) (c :: t) := by
  unfold Mode.stepCode at h ⊢
  split
  next hmark =>
    rw [if_pos hmark] at h
    exact h.cons c
  next hmark =>
    rw [if_neg hmark] at h
    split
    next hslash =>
      rw [if_pos hslash] at h
      exact hslash ▸ h
    next hslash =>
      rw [if_neg hslash] at h
      exact h.cons c

/-- One step leaves out a character of the line it is on, or nothing. -/
theorem step {m : Mode} {c : Char} (h : KeepsLines written ((m.step c).1.flush ++ t)) :
    KeepsLines ((m.step c).2 ++ written) (m.flush ++ c :: t) := by
  cases m with
  | code => exact h.stepCode
  | slash =>
    rw [Mode.step] at h ⊢
    split
    -- the slash that was held back is left out together with the sign behind it
    next hslash =>
      rw [if_pos hslash] at h
      exact (h.skip (hslash ▸ by decide)).skip (by decide)
    next hslash =>
      rw [if_neg hslash] at h
      split
      next hstar =>
        rw [if_pos hstar] at h
        exact (h.skip (hstar ▸ by decide)).skip (by decide)
      next hstar =>
        rw [if_neg hstar] at h
        exact h.stepCode.cons '/'
  | literal mark =>
    rw [Mode.step] at h ⊢
    have hflush : (if c = '\\' then Mode.escaped mark else if c = mark then .code else
        .literal mark).flush = [] := by
      split
      · rfl
      · split <;> rfl
    rw [hflush] at h
    exact h.cons c
  | escaped mark => exact h.cons c
  | lineComment =>
    rw [Mode.step] at h ⊢
    split
    next hfeed =>
      rw [if_pos hfeed] at h
      exact hfeed ▸ h.cons '\n'
    next hfeed =>
      rw [if_neg hfeed] at h
      exact h.skip hfeed
  | blockComment star =>
    rw [Mode.step] at h ⊢
    split
    next hclose =>
      rw [if_pos hclose] at h
      exact h.skip (hclose.2 ▸ by decide)
    next hclose =>
      rw [if_neg hclose] at h
      dsimp only
      split
      next hfeed => exact hfeed ▸ h.cons '\n'
      next hfeed => exact h.skip hfeed

end KeepsLines

theorem keepsLines_stripFrom (m : Mode) (t : List Char) :
    KeepsLines (stripFrom m t) (m.flush ++ t) := by
  induction t generalizing m with
  | nil =>
    rw [List.append_nil]
    exact .refl m.flush
  | cons c t ih => exact (ih _).step

/-- Stripping a text of comments a second time changes nothing, and what is left of a text has as many
line feeds as the text and, in each line, characters of the same line in the same order. -/
theorem stripComments_again_and_lines (t : List Char) :
    stripComments (stripComments t) = stripComments t ∧
      (stripComments t).count '\n' = t.count '\n' ∧
      List.Forall₂ List.Sublist (splitWhere (· == '\n') (stripComments t))
        (splitWhere (· == '\n') t) := by
  have hlines : KeepsLines (stripComments t) t := keepsLines_stripFrom .code t
  exact ⟨stripFrom_shown_stripFrom .code t, hlines.count_eq, hlines⟩

end JniLink.Host
