import Mathlib.Data.List.Chain
import Mathlib.Data.List.Infix
import JniLink.Text.Search

/-!
# Pieces of a text

Splitting a text where a predicate holds gives pieces in which it holds nowhere, and joining the
pieces gives the text back with every place of a split written in one way. A split commutes with
`++` where the predicate holds, and with a change of characters that keeps it.
-/

namespace JniLink.Text

variable {p : Char → Bool}

theorem splitWhere_cons_of_pos {c : Char} (h : p c = true) (t : List Char) :
    splitWhere p (c :: t) = [] :: splitWhere p t := by
  simp [splitWhere, h]

/-- A character at which there is no split begins the first piece. -/
theorem splitWhere_cons_of_neg {c : Char} (h : p c = false) (t : List Char) :
    ∃ piece pieces, splitWhere p t = piece :: pieces ∧
      splitWhere p (c :: t) = (c :: piece) :: pieces := by
  obtain ⟨piece, pieces, hsplit⟩ := List.exists_cons_of_ne_nil (splitWhere_ne_nil p t)
  exact ⟨piece, pieces, hsplit, by simp [splitWhere, h, hsplit]⟩

theorem exists_splitWhere_eq_concat (p : Char → Bool) (t : List Char) :
    ∃ pieces last, splitWhere p t = pieces ++ [last] :=
  ⟨_, _, (List.dropLast_concat_getLast (splitWhere_ne_nil p t)).symm⟩

theorem splitWhere_append_cons {c : Char} (h : p c = true) (s t : List Char) :
    splitWhere p (s ++ c :: t) = splitWhere p s ++ splitWhere p t := by
  induction s with
  | nil => exact splitWhere_cons_of_pos h t
  | cons d s ih =>
    rw [List.cons_append]
    cases hd : p d with
    | true => rw [splitWhere_cons_of_pos hd, splitWhere_cons_of_pos hd, ih, List.cons_append]
    | false =>
      obtain ⟨piece, pieces, hs, hds⟩ := splitWhere_cons_of_neg hd s
      obtain ⟨piece', pieces', hst, hdst⟩ := splitWhere_cons_of_neg hd (s ++ c :: t)
      rw [hdst, hds]
      rw [ih, hs, List.cons_append] at hst
      cases hst
      rfl

theorem not_of_mem_splitWhere {t piece : List Char} (h : piece ∈ splitWhere p t) {c : Char}
    (hc : c ∈ piece) : p c = false := by
  induction t generalizing piece with
  | nil =>
    rw [splitWhere, List.mem_singleton] at h
    subst h
    cases hc
  | cons d t ih =>
    cases hd : p d with
    | true =>
      rw [splitWhere_cons_of_pos hd, List.mem_cons] at h
      rcases h with rfl | h
      · cases hc
      · exact ih h hc
    | false =>
      obtain ⟨first, pieces, hs, hds⟩ := splitWhere_cons_of_neg hd t
      rw [hds, List.mem_cons] at h
      rw [hs] at ih
      rcases h with rfl | h
      · rcases List.mem_cons.mp hc with rfl | hc
        · exact hd
        · exact ih List.mem_cons_self hc
      · exact ih (List.mem_cons_of_mem _ h) hc

theorem splitWhere_eq_singleton {t : List Char} (h : ∀ c ∈ t, p c = false) :
    splitWhere p t = [t] := by
  induction t with
  | nil => rfl
  | cons c t ih =>
    obtain ⟨piece, pieces, hs, hcs⟩ := splitWhere_cons_of_neg (h c List.mem_cons_self) t
    rw [ih fun d hd => h d (List.mem_cons_of_mem _ hd)] at hs
    cases hs
    exact hcs

/-- There is one piece more than there are places of a split. -/
theorem length_splitWhere (p : Char → Bool) (t : List Char) :
    (splitWhere p t).length = t.countP p + 1 := by
  induction t with
  | nil => rfl
  | cons c t ih =>
    cases hc : p c with
    | true => rw [splitWhere_cons_of_pos hc, List.length_cons, ih, List.countP_cons_of_pos hc]
    | false =>
      obtain ⟨piece, pieces, hs, hcs⟩ := splitWhere_cons_of_neg hc t
      rw [hcs, List.countP_cons_of_neg (by rw [hc]; decide), ← ih, hs]
      rfl

/-- A character of a text is one at which it is split, or stands in a piece. -/
theorem mem_splitWhere (p : Char → Bool) {t : List Char} {c : Char} (h : c ∈ t) :
    p c = true ∨ ∃ piece ∈ splitWhere p t, c ∈ piece := by
  induction t with
  | nil => cases h
  | cons d t ih =>
    cases hd : p d with
    | true =>
      rw [splitWhere_cons_of_pos hd]
      rcases List.mem_cons.mp h with rfl | h
      · exact .inl hd
      · exact (ih h).imp id fun ⟨piece, hpiece, hc⟩ => ⟨piece, List.mem_cons_of_mem _ hpiece, hc⟩
    | false =>
      obtain ⟨first, pieces, hs, hds⟩ := splitWhere_cons_of_neg hd t
      rw [hs] at ih
      rw [hds]
      rcases List.mem_cons.mp h with rfl | h
      · exact .inr ⟨_, List.mem_cons_self, List.mem_cons_self⟩
      · refine (ih h).imp id ?_
        rintro ⟨piece, hpiece, hc⟩
        rcases List.mem_cons.mp hpiece with rfl | hpiece
        · exact ⟨_, List.mem_cons_self, List.mem_cons_of_mem d hc⟩
        · exact ⟨piece, List.mem_cons_of_mem _ hpiece, hc⟩

/-- What stands behind the last place of a split is a piece. -/
theorem mem_splitWhere_append {front piece : List Char} (hfront : ∀ c ∈ front.getLast?, p c = true)
    (hpiece : ∀ c ∈ piece, p c = false) : piece ∈ splitWhere p (front ++ piece) := by
  rcases List.eq_nil_or_concat' front with rfl | ⟨front, c, rfl⟩
  · rw [List.nil_append, splitWhere_eq_singleton hpiece]
    exact List.mem_singleton_self piece
  · have hc : p c = true := hfront c List.getLast?_concat
    rw [List.append_assoc, List.singleton_append, splitWhere_append_cons hc,
      splitWhere_eq_singleton hpiece]
    exact List.mem_append_right _ (List.mem_singleton_self piece)

/-- Where no piece but the first one is empty, no two places of a split stand side by side. -/
theorem isChain_of_splitWhere {t : List Char} (h : ∀ piece ∈ (splitWhere p t).tail, piece ≠ []) :
    t.IsChain fun c d => ¬ (p c = true ∧ p d = true) := by
  induction t with
  | nil => exact .nil
  | cons c t ih =>
    cases hc : p c with
    | true =>
      rw [splitWhere_cons_of_pos hc, List.tail_cons] at h
      refine List.isChain_cons.mpr ⟨?_, ih fun piece hmem => h piece (List.mem_of_mem_tail hmem)⟩
      rintro d hd ⟨-, hpd⟩
      obtain ⟨t, rfl⟩ := List.head?_eq_some_iff.mp hd
      exact h [] (by rw [splitWhere_cons_of_pos hpd]; exact List.mem_cons_self) rfl
    | false =>
      obtain ⟨piece, pieces, hs, hcs⟩ := splitWhere_cons_of_neg hc t
      rw [hcs, List.tail_cons] at h
      refine List.isChain_cons.mpr ⟨fun d _ hcd => ?_, ih (by rwa [hs, List.tail_cons])⟩
      rw [hc] at hcd
      cases hcd.1

/-- The first piece stands at the front of the text, and every other one somewhere in it. -/
theorem isInfix_of_mem_splitWhere {p : Char → Bool} {t piece : List Char}
    (h : piece ∈ splitWhere p t) : piece <:+: t := by
  have hall (t : List Char) : ∃ first pieces, splitWhere p t = first :: pieces ∧ first <+: t ∧
      ∀ piece ∈ pieces, piece <:+: t := by
    induction t with
    | nil => exact ⟨[], [], rfl, List.nil_prefix, nofun⟩
    | cons c t ih =>
      obtain ⟨first, pieces, hs, hfirst, hpieces⟩ := ih
      cases hc : p c with
      | true =>
        refine ⟨[], first :: pieces, by rw [splitWhere_cons_of_pos hc, hs], List.nil_prefix, ?_⟩
        rw [List.forall_mem_cons]
        exact ⟨hfirst.isInfix.trans (List.suffix_cons c t).isInfix,
          fun piece hpiece => (hpieces piece hpiece).trans (List.suffix_cons c t).isInfix⟩
      | false =>
        obtain ⟨first', pieces', hs', hcs⟩ := splitWhere_cons_of_neg hc t
        cases hs.symm.trans hs'
        exact ⟨c :: first, pieces, hcs, List.cons_prefix_cons.mpr ⟨rfl, hfirst⟩,
          fun piece hpiece => (hpieces piece hpiece).trans (List.suffix_cons c t).isInfix⟩
  obtain ⟨first, pieces, hs, hfirst, hpieces⟩ := hall t
  rw [hs, List.mem_cons] at h
  rcases h with rfl | h
  · exact hfirst.isInfix
  · exact hpieces piece h

theorem splitWhere_map {q : Char → Bool} {f : Char → Char} (h : ∀ c, q (f c) = p c)
    (t : List Char) : splitWhere q (t.map f) = (splitWhere p t).map (List.map f) := by
  induction t with
  | nil => rfl
  | cons c t ih =>
    rw [List.map_cons]
    cases hc : p c with
    | true =>
      rw [splitWhere_cons_of_pos hc, splitWhere_cons_of_pos (by rw [h, hc]), ih]
      rfl
    | false =>
      obtain ⟨piece, pieces, hs, hcs⟩ := splitWhere_cons_of_neg hc t
      obtain ⟨piece', pieces', hs', hcs'⟩ := splitWhere_cons_of_neg (p := q) (by rw [h, hc]) (t.map f)
      rw [hcs, hcs']
      rw [ih, hs, List.map_cons] at hs'
      cases hs'
      rfl

theorem joinWith_cons_cons (sep part part' : List Char) (parts : List (List Char)) :
    joinWith sep (part :: part' :: parts) = part ++ sep ++ joinWith sep (part' :: parts) := rfl

theorem joinWith_append {sep : List Char} {parts parts' : List (List Char)} (h : parts ≠ [])
    (h' : parts' ≠ []) :
    joinWith sep (parts ++ parts') = joinWith sep parts ++ sep ++ joinWith sep parts' := by
  induction parts with
  | nil => exact absurd rfl h
  | cons first parts ih =>
    cases parts with
    | nil =>
      obtain ⟨part, rest, rfl⟩ := List.exists_cons_of_ne_nil h'
      rfl
    | cons second parts =>
      have hrest := ih (List.cons_ne_nil _ _)
      rw [List.cons_append] at hrest
      rw [List.cons_append, List.cons_append, joinWith_cons_cons, hrest, joinWith_cons_cons]
      simp only [List.append_assoc]

theorem joinWith_concat {sep part : List Char} {parts : List (List Char)} (h : parts ≠ []) :
    joinWith sep (parts ++ [part]) = joinWith sep parts ++ sep ++ part :=
  joinWith_append h (List.cons_ne_nil part [])

theorem mem_joinWith {sep : List Char} {parts : List (List Char)} {c : Char}
    (h : c ∈ joinWith sep parts) : c ∈ sep ∨ ∃ part ∈ parts, c ∈ part := by
  induction parts with
  | nil => cases h
  | cons part parts ih =>
    cases parts with
    | nil => exact .inr ⟨part, List.mem_cons_self, h⟩
    | cons part' parts =>
      rw [joinWith_cons_cons, List.mem_append, List.mem_append] at h
      rcases h with (h | h) | h
      · exact .inr ⟨part, List.mem_cons_self, h⟩
      · exact .inl h
      · exact (ih h).imp id fun ⟨piece, hpiece, hc⟩ => ⟨piece, List.mem_cons_of_mem _ hpiece, hc⟩

/-- Joining what was split writes every place of a split in one way and keeps the rest. -/
theorem joinWith_splitWhere (p : Char → Bool) (s : Char) (t : List Char) :
    joinWith [s] (splitWhere p t) = t.map fun c => if p c then s else c := by
  induction t with
  | nil => rfl
  | cons c t ih =>
    cases hc : p c with
    | true =>
      obtain ⟨piece, pieces, hs⟩ := List.exists_cons_of_ne_nil (splitWhere_ne_nil p t)
      rw [splitWhere_cons_of_pos hc, hs, joinWith_cons_cons, ← hs, ih, List.map_cons, if_pos hc]
      rfl
    | false =>
      obtain ⟨piece, pieces, hs, hcs⟩ := splitWhere_cons_of_neg hc t
      rw [hs] at ih
      rw [hcs, List.map_cons, if_neg (by rw [hc]; decide), ← ih]
      cases pieces <;> rfl

/-- Parts that do not hold the character they were joined with are found again. -/
theorem splitWhere_joinWith {c : Char} {parts : List (List Char)} (hne : parts ≠ [])
    (h : ∀ part ∈ parts, c ∉ part) : splitWhere (· == c) (joinWith [c] parts) = parts := by
  induction parts with
  | nil => exact absurd rfl hne
  | cons part parts ih =>
    have hpart : splitWhere (· == c) part = [part] :=
      splitWhere_eq_singleton fun d hd =>
        beq_eq_false_iff_ne.mpr (ne_of_mem_of_not_mem hd (h part List.mem_cons_self))
    cases parts with
    | nil => exact hpart
    | cons part' parts =>
      have hrest := ih (List.cons_ne_nil _ _) fun p hp => h p (List.mem_cons_of_mem part hp)
      rw [joinWith_cons_cons, List.append_assoc, List.singleton_append,
        splitWhere_append_cons (p := (· == c)) (beq_self_eq_true c), hpart, hrest, List.singleton_append]

/-! ## Up to a sign -/

/-- What is left of a text behind the characters that are not a sign begins with the sign. -/
theorem eq_of_dropWhile_ne {mark c : Char} {t rest : List Char}
    (h : t.dropWhile (· != mark) = c :: rest) : c = mark := by
  have hhead := List.head?_dropWhile_not (· != mark) t
  rw [h, List.head?_cons] at hhead
  simpa using hhead

theorem takeWhile_append_of_dropWhile_ne {mark c : Char} {t rest : List Char}
    (h : t.dropWhile (· != mark) = c :: rest) : t.takeWhile (· != mark) ++ mark :: rest = t := by
  have hcut := List.takeWhile_append_dropWhile (p := (· != mark)) (l := t)
  rwa [h, eq_of_dropWhile_ne h] at hcut

end JniLink.Text
