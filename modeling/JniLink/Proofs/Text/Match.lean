import JniLink.Text.Search

/-!
# Walking a text with a recogniser

A text is walked piece by piece. A piece at no place of which anything is read is passed over, and
what is read at the front of the rest is listed before all that comes behind it. That the pieces put
together are the text is left to whoever cuts it.

A character that is not looked for ends what is read in front of it, whatever stands behind.
-/

namespace JniLink.Text

variable {α : Type} {m : Recogniser α}

/-- The character before a place: the last one of the piece in front of it, or what was before that
piece. -/
def lastOr (before : Option Char) (piece : List Char) : Option Char :=
  piece.getLast?.or before

@[simp] theorem lastOr_nil (before : Option Char) : lastOr before [] = before := rfl

@[simp] theorem lastOr_concat (before : Option Char) (piece : List Char) (c : Char) :
    lastOr before (piece ++ [c]) = some c := by
  rw [lastOr, List.getLast?_concat, Option.some_or]

theorem lastOr_cons (before : Option Char) (c : Char) (piece : List Char) :
    lastOr before (c :: piece) = lastOr (some c) piece := by
  cases piece with
  | nil => rfl
  | cons d piece => simp [lastOr, List.getLast?_cons]

theorem lastOr_append (before : Option Char) (piece piece' : List Char) :
    lastOr before (piece ++ piece') = lastOr (lastOr before piece) piece' := by
  simp [lastOr, List.getLast?_append, Option.or_assoc]

/-- Nothing is read at any place of a piece, with a text behind it. -/
def ReadsNothing (m : Recogniser α) : Option Char → List Char → List Char → Prop
  | _, [], _ => True
  | before, c :: piece, t =>
    m before (c :: piece ++ t) = none ∧ ReadsNothing m (some c) piece t

theorem readsNothing_append_iff {before : Option Char} {piece piece' t : List Char} :
    ReadsNothing m before (piece ++ piece') t ↔
      ReadsNothing m before piece (piece' ++ t) ∧
        ReadsNothing m (lastOr before piece) piece' t := by
  induction piece generalizing before with
  | nil => simp [ReadsNothing]
  | cons c piece ih =>
    rw [List.cons_append, ReadsNothing, ih, ReadsNothing, lastOr_cons, and_assoc, List.cons_append,
      List.cons_append, List.append_assoc]

/-- Place by place. -/
theorem readsNothing_iff_forall {before : Option Char} {piece t : List Char} :
    ReadsNothing m before piece t ↔ ∀ front c rest, piece = front ++ c :: rest →
      m (lastOr before front) (c :: rest ++ t) = none := by
  induction piece generalizing before with
  | nil => exact ⟨fun _ front c rest h => by simp at h, fun _ => trivial⟩
  | cons d piece ih =>
    rw [ReadsNothing, ih]
    constructor
    · rintro ⟨hplace, hrest⟩ front c rest h
      rcases front with _ | ⟨e, front⟩
      · cases h
        exact hplace
      · rw [List.cons_append, List.cons.injEq] at h
        obtain ⟨rfl, h⟩ := h
        rw [lastOr_cons]
        exact hrest front c rest h
    · refine fun h => ⟨h [] d piece rfl, fun front c rest hpiece => ?_⟩
      rw [← lastOr_cons before d front]
      exact h (d :: front) c rest (by rw [hpiece, List.cons_append])

/-! ## The list of all matches -/

theorem allMatches_skip (before : Option Char) (piece t : List Char) :
    allMatches m before piece.length (piece ++ t) = allMatches m (lastOr before piece) 0 t := by
  induction piece generalizing before with
  | nil => rfl
  | cons c piece ih => rw [List.length_cons, List.cons_append, allMatches, ih, lastOr_cons]

/-- A piece in which nothing is read is passed over. -/
theorem allMatches_append {before : Option Char} {piece t : List Char}
    (h : ReadsNothing m before piece t) :
    allMatches m before 0 (piece ++ t) = allMatches m (lastOr before piece) 0 t := by
  induction piece generalizing before with
  | nil => rfl
  | cons c piece ih =>
    obtain ⟨hplace, hrest⟩ := h
    rw [List.cons_append] at hplace ⊢
    rw [allMatches, hplace, lastOr_cons]
    exact ih hrest

/-- What is read at the front is the first match, and the others are found behind it. -/
theorem allMatches_of_eq_some {before : Option Char} {piece t : List Char} {found : α}
    (hne : piece ≠ []) (h : m before (piece ++ t) = some (found, t)) :
    allMatches m before 0 (piece ++ t) = found :: allMatches m (lastOr before piece) 0 t := by
  obtain ⟨c, piece, rfl⟩ := List.exists_cons_of_ne_nil hne
  rw [List.cons_append] at h ⊢
  have hskip : (piece ++ t).length - t.length = piece.length := by
    rw [List.length_append, Nat.add_sub_cancel]
  rw [allMatches, h]
  simp only [hskip, allMatches_skip, lastOr_cons]

theorem allMatches_eq_nil_iff {before : Option Char} {t : List Char} :
    allMatches m before 0 t = [] ↔ ReadsNothing m before t [] := by
  induction t generalizing before with
  | nil => simp [allMatches, ReadsNothing]
  | cons c t ih =>
    rw [allMatches, ReadsNothing, List.append_nil]
    cases hplace : m before (c :: t) with
    | none => rw [ih, and_iff_right rfl]
    | some found => simp

/-- Every match is read at some place of the text. -/
theorem exists_of_mem_allMatches {before : Option Char} {skip : Nat} {t : List Char} {found : α}
    (h : found ∈ allMatches m before skip t) :
    ∃ before' s rest, s <:+ t ∧ m before' s = some (found, rest) := by
  induction t generalizing before skip with
  | nil => cases skip <;> cases h
  | cons c t ih =>
    have hlater {before : Option Char} {skip : Nat} (h : found ∈ allMatches m before skip t) :
        ∃ before' s rest, s <:+ c :: t ∧ m before' s = some (found, rest) := by
      obtain ⟨before', s, rest, hs, hread⟩ := ih h
      exact ⟨before', s, rest, hs.trans (List.suffix_cons c t), hread⟩
    cases skip with
    | succ skip => exact hlater h
    | zero =>
      rw [allMatches] at h
      cases hplace : m before (c :: t) with
      | none =>
        rw [hplace] at h
        exact hlater h
      | some read =>
        obtain ⟨read, rest⟩ := read
        rw [hplace] at h
        rcases List.mem_cons.mp h with rfl | h
        · exact ⟨before, c :: t, rest, List.suffix_rfl, hplace⟩
        · exact hlater h

/-! ## The first match -/

theorem firstMatch?_append {before : Option Char} {piece t : List Char}
    (h : ReadsNothing m before piece t) :
    firstMatch? m before (piece ++ t) = firstMatch? m (lastOr before piece) t := by
  induction piece generalizing before with
  | nil => rfl
  | cons c piece ih =>
    obtain ⟨hplace, hrest⟩ := h
    rw [List.cons_append] at hplace ⊢
    rw [firstMatch?, hplace, lastOr_cons]
    exact ih hrest

theorem firstMatch?_of_eq_some {before : Option Char} {t rest : List Char} {found : α}
    (h : m before t = some (found, rest)) : firstMatch? m before t = some (found, rest) := by
  cases t with
  | nil => rw [firstMatch?, h]
  | cons c t => rw [firstMatch?, h]

/-- Where something is read at some place, there is a first match. -/
theorem isSome_firstMatch? {before : Option Char} {front t : List Char}
    (h : (m (lastOr before front) t).isSome = true) :
    (firstMatch? m before (front ++ t)).isSome = true := by
  induction front generalizing before with
  | nil =>
    rw [lastOr_nil] at h
    obtain ⟨read, hread⟩ := Option.isSome_iff_exists.mp h
    rw [List.nil_append, firstMatch?_of_eq_some hread]
    rfl
  | cons c front ih =>
    rw [lastOr_cons] at h
    rw [List.cons_append, firstMatch?]
    cases m before (c :: (front ++ t)) with
    | some read => rfl
    | none => exact ih h

/-- Nothing is read before the first match. -/
theorem exists_readsNothing_of_firstMatch? {before : Option Char} {t : List Char}
    {read : α × List Char} (h : firstMatch? m before t = some read) :
    ∃ front s, t = front ++ s ∧ ReadsNothing m before front s ∧
      m (lastOr before front) s = some read := by
  induction t generalizing before with
  | nil => exact ⟨[], [], rfl, trivial, h⟩
  | cons c t ih =>
    rw [firstMatch?] at h
    cases hplace : m before (c :: t) with
    | some read' =>
      rw [hplace] at h
      exact ⟨[], c :: t, rfl, trivial, hplace.trans h⟩
    | none =>
      rw [hplace] at h
      obtain ⟨front, s, rfl, hnothing, hread⟩ := ih h
      refine ⟨c :: front, s, rfl, ⟨hplace, hnothing⟩, ?_⟩
      rw [lastOr_cons]
      exact hread

/-- The first match is read at some place of the text. -/
theorem exists_of_firstMatch? {before : Option Char} {t : List Char} {read : α × List Char}
    (h : firstMatch? m before t = some read) :
    ∃ before' s, s <:+ t ∧ m before' s = some read := by
  obtain ⟨front, s, rfl, -, hread⟩ := exists_readsNothing_of_firstMatch? h
  exact ⟨_, s, List.suffix_append front s, hread⟩

/-! ## Readings that end with a mark -/

/-- What is read ends with a mark, and what comes behind the mark has no part in it. -/
structure EndsAt (mark : Char) (m : Recogniser α) : Prop where
  suffix {before : Option Char} {t rest : List Char} {found : α} :
    m before t = some (found, rest) → mark :: rest <:+ t
  append_cons (before : Option Char) (a t : List Char) :
    m before (a ++ mark :: t) = (m before (a ++ [mark])).map (Prod.map id (· ++ t))

namespace EndsAt

variable {mark : Char} {before : Option Char} {found : α} {a t rest : List Char}

theorem eq_none (h : EndsAt mark m) (hnone : m before (a ++ mark :: rest) = none) (t : List Char) :
    m before (a ++ mark :: t) = none := by
  rw [h.append_cons, Option.map_eq_none_iff] at hnone
  rw [h.append_cons, hnone, Option.map_none]

theorem eq_some (h : EndsAt mark m) (hsome : m before (a ++ mark :: rest) = some (found, rest))
    (t : List Char) : m before (a ++ mark :: t) = some (found, t) := by
  rw [h.append_cons] at hsome ⊢
  obtain ⟨⟨found', s⟩, hread, heq⟩ := Option.map_eq_some_iff.mp hsome
  obtain ⟨rfl, hs⟩ := Prod.mk.inj heq
  rw [hread, List.append_left_eq_self.mp hs]
  rfl

/-- The first match stays the first one when the text behind it changes. -/
theorem firstMatch?_eq_some (h : EndsAt mark m)
    (hfirst : firstMatch? m before t = some (found, rest)) :
    ∃ a, t = a ++ mark :: rest ∧
      ∀ t', firstMatch? m before (a ++ mark :: t') = some (found, t') := by
  induction t generalizing before with
  | nil => exact absurd (List.suffix_nil.mp (h.suffix hfirst)) (List.cons_ne_nil _ _)
  | cons c t ih =>
    rw [firstMatch?] at hfirst
    cases hplace : m before (c :: t) with
    | some read =>
      rw [hplace] at hfirst
      cases hfirst
      obtain ⟨a, ha⟩ := h.suffix hplace
      rw [← ha] at hplace
      exact ⟨a, ha.symm, fun t' => firstMatch?_of_eq_some (h.eq_some hplace t')⟩
    | none =>
      rw [hplace] at hfirst
      obtain ⟨a, rfl, hall⟩ := ih hfirst
      refine ⟨c :: a, rfl, fun t' => ?_⟩
      have hnone : m before (c :: (a ++ mark :: t')) = none := h.eq_none (a := c :: a) hplace t'
      rw [List.cons_append, firstMatch?, hnone]
      exact hall t'

end EndsAt

/-! ## In front of a mark -/

section Mark

variable {m : Char} {a t : List Char}

theorem stripStart?_append_cons {word : List Char} (hm : m ∉ word) :
    stripStart? word (a ++ m :: t) = (stripStart? word a).map (· ++ m :: t) := by
  induction word generalizing a with
  | nil => rfl
  | cons w word ih =>
    rw [List.mem_cons, not_or] at hm
    cases a with
    | nil => exact if_neg (Ne.symm hm.1)
    | cons c a =>
      rw [List.cons_append, stripStart?, stripStart?, ih hm.2]
      split <;> rfl

theorem takeWhile_append_cons {p : Char → Bool} (hm : p m = false) :
    (a ++ m :: t).takeWhile p = a.takeWhile p := by
  induction a with
  | nil => exact List.takeWhile_cons_of_neg (by rw [hm]; decide)
  | cons c a ih =>
    rw [List.cons_append, List.takeWhile_cons, List.takeWhile_cons, ih]

theorem dropWhile_append_cons {p : Char → Bool} (hm : p m = false) :
    (a ++ m :: t).dropWhile p = a.dropWhile p ++ m :: t := by
  induction a with
  | nil => exact List.dropWhile_cons_of_neg (by rw [hm]; decide)
  | cons c a ih =>
    rw [List.cons_append, List.dropWhile_cons, List.dropWhile_cons, ih]
    split <;> rfl

end Mark

/-! ## Where a word does not stand -/

theorem stripStart?_eq_none_of_mem {c : Char} {word t : List Char} (hc : c ∈ word) (h : c ∉ t) :
    stripStart? word t = none := by
  rw [Option.eq_none_iff_forall_ne_some]
  intro rest hrest
  rw [stripStart?_eq_some_iff] at hrest
  exact h (hrest ▸ List.mem_append_left _ hc)

theorem stripEnd?_eq_none_of_mem {c : Char} {word t : List Char} (hc : c ∈ word) (h : c ∉ t) :
    stripEnd? word t = none := by
  rw [Option.eq_none_iff_forall_ne_some]
  intro rest hrest
  rw [stripEnd?_eq_some_iff] at hrest
  exact h (hrest ▸ List.mem_append_right _ hc)

/-- A text with another last character than the word does not end with it. -/
theorem stripEnd?_eq_none_of_getLast?_ne {word t : List Char} (hne : word ≠ [])
    (h : t.getLast? ≠ word.getLast?) : stripEnd? word t = none := by
  rw [Option.eq_none_iff_forall_ne_some]
  intro rest hrest
  rw [stripEnd?_eq_some_iff] at hrest
  exact h (by rw [hrest, List.getLast?_append, Option.or_of_isSome (List.getLast?_isSome.mpr hne)])

/-- The word begins at no place of a piece, whatever comes behind the piece. -/
def Apart (word : List Char) : List Char → Prop
  | [] => True
  | c :: piece => ¬ c :: piece <+: word ∧ ¬ word <+: c :: piece ∧ Apart word piece

instance decidableApart (word : List Char) : (piece : List Char) → Decidable (Apart word piece)
  | [] => .isTrue trivial
  | c :: piece =>
    have := decidableApart word piece
    inferInstanceAs (Decidable (¬ c :: piece <+: word ∧ ¬ word <+: c :: piece ∧ Apart word piece))

theorem Apart.append {word piece piece' : List Char} (h : Apart word piece)
    (h' : Apart word piece') : Apart word (piece ++ piece') := by
  induction piece with
  | nil => exact h'
  | cons c piece ih =>
    obtain ⟨hshort, hlong, hrest⟩ := h
    refine ⟨fun hprefix => hshort ?_, fun hprefix => ?_, ih hrest⟩
    · exact (List.prefix_append (c :: piece) piece').trans hprefix
    · rcases List.prefix_or_prefix_of_prefix hprefix (List.prefix_append (c :: piece) piece') with
        hlong' | hshort'
      · exact hlong hlong'
      · exact hshort hshort'

theorem Apart.flatMap {α : Type} {word : List Char} {f : α → List Char} {l : List α}
    (h : ∀ x ∈ l, Apart word (f x)) : Apart word (l.flatMap f) := by
  induction l with
  | nil => trivial
  | cons x l ih =>
    rw [List.forall_mem_cons] at h
    rw [List.flatMap_cons]
    exact h.1.append (ih h.2)

/-- No word begins where its first letter does not occur. -/
theorem apart_of_notMem {d : Char} {word piece : List Char} (h : d ∉ piece) :
    Apart (d :: word) piece := by
  induction piece with
  | nil => trivial
  | cons c piece ih =>
    rw [List.mem_cons, not_or] at h
    refine ⟨fun hprefix => h.1 ?_, fun hprefix => h.1 ?_, ih h.2⟩
    · exact (List.cons_prefix_cons.mp hprefix).1.symm
    · exact (List.cons_prefix_cons.mp hprefix).1

theorem stripStart?_of_apart {c : Char} {word piece : List Char} (h : Apart word (c :: piece))
    (t : List Char) : stripStart? word (c :: piece ++ t) = none := by
  rw [Option.eq_none_iff_forall_ne_some]
  intro rest hrest
  have hword : word <+: c :: piece ++ t := ⟨rest, (stripStart?_eq_some_iff.mp hrest).symm⟩
  rcases List.prefix_or_prefix_of_prefix hword (List.prefix_append (c :: piece) t) with hlong | hshort
  · exact h.2.1 hlong
  · exact h.1 hshort

/-- A recogniser of what begins with one of some words reads nothing in a piece apart from them. -/
theorem readsNothing_of_apart (words : List (List Char))
    (hm : ∀ before t, (∀ word ∈ words, stripStart? word t = none) → m before t = none)
    {piece : List Char} (h : ∀ word ∈ words, Apart word piece) (before : Option Char)
    (t : List Char) : ReadsNothing m before piece t := by
  induction piece generalizing before with
  | nil => trivial
  | cons c piece ih =>
    refine ⟨hm before _ fun word hword => ?_, ih (fun word hword => (h word hword).2.2) _⟩
    exact stripStart?_of_apart (h word hword) t

end JniLink.Text
