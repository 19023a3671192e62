import JniLink.Host.Splice
import JniLink.Proofs.Host.Pattern

/-!
# The header of a class ends at its brace

The header of a class is read from the start of its line to the first brace behind the name: an
indent, words, `class` or `object`, the name, and anything up to the brace (`exists_of_classOpening`).
No character behind that brace has a part in it. So whatever is put behind the brace, the header is
found again at the same place and with the same indent (`endsAt_classOpening`).
-/

namespace JniLink.Host

open JniLink.Text

variable {name a t r rest : List Char}

/-! ## Runs, words and gaps -/

section Run

variable {p : Char → Bool} {s : List Char} (hs : ∀ c ∈ s, p c = true)
  (hr : ∀ c ∈ r.head?, p c = false)
include hs hr

theorem takeWhile_append_of_head? : (s ++ r).takeWhile p = s := by
  rw [List.takeWhile_append_of_pos hs]
  cases r with
  | nil => exact List.append_nil s
  | cons c r => rw [List.takeWhile_cons_of_neg (by rw [hr c rfl]; decide), List.append_nil]

theorem dropWhile_append_of_head? : (s ++ r).dropWhile p = r := by
  rw [List.dropWhile_append_of_pos hs]
  cases r with
  | nil => rfl
  | cons c r => exact List.dropWhile_cons_of_neg (by rw [hr c rfl]; decide)

end Run

theorem run?_eq_some_iff {p : Char → Bool} {taken : List Char} : run? p t = some (taken, r) ↔
    t = taken ++ r ∧ taken ≠ [] ∧ (∀ c ∈ taken, p c = true) ∧ ∀ c ∈ r.head?, p c = false := by
  constructor
  · intro h
    have hcut := List.takeWhile_append_dropWhile (p := p) (l := t)
    have hhead := List.head?_dropWhile_not p t
    unfold run? at h
    split at h
    next => cases h
    next hne =>
      cases h
      refine ⟨hcut.symm, hne, fun c hc => List.mem_takeWhile_imp hc, fun c hc => ?_⟩
      rw [Option.mem_def.mp hc] at hhead
      simpa using hhead
  · rintro ⟨rfl, hne, htaken, hr⟩
    unfold run?
    rw [takeWhile_append_of_head? htaken hr, dropWhile_append_of_head? htaken hr]
    split
    · contradiction
    · rfl

theorem upTo?_eq_some_iff {mark : Char} {s : List Char} :
    upTo? mark t = some (s, rest) ↔ t = s ++ mark :: rest ∧ mark ∉ s := by
  constructor
  · intro h
    have hs : mark ∉ t.takeWhile (· != mark) := fun hmem => by
      simpa using List.mem_takeWhile_imp hmem
    unfold upTo? at h
    split at h
    next c r hdrop =>
      cases h
      exact ⟨(takeWhile_append_of_dropWhile_ne hdrop).symm, hs⟩
    next => cases h
  · rintro ⟨rfl, hs⟩
    exact upTo?_append_cons hs rest

theorem not_isHeaderChar_of_isSpaceOrTab {c : Char} (h : isSpaceOrTab c = true) :
    isHeaderChar c = false := by
  rw [isSpaceOrTab, Bool.or_eq_true, beq_iff_eq, beq_iff_eq] at h
  rcases h with rfl | rfl <;> decide

theorem not_isSpaceOrTab_of_isHeaderChar {c : Char} (h : isHeaderChar c = true) :
    isSpaceOrTab c = false := by
  rw [Bool.eq_false_iff]
  intro hspace
  rw [not_isHeaderChar_of_isSpaceOrTab hspace] at h
  cases h

/-- Words and the spaces or tabs behind each of them, as they may stand before `class`. -/
inductive HeaderWords : List Char → Prop
  | nil : HeaderWords []
  | cons {word gap words : List Char} (hne : word ≠ []) (hword : ∀ c ∈ word, isHeaderChar c = true)
      (hne' : gap ≠ []) (hgap : ∀ c ∈ gap, isSpaceOrTab c = true) (hwords : HeaderWords words) :
      HeaderWords (word ++ (gap ++ words))

theorem HeaderWords.head?_append {words : List Char} (h : HeaderWords words)
    (hr : ∀ c ∈ r.head?, isSpaceOrTab c = false) :
    ∀ c ∈ (words ++ r).head?, isSpaceOrTab c = false := by
  cases h with
  | nil => exact hr
  | cons hne hword =>
    rw [List.append_assoc, List.head?_append_of_ne_nil _ hne]
    intro c hc
    exact not_isSpaceOrTab_of_isHeaderChar (hword c (List.mem_of_mem_head? hc))

theorem headerWord?_eq_some_iff : headerWord? t = some r ↔ ∃ word gap, t = word ++ (gap ++ r) ∧
    word ≠ [] ∧ (∀ c ∈ word, isHeaderChar c = true) ∧
    gap ≠ [] ∧ (∀ c ∈ gap, isSpaceOrTab c = true) ∧ ∀ c ∈ r.head?, isSpaceOrTab c = false := by
  simp only [headerWord?, Option.bind_eq_bind, Option.bind_eq_some_iff, Option.pure_def,
    Option.some.injEq, Prod.exists, run?_eq_some_iff]
  constructor
  · rintro ⟨word, s, ⟨rfl, hne, hword, -⟩, gap, r', ⟨rfl, hne', hgap, hr⟩, rfl⟩
    exact ⟨word, gap, rfl, hne, hword, hne', hgap, hr⟩
  · rintro ⟨word, gap, rfl, hne, hword, hne', hgap, hr⟩
    refine ⟨word, gap ++ r, ⟨rfl, hne, hword, ?_⟩, gap, r, ⟨rfl, hne', hgap, hr⟩, rfl⟩
    rw [List.head?_append_of_ne_nil _ hne']
    intro c hc
    exact not_isHeaderChar_of_isSpaceOrTab (hgap c (List.mem_of_mem_head? hc))

theorem afterHeaderWords_of_eq_none (h : headerWord? t = none) : afterHeaderWords t = [t] := by
  rw [afterHeaderWords]
  split
  next r hr => cases h.symm.trans hr
  next => rfl

theorem afterHeaderWords_of_eq_some (h : headerWord? t = some rest) :
    afterHeaderWords t = afterHeaderWords rest ++ [t] := by
  rw [afterHeaderWords]
  split
  next r hr => cases h.symm.trans hr; rfl
  next hr => cases h.symm.trans hr

theorem exists_of_mem_afterHeaderWords (h : r ∈ afterHeaderWords t) :
    ∃ words, t = words ++ r ∧ HeaderWords words := by
  fun_induction afterHeaderWords t with
  | case1 t s hs hlt ih =>
    rcases List.mem_append.mp h with hlater | h
    · obtain ⟨words, rfl, hwords⟩ := ih hlater
      obtain ⟨word, gap, rfl, hne, hword, hne', hgap, -⟩ := headerWord?_eq_some_iff.mp hs
      exact ⟨word ++ (gap ++ words), by simp only [List.append_assoc],
        .cons hne hword hne' hgap hwords⟩
    · cases List.mem_singleton.mp h
      exact ⟨[], rfl, .nil⟩
  | case2 t hnone =>
    cases List.mem_singleton.mp h
    exact ⟨[], rfl, .nil⟩

theorem mem_afterHeaderWords_self (t : List Char) : t ∈ afterHeaderWords t := by
  cases h : headerWord? t with
  | none =>
    rw [afterHeaderWords_of_eq_none h]
    exact List.mem_singleton_self t
  | some r =>
    rw [afterHeaderWords_of_eq_some h]
    exact List.mem_append_right _ (List.mem_singleton_self t)

/-- However many words there are, the place behind them is among those that are tried. -/
theorem HeaderWords.mem_afterHeaderWords {words : List Char} (h : HeaderWords words)
    (hr : ∀ c ∈ r.head?, isSpaceOrTab c = false) : r ∈ afterHeaderWords (words ++ r) := by
  induction h with
  | nil => exact mem_afterHeaderWords_self r
  | @cons word gap words hne hword hne' hgap hwords ih =>
    have hread : headerWord? (word ++ (gap ++ words) ++ r) = some (words ++ r) :=
      headerWord?_eq_some_iff.mpr ⟨word, gap, by simp only [List.append_assoc], hne, hword, hne', hgap,
        hwords.head?_append hr⟩
    rw [afterHeaderWords_of_eq_some hread]
    exact List.mem_append_left _ ih

theorem mem_afterSpaces_iff : r ∈ afterSpaces t ↔
    ∃ gap, gap ≠ [] ∧ (∀ c ∈ gap, isSpaceOrTab c = true) ∧ t = gap ++ r := by
  induction t with
  | nil =>
    rw [afterSpaces]
    constructor
    · intro h
      cases h
    · rintro ⟨gap, hne, -, hnil⟩
      exact absurd (List.append_eq_nil_iff.mp hnil.symm).1 hne
  | cons c t ih =>
    rw [afterSpaces]
    cases hc : isSpaceOrTab c with
    | false =>
      constructor
      · intro h
        cases h
      · rintro ⟨gap, hne, hgap, hcut⟩
        obtain ⟨d, gap, rfl⟩ := List.exists_cons_of_ne_nil hne
        cases hcut
        rw [hgap c List.mem_cons_self] at hc
        cases hc
    | true =>
      rw [if_pos rfl, List.mem_append, List.mem_singleton, ih]
      constructor
      · rintro (⟨gap, -, hgap, rfl⟩ | rfl)
        · exact ⟨c :: gap, List.cons_ne_nil c gap, List.forall_mem_cons.mpr ⟨hc, hgap⟩, rfl⟩
        · exact ⟨[c], List.cons_ne_nil c [], List.forall_mem_singleton.mpr hc, rfl⟩
      · rintro ⟨gap, hne, hgap, hcut⟩
        obtain ⟨d, gap, rfl⟩ := List.exists_cons_of_ne_nil hne
        rw [List.cons_append, List.cons.injEq] at hcut
        obtain ⟨rfl, rfl⟩ := hcut
        rw [List.forall_mem_cons] at hgap
        cases gap with
        | nil => exact .inr rfl
        | cons e gap => exact .inl ⟨e :: gap, List.cons_ne_nil e gap, hgap.2, rfl⟩

/-! ## What a header is -/

theorem nameAndBrace?_eq_some_iff : nameAndBrace? name t = some rest ↔
    ∃ between, t = name ++ (between ++ '\x7b' :: rest) ∧ '\x7b' ∉ between ∧
      isBoundary (lastOr (some ' ') name) (between ++ '\x7b' :: rest) = true := by
  simp only [nameAndBrace?, Option.bind_eq_bind, Option.bind_eq_some_iff, stripStart?_eq_some_iff]
  constructor
  · rintro ⟨behind, rfl, h⟩
    split at h
    next hedge =>
      obtain ⟨⟨between, r⟩, hread, heq⟩ := Option.bind_eq_some_iff.mp h
      cases heq
      obtain ⟨rfl, hbetween⟩ := upTo?_eq_some_iff.mp hread
      exact ⟨between, rfl, hbetween, hedge⟩
    next => cases h
  · rintro ⟨between, rfl, hbetween, hedge⟩
    refine ⟨_, rfl, ?_⟩
    rw [lastOr] at hedge
    rw [if_pos hedge, upTo?_append_cons hbetween]
    rfl

/-- `class` or `object`, a gap, the name, and what is behind it up to a brace. -/
theorem exists_of_classNamed? (h : classNamed? name t = some rest) : ∃ keyword gap between,
    t = keyword ++ (gap ++ (name ++ (between ++ '\x7b' :: rest))) ∧
      (keyword = "class".toList ∨ keyword = "object".toList) ∧
      gap ≠ [] ∧ (∀ c ∈ gap, isSpaceOrTab c = true) ∧ '\x7b' ∉ between ∧
      isBoundary (lastOr (some ' ') name) (between ++ '\x7b' :: rest) = true := by
  simp only [classNamed?, Option.bind_eq_bind, Option.bind_eq_some_iff, Option.orElse_eq_orElse,
    Option.orElse_eq_or, Option.or_eq_some_iff, stripStart?_eq_some_iff] at h
  obtain ⟨s, hs, h⟩ := h
  obtain ⟨place, hplace, hread⟩ := List.exists_of_findSome?_eq_some h
  obtain ⟨gap, hne, hgap, rfl⟩ := mem_afterSpaces_iff.mp hplace
  obtain ⟨between, rfl, hbetween, hedge⟩ := nameAndBrace?_eq_some_iff.mp hread
  rcases hs with rfl | ⟨-, rfl⟩
  · exact ⟨_, gap, between, rfl, .inl rfl, hne, hgap, hbetween, hedge⟩
  · exact ⟨_, gap, between, rfl, .inr rfl, hne, hgap, hbetween, hedge⟩

/-- What is read at a place is a header of the class and the text up to the next brace. -/
theorem exists_of_classOpening {before : Option Char} {indent : List Char}
    (h : classOpening name before t = some (indent, rest)) :
    before.all (· == '\n') = true ∧ (∀ c ∈ indent, isSpaceOrTab c = true) ∧
      ∃ words keyword gap between,
        t = indent ++ (words ++ (keyword ++ (gap ++ (name ++ (between ++ '\x7b' :: rest))))) ∧
        HeaderWords words ∧ (keyword = "class".toList ∨ keyword = "object".toList) ∧
        gap ≠ [] ∧ (∀ c ∈ gap, isSpaceOrTab c = true) ∧ '\x7b' ∉ between ∧
        isBoundary (lastOr (some ' ') name) (between ++ '\x7b' :: rest) = true := by
  simp only [classOpening] at h
  split at h
  next hline =>
    obtain ⟨r, hr, heq⟩ := Option.bind_eq_some_iff.mp h
    cases heq
    obtain ⟨place, hplace, hread⟩ := List.exists_of_findSome?_eq_some hr
    obtain ⟨words, hwords, hheader⟩ := exists_of_mem_afterHeaderWords hplace
    obtain ⟨keyword, gap, between, rfl, hkeyword, hne, hgap, hbetween, hedge⟩ :=
      exists_of_classNamed? hread
    refine ⟨hline, fun c hc => List.mem_takeWhile_imp hc, words, keyword, gap, between, ?_, hheader,
      hkeyword, hne, hgap, hbetween, hedge⟩
    rw [← hwords, List.takeWhile_append_dropWhile]
  next => cases h

theorem isSpaceOrTab_of_classOpening {before : Option Char} {indent : List Char}
    (h : classOpening name before t = some (indent, rest)) : ∀ c ∈ indent, isSpaceOrTab c = true :=
  (exists_of_classOpening h).2.1

/-- What is read ends with a brace, whatever the class is named. -/
theorem cons_suffix_of_classOpening {before : Option Char} {indent : List Char}
    (h : classOpening name before t = some (indent, rest)) : '\x7b' :: rest <:+ t := by
  obtain ⟨-, -, words, keyword, gap, between, rfl, -⟩ := exists_of_classOpening h
  exact ⟨indent ++ (words ++ (keyword ++ (gap ++ (name ++ between)))), by simp⟩

/-! ## What stands behind the brace -/

theorem upTo?_mark_append (mark : Char) (a t : List Char) :
    upTo? mark (a ++ mark :: t) = (upTo? mark (a ++ [mark])).map (Prod.map id (· ++ t)) := by
  have hmark : (mark != mark) = false := bne_self_eq_false mark
  simp only [upTo?, takeWhile_append_cons (p := (· != mark)) hmark,
    dropWhile_append_cons (p := (· != mark)) hmark]
  cases a.dropWhile (· != mark) with
  | nil => rfl
  | cons c s => simp

theorem nameAndBrace?_append (hname : '\x7b' ∉ name) (a t : List Char) :
    nameAndBrace? name (a ++ '\x7b' :: t) =
      (nameAndBrace? name (a ++ ['\x7b'])).map (· ++ t) := by
  simp only [nameAndBrace?, stripStart?_append_cons hname, Option.bind_eq_bind]
  cases stripStart? name a with
  | none => rfl
  | some s =>
    have hword : isWord '\x7b' = false := by decide
    simp only [Option.map_some, Option.bind_some, isBoundary_append_cons hword]
    rw [upTo?_mark_append]
    split
    · cases upTo? '\x7b' (s ++ ['\x7b']) <;> rfl
    · rfl

theorem afterSpaces_append (a t : List Char) :
    afterSpaces (a ++ '\x7b' :: t) = (afterSpaces a).map (· ++ '\x7b' :: t) := by
  induction a with
  | nil => rfl
  | cons c a ih =>
    rw [List.cons_append, afterSpaces, afterSpaces, ih]
    split
    · rw [List.map_append]
      rfl
    · rfl

theorem classNamed?_append (hname : '\x7b' ∉ name) (a t : List Char) :
    classNamed? name (a ++ '\x7b' :: t) = (classNamed? name (a ++ ['\x7b'])).map (· ++ t) := by
  simp only [classNamed?, stripStart?_append_cons (by decide : '\x7b' ∉ "class".toList),
    stripStart?_append_cons (by decide : '\x7b' ∉ "object".toList), Option.orElse_eq_orElse,
    Option.orElse_eq_or, ← Option.map_or, Option.bind_eq_bind]
  cases (stripStart? "class".toList a).or (stripStart? "object".toList a) with
  | none => rfl
  | some s =>
    simp only [Option.map_some, Option.bind_some, afterSpaces_append, List.findSome?_map]
    rw [List.map_findSome?]
    congr 1
    funext place
    exact nameAndBrace?_append hname place t

theorem headerWord?_append (a t : List Char) :
    headerWord? (a ++ '\x7b' :: t) = (headerWord? a).map (· ++ '\x7b' :: t) := by
  simp only [headerWord?, run?_append_cons (by decide : isHeaderChar '\x7b' = false),
    Option.bind_eq_bind]
  cases run? isHeaderChar a with
  | none => rfl
  | some read =>
    simp only [Option.map_some, Option.bind_some, Prod.map_snd,
      run?_append_cons (by decide : isSpaceOrTab '\x7b' = false)]
    cases run? isSpaceOrTab read.2 <;> rfl

theorem afterHeaderWords_append (a t : List Char) :
    afterHeaderWords (a ++ '\x7b' :: t) = (afterHeaderWords a).map (· ++ '\x7b' :: t) := by
  fun_induction afterHeaderWords a with
  | case1 a r hr hlt ih =>
    have hword : headerWord? (a ++ '\x7b' :: t) = some (r ++ '\x7b' :: t) := by
      rw [headerWord?_append, hr]
      rfl
    rw [afterHeaderWords_of_eq_some hword, ih, List.map_append]
    rfl
  | case2 a hr =>
    rw [afterHeaderWords_of_eq_none (by rw [headerWord?_append, hr]; rfl)]
    rfl

/-- The header ends at the brace. -/
theorem endsAt_classOpening (hname : '\x7b' ∉ name) : EndsAt '\x7b' (classOpening name) where
  suffix h := cons_suffix_of_classOpening h
  append_cons before a t := by
    have hspace : isSpaceOrTab '\x7b' = false := by decide
    have hread (a t : List Char) :
        (afterHeaderWords (a ++ '\x7b' :: t)).findSome? (classNamed? name) =
          ((afterHeaderWords (a ++ ['\x7b'])).findSome? (classNamed? name)).map (· ++ t) := by
      simp only [afterHeaderWords_append, List.findSome?_map, List.map_findSome?]
      congr 1
      funext place
      exact classNamed?_append hname place t
    simp only [classOpening, takeWhile_append_cons hspace, dropWhile_append_cons hspace,
      hread (a.dropWhile isSpaceOrTab) t]
    split
    · cases (afterHeaderWords (a.dropWhile isSpaceOrTab ++ ['\x7b'])).findSome?
        (classNamed? name) <;> rfl
    · rfl

end JniLink.Host
