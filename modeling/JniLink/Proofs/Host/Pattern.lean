import Mathlib.Data.List.TakeWhile
import JniLink.Host.Pattern
import JniLink.Proofs.Text.Match
import JniLink.Proofs.Text.Word

/-!
# Recognisers before a mark

A reader of words and blanks stops at a mark that is neither, whatever is behind it: with a mark in
the text it reads what it reads in the text before the mark, and leaves the mark and what follows.

With that law it is enough to say what is read in an identifier, in a run and in a word that stand
alone.
-/

namespace JniLink.Host

open JniLink.Text

section Mark

variable {m : Char} {a t : List Char}

theorem trimStart_append_cons (hm : isBlank m = false) :
    trimStart (a ++ m :: t) = trimStart a ++ m :: t :=
  dropWhile_append_cons hm

theorem blanks?_append_cons (hm : isBlank m = false) :
    blanks? (a ++ m :: t) = (blanks? a).map (· ++ m :: t) := by
  cases a with
  | nil => simp [blanks?, hm]
  | cons c a =>
    rw [List.cons_append, blanks?, blanks?, trimStart_append_cons hm]
    split <;> rfl

theorem run?_append_cons {p : Char → Bool} (hm : p m = false) :
    run? p (a ++ m :: t) = (run? p a).map (Prod.map id (· ++ m :: t)) := by
  unfold run?
  rw [takeWhile_append_cons hm, dropWhile_append_cons hm]
  split <;> rfl

theorem identifier?_append_cons (hm : isWord m = false) :
    identifier? (a ++ m :: t) = (identifier? a).map (Prod.map id (· ++ m :: t)) := by
  cases a with
  | nil =>
    have hstart : isIdentifierStart m = false := by
      rw [Bool.eq_false_iff]
      intro hstart
      rw [isWord_of_isIdentifierStart hstart] at hm
      cases hm
    rw [List.nil_append, identifier?, hstart]
    rfl
  | cons c a =>
    rw [List.cons_append, identifier?, identifier?, takeWhile_append_cons hm,
      dropWhile_append_cons hm]
    split <;> rfl

theorem wordAndBlanks?_append_cons {word : String} (hm : isBlank m = false)
    (hw : m ∉ word.toList) :
    wordAndBlanks? word (a ++ m :: t) = (wordAndBlanks? word a).map (· ++ m :: t) := by
  rw [wordAndBlanks?, wordAndBlanks?, stripStart?_append_cons hw]
  cases stripStart? word.toList a with
  | none => rfl
  | some r => exact blanks?_append_cons hm

theorem isBoundary_append_cons {before : Option Char} (hm : isWord m = false) :
    isBoundary before (a ++ m :: t) = isBoundary before a := by
  cases a with
  | nil => simp [isBoundary, hm]
  | cons c a => rfl

theorem keyword?_append_cons {word : String} {before : Option Char} (hm : isBlank m = false)
    (hm' : isWord m = false) (hw : m ∉ word.toList) :
    keyword? word before (a ++ m :: t) = (keyword? word before a).map (· ++ m :: t) := by
  rw [keyword?, keyword?, isBoundary_append_cons hm', wordAndBlanks?_append_cons hm hw]
  split <;> rfl

end Mark

/-! ## Known texts -/

theorem upTo?_append_cons {mark : Char} {s : List Char} (h : mark ∉ s) (t : List Char) :
    upTo? mark (s ++ mark :: t) = some (s, t) := by
  have hall : ∀ c ∈ s, (c != mark) = true := fun c hc => by
    simpa using ne_of_mem_of_not_mem hc h
  have htake : (s ++ mark :: t).takeWhile (· != mark) = s := by
    rw [List.takeWhile_append_of_pos hall, List.takeWhile_cons_of_neg (by simp), List.append_nil]
  have hdrop : (s ++ mark :: t).dropWhile (· != mark) = mark :: t := by
    rw [List.dropWhile_append_of_pos hall, List.dropWhile_cons_of_neg (by simp)]
  simp only [upTo?, hdrop, htake]

theorem run?_eq_some_self {p : Char → Bool} {s : List Char} (h : ∀ c ∈ s, p c = true) (hne : s ≠ []) :
    run? p s = some (s, []) := by
  have htake : s.takeWhile p = s := List.takeWhile_eq_self_iff.mpr h
  have hdrop : s.dropWhile p = [] := List.dropWhile_eq_nil_iff.mpr h
  unfold run?
  rw [htake, hdrop]
  split
  · contradiction
  · rfl

/-- An identifier as declarations name things: an ASCII letter or underscore and word characters
behind it. -/
def IsIdentifier (name : List Char) : Prop :=
  ∃ c r, name = c :: r ∧ isIdentifierStart c = true ∧ ∀ d ∈ r, isWord d = true

instance decidableIsIdentifier : (name : List Char) → Decidable (IsIdentifier name)
  | [] => .isFalse fun ⟨_, _, h, _⟩ => nomatch h
  | c :: r =>
    decidable_of_iff (isIdentifierStart c = true ∧ ∀ d ∈ r, Text.isWord d = true)
      ⟨fun h => ⟨c, r, rfl, h⟩, fun ⟨_, _, heq, h⟩ => by cases heq; exact h⟩

theorem IsIdentifier.isWord {name : List Char} (h : IsIdentifier name) :
    ∀ c ∈ name, Text.isWord c = true := by
  obtain ⟨c, r, rfl, hc, hr⟩ := h
  intro d hd
  rcases List.mem_cons.mp hd with rfl | hd
  · exact isWord_of_isIdentifierStart hc
  · exact hr d hd

theorem IsIdentifier.ne_nil {name : List Char} (h : IsIdentifier name) : name ≠ [] := by
  obtain ⟨c, r, rfl, -⟩ := h
  exact List.cons_ne_nil c r

theorem IsIdentifier.isBlank {name : List Char} (h : IsIdentifier name) :
    ∀ c ∈ name, Text.isBlank c = false :=
  fun c hc => isBlank_of_isWord (h.isWord c hc)

theorem identifier?_eq_some_self {name : List Char} (h : IsIdentifier name) :
    identifier? name = some (name, []) := by
  obtain ⟨c, r, rfl, hc, hr⟩ := h
  rw [identifier?, if_pos hc, List.takeWhile_eq_self_iff.mpr hr, List.dropWhile_eq_nil_iff.mpr hr]

/-! ## What is left behind a word -/

theorem suffix_of_blanks? {t r : List Char} (h : blanks? t = some r) : r <:+ t := by
  cases t with
  | nil => cases h
  | cons c t =>
    rw [blanks?] at h
    split at h
    · cases h
      exact (List.dropWhile_suffix isBlank).trans (List.suffix_cons c t)
    · cases h

theorem suffix_of_wordAndBlanks? {word : String} {t r : List Char}
    (h : wordAndBlanks? word t = some r) : r <:+ t := by
  obtain ⟨s, hs, hr⟩ := Option.bind_eq_some_iff.mp h
  rw [stripStart?_eq_some_iff] at hs
  subst hs
  exact (suffix_of_blanks? hr).trans (List.suffix_append _ s)

theorem suffix_of_keyword? {word : String} {before : Option Char} {t r : List Char}
    (h : keyword? word before t = some r) : r <:+ t := by
  rw [keyword?] at h
  split at h
  · exact suffix_of_wordAndBlanks? h
  · cases h

theorem suffix_of_run? {p : Char → Bool} {t taken r : List Char} (h : run? p t = some (taken, r)) :
    r <:+ t := by
  unfold run? at h
  split at h
  · cases h
  · cases h
    exact List.dropWhile_suffix p

theorem suffix_of_identifier? {t name r : List Char} (h : identifier? t = some (name, r)) :
    r <:+ t := by
  cases t with
  | nil => cases h
  | cons c t =>
    rw [identifier?] at h
    split at h
    · cases h
      exact (List.dropWhile_suffix isWord).trans (List.suffix_cons c t)
    · cases h

theorem suffix_of_mem_afterModifiers {t r : List Char} (h : r ∈ afterModifiers t) : r <:+ t := by
  fun_induction afterModifiers t with
  | case1 t s hs hlt ih =>
    rcases List.mem_append.mp h with h | h
    · refine (ih h).trans ?_
      simp only [javaModifier?, Option.orElse_eq_orElse, Option.orElse_eq_or,
        Option.or_eq_some_iff] at hs
      rcases hs with hs | ⟨-, hs | ⟨-, hs⟩⟩
      · exact suffix_of_wordAndBlanks? hs
      · exact suffix_of_wordAndBlanks? hs
      · exact suffix_of_wordAndBlanks? hs
    · cases List.mem_singleton.mp h
      exact List.suffix_rfl
  | case2 t hnone =>
    cases List.mem_singleton.mp h
    exact List.suffix_rfl

/-! ## Words before blanks -/

theorem keyword?_eq_none {word : String} {before : Option Char} {t : List Char}
    (h : stripStart? word.toList t = none) : keyword? word before t = none := by
  rw [keyword?, wordAndBlanks?, h]
  split <;> rfl

theorem wordAndBlanks?_append_space {word : String} {t : List Char}
    (ht : ∀ c ∈ t.head?, isBlank c = false) :
    wordAndBlanks? word (word.toList ++ ' ' :: t) = some t := by
  rw [wordAndBlanks?, stripStart?_eq_some_iff.mpr rfl]
  exact congrArg some (trimStart_eq_self ht)

theorem keyword?_append_space (word : String) {before : Option Char} {t : List Char}
    (hb : before.any isWord = false) (hword : word.toList.head?.any isWord = true)
    (ht : ∀ c ∈ t.head?, isBlank c = false) :
    keyword? word before (word.toList ++ ' ' :: t) = some t := by
  have hne : word.toList ≠ [] := by
    intro hnil
    rw [hnil] at hword
    cases hword
  have hboundary : isBoundary before (word.toList ++ ' ' :: t) = true := by
    rw [isBoundary, hb, List.head?_append_of_ne_nil _ hne, hword]
    rfl
  rw [keyword?, if_pos hboundary, wordAndBlanks?_append_space ht]

/-- A word is not read within a longer one. -/
theorem wordAndBlanks?_append {word : String} {s : List Char} {m : Char}
    (hs : ∀ c ∈ s, isBlank c = false) (hm : m ∉ word.toList) (t : List Char) :
    wordAndBlanks? word (s ++ m :: t) = none ∨ s = word.toList ∧ isBlank m = true ∧
      wordAndBlanks? word (s ++ m :: t) = some (trimStart t) := by
  rw [wordAndBlanks?, stripStart?_append_cons hm]
  cases hr : stripStart? word.toList s with
  | none => exact .inl rfl
  | some r =>
    rw [stripStart?_eq_some_iff] at hr
    rw [Option.map_some, Option.bind_some]
    cases r with
    | nil =>
      rw [List.nil_append, blanks?]
      cases isBlank m with
      | true => exact .inr ⟨by rw [hr, List.append_nil], rfl, rfl⟩
      | false => exact .inl rfl
    | cons c r =>
      have hc : isBlank c = false := hs c (hr ▸ List.mem_append_right _ List.mem_cons_self)
      left
      rw [List.cons_append, blanks?, hc]
      rfl

theorem javaModifier?_append {s : List Char} {m : Char} (hs : ∀ c ∈ s, isBlank c = false)
    (hm : ∀ word ∈ ["static", "final", "synchronized"], m ∉ word.toList) (t : List Char) :
    javaModifier? (s ++ m :: t) = none ∨
      isBlank m = true ∧ javaModifier? (s ++ m :: t) = some (trimStart t) := by
  have hword : ∀ word ∈ ["static", "final", "synchronized"],
      wordAndBlanks? word (s ++ m :: t) = none ∨
        isBlank m = true ∧ wordAndBlanks? word (s ++ m :: t) = some (trimStart t) :=
    fun word hmem => (wordAndBlanks?_append hs (hm word hmem) t).imp id And.right
  unfold javaModifier?
  rcases hword "static" (by decide) with hstatic | ⟨hm, hstatic⟩
  · rcases hword "final" (by decide) with hfinal | ⟨hm, hfinal⟩
    · rw [hstatic, hfinal]
      exact hword "synchronized" (by decide)
    · rw [hstatic, hfinal]
      exact .inr ⟨hm, rfl⟩
  · rw [hstatic]
    exact .inr ⟨hm, rfl⟩

end JniLink.Host
