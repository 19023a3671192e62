import JniLink.Proofs.Host.Pattern

/-!
# Native functions in host sources

Whether a native function is read at a place is settled by the text up to the parenthesis that
closes its parameter list (in Java, up to the semicolon behind it). And a declaration that is
written out with its keywords, a name, a parameter list and a result type is read as such, whatever
its words are: a type or a name may be spelled like a modifier.
-/

namespace JniLink.Host

open JniLink.Text

/-! ## Texts without a parameter list -/

theorem nameAndParams?_eq_none_of_notMem {t : List Char} (h : '(' ∉ t) : nameAndParams? t = none := by
  unfold nameAndParams?
  cases hname : identifier? t with
  | none => rfl
  | some found =>
    obtain ⟨name, r⟩ := found
    have hr : '(' ∉ trimStart r := fun hmem =>
      h (((List.dropWhile_suffix isBlank).trans (suffix_of_identifier? hname)).subset hmem)
    have hopen : stripStart? ['('] (trimStart r) = none :=
      stripStart?_eq_none_of_mem List.mem_cons_self hr
    simp only [Option.bind_eq_bind, Option.bind_some, hopen]
    rfl

theorem kotlinNative_eq_none_of_notMem {t : List Char} (before : Option Char) (h : '(' ∉ t) :
    kotlinNative before t = none := by
  unfold kotlinNative
  cases hexternal : keyword? "external" before t with
  | none => rfl
  | some r =>
    rw [Option.bind_eq_bind, Option.bind_some]
    cases hfun : wordAndBlanks? "fun" r with
    | none => rfl
    | some s =>
      have hsuffix := (suffix_of_wordAndBlanks? hfun).trans (suffix_of_keyword? hexternal)
      rw [Option.bind_eq_bind, Option.bind_some,
        nameAndParams?_eq_none_of_notMem fun hmem => h (hsuffix.subset hmem)]
      rfl

theorem javaTail?_eq_none_of_notMem {t : List Char} (h : '(' ∉ t) : javaTail? t = none := by
  unfold javaTail?
  cases hret : run? isJavaTypeChar t with
  | none => rfl
  | some found =>
    obtain ⟨ret, r⟩ := found
    rw [Option.bind_eq_bind, Option.bind_some]
    cases hblanks : blanks? r with
    | none => simp only [hblanks]; rfl
    | some s =>
      have hsuffix := (suffix_of_blanks? hblanks).trans (suffix_of_run? hret)
      have hnone := nameAndParams?_eq_none_of_notMem fun hmem => h (hsuffix.subset hmem)
      simp only [hblanks, Option.bind_eq_bind, Option.bind_some, hnone]
      rfl

theorem javaNative_eq_none_of_notMem {t : List Char} (before : Option Char) (h : '(' ∉ t) :
    javaNative before t = none := by
  unfold javaNative
  cases hnative : keyword? "native" before t with
  | none => rfl
  | some r =>
    rw [Option.bind_eq_bind, Option.bind_some, List.findSome?_eq_none_iff]
    intro s hs
    have hsuffix := (suffix_of_mem_afterModifiers hs).trans (suffix_of_keyword? hnative)
    exact javaTail?_eq_none_of_notMem fun hmem => h (hsuffix.subset hmem)

/-! ## Native functions up to the end of their parameters -/

/-- A name and a parameter list end at a parenthesis in front of the one at hand, or at that one, or
they are not read at all; which of the three does not depend on the text behind it. -/
theorem nameAndParams?_cases (a : List Char) :
    (∃ found r, ∀ t, nameAndParams? (a ++ ')' :: t) = some (found, r ++ ')' :: t)) ∨
    (∃ found, ∀ t, nameAndParams? (a ++ ')' :: t) = some (found, t)) ∨
    ∀ t, nameAndParams? (a ++ ')' :: t) = none := by
  unfold nameAndParams?
  simp only [identifier?_append_cons (m := ')') (by decide)]
  cases hname : identifier? a with
  | none => exact .inr (.inr fun _ => rfl)
  | some found =>
    obtain ⟨name, r⟩ := found
    simp only [Option.map_some, Prod.map_apply, id_eq, Option.bind_eq_bind, Option.bind_some,
      trimStart_append_cons (m := ')') (by decide),
      stripStart?_append_cons (by decide : ')' ∉ ['('])]
    cases hopen : stripStart? ['('] (trimStart r) with
    | none => exact .inr (.inr fun _ => rfl)
    | some s =>
      simp only [Option.map_some, Option.bind_some]
      by_cases hclosed : ')' ∈ s
      · obtain ⟨params, rest, rfl, hparams⟩ := List.eq_append_cons_of_mem hclosed
        left
        refine ⟨(name, params), rest, fun t => ?_⟩
        rw [List.append_assoc, List.cons_append, upTo?_append_cons hparams]
        rfl
      · right; left
        refine ⟨(name, s), fun t => ?_⟩
        rw [upTo?_append_cons hclosed]
        rfl

/-- Whether a Kotlin function is read does not depend on the text behind a parenthesis. -/
theorem isSome_kotlinNative_append_cons (before : Option Char) (a t t' : List Char) :
    (kotlinNative before (a ++ ')' :: t)).isSome =
      (kotlinNative before (a ++ ')' :: t')).isSome := by
  unfold kotlinNative
  simp only [keyword?_append_cons (m := ')') (by decide) (by decide)
    (by decide : _ ∉ "external".toList)]
  cases keyword? "external" before a with
  | none => rfl
  | some a =>
    simp only [Option.map_some, Option.bind_eq_bind, Option.bind_some,
      wordAndBlanks?_append_cons (m := ')') (by decide) (by decide : _ ∉ "fun".toList)]
    cases wordAndBlanks? "fun" a with
    | none => rfl
    | some a =>
      simp only [Option.map_some, Option.bind_some]
      rcases nameAndParams?_cases a with ⟨found, r, hread⟩ | ⟨found, hread⟩ | hread
      · simp only [hread, Option.bind_some]
        split <;> split <;> rfl
      · simp only [hread, Option.bind_some]
        split <;> split <;> rfl
      · simp only [hread, Option.bind_none]

theorem javaModifier?_append_cons (a t : List Char) :
    javaModifier? (a ++ ')' :: t) = (javaModifier? a).map (· ++ ')' :: t) := by
  have hword : ∀ word : String, ')' ∉ word.toList →
      wordAndBlanks? word (a ++ ')' :: t) = (wordAndBlanks? word a).map (· ++ ')' :: t) :=
    fun word hw => wordAndBlanks?_append_cons (by decide) hw
  simp only [javaModifier?, hword "static" (by decide), hword "final" (by decide),
    hword "synchronized" (by decide), Option.orElse_eq_orElse, Option.orElse_eq_or, Option.map_or]

theorem afterModifiers_of_eq_none {t : List Char} (h : javaModifier? t = none) :
    afterModifiers t = [t] := by
  rw [afterModifiers]
  split
  next r hr => cases h.symm.trans hr
  next => rfl

theorem afterModifiers_of_eq_some {t r : List Char} (h : javaModifier? t = some r) :
    afterModifiers t = afterModifiers r ++ [t] := by
  rw [afterModifiers]
  split
  next r' hr => cases h.symm.trans hr; rfl
  next hr => cases h.symm.trans hr

theorem afterModifiers_append_cons (a t : List Char) :
    afterModifiers (a ++ ')' :: t) = (afterModifiers a).map (· ++ ')' :: t) := by
  fun_induction afterModifiers a with
  | case1 a r hr hlt ih =>
    rw [afterModifiers_of_eq_some (r := r ++ ')' :: t) (by rw [javaModifier?_append_cons, hr]; rfl),
      ih, List.map_append]
    rfl
  | case2 a hr =>
    rw [afterModifiers_of_eq_none (by rw [javaModifier?_append_cons, hr]; rfl)]
    rfl

theorem isSome_javaTail?_append_cons (a t t' : List Char) :
    (javaTail? (a ++ ')' :: ';' :: t)).isSome = (javaTail? (a ++ ')' :: ';' :: t')).isSome := by
  unfold javaTail?
  simp only [run?_append_cons (m := ')') (p := isJavaTypeChar) (by decide)]
  cases run? isJavaTypeChar a with
  | none => rfl
  | some found =>
    obtain ⟨ret, a⟩ := found
    simp only [Option.map_some, Prod.map_apply, id_eq, Option.bind_eq_bind, Option.bind_some,
      blanks?_append_cons (m := ')') (by decide)]
    cases blanks? a with
    | none => rfl
    | some a =>
      simp only [Option.map_some, Option.bind_some]
      rcases nameAndParams?_cases a with ⟨found, r, hread⟩ | ⟨found, hread⟩ | hread
      · simp only [hread, Option.bind_some, trimStart_append_cons (m := ')') (by decide),
          stripStart?_append_cons (by decide : ')' ∉ [';'])]
        cases stripStart? [';'] (trimStart r) with
        | none => rfl
        | some r => rfl
      · simp only [hread, Option.bind_some]
        rfl
      · simp only [hread, Option.bind_none]

/-- Whether a Java function is read does not depend on the text behind a parenthesis and a
semicolon. -/
theorem isSome_javaNative_append_cons (before : Option Char) (a t t' : List Char) :
    (javaNative before (a ++ ')' :: ';' :: t)).isSome =
      (javaNative before (a ++ ')' :: ';' :: t')).isSome := by
  unfold javaNative
  simp only [keyword?_append_cons (m := ')') (by decide) (by decide)
    (by decide : _ ∉ "native".toList)]
  cases keyword? "native" before a with
  | none => rfl
  | some a =>
    simp only [Option.map_some, Option.bind_eq_bind, Option.bind_some, afterModifiers_append_cons,
      List.findSome?_map, List.isSome_findSome?, Function.comp_apply]
    congr 1
    funext r
    exact isSome_javaTail?_append_cons r t t'

/-! ## Declarations -/

theorem kotlinResult?_eq_none {t : List Char} (h : t.head? ≠ some ':') : kotlinResult? t = none := by
  have hcolon : stripStart? [':'] t = none := by
    rw [Option.eq_none_iff_forall_ne_some]
    intro r hr
    rw [stripStart?_eq_some_iff] at hr
    exact h (by rw [hr]; rfl)
  rw [kotlinResult?, hcolon]
  rfl

theorem kotlinResult?_append {ret : List Char} (hret : ∀ c ∈ ret, isKotlinTypeChar c = true)
    (hblank : ∀ c ∈ ret, isBlank c = false) (hne : ret ≠ []) (t : List Char) :
    kotlinResult? (": ".toList ++ ret ++ '\n' :: t) = some (ret, '\n' :: t) := by
  have hcolon : stripStart? [':'] (": ".toList ++ ret ++ '\n' :: t) =
      some (' ' :: (ret ++ '\n' :: t)) :=
    stripStart?_eq_some_iff.mpr (by rw [List.append_assoc]; rfl)
  have htrim : trimStart (' ' :: (ret ++ '\n' :: t)) = ret ++ '\n' :: t :=
    trimStart_eq_self (isBlank_head?_append hblank hne _)
  rw [kotlinResult?, hcolon, Option.bind_eq_bind, Option.bind_some, htrim,
    run?_append_cons (by decide), run?_eq_some_self hret hne]
  rfl

section Declared

variable {before : Option Char} {name params t : List Char} (hb : before.any isWord = false)
  (hname : IsIdentifier name) (hparams : ')' ∉ params)
include hname

theorem javaTail?_identifier (t : List Char) : javaTail? (name ++ '(' :: t) = none := by
  have htype : ∀ c ∈ name, isJavaTypeChar c = true := fun c hc => by
    simp [isJavaTypeChar, hname.isWord c hc]
  unfold javaTail?
  rw [run?_append_cons (by decide), run?_eq_some_self htype hname.ne_nil]
  rfl

/-- No modifier stands in front of a type and a name, although the type may be spelled like one: then
it is given back. -/
theorem findSome?_afterModifiers {ret : List Char} (hret : ∀ c ∈ ret, isBlank c = false)
    (t : List Char) :
    (afterModifiers (ret ++ ' ' :: (name ++ '(' :: t))).findSome? javaTail? =
      javaTail? (ret ++ ' ' :: (name ++ '(' :: t)) := by
  have hnone : javaModifier? (name ++ '(' :: t) = none := by
    rcases javaModifier?_append (m := '(') hname.isBlank (by decide) t with hnone | ⟨hblank, -⟩
    · exact hnone
    · cases hblank
  have htrim : trimStart (name ++ '(' :: t) = name ++ '(' :: t :=
    trimStart_eq_self (isBlank_head?_append hname.isBlank hname.ne_nil _)
  rcases javaModifier?_append (m := ' ') hret (by decide) (name ++ '(' :: t) with
    hmodifier | ⟨-, hmodifier⟩
  · rw [afterModifiers_of_eq_none hmodifier, List.findSome?_singleton]
  · rw [htrim] at hmodifier
    rw [afterModifiers_of_eq_some hmodifier, afterModifiers_of_eq_none hnone, List.singleton_append,
      List.findSome?_cons, javaTail?_identifier hname, List.findSome?_singleton]

include hparams

theorem nameAndParams?_append :
    nameAndParams? (name ++ '(' :: params ++ ')' :: t) = some ((name, params), t) := by
  unfold nameAndParams?
  rw [List.append_assoc, List.cons_append, identifier?_append_cons (by decide),
    identifier?_eq_some_self hname]
  simp only [Option.map_some, Prod.map_apply, id_eq, List.nil_append, Option.bind_eq_bind,
    Option.bind_some]
  have hopen : stripStart? ['('] ('(' :: (params ++ ')' :: t)) = some (params ++ ')' :: t) :=
    stripStart?_eq_some_iff.mpr rfl
  rw [trimStart_cons (by decide), hopen, Option.bind_some, upTo?_append_cons hparams]
  rfl

include hb

theorem kotlinNative_append :
    kotlinNative before ("external fun ".toList ++ (name ++ '(' :: params ++ ')' :: t)) =
      match kotlinResult? (trimStart t) with
      | some (ret, t) => some (⟨name, params, some ret⟩, t)
      | none => some (⟨name, params, none⟩, trimStart t) := by
  have hcut : "external fun ".toList ++ (name ++ '(' :: params ++ ')' :: t) =
      "external".toList ++ ' ' :: ("fun".toList ++ ' ' :: (name ++ '(' :: params ++ ')' :: t)) := rfl
  have hexternal := keyword?_append_space "external" hb (by decide)
    (isBlank_head?_append (by decide : ∀ c ∈ "fun".toList, isBlank c = false) (by decide)
      (' ' :: (name ++ '(' :: params ++ ')' :: t)))
  have hfun : wordAndBlanks? "fun" ("fun".toList ++ ' ' :: (name ++ '(' :: params ++ ')' :: t)) =
      some (name ++ '(' :: params ++ ')' :: t) := by
    rw [List.append_assoc name]
    exact wordAndBlanks?_append_space (isBlank_head?_append hname.isBlank hname.ne_nil _)
  unfold kotlinNative
  rw [hcut, hexternal]
  simp only [Option.bind_eq_bind, Option.bind_some, hfun, nameAndParams?_append hname hparams]
  rcases kotlinResult? (trimStart t) with _ | ⟨ret, t⟩ <;> rfl

theorem kotlinNative_append_of_ne_colon (ht : (trimStart t).head? ≠ some ':') :
    kotlinNative before ("external fun ".toList ++ (name ++ '(' :: params ++ ')' :: t)) =
      some (⟨name, params, none⟩, trimStart t) := by
  rw [kotlinNative_append hb hname hparams, kotlinResult?_eq_none ht]

theorem kotlinNative_append_result {ret : List Char} (hret : ∀ c ∈ ret, isKotlinTypeChar c = true)
    (hblank : ∀ c ∈ ret, isBlank c = false) (hne : ret ≠ []) :
    kotlinNative before ("external fun ".toList ++
        (name ++ '(' :: params ++ ')' :: (": ".toList ++ ret ++ '\n' :: t))) =
      some (⟨name, params, some ret⟩, '\n' :: t) := by
  have htrim : trimStart (": ".toList ++ ret ++ '\n' :: t) = ": ".toList ++ ret ++ '\n' :: t :=
    trimStart_cons (by decide) _
  rw [kotlinNative_append hb hname hparams, htrim, kotlinResult?_append hret hblank hne]

theorem javaNative_append {ret : List Char} (hret : ∀ c ∈ ret, isJavaTypeChar c = true)
    (hblank : ∀ c ∈ ret, isBlank c = false) (hne : ret ≠ []) :
    javaNative before ("native ".toList ++
        (ret ++ ' ' :: (name ++ '(' :: params ++ ')' :: ';' :: t))) =
      some (⟨name, params, some ret⟩, t) := by
  have hcut : "native ".toList ++ (ret ++ ' ' :: (name ++ '(' :: params ++ ')' :: ';' :: t)) =
      "native".toList ++ ' ' :: (ret ++ ' ' :: (name ++ '(' :: params ++ ')' :: ';' :: t)) := rfl
  have hnative := keyword?_append_space "native" hb (by decide)
    (isBlank_head?_append hblank hne (' ' :: (name ++ '(' :: params ++ ')' :: ';' :: t)))
  have htrim : trimStart (name ++ '(' :: params ++ ')' :: ';' :: t) =
      name ++ '(' :: params ++ ')' :: ';' :: t := by
    rw [List.append_assoc]
    exact trimStart_eq_self (isBlank_head?_append hname.isBlank hname.ne_nil _)
  have hspace : blanks? (' ' :: (name ++ '(' :: params ++ ')' :: ';' :: t)) =
      some (name ++ '(' :: params ++ ')' :: ';' :: t) := congrArg some htrim
  have htail : javaTail? (ret ++ ' ' :: (name ++ '(' :: params ++ ')' :: ';' :: t)) =
      some (⟨name, params, some ret⟩, t) := by
    unfold javaTail?
    rw [run?_append_cons (by decide), run?_eq_some_self hret hne]
    simp only [Option.map_some, Prod.map_apply, id_eq, List.nil_append, Option.bind_eq_bind,
      Option.bind_some, hspace, nameAndParams?_append hname hparams]
    rfl
  unfold javaNative
  rw [hcut, hnative, Option.bind_eq_bind, Option.bind_some, List.append_assoc name,
    List.cons_append, findSome?_afterModifiers hname hblank]
  rw [List.append_assoc name, List.cons_append] at htail
  exact htail

end Declared

end JniLink.Host
