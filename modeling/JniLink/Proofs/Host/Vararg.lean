import JniLink.Proofs.Host.Signature

/-!
# Parameters that take any number of values

A Java parameter with three dots behind its type is read as an array of the type, and the way it is
written does not count: where the dots stand between the type and the name, how many times `final` is
put in front, and which blanks are used. It is read as the same parameter with brackets in the place of
the dots, wherever in the list it stands.

The reader puts a space behind the dots and looks at the words, so the proof goes the same way: the
dots behind the type are the first three dots of the parameter (`spaceDots_append`), and the words are
the modifiers, the type with or without its dots, and the name.
-/

namespace JniLink

open JniLink.Text JniLink.Host

namespace HostSource

/-! ## Three dots in a row -/

/-- The text in front of the first three dots is left as it is, unless it ends in a dot of its own. -/
theorem spaceDots_append {s : List Char} (hdots : ¬ "...".toList <:+: s)
    (hlast : s.getLast? ≠ some '.') (t : List Char) : spaceDots (s ++ t) = s ++ spaceDots t := by
  induction s with
  | nil => rfl
  | cons c s ih =>
    have hrest : ¬ "...".toList <:+: s := fun h => hdots (h.trans (List.suffix_cons c s).isInfix)
    have hrestLast : s.getLast? ≠ some '.' := by
      intro h
      apply hlast
      rw [List.getLast?_cons, h]
      rfl
    -- dots that reach over the end of the text would have to begin with its last character
    have hnot : ∀ r, c :: (s ++ t) ≠ '.' :: '.' :: '.' :: r := by
      intro r heq
      rw [List.cons.injEq] at heq
      obtain ⟨rfl, heq⟩ := heq
      match s, heq with
      | [], _ => exact hlast rfl
      | [d], heq =>
        rw [List.singleton_append, List.cons.injEq] at heq
        obtain ⟨rfl, -⟩ := heq
        exact hlast rfl
      | d :: e :: s, heq =>
        rw [List.cons_append, List.cons_append, List.cons.injEq, List.cons.injEq] at heq
        obtain ⟨rfl, rfl, -⟩ := heq
        exact hdots (List.prefix_append ['.', '.', '.'] s).isInfix
    rw [List.cons_append, spaceDots.eq_2 _ _ fun r hc hr => hnot r (by rw [hc, hr]), ih hrest hrestLast]
    rfl

theorem spaceDots_append_of_notMem {s : List Char} (h : '.' ∉ s) (t : List Char) :
    spaceDots (s ++ t) = s ++ spaceDots t := by
  apply spaceDots_append
  · intro hdots
    exact h (hdots.subset List.mem_cons_self)
  · intro hlast
    exact h (List.mem_of_getLast? hlast)

theorem spaceDots_eq_self_of_notMem {t : List Char} (h : '.' ∉ t) : spaceDots t = t :=
  spaceDots_eq_self (JvmType.dotsApart_of_notMem h)

/-! ## Parameter lists -/

section Lists

variable {language : Language} {method : List Char}

theorem filter_splitWhere_joinWith_append (front back : List (List Char)) :
    ((splitWhere (· == ',') (joinWith [','] (front ++ back))).map trim).filter (· ≠ []) =
      ((splitWhere (· == ',') (joinWith [','] front)).map trim).filter (· ≠ []) ++
        ((splitWhere (· == ',') (joinWith [','] back)).map trim).filter (· ≠ []) := by
  have hempty : ((splitWhere (· == ',') (joinWith [','] [])).map trim).filter (· ≠ []) = [] := rfl
  by_cases hfront : front = []
  · rw [hfront, hempty, List.nil_append, List.nil_append]
  by_cases hback : back = []
  · rw [hback, hempty, List.append_nil, List.append_nil]
  rw [joinWith_append hfront hback, List.append_assoc, List.singleton_append,
    splitWhere_append_cons rfl, List.map_append, List.filter_append]

/-- The parameters of a list are those of its front and those of its back. -/
theorem params_append (front back : List (List Char)) :
    params language method (joinWith [','] (front ++ back)) = do
      let before ← params language method (joinWith [','] front)
      let behind ← params language method (joinWith [','] back)
      return before ++ behind := by
  unfold params
  rw [filter_splitWhere_joinWith_append, List.mapM_append]

theorem params_singleton {param : List Char} (hcomma : ',' ∉ param) (hne : trim param ≠ []) :
    params language method param =
      (HostSource.param language method (trim param)).map ([·]) := by
  have hpiece : splitWhere (· == ',') param = [param] :=
    splitWhere_eq_singleton fun c hc => by simpa using ne_of_mem_of_not_mem hc hcomma
  unfold params
  rw [hpiece, List.map_singleton, List.filter_cons_of_pos (by simpa using hne), List.filter_nil,
    List.mapM_cons, List.mapM_nil]
  cases HostSource.param language method (trim param) <;> rfl

end Lists

/-! ## The ways to write the parameter -/

/-- A Java parameter that takes any number of values: blanks, any number of `final`, each with blanks
behind it, the type of a value, three dots with or without blanks on both sides, the name, and blanks.

Neither the type nor the name holds a blank or a comma. The dots of the type are told apart from those
that stand behind it, and an identifier has no dot. -/
structure Vararg where
  lead : List Char
  /-- The blanks behind each `final`. -/
  finals : List (List Char)
  type : List Char
  /-- The blanks between the type and the dots. -/
  before : List Char
  /-- The blanks between the dots and the name. -/
  behind : List Char
  name : List Char
  trail : List Char
  lead_blank : ∀ c ∈ lead, isBlank c = true
  finals_blank : ∀ gap ∈ finals, gap ≠ [] ∧ ∀ c ∈ gap, isBlank c = true
  before_blank : ∀ c ∈ before, isBlank c = true
  behind_blank : ∀ c ∈ behind, isBlank c = true
  trail_blank : ∀ c ∈ trail, isBlank c = true
  type_chars : ∀ c ∈ type, isBlank c = false ∧ c ≠ ','
  type_dots : ¬ "...".toList <:+: type
  type_last : type.getLast? ≠ some '.'
  name_chars : ∀ c ∈ name, isBlank c = false ∧ c ≠ ',' ∧ c ≠ '.'
  name_ne_nil : name ≠ []
  name_ne_final : name ≠ "final".toList

namespace Vararg

/-- The modifiers in front of the type. -/
def modifiers (finals : List (List Char)) : List Char :=
  finals.flatMap ("final".toList ++ ·)

/-- The parameter with a text between its type and its name, without the blanks around it. -/
def core (v : Vararg) (middle : List Char) : List Char :=
  modifiers v.finals ++ (v.type ++ (middle ++ v.name))

/-- The parameter with a text between its type and its name. -/
def spelled (v : Vararg) (middle : List Char) : List Char :=
  v.lead ++ (v.core middle ++ v.trail)

/-- The dots and the blanks on both sides of them. -/
def dots (v : Vararg) : List Char :=
  v.before ++ (['.', '.', '.'] ++ v.behind)

end Vararg

/-! ## The words of the parameter -/

/-- The words of a Java parameter that are no modifiers. -/
def paramWords (t : List Char) : List (List Char) :=
  (words t).filter (· ≠ "final".toList)

theorem paramWords_word {w : List Char} (h : ∀ c ∈ w, isBlank c = false) (hne : w ≠ [])
    (hfinal : w ≠ "final".toList) : paramWords w = [w] := by
  have hkept : [w].filter (· ≠ "final".toList) = [w] :=
    List.filter_cons_of_pos (decide_eq_true hfinal)
  rw [paramWords, words_eq_singleton h hne, hkept]

theorem paramWords_append_blanks {gap : List Char} (hne : gap ≠ [])
    (h : ∀ c ∈ gap, isBlank c = true) (s t : List Char) :
    paramWords (s ++ (gap ++ t)) = paramWords s ++ paramWords t := by
  rw [paramWords, words_append_blanks h hne, List.filter_append]
  rfl

theorem paramWords_modifiers {finals : List (List Char)}
    (h : ∀ gap ∈ finals, gap ≠ [] ∧ ∀ c ∈ gap, isBlank c = true) (t : List Char) :
    paramWords (Vararg.modifiers finals ++ t) = paramWords t := by
  induction finals with
  | nil => rfl
  | cons gap finals ih =>
    obtain ⟨hne, hgap⟩ := h gap List.mem_cons_self
    have hfinal : paramWords "final".toList = [] := by decide
    have hcons : Vararg.modifiers (gap :: finals) ++ t =
        "final".toList ++ (gap ++ (Vararg.modifiers finals ++ t)) := by
      simp only [Vararg.modifiers, List.flatMap_cons, List.append_assoc]
    rw [hcons, paramWords_append_blanks hne hgap, hfinal, List.nil_append]
    exact ih fun g hg => h g (List.mem_cons_of_mem gap hg)

theorem javaParam_of_paramWords_pair {method param type name : List Char}
    (h : paramWords (spaceDots param) = [type, name]) :
    javaParam method param = resolve .java method type := by
  rw [paramWords] at h
  rw [javaParam, h]

theorem javaParam_of_paramWords_dots {method param type name : List Char}
    (h : paramWords (spaceDots param) = [type, ['.', '.', '.'], name]) :
    javaParam method param = resolve .java method (type ++ ['.', '.', '.']) := by
  rw [paramWords] at h
  rw [javaParam, h]
  rfl

/-- A sign that is no letter of the modifier is not among the modifiers. -/
theorem notMem_modifiers {finals : List (List Char)}
    (h : ∀ gap ∈ finals, gap ≠ [] ∧ ∀ c ∈ gap, isBlank c = true) {c : Char}
    (hblank : isBlank c = false) (hfinal : c ∉ "final".toList) : c ∉ Vararg.modifiers finals := by
  intro hc
  obtain ⟨gap, hgap, hc⟩ := List.mem_flatMap.mp hc
  rcases List.mem_append.mp hc with hc | hc
  · exact hfinal hc
  · rw [(h gap hgap).2 c hc] at hblank
    cases hblank

theorem notMem_of_forall_isBlank {t : List Char} (h : ∀ c ∈ t, isBlank c = true) {c : Char}
    (hc : isBlank c = false) : c ∉ t := by
  intro hmem
  rw [h c hmem] at hc
  cases hc

namespace Vararg

variable (v : Vararg)

theorem isBlank_of_mem_type : ∀ c ∈ v.type, isBlank c = false :=
  fun c hc => (v.type_chars c hc).1

theorem isBlank_of_mem_name : ∀ c ∈ v.name, isBlank c = false :=
  fun c hc => (v.name_chars c hc).1

theorem dot_notMem_name : '.' ∉ v.name :=
  fun hdot => (v.name_chars _ hdot).2.2 rfl

theorem paramWords_name : paramWords v.name = [v.name] :=
  paramWords_word v.isBlank_of_mem_name v.name_ne_nil v.name_ne_final

theorem dot_notMem_modifiers : '.' ∉ modifiers v.finals :=
  notMem_modifiers v.finals_blank rfl (by decide)

/-- The dots of the parameter are the first three in a row, and no others follow. -/
theorem spaceDots_dots : spaceDots (v.core v.dots) =
    modifiers v.finals ++ (v.type ++ (v.before ++ (['.', '.', '.'] ++ (' ' :: v.behind ++ v.name)))) := by
  have hbehind : '.' ∉ v.behind ++ v.name := by
    rw [List.mem_append, not_or]
    exact ⟨notMem_of_forall_isBlank v.behind_blank rfl, v.dot_notMem_name⟩
  have hdots : spaceDots (['.', '.', '.'] ++ (v.behind ++ v.name)) =
      ['.', '.', '.'] ++ (' ' :: v.behind ++ v.name) := by
    change '.' :: '.' :: '.' :: ' ' :: spaceDots (v.behind ++ v.name) = _
    rw [spaceDots_eq_self_of_notMem hbehind]
    rfl
  rw [core, dots, spaceDots_append_of_notMem v.dot_notMem_modifiers,
    spaceDots_append v.type_dots v.type_last, List.append_assoc,
    spaceDots_append_of_notMem (notMem_of_forall_isBlank v.before_blank rfl), List.append_assoc, hdots]

theorem spaceDots_brackets {gap : List Char} (hgap : ∀ c ∈ gap, isBlank c = true) :
    spaceDots (v.core (['[', ']'] ++ gap)) =
      modifiers v.finals ++ (v.type ++ (['[', ']'] ++ (gap ++ v.name))) := by
  have hbehind : '.' ∉ ['[', ']'] ++ (gap ++ v.name) := by
    rw [List.mem_append, List.mem_append, not_or, not_or]
    exact ⟨by decide, notMem_of_forall_isBlank hgap rfl, v.dot_notMem_name⟩
  rw [core, spaceDots_append_of_notMem v.dot_notMem_modifiers,
    spaceDots_append v.type_dots v.type_last, List.append_assoc, spaceDots_eq_self_of_notMem hbehind]

/-! ## What is read -/

section Read

variable {v : Vararg} {t : JvmType} (ht : JvmType.ofJava? v.type = some t) (method : List Char)
include ht

theorem type_ne_nil : v.type ≠ [] := by
  intro hnil
  have hempty : JvmType.ofJava? [] = none := by
    rw [JvmType.ofJava?_eq_ofJavaName? (fun _ hc => absurd hc List.not_mem_nil)
      (JvmType.dotsApart_of_notMem List.not_mem_nil)]
    rfl
  rw [hnil, hempty] at ht
  cases ht

theorem type_ne_final : v.type ≠ "final".toList := by
  intro hfinal
  rw [hfinal, ofJava?_final] at ht
  cases ht

theorem resolve_append {suffix : List Char}
    (hread : JvmType.ofJava? (v.type ++ suffix) = (JvmType.ofJava? v.type).map .array) :
    resolve .java method (v.type ++ suffix) = .ok (.array t) := by
  rw [resolve, JvmType.ofSpelling?, hread, ht]
  rfl

/-- The type with brackets or dots at its end is one word, and not a modifier. -/
theorem paramWords_append {suffix : List Char} (hsuffix : ∀ c ∈ suffix, isBlank c = false)
    (hlast : ∃ c, suffix.getLast? = some c ∧ c ≠ 'l') :
    paramWords (v.type ++ suffix) = [v.type ++ suffix] := by
  obtain ⟨c, hc, hne⟩ := hlast
  apply paramWords_word
  · exact fun d hd => (List.mem_append.mp hd).elim (v.isBlank_of_mem_type d) (hsuffix d)
  · exact List.append_ne_nil_of_left_ne_nil (type_ne_nil ht) suffix
  · intro hfinal
    have hend : (v.type ++ suffix).getLast? = some 'l' := by
      rw [hfinal]
      rfl
    rw [List.getLast?_append, hc, Option.some_or, Option.some.injEq] at hend
    exact hne hend

theorem javaParam_dots : javaParam method (v.core v.dots) = .ok (.array t) := by
  have hbehind (s : List Char) :
      paramWords (s ++ (' ' :: v.behind ++ v.name)) = paramWords s ++ [v.name] := by
    rw [← v.paramWords_name]
    exact paramWords_append_blanks (List.cons_ne_nil ' ' v.behind)
      (List.forall_mem_cons.mpr ⟨rfl, v.behind_blank⟩) s v.name
  have hresolve : resolve .java method (v.type ++ ['.', '.', '.']) = .ok (.array t) :=
    resolve_append ht method (JvmType.ofJava?_dots v.isBlank_of_mem_type)
  by_cases hbefore : v.before = []
  · -- the dots are a part of the word that the type begins
    have hwords : paramWords (spaceDots (v.core v.dots)) = [v.type ++ ['.', '.', '.'], v.name] := by
      rw [spaceDots_dots, paramWords_modifiers v.finals_blank, hbefore, List.nil_append,
        ← List.append_assoc, hbehind, paramWords_append ht (by decide) ⟨'.', rfl, by decide⟩,
        List.singleton_append]
    rw [javaParam_of_paramWords_pair hwords, hresolve]
  · -- the dots are a word of their own, and are put back behind the type
    have htype : paramWords v.type = [v.type] :=
      paramWords_word v.isBlank_of_mem_type (type_ne_nil ht) (type_ne_final ht)
    have hdots : paramWords ['.', '.', '.'] = [['.', '.', '.']] := by decide
    have hwords : paramWords (spaceDots (v.core v.dots)) = [v.type, ['.', '.', '.'], v.name] := by
      rw [spaceDots_dots, paramWords_modifiers v.finals_blank,
        paramWords_append_blanks hbefore v.before_blank, hbehind, htype, hdots]
      rfl
    rw [javaParam_of_paramWords_dots hwords, hresolve]

theorem javaParam_brackets {gap : List Char} (hne : gap ≠ []) (hgap : ∀ c ∈ gap, isBlank c = true) :
    javaParam method (v.core (['[', ']'] ++ gap)) = .ok (.array t) := by
  have hwords : paramWords (spaceDots (v.core (['[', ']'] ++ gap))) =
      [v.type ++ ['[', ']'], v.name] := by
    rw [v.spaceDots_brackets hgap, paramWords_modifiers v.finals_blank, ← List.append_assoc,
      paramWords_append_blanks hne hgap, paramWords_append ht (by decide) ⟨']', rfl, by decide⟩,
      v.paramWords_name, List.singleton_append]
  rw [javaParam_of_paramWords_pair hwords]
  exact resolve_append ht method (JvmType.ofJava?_array v.isBlank_of_mem_type)

end Read

/-! ## The parameter in a list -/

theorem isBlank_head?_modifiers (finals : List (List Char)) :
    ∀ c ∈ (modifiers finals).head?, isBlank c = false := by
  intro c hc
  cases finals with
  | nil => cases hc
  | cons gap finals =>
    cases hc
    rfl

theorem core_ne_nil (middle : List Char) : v.core middle ≠ [] := by
  intro hnil
  simp only [core, List.append_eq_nil_iff] at hnil
  exact v.name_ne_nil hnil.2.2.2

/-- The parameter begins with a modifier or the type and ends with the name. -/
theorem trim_spelled (hne : v.type ≠ []) (middle : List Char) :
    trim (v.spelled middle) = v.core middle := by
  apply trim_between_blanks v.lead_blank v.trail_blank (v.core_ne_nil middle)
  · intro c hc
    rw [core, List.head?_append, Option.mem_def, Option.or_eq_some_iff] at hc
    rcases hc with hc | ⟨-, hc⟩
    · exact isBlank_head?_modifiers v.finals c hc
    · exact isBlank_head?_append v.isBlank_of_mem_type hne _ c hc
  · intro c hc
    rw [core, ← List.append_assoc, ← List.append_assoc,
      List.getLast?_append_of_ne_nil _ v.name_ne_nil] at hc
    exact v.isBlank_of_mem_name c (List.mem_of_getLast? hc)

theorem comma_notMem_spelled {middle : List Char} (hmiddle : ',' ∉ middle) :
    ',' ∉ v.spelled middle := by
  have hmodifiers : ',' ∉ modifiers v.finals := notMem_modifiers v.finals_blank rfl (by decide)
  have htype : ',' ∉ v.type := fun h => (v.type_chars _ h).2 rfl
  have hname : ',' ∉ v.name := fun h => (v.name_chars _ h).2.1 rfl
  simp only [spelled, core, List.mem_append, not_or]
  exact ⟨notMem_of_forall_isBlank v.lead_blank rfl, ⟨hmodifiers, htype, hmiddle, hname⟩,
    notMem_of_forall_isBlank v.trail_blank rfl⟩

variable {v} in
/-- What the parameter is read as stands between what is read in front of it and behind it. -/
theorem params_spelled {t : JvmType} {method middle : List Char} (hne : v.type ≠ [])
    (hmiddle : ',' ∉ middle) (hread : javaParam method (v.core middle) = .ok t)
    (front back : List (List Char)) :
    params .java method (joinWith [','] (front ++ v.spelled middle :: back)) = do
      let before ← params .java method (joinWith [','] front)
      let behind ← params .java method (joinWith [','] back)
      return before ++ t :: behind := by
  have htrim : trim (v.spelled middle) = v.core middle := v.trim_spelled hne middle
  have hparam : params .java method (v.spelled middle) = .ok [t] := by
    rw [params_singleton (v.comma_notMem_spelled hmiddle) (by rw [htrim]; exact v.core_ne_nil middle),
      htrim, HostSource.param, hread]
    rfl
  have hback : params .java method (joinWith [','] (v.spelled middle :: back)) = do
      let behind ← params .java method (joinWith [','] back)
      return t :: behind := by
    change params .java method (joinWith [','] ([v.spelled middle] ++ back)) = _
    rw [params_append, joinWith, hparam]
    rfl
  rw [params_append, hback]
  simp only [bind_assoc, pure_bind]

end Vararg

/-- A parameter with dots is read as an array of its type, wherever it stands in the list, and as the
same parameter with brackets behind the type. -/
theorem params_vararg (v : Vararg) {t : JvmType} (ht : JvmType.ofJava? v.type = some t)
    {gap : List Char} (hne : gap ≠ []) (hgap : ∀ c ∈ gap, isBlank c = true) (method : List Char)
    (front back : List (List Char)) :
    let read : Except HostError (List JvmType) := do
      let before ← params .java method (joinWith [','] front)
      let behind ← params .java method (joinWith [','] back)
      return before ++ .array t :: behind
    params .java method (joinWith [','] (front ++ v.spelled v.dots :: back)) = read ∧
      params .java method (joinWith [','] (front ++ v.spelled (['[', ']'] ++ gap) :: back)) = read := by
  have htype : v.type ≠ [] := Vararg.type_ne_nil ht
  have hdots : ',' ∉ v.dots := by
    simp only [Vararg.dots, List.mem_append, not_or]
    exact ⟨notMem_of_forall_isBlank v.before_blank rfl, by decide,
      notMem_of_forall_isBlank v.behind_blank rfl⟩
  have hbrackets : ',' ∉ ['[', ']'] ++ gap := by
    rw [List.mem_append, not_or]
    exact ⟨by decide, notMem_of_forall_isBlank hgap rfl⟩
  exact ⟨Vararg.params_spelled htype hdots (Vararg.javaParam_dots ht method) front back,
    Vararg.params_spelled htype hbrackets (Vararg.javaParam_brackets ht method hne hgap) front back⟩

/-- Two modifiers, a class in a package with an empty part, two arrays in the type, and a line feed
between the dots and the name. -/
theorem params_vararg_modifiers :
    let list := "int a,final\tfinal  p..T$[][]...\nargs , String s".toList
    let bracketed := "int a,final\tfinal  p..T$[][][] args , String s".toList
    let types : List JvmType :=
      [.primitive .int, .array (.array (.array (.object "p//T$"))), .string]
    params .java "f".toList list = .ok types ∧ params .java "f".toList bracketed = .ok types := by
  intro list bracketed types
  let v : Vararg := {
    lead := [], finals := [['\t'], [' ', ' ']], type := "p..T$[][]".toList, before := []
    behind := ['\n'], name := "args".toList, trail := [' ']
    lead_blank := by decide, finals_blank := by decide, before_blank := by decide
    behind_blank := by decide, trail_blank := by decide, type_chars := by decide
    type_dots := by decide, type_last := by decide, name_chars := by decide
    name_ne_nil := by decide, name_ne_final := by decide }
  have ht : JvmType.ofJava? v.type = some (.array (.array (.object "p//T$"))) := by decide +kernel
  have hne : [' '] ≠ [] := by decide
  have hgap : ∀ c ∈ [' '], isBlank c = true := by decide
  obtain ⟨hdots, hbrackets⟩ :=
    params_vararg v ht hne hgap "f".toList ["int a".toList] [" String s".toList]
  have hfront : params .java "f".toList (joinWith [','] ["int a".toList]) = .ok [.primitive .int] := by
    decide +kernel
  have hback : params .java "f".toList (joinWith [','] [" String s".toList]) = .ok [.string] := by
    decide +kernel
  rw [hfront, hback] at hdots hbrackets
  have hlist : list = joinWith [','] (["int a".toList] ++ v.spelled v.dots :: [" String s".toList]) := by
    decide +kernel
  have hbracketed : bracketed =
      joinWith [','] (["int a".toList] ++ v.spelled (['[', ']'] ++ [' ']) :: [" String s".toList]) := by
    decide +kernel
  exact ⟨by rw [hlist, hdots]; rfl, by rw [hbracketed, hbrackets]; rfl⟩

end HostSource

end JniLink
